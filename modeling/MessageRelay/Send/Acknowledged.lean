import MessageRelay.Send.Live

/-! What a live send's acknowledgment says: whether the store holds, or held until its recipient acknowledged it,
a row of that sender, recipient, box and message. A duplicate is acknowledged whoever's row has the id. -/

namespace MessageRelay.Send
open MessageRelay.Library MessageRelay.Session

/-- What a send asks the relay to store. -/
structure Content where
  messageId : String
  recipient : String
  messageBox : String
  sender : String
  body : Value

/-- A table has a row of the content, with whatever payment beside its message. -/
def World.holdsAt (w : World) (place : Place) (x : Content) : Prop :=
  match place with
  | .d1 => ∃ r, w.db.row? x.messageId = some r ∧ r.recipient = x.recipient ∧ r.sender = x.sender ∧
      (∃ paid, r.body = storedBody x.body paid) ∧
      Database.findMessageBox w.db x.recipient x.messageBox = some r.messageBoxId
  | .hub => ∃ r, (w.hubs x.recipient).find? x.messageId = some r ∧ r.sender = x.sender ∧
      r.messageBox = x.messageBox ∧ ∃ paid, r.body = some (storedBody x.body paid)

/-- No row and no box is lost or changed. -/
structure Grows (w w' : World) : Prop where
  rows : ∀ id r, w.db.row? id = some r → w'.db.row? id = some r
  boxes : ∀ recipient box id, Database.findMessageBox w.db recipient box = some id →
    Database.findMessageBox w'.db recipient box = some id
  hubs : ∀ recipient id r, (w.hubs recipient).find? id = some r → (w'.hubs recipient).find? id = some r

theorem Grows.refl (w : World) : Grows w w := ⟨fun _ _ found => found, fun _ _ _ found => found, fun _ _ _ found => found⟩

theorem Grows.trans {w w' w'' : World} (first : Grows w w') (second : Grows w' w'') : Grows w w'' :=
  ⟨fun id r found => second.rows id r (first.rows id r found),
    fun recipient box id found => second.boxes recipient box id (first.boxes recipient box id found),
    fun recipient id r found => second.hubs recipient id r (first.hubs recipient id r found)⟩

theorem World.holdsAt.grow {w w' : World} {place : Place} {x : Content} (holds : w.holdsAt place x)
    (grows : Grows w w') : w'.holdsAt place x := by
  cases place with
  | d1 =>
    obtain ⟨r, found, toward, from', text, box⟩ := holds
    exact ⟨r, grows.rows _ r found, toward, from', text, grows.boxes _ _ _ box⟩
  | hub =>
    obtain ⟨r, found, from', box, text⟩ := holds
    exact ⟨r, grows.hubs _ _ r found, from', box, text⟩

/-- The boxes of a write that may be tried several times are only added to. -/
theorem boxes_withD1WriteRetry (fate : WriteFate) (recipient messageBox : String) (db : Database.Store)
    (owner box : String) (id : Nat) (found : Database.findMessageBox db owner box = some id) :
    Database.findMessageBox (withD1WriteRetry (fun db => ((), Database.insertBox db recipient messageBox)) fate db).2
      owner box = some id := by
  have kept (db : Database.Store) (found : Database.findMessageBox db owner box = some id) :=
    Database.findMessageBox_insertBox_of_some found recipient messageBox
  have tries (lost : List Bool) (db : Database.Store) (found : Database.findMessageBox db owner box = some id) :
      Database.findMessageBox (lost.foldl (fun db landed =>
        if landed then ((fun db => ((), Database.insertBox db recipient messageBox)) db).2 else db) db) owner box =
          some id := by
    induction lost generalizing db with
    | nil => exact found
    | cons landed rest ih =>
      rw [List.foldl_cons]
      apply ih
      cases landed with
      | false => exact found
      | true => exact kept db found
  have early := tries fate.early db found
  unfold withD1WriteRetry
  simp only
  split
  · exact kept _ early
  · split
    · exact kept _ early
    · exact early

/-- A box found or made is there, and none is lost. -/
theorem getOrCreateMessageBox_spec (fate : BoxFate) (recipient messageBox : String) (db : Database.Store) :
    let out := getOrCreateMessageBox fate recipient messageBox db
    (∀ owner box id, Database.findMessageBox db owner box = some id →
      Database.findMessageBox out.2 owner box = some id) ∧
    ∀ id, out.1 = .ok id → Database.findMessageBox out.2 recipient messageBox = some id := by
  intro out
  have kept := boxes_withD1WriteRetry fate.write recipient messageBox db
  simp only [out, getOrCreateMessageBox]
  split
  · exact ⟨fun _ _ _ found => found, fun id done => by cases done⟩
  · split
    · rename_i known
      refine ⟨fun _ _ _ found => found, fun id done => ?_⟩
      cases done
      exact known
    · generalize withD1WriteRetry (fun db => ((), Database.insertBox db recipient messageBox)) fate.write db =
        wrote at kept
      obtain ⟨answer, db'⟩ := wrote
      cases answer with
      | error e => exact ⟨kept, fun id done => by cases done⟩
      | ok done =>
        simp only
        split
        · exact ⟨kept, fun id done => by cases done⟩
        · rename_i found
          refine ⟨kept, fun id done => ?_⟩
          cases done
          exact found
        · exact ⟨kept, fun id done => by cases done⟩

theorem grows_boxInD1 (w : World) (weather : Weather) (recipient messageBox : String) :
    Grows w (w.boxInD1 weather recipient messageBox).2 ∧ ∀ id, (w.boxInD1 weather recipient messageBox).1 = .ok id →
      Database.findMessageBox (w.boxInD1 weather recipient messageBox).2.db recipient messageBox = some id := by
  have spec := getOrCreateMessageBox_spec (weather.box recipient) recipient messageBox w.db
  have messages := messages_getOrCreateMessageBox (weather.box recipient) recipient messageBox w.db
  refine ⟨⟨?_, spec.1, fun _ _ _ found => found⟩, spec.2⟩
  intro id r found
  change (getOrCreateMessageBox (weather.box recipient) recipient messageBox w.db).2.messages.find? id = some r
  rw [messages]
  exact found

/-- A D1 insert loses nothing, and the row it writes where the id was free is its own. -/
theorem grows_insertInD1 (w : World) (weather : Weather) (messageId : String) (boxId : Nat)
    (sender recipient body : String) (beefKey : Option String) :
    let out := w.insertInD1 weather messageId boxId sender recipient body beefKey
    Grows w out.2 ∧ (w.db.row? messageId = none → ∀ r, out.2.db.row? messageId = some r →
      r = Database.paidRow messageId boxId sender recipient body beefKey weather.nowMs) := by
  intro out
  have spec := (insertMessage_spec (weather.insert messageId)
    (Database.paidRow messageId boxId sender recipient body beefKey weather.nowMs) w.db).1
  have rows (i : String) : (insertIgnoreMessage (Database.paidRow messageId boxId sender recipient body beefKey
      weather.nowMs) w.db).2.row? i = if messageId = i then some ((w.db.row? i).getD
        (Database.paidRow messageId boxId sender recipient body beefKey weather.nowMs)) else w.db.row? i :=
    row?_insertIgnoreMessage i
  have boxes : (insertIgnoreMessage (Database.paidRow messageId boxId sender recipient body beefKey
      weather.nowMs) w.db).2.boxes = w.db.boxes := by
    unfold insertIgnoreMessage
    split <;> rfl
  change Grows w { w with db := (insertMessage (weather.insert messageId) _ w.db).2 } ∧ (_ → ∀ r,
    (insertMessage (weather.insert messageId) _ w.db).2.row? messageId = some r → _)
  rcases spec with same | same
  · rw [same]
    refine ⟨Grows.refl w, fun free r found => ?_⟩
    rw [free] at found
    cases found
  · rw [same]
    refine ⟨⟨fun id r found => ?_, fun owner box id found => ?_, fun _ _ _ found => found⟩, fun free r found => ?_⟩
    · change (insertIgnoreMessage _ w.db).2.row? id = some r
      rw [rows]
      split
      · rw [found, Option.getD_some]
      · exact found
    · change ((insertIgnoreMessage _ w.db).2.boxes.find? (owner, box)).map _ = _
      rw [boxes]
      exact found
    · rw [rows, if_pos rfl, free, Option.getD_none, Option.some.injEq] at found
      exact found.symm

theorem grows_setHub {w : World} {recipient : String} {hub : Mailbox.Store}
    (kept : ∀ id r, (w.hubs recipient).find? id = some r → hub.find? id = some r) : Grows w (w.setHub recipient hub) := by
  refine ⟨fun _ _ found => found, fun _ _ _ found => found, fun owner id r found => ?_⟩
  by_cases own : owner = recipient
  · subst own
    simp only [World.setHub, Function.update_self]
    exact kept id r found
  · simp only [World.setHub, Function.update_of_ne own]
    exact found

/-- A hub insert loses nothing, and the row it writes where the id was free is its own. -/
theorem grows_insertOnHub (w : World) (fate : HopFate) (row : Mailbox.NewRow) (recipient : String) (nowMs : Nat) :
    let out := insertOnHub fate row recipient nowMs (w.hubs recipient)
    Grows w (w.setHub recipient out.2) ∧ ((w.hubs recipient).find? row.messageId = none →
      ∀ r, out.2.find? row.messageId = some r → r = Mailbox.freshRow (w.hubs recipient) row nowMs) := by
  intro out
  have spec : out.2 = w.hubs recipient ∨
      (w.hubs recipient).find? row.messageId = none ∧ out.2 = (w.hubs recipient).append row nowMs :=
    (insertOnHub_spec fate row recipient nowMs (w.hubs recipient)).1
  rcases spec with same | ⟨free, same⟩
  · rw [same]
    refine ⟨grows_setHub (fun _ _ found => found), fun free r found => ?_⟩
    rw [free] at found
    cases found
  · rw [same]
    refine ⟨grows_setHub (fun id r found => ?_), fun _ r found => ?_⟩
    · rw [Mailbox.Store.find?_append free]
      split
      · rename_i same
        rw [← same, free] at found
        cases found
      · exact found
    · rw [Mailbox.Store.find?_append free, if_pos rfl, Option.some.injEq] at found
      exact found.symm

/-- An insert of a send loses nothing, and where the id was free and is not any more the content is held. -/
theorem grows_insertMessage (path : StorePath) (weather : Weather) (w : World) (x : Content) (boxId : Nat)
    (paid : Option (Value × Value)) (beefKey : Option String) :
    let out := (storeOf path weather x.messageBox).insertMessage x.messageId boxId x.sender x.recipient
      (storedBody x.body paid) beefKey w
    Grows w out.2 ∧ ((path = .d1 → Database.findMessageBox w.db x.recipient x.messageBox = some boxId) →
      w.rowAt (placeOf path beefKey) x.recipient x.messageId = none →
      out.2.rowAt (placeOf path beefKey) x.recipient x.messageId ≠ none → out.2.holdsAt (placeOf path beefKey) x) := by
  have inD1 (w : World) (boxId : Nat) :
      let out := w.insertInD1 weather x.messageId boxId x.sender x.recipient (storedBody x.body paid) beefKey
      Grows w out.2 ∧ (Database.findMessageBox w.db x.recipient x.messageBox = some boxId →
        w.rowAt .d1 x.recipient x.messageId = none → out.2.rowAt .d1 x.recipient x.messageId ≠ none →
        out.2.holdsAt .d1 x) := by
    intro out
    obtain ⟨grows, own⟩ :=
      grows_insertInD1 w weather x.messageId boxId x.sender x.recipient (storedBody x.body paid) beefKey
    refine ⟨grows, fun boxed free there => ?_⟩
    have absent : w.db.row? x.messageId = none := Option.map_eq_none_iff.mp free
    obtain ⟨r, found⟩ : ∃ r, out.2.db.row? x.messageId = some r :=
      Option.ne_none_iff_exists'.mp (fun none => there (Option.map_eq_none_iff.mpr none))
    have same := own absent r found
    refine ⟨r, found, ?_, ?_, ⟨paid, ?_⟩, ?_⟩
    · rw [same]
      rfl
    · rw [same]
      rfl
    · rw [same]
      rfl
    · rw [same]
      exact grows.boxes _ _ _ boxed
  cases path with
  | d1 =>
    obtain ⟨grows, own⟩ := inD1 w boxId
    exact ⟨grows, fun boxed => own (boxed rfl)⟩
  | mailbox =>
    simp only [storeOf, World.insertInMailbox, placeOf]
    by_cases keyed : beefKey.isSome = true
    · simp only [if_pos keyed]
      obtain ⟨grown, made⟩ := grows_boxInD1 w weather x.recipient x.messageBox
      have rows := rowAt_boxInD1 w weather x.recipient x.messageBox
      generalize w.boxInD1 weather x.recipient x.messageBox = box at grown made rows ⊢
      obtain ⟨answer, w'⟩ := box
      cases answer with
      | error e =>
        refine ⟨grown, fun _ free there => absurd ?_ there⟩
        rw [rows]
        exact free
      | ok id =>
        obtain ⟨grows, own⟩ := inD1 w' id
        refine ⟨grown.trans grows, fun _ free there => own (made id rfl) ?_ there⟩
        rw [rows]
        exact free
    · simp only [if_neg keyed]
      obtain ⟨grows, own⟩ := grows_insertOnHub w (weather.hop x.messageId)
        ⟨x.messageId, x.messageBox, x.sender, storedBody x.body paid⟩ x.recipient weather.nowMs
      refine ⟨grows, fun _ free there => ?_⟩
      have absent : (w.hubs x.recipient).find? x.messageId = none := Option.map_eq_none_iff.mp free
      rw [rowAt_setHub, if_pos ⟨rfl, rfl⟩] at there
      obtain ⟨r, found⟩ := Option.ne_none_iff_exists'.mp (fun none => there (Option.map_eq_none_iff.mpr none))
      have same := own absent r found
      refine ⟨r, ?_, ?_, ?_, paid, ?_⟩
      · simpa only [World.setHub, Function.update_self] using found
      · rw [same]
        rfl
      · rw [same]
        rfl
      · rw [same]
        rfl

/-- Finding a row's box loses nothing, and it is the one the row is written under. -/
theorem grows_boxOf (path : StorePath) (weather : Weather) (messageBox : String) (ctx : Context) (w : World)
    (known : path = .d1 → ctx.boxId = Database.findMessageBox w.db ctx.recipient messageBox) :
    let out := boxOf (storeOf path weather messageBox) messageBox ctx w
    Grows w out.2 ∧ ∀ id, out.1 = .ok id → path = .d1 →
      Database.findMessageBox out.2.db ctx.recipient messageBox = some id := by
  intro out
  simp only [out, boxOf]
  cases found : ctx.boxId with
  | some id =>
    refine ⟨Grows.refl w, fun id' done d1 => ?_⟩
    cases done
    rw [← known d1, found]
  | none =>
    cases path with
    | mailbox => exact ⟨Grows.refl w, fun _ _ no => by cases no⟩
    | d1 =>
      obtain ⟨grows, made⟩ := grows_boxInD1 w weather ctx.recipient messageBox
      exact ⟨grows, fun id done _ => made id done⟩

theorem grows_insertRows (path : StorePath) (weather : Weather) (writing : Writing) (contexts : List Context)
    (progress : Progress) (w : World) :
    Grows w (insertRows (storeOf path weather writing.messageBox) writing contexts progress w).2.2 := by
  have boxing (ctx : Context) (w : World) :
      Grows w (boxOf (storeOf path weather writing.messageBox) writing.messageBox ctx w).2 := by
    unfold boxOf
    split
    · exact Grows.refl w
    · cases path with
      | mailbox => exact Grows.refl w
      | d1 => exact (grows_boxInD1 w weather ctx.recipient writing.messageBox).1
  have inserting (ctx : Context) (boxId : Nat) (w : World) :
      Grows w ((storeOf path weather writing.messageBox).insertMessage ctx.messageId boxId writing.sender ctx.recipient
        (writing.rowBody ctx.recipient) (writing.beefKey ctx.recipient) w).2 :=
    (grows_insertMessage path weather w ⟨ctx.messageId, ctx.recipient, writing.messageBox, writing.sender, writing.body⟩
      boxId (writing.paid ctx.recipient) (writing.beefKey ctx.recipient)).1
  induction contexts generalizing progress w with
  | nil => exact Grows.refl w
  | cons ctx rest ih =>
    have boxed := boxing ctx w
    simp only [insertRows]
    generalize boxOf (storeOf path weather writing.messageBox) writing.messageBox ctx w = box at boxed ⊢
    obtain ⟨boxAnswer, w₁⟩ := box
    cases boxAnswer with
    | error e => exact boxed
    | ok boxId =>
      have inserted := boxed.trans (inserting ctx boxId w₁)
      simp only at inserted ⊢
      generalize (storeOf path weather writing.messageBox).insertMessage ctx.messageId boxId writing.sender
        ctx.recipient (writing.rowBody ctx.recipient) (writing.beefKey ctx.recipient) w₁ = out at inserted ⊢
      obtain ⟨answer, w₂⟩ := out
      cases answer with
      | error e => exact inserted
      | ok result =>
        cases result with
        | stored => exact inserted.trans (ih (progress.stored writing ctx) w₂)
        | duplicate => exact inserted
        | full body => exact inserted

theorem grows_processSend (path : StorePath) (weather : Weather) (request : ValidatedSendMessage) (sender : String)
    (w : World) : Grows w (processSend path weather request sender w).2.2 := by
  have read := prepare_storeOf path weather request sender w
  simp only [processSend, storeRows]
  generalize prepare (storeOf path weather request.messageBox) request sender w = prepared at read ⊢
  obtain ⟨result, w'⟩ := prepared
  obtain ⟨same, ready⟩ := read
  simp only at same
  subst same
  cases result with
  | error outcome => exact Grows.refl w'
  | ok made =>
    obtain ⟨writing, contexts⟩ := made
    obtain ⟨-, box, -⟩ := ready writing contexts rfl
    have grows := grows_insertRows path weather writing contexts ⟨[], 0, ⟨[], []⟩⟩ w'
    rw [box] at grows
    exact grows

/-- A single recipient's content is held once its row is where the id was free before. -/
theorem holdsAt_insertRows (path : StorePath) (weather : Weather) (writing : Writing) (ctx : Context)
    (progress : Progress) (w : World)
    (known : path = .d1 → ctx.boxId = Database.findMessageBox w.db ctx.recipient writing.messageBox)
    (free : w.rowAt (ctx.place path writing) ctx.recipient ctx.messageId = none)
    (there : (insertRows (storeOf path weather writing.messageBox) writing [ctx] progress w).2.2.rowAt
      (ctx.place path writing) ctx.recipient ctx.messageId ≠ none) :
    (insertRows (storeOf path weather writing.messageBox) writing [ctx] progress w).2.2.holdsAt (ctx.place path writing)
      ⟨ctx.messageId, ctx.recipient, writing.messageBox, writing.sender, writing.body⟩ := by
  obtain ⟨-, made⟩ := grows_boxOf path weather writing.messageBox ctx w known
  have boxed := rowAt_boxOf path weather writing.messageBox writing.messageBox ctx w
  simp only [insertRows] at there ⊢
  generalize boxOf (storeOf path weather writing.messageBox) writing.messageBox ctx w = box at made boxed there ⊢
  obtain ⟨boxAnswer, w₁⟩ := box
  cases boxAnswer with
  | error e =>
    apply absurd _ there
    change w₁.rowAt _ _ _ = none
    rw [boxed]
    exact free
  | ok boxId =>
    obtain ⟨-, own⟩ := grows_insertMessage path weather w₁
      ⟨ctx.messageId, ctx.recipient, writing.messageBox, writing.sender, writing.body⟩ boxId
      (writing.paid ctx.recipient) (writing.beefKey ctx.recipient)
    have holds := own (made boxId rfl) (by rw [boxed]; exact free)
    -- Whatever the insert answers, the loop ends in the world it left.
    change ((storeOf path weather writing.messageBox).insertMessage ctx.messageId boxId writing.sender ctx.recipient
      (writing.rowBody ctx.recipient) (writing.beefKey ctx.recipient) w₁).2.rowAt (ctx.place path writing) ctx.recipient
        ctx.messageId ≠ none → _ at holds
    simp only at there ⊢
    generalize inserted : (storeOf path weather writing.messageBox).insertMessage ctx.messageId boxId writing.sender
      ctx.recipient (writing.rowBody ctx.recipient) (writing.beefKey ctx.recipient) w₁ = out at holds there ⊢
    obtain ⟨answer, w₂⟩ := out
    cases answer with
    | error e => exact (inserted ▸ holds) there
    | ok result => cases result <;> exact (inserted ▸ holds) there

/-- What passes the event's checks goes to its one recipient. -/
theorem validateWsSend_ok {sender room : String} {message : ClientSendMessage} {payment : Option Value}
    {validated : ValidatedSendMessage} (accepted : validateWsSend sender room message payment = .ok validated) :
    validated.recipients = [(message.recipient, message.messageId)] ∧ validated.body = message.body := by
  unfold validateWsSend at accepted
  split at accepted
  · cases accepted
  · split at accepted
    · cases accepted
    · split at accepted
      · cases accepted
      · iterate 3 (split at accepted; · cases accepted)
        cases accepted
        exact ⟨rfl, rfl⟩

def OutboundEvent.isAck (event : OutboundEvent) : Bool := event.eventName = "sendMessageAck"

/-- Only a success or a duplicate is acknowledged. -/
theorem answers_of_ack {room : String} {outcome : SendOutcome}
    (acked : (outcomeToOutbound room outcome).any OutboundEvent.isAck = true) : outcome.answers = true := by
  cases outcome with
  | success | duplicateMessage => rfl
  | validationError | blockedRecipients | paymentFailed | internalError | transientError =>
    simp [outcomeToOutbound, messageFailed, OutboundEvent.isAck] at acked

/-- The rows under a send's id where it goes are the send's own. -/
def OwnRow (path : StorePath) (weather : Weather) (request : ValidatedSendMessage) (x : Content) (w : World) : Prop :=
  ∀ writing contexts,
    (prepare (storeOf path weather request.messageBox) request x.sender w).1 = .ok (writing, contexts) →
    w.rowAt (placeOf path (writing.beefKey x.recipient)) x.recipient x.messageId ≠ none →
      w.holdsAt (placeOf path (writing.beefKey x.recipient)) x

/-- A single recipient's send that is answered for good left its content held, where the row already under its id
was its own. -/
theorem holdsAt_of_answers {path : StorePath} {weather : Weather} {request : ValidatedSendMessage} {x : Content}
    {w : World} (single : request.recipients = [(x.recipient, x.messageId)]) (box : request.messageBox = x.messageBox)
    (text : request.body = x.body) (own : OwnRow path weather request x w)
    (answers : (processSend path weather request x.sender w).1.answers = true) :
    ∃ place, (processSend path weather request x.sender w).2.2.holdsAt place x := by
  have distinct : (request.recipients.map Prod.snd).Nodup := by simp [single]
  rcases processSend_cases weather w distinct with ⟨unanswered, -⟩ | ⟨writing, contexts, ready, -, pairs, looped⟩
  · rw [unanswered] at answers
    cases answers
  · obtain ⟨from', inBox, message, -, boxes⟩ := (prepare_storeOf path weather request x.sender w).2 writing contexts ready
    rw [single] at pairs
    obtain ⟨ctx, whole, same⟩ := List.map_eq_singleton_iff.mp pairs
    subst whole
    obtain ⟨toward, id⟩ := Prod.mk.injEq .. ▸ same
    have content : (⟨ctx.messageId, ctx.recipient, writing.messageBox, writing.sender, writing.body⟩ : Content) = x := by
      rw [id, toward, inBox, from', message, box, text]
    refine ⟨ctx.place path writing, ?_⟩
    by_cases free : w.rowAt (ctx.place path writing) ctx.recipient ctx.messageId = none
    · -- The row is new.
      have there : (processSend path weather request x.sender w).2.2.rowAt (ctx.place path writing) ctx.recipient
          ctx.messageId ≠ none := by
        cases outcome : (processSend path weather request x.sender w).1 with
        | success results =>
          obtain ⟨held, found, -⟩ := looped.success results outcome ctx (List.mem_singleton.mpr rfl)
          simp [found]
        | duplicateMessage r i =>
          obtain ⟨other, member, held, found, -⟩ := looped.duplicate r i outcome
          rw [List.mem_singleton.mp member, free] at found
          cases found
        | validationError | blockedRecipients | paymentFailed | internalError | transientError =>
          rw [outcome] at answers
          cases answers
      have ran : (processSend path weather request x.sender w).2.2 =
          (insertRows (storeOf path weather writing.messageBox) writing [ctx] ⟨[], 0, ⟨[], []⟩⟩ w).2.2 := by
        have unchanged := (prepare_storeOf path weather request x.sender w).1
        simp only [processSend, storeRows]
        generalize prepare (storeOf path weather request.messageBox) request x.sender w = prepared at ready unchanged ⊢
        obtain ⟨result, w'⟩ := prepared
        simp only at ready unchanged
        subst ready unchanged
        rw [inBox]
      rw [ran] at there ⊢
      have holds := holdsAt_insertRows path weather writing ctx ⟨[], 0, ⟨[], []⟩⟩ w
        (fun d1 => inBox ▸ boxes ctx (List.mem_singleton.mpr rfl) d1) free there
      rwa [content] at holds
    · rw [toward, id] at free
      have place : ctx.place path writing = placeOf path (writing.beefKey x.recipient) := by
        rw [Context.place, toward]
      rw [place] at free ⊢
      exact (own writing [ctx] ready free).grow (grows_processSend path weather request x.sender w)

section Run
variable (path : StorePath) (prefixes : List String)

/-- A send over HTTP to any recipients, a live one, and the acknowledgments of a recipient in either table. -/
inductive LiveInput where
  | send (sender : String) (request : ValidatedSendMessage) (weather : Weather)
  | liveSend (sender room : String) (message : ClientSendMessage) (payment : Option Value) (weather : Weather)
  | acknowledgeInD1 (recipient : String) (ids : List String) (nowMs : Nat)
  | acknowledgeOnHub (recipient : String) (ids : List String) (retry : Bool) (nowMs : Nat)

def LiveInput.acknowledges (input : LiveInput) (x : Content) : Prop :=
  match input with
  | .acknowledgeInD1 recipient ids _ => recipient = x.recipient ∧ x.messageId ∈ ids
  | .acknowledgeOnHub recipient ids _ _ => recipient = x.recipient ∧ x.messageId ∈ ids
  | _ => False

/-- The sender of the content was acknowledged. -/
inductive LiveEvent where
  | acked (x : Content)

def liveContent (sender : String) (message : ClientSendMessage) (messageBox : String) : Content :=
  ⟨message.messageId, message.recipient, messageBox, sender, message.body⟩

def liveStep (w : World) : LiveInput → World × List LiveEvent
  | .send sender request weather => ((processSend path weather request sender w).2.2, [])
  | .liveSend sender room message payment weather =>
    let out := processSendMessage path weather sender room message payment w
    (out.2.2,
      match validateWsSend sender room message payment with
      | .ok validated =>
        if out.1.any OutboundEvent.isAck then [.acked (liveContent sender message validated.messageBox)] else []
      | .error _ => [])
  | .acknowledgeInD1 recipient ids nowMs =>
    ({ w with db := Database.acknowledgeMessages prefixes w.db recipient ids nowMs }, [])
  | .acknowledgeOnHub recipient ids retry nowMs =>
    (w.setHub recipient (Mailbox.acknowledge (w.hubs recipient) ids retry nowMs).2, [])

def liveMachine : Machine World LiveInput LiveEvent := ⟨liveStep path prefixes⟩

/-- The condition on one step: a live send whose id has a row where it goes finds its own. -/
def FindsOwn (c : Config World LiveEvent) : LiveInput → Prop
  | .liveSend sender room message payment weather =>
    ∀ validated, validateWsSend sender room message payment = .ok validated →
      OwnRow path weather validated (liveContent sender message validated.messageBox) c.state
  | _ => True

variable {path prefixes}

/-- What is held is held until its recipient acknowledges it. -/
theorem holdsAt_step {w : World} {place : Place} {x : Content} (holds : w.holdsAt place x) {input : LiveInput}
    (unacknowledged : ¬ input.acknowledges x) : (liveStep path prefixes w input).1.holdsAt place x := by
  cases input with
  | send sender request weather => exact holds.grow (grows_processSend path weather request sender w)
  | liveSend sender room message payment weather =>
    simp only [liveStep, processSendMessage]
    cases validateWsSend sender room message payment with
    | error refused => exact holds
    | ok validated => exact holds.grow (grows_processSend path weather validated sender w)
  | acknowledgeInD1 recipient ids nowMs =>
    cases place with
    | hub => exact holds
    | d1 =>
      obtain ⟨r, found, toward, from', text, box⟩ := holds
      have other : ¬ (r.recipient = recipient ∧ x.messageId ∈ ids) := by
        rintro ⟨same, named⟩
        exact unacknowledged ⟨same.symm.trans toward, named⟩
      exact ⟨r, Database.acknowledgeMessages_other found other, toward, from', text, box⟩
  | acknowledgeOnHub recipient ids retry nowMs =>
    cases place with
    | d1 => exact holds
    | hub =>
      obtain ⟨r, found, from', box, text⟩ := holds
      refine ⟨r, ?_, from', box, text⟩
      simp only [liveStep, World.setHub]
      by_cases own : x.recipient = recipient
      · rw [← own, Function.update_self, Mailbox.acknowledge_find?, found, Option.map_some]
        have named := Mailbox.Store.messageId_of_find? found
        have other : r.messageId ∉ ids := fun inside => unacknowledged ⟨own.symm, named ▸ inside⟩
        simp [Mailbox.ackRow, other]
      · rw [Function.update_of_ne own]
        exact found

theorem holdsAt_run {c : Config World LiveEvent} {place : Place} {x : Content} (holds : c.state.holdsAt place x)
    {mid : List LiveInput} (unacknowledged : ∀ input ∈ mid, ¬ input.acknowledges x) :
    ((liveMachine path prefixes).run c mid).state.holdsAt place x := by
  induction mid generalizing c with
  | nil => exact holds
  | cons input rest ih =>
    rw [Machine.run_cons]
    apply ih
    · exact holdsAt_step holds (unacknowledged input (List.mem_cons_self ..))
    · exact fun later member => unacknowledged later (List.mem_cons_of_mem _ member)

/-- A live send that is acknowledged leaves its content held. -/
theorem holdsAt_of_acked {c : Config World LiveEvent} {input : LiveInput} {x : Content}
    (own : FindsOwn path c input) (acked : .acked x ∈ (liveStep path prefixes c.state input).2) :
    ∃ place, (liveStep path prefixes c.state input).1.holdsAt place x := by
  cases input with
  | send | acknowledgeInD1 | acknowledgeOnHub => cases acked
  | liveSend sender room message payment weather =>
    simp only [liveStep] at acked ⊢
    cases accepted : validateWsSend sender room message payment with
    | error refused =>
      simp only [accepted] at acked
      cases acked
    | ok validated =>
      have sent : processSendMessage path weather sender room message payment c.state =
          (outcomeToOutbound room (processSend path weather validated sender c.state).1,
            (processSend path weather validated sender c.state).2) := by
        simp only [processSendMessage, accepted]
      simp only [accepted, sent] at acked ⊢
      split at acked
      · rename_i ack
        cases List.mem_singleton.mp acked
        obtain ⟨single, text⟩ := validateWsSend_ok accepted
        exact holdsAt_of_answers single rfl text (own validated accepted) (answers_of_ack ack)
      · cases acked

/-- In every run of sends and acknowledgments in which each live send whose id has a row finds its own, whatever is
acknowledged to a live sender was held, and is held until its recipient acknowledges it. -/
theorem acked_send_held (path : StorePath) (prefixes : List String) (start : World) (inputs : List LiveInput)
    (guarded : (liveMachine path prefixes).Guarded (FindsOwn path) ⟨start, []⟩ inputs) (x : Content)
    (acked : .acked x ∈ ((liveMachine path prefixes).run ⟨start, []⟩ inputs).log) :
    ∃ front place, front <+: inputs ∧ .acked x ∈ ((liveMachine path prefixes).run ⟨start, []⟩ front).log ∧
      ∀ mid, (∀ input ∈ mid, ¬ input.acknowledges x) →
        ((liveMachine path prefixes).run ⟨start, []⟩ (front ++ mid)).state.holdsAt place x := by
  induction inputs using List.reverseRecOn with
  | nil => cases acked
  | append_singleton inputs input ih =>
    obtain ⟨early, late⟩ := (Machine.guarded_append _ _ _ _).mp guarded
    have snoc : (liveMachine path prefixes).run ⟨start, []⟩ (inputs ++ [input]) =
        (liveMachine path prefixes).advance ((liveMachine path prefixes).run ⟨start, []⟩ inputs) input := by
      rw [Machine.run_append, Machine.run_cons, Machine.run_nil]
    have log := acked
    rw [snoc] at log
    rcases List.mem_append.mp log with before | now
    · obtain ⟨front, place, part, told, held⟩ := ih early before
      exact ⟨front, place, part.trans (List.prefix_append _ _), told, held⟩
    · obtain ⟨place, holds⟩ := holdsAt_of_acked late.1 now
      refine ⟨inputs ++ [input], place, List.prefix_rfl, acked, fun mid unacknowledged => ?_⟩
      rw [Machine.run_append, snoc]
      exact holdsAt_run holds unacknowledged

end Run

def bobKey : String := "02" ++ String.ofList (List.replicate 64 'b')

def carolKey : String := "02" ++ String.ofList (List.replicate 64 'c')

/-- A live send of one message to a recipient's inbox. -/
def live (sender recipient text : String) : LiveInput :=
  .liveSend sender (recipient ++ "-inbox") ⟨"m1", recipient, .string text⟩ none calm

def hi : Content := ⟨"m1", bobKey, "inbox", "alice", .string "hi"⟩

/-- A sender's own repeat of a stored message is acknowledged, and the message is held. -/
theorem acked_send_held_repeat :
    ∃ front place, front <+: [live "alice" bobKey "hi", live "alice" bobKey "hi"] ∧
      ((liveMachine .d1 []).run ⟨World.empty, []⟩ (front ++ [])).state.holdsAt place hi := by
  have guarded : (liveMachine .d1 []).Guarded (FindsOwn .d1) ⟨World.empty, []⟩
      [live "alice" bobKey "hi", live "alice" bobKey "hi"] := by
    refine ⟨fun validated accepted writing contexts ready there => ?_,
      fun validated accepted writing contexts ready there => ?_, trivial⟩
    · exact absurd rfl there
    · cases accepted
      exact ⟨_, rfl, rfl, rfl, ⟨none, rfl⟩, rfl⟩
  obtain ⟨front, place, part, -, held⟩ := acked_send_held .d1 [] World.empty
    [live "alice" bobKey "hi", live "alice" bobKey "hi"] guarded hi
    (show LiveEvent.acked hi ∈ [LiveEvent.acked hi, LiveEvent.acked hi] from List.mem_cons_self ..)
  exact ⟨front, place, part, held [] (by simp)⟩

def other : Content := ⟨"m1", carolKey, "inbox", "dave", .string "other"⟩

/-- A stranger's send to another recipient under an id in use is acknowledged, and no state of the run holds it. -/
theorem stranger_acked_unheld :
    .acked other ∈ ((liveMachine .d1 []).run ⟨World.empty, []⟩
        [live "alice" bobKey "hi", live "dave" carolKey "other"]).log ∧
      ∀ front, front <+: [live "alice" bobKey "hi", live "dave" carolKey "other"] → ∀ place,
        ¬ ((liveMachine .d1 []).run ⟨World.empty, []⟩ front).state.holdsAt place other := by
  refine ⟨show LiveEvent.acked other ∈ [LiveEvent.acked hi, LiveEvent.acked other] by simp, fun front part place => ?_⟩
  have notCarols : bobKey ≠ carolKey := by decide
  have cases : front = [] ∨ front = [live "alice" bobKey "hi"] ∨
      front = [live "alice" bobKey "hi", live "dave" carolKey "other"] := by
    simp only [List.prefix_cons_iff, List.prefix_nil] at part
    rcases part with none | ⟨_, rfl, rfl | ⟨_, rfl, rfl⟩⟩
    · exact .inl none
    · exact .inr (.inl rfl)
    · exact .inr (.inr rfl)
  cases place with
  | hub =>
    rintro ⟨r, found, -⟩
    rcases cases with rfl | rfl | rfl <;> cases found
  | d1 =>
    rintro ⟨r, found, toward, -⟩
    rcases cases with rfl | rfl | rfl
    · cases found
    · cases found
      exact notCarols toward
    · cases found
      exact notCarols toward

end MessageRelay.Send
