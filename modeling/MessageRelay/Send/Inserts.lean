import MessageRelay.Send.Stores
import MessageRelay.Database.Rows

/-! What one insert of a send does to the rows, over either store: it leaves every other row alone, it writes
its own row or finds one under its id, and what it answers says which. What comes before the first insert
stores nothing, and the loop stops at the first row that is not stored. -/

namespace MessageRelay.Send
open MessageRelay.Library MessageRelay.Session

/-- The table a row is in. -/
inductive Place where
  | d1
  | hub
  deriving DecidableEq, Repr

def placeOf (path : StorePath) (beefKey : Option String) : Place :=
  match path with
  | .d1 => .d1
  | .mailbox => if beefKey.isSome then .d1 else .hub

/-- What a stored row says of itself. Only a mailbox row names its box, and only a D1 row may be the archive's. -/
structure Identity where
  recipient : String
  sender : String
  messageBox : Option String
  body : Option String
  archived : Bool
  deriving DecidableEq, Repr

/-- The rows are one send's, whoever wrote them. -/
def Identity.Same (a b : Identity) : Prop :=
  a.recipient = b.recipient ∧ a.sender = b.sender ∧ a.messageBox = b.messageBox ∧ a.body = b.body

instance (a b : Identity) : Decidable (a.Same b) := inferInstanceAs (Decidable (_ ∧ _ ∧ _ ∧ _))

/-- The row under an id where a recipient's rows of a table are. -/
def World.rowAt (w : World) : Place → String → String → Option Identity
  | .d1, _, id => (w.db.row? id).map (fun r => ⟨r.recipient, r.sender, none, some r.body, r.archiveVersion ≠ 0⟩)
  | .hub, recipient, id =>
    ((w.hubs recipient).find? id).map (fun r => ⟨recipient, r.sender, some r.messageBox, r.body, false⟩)

/-- The row a send writes. -/
def written (place : Place) (messageBox sender recipient body : String) : Identity :=
  match place with
  | .d1 => ⟨recipient, sender, none, some body, false⟩
  | .hub => ⟨recipient, sender, some messageBox, some body, false⟩

/-- The insert's answer is that of a repeated write or hop. -/
def Weather.retried (weather : Weather) (place : Place) (id : String) : Bool :=
  match place with
  | .d1 => !(weather.insert id).write.early.isEmpty
  | .hub => (weather.hop id).first.isSome

/-- What an insert does and what its answer says. -/
structure Wrote (w w' : World) (place : Place) (recipient id : String) (row : Identity) (retried : Bool)
    (answer : Except StoreError Insert) : Prop where
  others : ∀ q r i, q ≠ place ∨ i ≠ id → w'.rowAt q r i = w.rowAt q r i
  here : w'.rowAt place recipient id = w.rowAt place recipient id ∨
    (w.rowAt place recipient id = none ∧ w'.rowAt place recipient id = some row)
  stored : answer = .ok .stored → ∃ held, w'.rowAt place recipient id = some held ∧ held.Same row
  duplicate : answer = .ok .duplicate →
    ∃ held, w.rowAt place recipient id = some held ∧ (retried = false ∨ ¬ held.Same row)

section D1
variable {row : Database.MessageRow} {db : Database.Store}

theorem insertIgnoreMessage_held {held : Database.MessageRow} (found : db.row? row.messageId = some held) :
    insertIgnoreMessage row db = (0, db) := by
  simp only [insertIgnoreMessage, found]

theorem insertIgnoreMessage_free (free : db.row? row.messageId = none) :
    insertIgnoreMessage row db = (1, { db with messages := db.messages.insertIgnore row }) := by
  simp only [insertIgnoreMessage, free]

theorem row?_insertIgnoreMessage (id : String) :
    (insertIgnoreMessage row db).2.row? id =
      if row.messageId = id then some ((db.row? id).getD row) else db.row? id := by
  cases found : db.row? row.messageId with
  | some held =>
    rw [insertIgnoreMessage_held found]
    split
    · rename_i same
      rw [← same, found, Option.getD_some]
    · rfl
  | none =>
    rw [insertIgnoreMessage_free found]
    exact db.messages.find?_insertIgnore row id

/-- Landing again changes nothing. -/
theorem insertIgnoreMessage_again : insertIgnoreMessage row (insertIgnoreMessage row db).2 = (0, (insertIgnoreMessage row db).2) := by
  have found : (insertIgnoreMessage row db).2.row? row.messageId = some ((db.row? row.messageId).getD row) := by
    rw [row?_insertIgnoreMessage, if_pos rfl]
  exact insertIgnoreMessage_held found

/-- The lost tries leave the row once or not at all. -/
theorem lost_tries (lost : List Bool) (db : Database.Store) :
    lost.foldl (fun db landed => if landed then (insertIgnoreMessage row db).2 else db) db =
      if lost.any id then (insertIgnoreMessage row db).2 else db := by
  induction lost generalizing db with
  | nil => rfl
  | cons landed rest ih =>
    rw [List.foldl_cons, ih]
    cases landed with
    | false => simp
    | true => simp [insertIgnoreMessage_again]

/-- The insert leaves the row once or not at all, and tells a duplicate only of a row that was there before and
that it did not read back as its own. -/
theorem insertMessage_spec (fate : InsertFate) (row : Database.MessageRow) (db : Database.Store) :
    let out := insertMessage fate row db
    (out.2 = db ∨ out.2 = (insertIgnoreMessage row db).2) ∧
      (out.1 = .ok .stored → ∃ held, out.2.row? row.messageId = some held ∧
        held.sender = row.sender ∧ held.recipient = row.recipient ∧ held.body = row.body) ∧
      (out.1 = .ok .duplicate → ∃ held, db.row? row.messageId = some held ∧
        (fate.write.early = [] ∨
          ¬(held.sender = row.sender ∧ held.recipient = row.recipient ∧ held.body = row.body))) := by
  intro out
  simp only [out, insertMessage, withD1WriteRetry, lost_tries]
  have landed (b : Bool) : (if b then (insertIgnoreMessage row db).2 else db) = db ∨
      (if b then (insertIgnoreMessage row db).2 else db) = (insertIgnoreMessage row db).2 := by
    cases b with
    | false => exact .inl rfl
    | true => exact .inr rfl
  cases ends : fate.write.ends with
  | failed e last =>
    refine ⟨?_, by simp, by simp⟩
    cases last with
    | false => exact landed _
    | true =>
      right
      simp only [if_true]
      rcases landed (fate.write.early.any id) with same | same
      · rw [same]
      · rw [same, insertIgnoreMessage_again]
  | answered =>
    simp only
    cases found : db.row? row.messageId with
    | some held =>
      simp only [ite_self, insertIgnoreMessage_held found, insertCountVerdict, lt_irrefl, if_false]
      cases early : fate.write.early with
      | nil =>
        refine ⟨.inl rfl, by simp [insertOfD1], fun _ => ⟨held, rfl, .inl rfl⟩⟩
      | cons first rest =>
        simp only [List.isEmpty_cons, Bool.not_false, if_true]
        cases fate.readBack with
        | some e => exact ⟨.inl rfl, by simp, by simp⟩
        | none =>
          simp only [found, retriedRowIsOurs, Option.any_some]
          by_cases ours : held.sender = row.sender ∧ held.recipient = row.recipient ∧ held.body = row.body
          · refine ⟨.inl trivial, fun _ => ⟨held, rfl, ours⟩, ?_⟩
            simp [ours, insertOfD1]
          · refine ⟨.inl trivial, ?_, fun _ => ⟨held, rfl, .inr ours⟩⟩
            have not : ¬ (held.sender = row.sender ∧ held.recipient = row.recipient) ∨ ¬ held.body = row.body := by
              by_contra both
              push Not at both
              exact ours ⟨both.1.1, both.1.2, both.2⟩
            rcases not with no | no <;> simp [no, insertOfD1]
    | none =>
      have own : (insertIgnoreMessage row db).2.row? row.messageId = some row := by
        rw [row?_insertIgnoreMessage, if_pos rfl, found, Option.getD_none]
      cases any : fate.write.early.any id with
      | false =>
        simp only [Bool.false_eq_true, if_false, insertIgnoreMessage_free found, insertCountVerdict, zero_lt_one, if_true]
        rw [insertIgnoreMessage_free found] at own
        exact ⟨.inr trivial, fun _ => ⟨row, own, rfl, rfl, rfl⟩, by simp [insertOfD1]⟩
      | true =>
        have retried : fate.write.early ≠ [] := by
          intro none
          rw [none] at any
          cases any
        simp only [if_true, insertIgnoreMessage_again, insertCountVerdict, lt_irrefl, if_false]
        rw [if_pos (by simpa using retried)]
        simp only
        cases fate.readBack with
        | some e => exact ⟨.inr rfl, by simp, by simp⟩
        | none =>
          simp only [own, retriedRowIsOurs, Option.any_some]
          exact ⟨.inr trivial, fun _ => ⟨row, rfl, rfl, rfl, rfl⟩, by simp [insertOfD1]⟩

end D1

/-- A row handed to a hub is there once or not at all, and a duplicate is told only of a row that was there before
and that the repeat did not find to be its own. -/
theorem insertOnHub_spec (fate : HopFate) (row : Mailbox.NewRow) (recipient : String) (nowMs : Nat)
    (hub : Mailbox.Store) :
    let out := insertOnHub fate row recipient nowMs hub
    (out.2 = hub ∨ hub.find? row.messageId = none ∧ out.2 = hub.append row nowMs) ∧
      (out.1 = .ok .stored → ∃ held, out.2.find? row.messageId = some held ∧
        held.sender = row.sender ∧ held.messageBox = row.messageBox ∧ held.body = some row.body) ∧
      (out.1 = .ok .duplicate → ∃ held, hub.find? row.messageId = some held ∧
        (fate.first = none ∨
          ¬(held.sender = row.sender ∧ held.messageBox = row.messageBox ∧ held.body = some row.body))) := by
  intro out
  cases found : hub.find? row.messageId with
  | some held =>
    have same (retry : Bool) : Mailbox.insert hub row retry nowMs Mailbox.Bounds.ruled =
        (if retry && decide (held.sender = row.sender ∧ held.messageBox = row.messageBox ∧ held.body = some row.body)
          then .retried else .duplicate, hub) := by
      simp only [Mailbox.insert, found]
    simp only [out, insertOnHub, same, ite_self]
    cases fate.first with
    | none => exact ⟨.inl rfl, by simp [Mailbox.hopAnswer, insertOfHop], fun _ => ⟨held, rfl, .inl rfl⟩⟩
    | some landed =>
      cases fate.second with
      | failed e last => exact ⟨.inl (by simp), by simp, by simp⟩
      | answered =>
        by_cases ours : held.sender = row.sender ∧ held.messageBox = row.messageBox ∧ held.body = some row.body
        · refine ⟨.inl (by simp), fun _ => ⟨held, found, ours⟩, ?_⟩
          simp [ours, Mailbox.hopAnswer, insertOfHop]
        · refine ⟨.inl (by simp), ?_, fun _ => ⟨held, rfl, .inr ours⟩⟩
          rw [decide_eq_false ours]
          simp [Mailbox.hopAnswer, insertOfHop]
  | none =>
    have own : (hub.append row nowMs).find? row.messageId = some (Mailbox.freshRow hub row nowMs) := by
      rw [Mailbox.Store.find?_append found, if_pos rfl]
    -- The repeat of a hop that landed finds its own row.
    have again : Mailbox.insert (hub.append row nowMs) row true nowMs Mailbox.Bounds.ruled =
        (.retried, hub.append row nowMs) := by
      simp [Mailbox.insert, own, Mailbox.freshRow]
    have fresh : ∃ held, (hub.append row nowMs).find? row.messageId = some held ∧
        held.sender = row.sender ∧ held.messageBox = row.messageBox ∧ held.body = some row.body :=
      ⟨_, own, rfl, rfl, rfl⟩
    have hop (retry : Bool) := Mailbox.insert_absent found retry nowMs Mailbox.Bounds.ruled
    simp only [out, insertOnHub]
    cases fate.first with
    | none =>
      rcases hop false with ⟨bound, full⟩ | ⟨stored, -⟩
      · simp only [full]
        exact ⟨.inl trivial, by simp [Mailbox.hopAnswer, insertOfHop], by simp [Mailbox.hopAnswer, insertOfHop]⟩
      · simp only [stored]
        exact ⟨.inr ⟨trivial, trivial⟩, fun _ => fresh, by simp [Mailbox.hopAnswer, insertOfHop]⟩
    | some landed =>
      -- The first hop left the mailbox as it was, or with the row.
      have left : (if landed then (Mailbox.insert hub row false nowMs Mailbox.Bounds.ruled).2 else hub) = hub ∨
          (if landed then (Mailbox.insert hub row false nowMs Mailbox.Bounds.ruled).2 else hub) =
            hub.append row nowMs := by
        cases landed with
        | false => exact .inl rfl
        | true =>
          rcases hop false with ⟨bound, full⟩ | ⟨stored, -⟩
          · exact .inl (by simp [full])
          · exact .inr (by simp [stored])
      simp only
      rcases left with unlanded | landed'
      · rw [unlanded]
        rcases hop true with ⟨bound, full⟩ | ⟨stored, -⟩
        · simp only [full]
          cases fate.second with
          | failed e last => exact ⟨.inl (by simp), by simp, by simp⟩
          | answered =>
            exact ⟨.inl rfl, by simp [Mailbox.hopAnswer, insertOfHop], by simp [Mailbox.hopAnswer, insertOfHop]⟩
        · simp only [stored]
          cases fate.second with
          | failed e last => cases last <;> simp
          | answered => exact ⟨.inr ⟨trivial, rfl⟩, fun _ => fresh, by simp [Mailbox.hopAnswer, insertOfHop]⟩
      · rw [landed', again]
        cases fate.second with
        | failed e last => exact ⟨.inr ⟨trivial, by simp⟩, by simp, by simp⟩
        | answered => exact ⟨.inr ⟨trivial, rfl⟩, fun _ => fresh, by simp [Mailbox.hopAnswer, insertOfHop]⟩

/-- Only the rows of one mailbox change with it. -/
theorem rowAt_setHub (w : World) (recipient : String) (hub : Mailbox.Store) (place : Place) (r id : String) :
    (w.setHub recipient hub).rowAt place r id =
      if place = .hub ∧ r = recipient then
        (hub.find? id).map (fun row => ⟨recipient, row.sender, some row.messageBox, row.body, false⟩)
      else w.rowAt place r id := by
  cases place with
  | d1 => simp [World.rowAt, World.setHub]
  | hub =>
    by_cases own : r = recipient
    · subst own
      simp [World.rowAt, World.setHub]
    · simp [World.rowAt, World.setHub, own]

theorem wrote_of_same {w w' : World} {place : Place} {recipient id : String} {row : Identity} {retried : Bool}
    (same : ∀ q r i, w'.rowAt q r i = w.rowAt q r i) (e : StoreError) :
    Wrote w w' place recipient id row retried (.error e) :=
  ⟨fun q r i _ => same q r i, .inl (same place recipient id), by simp, by simp⟩

theorem wrote_insertInD1 (w : World) (weather : Weather) (messageBox messageId : String) (boxId : Nat)
    (sender recipient body : String) (beefKey : Option String) :
    let out := w.insertInD1 weather messageId boxId sender recipient body beefKey
    Wrote w out.2 .d1 recipient messageId (written .d1 messageBox sender recipient body)
      (weather.retried .d1 messageId) out.1 := by
  intro out
  have spec := insertMessage_spec (weather.insert messageId)
    (Database.paidRow messageId boxId sender recipient body beefKey weather.nowMs) w.db
  have rows (i : String) : (insertIgnoreMessage (Database.paidRow messageId boxId sender recipient body beefKey
      weather.nowMs) w.db).2.row? i = if messageId = i then some ((w.db.row? i).getD
        (Database.paidRow messageId boxId sender recipient body beefKey weather.nowMs)) else w.db.row? i :=
    row?_insertIgnoreMessage i
  change Wrote w { w with db := (insertMessage (weather.insert messageId)
    (Database.paidRow messageId boxId sender recipient body beefKey weather.nowMs) w.db).2 } _ _ _ _ _
    (insertMessage (weather.insert messageId)
      (Database.paidRow messageId boxId sender recipient body beefKey weather.nowMs) w.db).1
  generalize insertMessage (weather.insert messageId)
    (Database.paidRow messageId boxId sender recipient body beefKey weather.nowMs) w.db = result at spec ⊢
  obtain ⟨left, stored, duplicate⟩ := spec
  refine ⟨?_, ?_, ?_, ?_⟩
  · intro q r i other
    cases q with
    | hub => rfl
    | d1 =>
      have away : messageId ≠ i := by
        rcases other with no | no
        · exact absurd rfl no
        · exact fun same => no same.symm
      simp only [World.rowAt]
      rcases left with same | same
      · rw [same]
      · rw [same, rows, if_neg away]
  · simp only [World.rowAt, written]
    rcases left with same | same
    · exact .inl (by rw [same])
    · cases found : w.db.row? messageId with
      | some held => exact .inl (by rw [same, rows, if_pos rfl, found]; rfl)
      | none => exact .inr ⟨rfl, by rw [same, rows, if_pos rfl, found]; rfl⟩
  · intro answer
    obtain ⟨held, found, from', toward, text⟩ := stored answer
    simp only [World.rowAt, written]
    change result.2.row? messageId = some held at found
    rw [found]
    exact ⟨_, rfl, toward, from', rfl, congrArg some text⟩
  · intro answer
    obtain ⟨held, found, unread⟩ := duplicate answer
    simp only [World.rowAt, written, Weather.retried]
    change w.db.row? messageId = some held at found
    refine ⟨_, by rw [found]; rfl, ?_⟩
    rcases unread with none | other
    · exact .inl (by rw [none]; rfl)
    · exact .inr (fun same => other ⟨same.2.1, same.1, Option.some.inj same.2.2.2⟩)

theorem wrote_insertOnHub (w : World) (weather : Weather) (messageBox messageId sender recipient body : String) :
    let out := insertOnHub (weather.hop messageId) ⟨messageId, messageBox, sender, body⟩ recipient weather.nowMs
      (w.hubs recipient)
    Wrote w (w.setHub recipient out.2) .hub recipient messageId (written .hub messageBox sender recipient body)
      (weather.retried .hub messageId) out.1 := by
  intro out
  obtain ⟨left, stored, duplicate⟩ := insertOnHub_spec (weather.hop messageId) ⟨messageId, messageBox, sender, body⟩
    recipient weather.nowMs (w.hubs recipient)
  refine ⟨?_, ?_, ?_, ?_⟩
  · intro q r i other
    rw [rowAt_setHub]
    by_cases own : q = .hub ∧ r = recipient
    · obtain ⟨rfl, rfl⟩ := own
      have away : messageId ≠ i := by
        rcases other with no | no
        · exact absurd rfl no
        · exact fun same => no same.symm
      rw [if_pos ⟨rfl, rfl⟩]
      rcases left with same | ⟨free, same⟩
      · rw [same]
        rfl
      · rw [same, Mailbox.Store.find?_append free, if_neg away]
        rfl
    · rw [if_neg own]
  · rw [rowAt_setHub, if_pos ⟨rfl, rfl⟩]
    rcases left with same | ⟨free, same⟩
    · rw [same]
      exact .inl rfl
    · right
      rw [same, Mailbox.Store.find?_append free, if_pos rfl]
      refine ⟨?_, rfl⟩
      simp only [World.rowAt]
      rw [show (w.hubs recipient).find? messageId = none from free]
      rfl
  · intro answer
    obtain ⟨held, found, from', box, text⟩ := stored answer
    rw [rowAt_setHub, if_pos ⟨rfl, rfl⟩, found]
    exact ⟨_, rfl, rfl, from', congrArg some box, text⟩
  · intro answer
    obtain ⟨held, found, unread⟩ := duplicate answer
    simp only [World.rowAt, written, Weather.retried]
    refine ⟨_, by rw [show (w.hubs recipient).find? messageId = some held from found]; rfl, ?_⟩
    rcases unread with none | other
    · exact .inl (by rw [none]; rfl)
    · exact .inr (fun same => other ⟨same.2.1, Option.some.inj same.2.2.1, same.2.2.2⟩)

/-- Finding or making a box touches no message. -/
theorem messages_getOrCreateMessageBox (fate : BoxFate) (recipient messageBox : String) (db : Database.Store) :
    (getOrCreateMessageBox fate recipient messageBox db).2.messages = db.messages := by
  have tries (lost : List Bool) (db : Database.Store) : (lost.foldl
      (fun db landed => if landed then ((fun db => ((), Database.insertBox db recipient messageBox)) db).2 else db)
        db).messages = db.messages := by
    induction lost generalizing db with
    | nil => rfl
    | cons landed rest ih =>
      rw [List.foldl_cons, ih]
      cases landed <;> rfl
  have write : (withD1WriteRetry (fun db => ((), Database.insertBox db recipient messageBox)) fate.write db).2.messages =
      db.messages := by
    unfold withD1WriteRetry
    simp only
    split
    · exact tries fate.write.early db
    · split
      · exact tries fate.write.early db
      · exact tries fate.write.early db
  unfold getOrCreateMessageBox
  split
  · rfl
  · split
    · rfl
    · split
      · rename_i same
        rw [same] at write
        exact write
      · rename_i same
        rw [same] at write
        split <;> exact write

theorem rowAt_boxInD1 (w : World) (weather : Weather) (recipient messageBox : String) (place : Place) (r id : String) :
    (w.boxInD1 weather recipient messageBox).2.rowAt place r id = w.rowAt place r id := by
  cases place with
  | hub => rfl
  | d1 =>
    change ((getOrCreateMessageBox (weather.box recipient) recipient messageBox w.db).2.messages.find? id).map _ = _
    rw [messages_getOrCreateMessageBox]
    rfl

/-- What an insert of a send's store does, over either path. -/
theorem wrote_insertMessage (path : StorePath) (weather : Weather) (messageBox : String) (w : World)
    (messageId : String) (boxId : Nat) (sender recipient body : String) (beefKey : Option String) :
    let out := (storeOf path weather messageBox).insertMessage messageId boxId sender recipient body beefKey w
    Wrote w out.2 (placeOf path beefKey) recipient messageId
      (written (placeOf path beefKey) messageBox sender recipient body)
      (weather.retried (placeOf path beefKey) messageId) out.1 := by
  cases path with
  | d1 => exact wrote_insertInD1 w weather messageBox messageId boxId sender recipient body beefKey
  | mailbox =>
    simp only [storeOf, World.insertInMailbox, placeOf]
    by_cases paid : beefKey.isSome = true
    · simp only [if_pos paid]
      have boxed := rowAt_boxInD1 w weather recipient messageBox
      cases made : w.boxInD1 weather recipient messageBox with
      | mk answer w' =>
        rw [made] at boxed
        cases answer with
        | error e => exact wrote_of_same boxed e
        | ok id =>
          obtain ⟨others, here, stored, duplicate⟩ :=
            wrote_insertInD1 w' weather messageBox messageId id sender recipient body beefKey
          simp only [boxed] at others here duplicate
          exact ⟨others, here, stored, duplicate⟩
    · simp only [if_neg paid]
      exact wrote_insertOnHub w weather messageBox messageId sender recipient body

section Prepare
variable (path : StorePath) (weather : Weather)

/-- The contexts are read from the store and change nothing, and with no recipient blocked all are kept in turn. -/
theorem readContexts_storeOf (box sender messageBox : String) (recipients : List (String × String)) (contexts : Contexts)
    (w : World) :
    (readContexts (storeOf path weather box) sender messageBox recipients contexts w).2 = w ∧
      ∀ out, (readContexts (storeOf path weather box) sender messageBox recipients contexts w).1 = .ok out →
        out.blocked = [] → contexts.blocked = [] ∧
          out.allowed.map (fun ctx => (ctx.recipient, ctx.messageId)) =
            contexts.allowed.map (fun ctx => (ctx.recipient, ctx.messageId)) ++ recipients ∧
          ∀ ctx ∈ out.allowed, ctx ∈ contexts.allowed ∨
            (path = .d1 → ctx.boxId = Database.findMessageBox w.db ctx.recipient messageBox) := by
  induction recipients generalizing contexts with
  | nil =>
    refine ⟨rfl, fun out read free => ?_⟩
    cases read
    exact ⟨free, (List.append_nil _).symm, fun ctx member => .inl member⟩
  | cons first rest ih =>
    obtain ⟨recipient, messageId⟩ := first
    obtain ⟨boxId, asked, known⟩ : ∃ boxId, (storeOf path weather box).readSendContext recipient sender messageBox w =
        ((weather.context recipient).map (fun fees => ⟨fees.1, fees.2, boxId⟩), w) ∧
          (path = .d1 → boxId = Database.findMessageBox w.db recipient messageBox) := by
      refine ⟨_, rfl, fun d1 => ?_⟩
      subst d1
      rfl
    simp only [readContexts, asked]
    cases weather.context recipient with
    | error e => exact ⟨rfl, fun out read => by cases read⟩
    | ok fees =>
      simp only [Except.map]
      split
      · obtain ⟨same, all⟩ := ih { contexts with deliveryFee := fees.2, blocked := contexts.blocked ++ [recipient] }
        refine ⟨same, fun out read free => ?_⟩
        have none := (all out read free).1
        simp at none
      · obtain ⟨same, all⟩ := ih
          { contexts with
            deliveryFee := fees.2
            allowed := contexts.allowed ++ [⟨recipient, messageId, fees.1, boxId⟩] }
        refine ⟨same, fun out read free => ?_⟩
        obtain ⟨none, whole, boxes⟩ := all out read free
        refine ⟨none, ?_, fun ctx member => ?_⟩
        · rw [whole]
          simp
        · rcases boxes ctx member with inside | found
          · rcases List.mem_append.mp inside with old | new
            · exact .inl old
            · rw [List.mem_singleton.mp new]
              exact .inr known
          · exact .inr found

theorem settlePayment_storeOf (box : String) (request : ValidatedSendMessage) (sender : String) (contexts : Contexts)
    (w : World) : (settlePayment (storeOf path weather box) request sender contexts w).2 = w := by
  simp only [settlePayment, storeOf]
  split
  · split
    · rfl
    · split
      · rfl
      · cases weather.settle <;> rfl
  · rfl

/-- Nothing is stored before the rows are, and the rows are the request's, in its order. -/
theorem prepare_storeOf (request : ValidatedSendMessage) (sender : String) (w : World) :
    (prepare (storeOf path weather request.messageBox) request sender w).2 = w ∧
      ∀ writing contexts, (prepare (storeOf path weather request.messageBox) request sender w).1 =
          .ok (writing, contexts) →
        writing.sender = sender ∧ writing.messageBox = request.messageBox ∧ writing.body = request.body ∧
          contexts.map (fun ctx => (ctx.recipient, ctx.messageId)) = request.recipients ∧
          ∀ ctx ∈ contexts, path = .d1 → ctx.boxId = Database.findMessageBox w.db ctx.recipient request.messageBox := by
  unfold prepare
  split
  · exact ⟨rfl, fun writing contexts ready => by cases ready⟩
  · obtain ⟨same, all⟩ := readContexts_storeOf path weather request.messageBox sender request.messageBox
      request.recipients ⟨[], [], 0⟩ w
    generalize readContexts (storeOf path weather request.messageBox) sender request.messageBox request.recipients
      ⟨[], [], 0⟩ w = read at same all ⊢
    obtain ⟨answer, w'⟩ := read
    simp only at same
    subst same
    cases answer with
    | error e => exact ⟨rfl, fun writing contexts ready => by cases ready⟩
    | ok contexts =>
      simp only
      split
      · exact ⟨rfl, fun writing contexts ready => by cases ready⟩
      · rename_i unblocked
        have free : contexts.blocked = [] := by simpa using unblocked
        obtain ⟨-, pairs, boxes⟩ := all contexts rfl free
        have charged : (storeOf path weather request.messageBox).charge sender
            (unjudged request contexts.deliveryFee) w' = (weather.charge, w') := rfl
        rw [charged]
        cases weather.charge with
        | error answer => exact ⟨rfl, fun writing contexts ready => by cases ready⟩
        | ok paid =>
          have settled := settlePayment_storeOf path weather request.messageBox request sender contexts w'
          simp only
          generalize settlePayment (storeOf path weather request.messageBox) request sender contexts w' = out at settled ⊢
          obtain ⟨answer, w''⟩ := out
          simp only at settled
          subst settled
          cases answer with
          | error answer => exact ⟨rfl, fun writing contexts ready => by cases ready⟩
          | ok made =>
            refine ⟨rfl, fun writing contexts ready => ?_⟩
            cases ready
            refine ⟨rfl, rfl, rfl, by simpa using pairs, fun ctx member => ?_⟩
            exact (boxes ctx member).resolve_left List.not_mem_nil

end Prepare

section Loop
variable (path : StorePath) (weather : Weather) (writing : Writing)

/-- Where a recipient's row goes. -/
def Context.place (ctx : Context) : Place := placeOf path (writing.beefKey ctx.recipient)

/-- The row a recipient is sent. -/
def Context.row (ctx : Context) : Identity :=
  written (ctx.place path writing) writing.messageBox writing.sender ctx.recipient (writing.rowBody ctx.recipient)

/-- What the loop does to the rows, and what its outcome says. -/
structure Looped (contexts : List Context) (w w' : World) (outcome : SendOutcome) : Prop where
  others : ∀ q r i, (∀ ctx ∈ contexts, q ≠ ctx.place path writing ∨ i ≠ ctx.messageId) → w'.rowAt q r i = w.rowAt q r i
  here : ∀ ctx ∈ contexts,
    w'.rowAt (ctx.place path writing) ctx.recipient ctx.messageId =
        w.rowAt (ctx.place path writing) ctx.recipient ctx.messageId ∨
      (w.rowAt (ctx.place path writing) ctx.recipient ctx.messageId = none ∧
        w'.rowAt (ctx.place path writing) ctx.recipient ctx.messageId = some (ctx.row path writing))
  success : ∀ results, outcome = .success results → ∀ ctx ∈ contexts, ∃ held,
    w'.rowAt (ctx.place path writing) ctx.recipient ctx.messageId = some held ∧ held.Same (ctx.row path writing)
  duplicate : ∀ r i, outcome = .duplicateMessage r i → ∃ ctx ∈ contexts, ∃ held,
    w.rowAt (ctx.place path writing) ctx.recipient ctx.messageId = some held ∧
      (weather.retried (ctx.place path writing) ctx.messageId = false ∨ ¬ held.Same (ctx.row path writing))

theorem rowAt_boxOf (box messageBox : String) (ctx : Context) (w : World) (place : Place) (r id : String) :
    (boxOf (storeOf path weather box) messageBox ctx w).2.rowAt place r id = w.rowAt place r id := by
  unfold boxOf
  split
  · rfl
  · cases path with
    | d1 => exact rowAt_boxInD1 w weather ctx.recipient messageBox place r id
    | mailbox => rfl

theorem classifyStoreError_cases (e : StoreError) :
    (∀ results, classifyStoreError e ≠ .success results) ∧ ∀ r i, classifyStoreError e ≠ .duplicateMessage r i := by
  unfold classifyStoreError
  split <;> simp

/-- A loop that stops at its first row. -/
theorem Looped.stops {ctx : Context} {rest : List Context} {w w₂ : World} {outcome : SendOutcome}
    {answer : Except StoreError Insert}
    (wrote : Wrote w w₂ (ctx.place path writing) ctx.recipient ctx.messageId (ctx.row path writing)
      (weather.retried (ctx.place path writing) ctx.messageId) answer)
    (distinct : ((ctx :: rest).map Context.messageId).Nodup)
    (failed : ∀ results, outcome ≠ .success results)
    (duplicate : ∀ r i, outcome = .duplicateMessage r i → answer = .ok .duplicate) :
    Looped path weather writing (ctx :: rest) w w₂ outcome := by
  rw [List.map_cons, List.nodup_cons] at distinct
  have apart := distinct.1
  refine ⟨?_, ?_, fun results done => absurd done (failed results), ?_⟩
  · intro q r i away
    exact wrote.others q r i (away ctx (List.mem_cons_self ..))
  · intro other member
    rcases List.mem_cons.mp member with rfl | later
    · exact wrote.here
    · left
      apply wrote.others
      right
      intro same
      exact apart (same ▸ List.mem_map_of_mem later)
  · intro r i told
    obtain ⟨held, found, unread⟩ := wrote.duplicate (duplicate r i told)
    exact ⟨ctx, List.mem_cons_self .., held, found, unread⟩

theorem looped_insertRows (contexts : List Context) (distinct : (contexts.map Context.messageId).Nodup)
    (progress : Progress) (w : World) :
    let out := insertRows (storeOf path weather writing.messageBox) writing contexts progress w
    Looped path weather writing contexts w out.2.2 out.1 := by
  induction contexts generalizing progress w with
  | nil => exact ⟨fun _ _ _ _ => rfl, by simp, by simp, by simp [insertRows]⟩
  | cons ctx rest ih =>
    have boxed := rowAt_boxOf path weather writing.messageBox writing.messageBox ctx w
    simp only [insertRows]
    generalize boxOf (storeOf path weather writing.messageBox) writing.messageBox ctx w = box at boxed ⊢
    obtain ⟨boxAnswer, w₁⟩ := box
    simp only at boxed
    cases boxAnswer with
    | error e =>
      apply Looped.stops path weather writing (wrote_of_same boxed e) distinct
      · exact (classifyStoreError_cases e).1
      · intro r i told
        exact absurd told ((classifyStoreError_cases e).2 r i)
    | ok boxId =>
      have wrote : Wrote w ((storeOf path weather writing.messageBox).insertMessage ctx.messageId boxId writing.sender
          ctx.recipient (writing.rowBody ctx.recipient) (writing.beefKey ctx.recipient) w₁).2 (ctx.place path writing)
          ctx.recipient ctx.messageId (ctx.row path writing) (weather.retried (ctx.place path writing) ctx.messageId)
          ((storeOf path weather writing.messageBox).insertMessage ctx.messageId boxId writing.sender
            ctx.recipient (writing.rowBody ctx.recipient) (writing.beefKey ctx.recipient) w₁).1 := by
        obtain ⟨others, here, stored, duplicate⟩ := wrote_insertMessage path weather writing.messageBox w₁ ctx.messageId
          boxId writing.sender ctx.recipient (writing.rowBody ctx.recipient) (writing.beefKey ctx.recipient)
        simp only [boxed] at others here duplicate
        exact ⟨others, here, stored, duplicate⟩
      simp only
      generalize (storeOf path weather writing.messageBox).insertMessage ctx.messageId boxId writing.sender
        ctx.recipient (writing.rowBody ctx.recipient) (writing.beefKey ctx.recipient) w₁ = inserted at wrote ⊢
      obtain ⟨answer, w₂⟩ := inserted
      simp only at wrote
      cases answer with
      | error e =>
        apply Looped.stops path weather writing wrote distinct
        · exact (classifyStoreError_cases e).1
        · intro r i told
          exact absurd told ((classifyStoreError_cases e).2 r i)
      | ok result =>
        cases result with
        | duplicate => exact Looped.stops path weather writing wrote distinct (by simp) (fun _ _ _ => rfl)
        | full body => exact Looped.stops path weather writing wrote distinct (by simp) (by simp)
        | stored =>
          have apart := distinct
          rw [List.map_cons, List.nodup_cons] at apart
          have away (other : Context) (later : other ∈ rest) : ctx.messageId ≠ other.messageId :=
            fun same => apart.1 (same ▸ List.mem_map_of_mem later)
          obtain ⟨others, here, success, duplicate⟩ := ih apart.2 (progress.stored writing ctx) w₂
          -- The rest of the loop leaves the first row alone, and the first insert the rows of the rest.
          have first := others (ctx.place path writing) ctx.recipient ctx.messageId (fun other later => .inr (away other later))
          have behind (other : Context) (later : other ∈ rest) :=
            wrote.others (other.place path writing) other.recipient other.messageId (.inr (away other later).symm)
          refine ⟨?_, ?_, ?_, ?_⟩
          · intro q r i elsewhere
            rw [others q r i (fun other later => elsewhere other (List.mem_cons_of_mem _ later))]
            exact wrote.others q r i (elsewhere ctx (List.mem_cons_self ..))
          · intro other member
            rcases List.mem_cons.mp member with rfl | later
            · rw [first]
              exact wrote.here
            · rw [← behind other later]
              exact here other later
          · intro results done other member
            rcases List.mem_cons.mp member with rfl | later
            · rw [first]
              exact wrote.stored rfl
            · exact success results done other later
          · intro r i told
            obtain ⟨other, later, held, found, unread⟩ := duplicate r i told
            rw [behind other later] at found
            exact ⟨other, List.mem_cons_of_mem _ later, held, found, unread⟩

end Loop

/-- The send is answered for good. -/
def SendOutcome.answers : SendOutcome → Bool
  | .success _ => true
  | .duplicateMessage _ _ => true
  | _ => false

section Attempt
variable {path : StorePath} {request : ValidatedSendMessage} {sender : String}

/-- An attempt that ends before its first row is not answered for good. -/
theorem answers_of_prepare {σ : Type} {store : SendStore σ} {s : σ} {outcome : SendOutcome}
    (ended : (prepare store request sender s).1 = .error outcome) : outcome.answers = false := by
  have failed (e : StoreError) : (classifyStoreError e).answers = false := by
    unfold classifyStoreError
    split <;> rfl
  unfold prepare at ended
  split at ended
  · cases ended
    rfl
  · split at ended
    · cases ended
      exact failed _
    · split at ended
      · cases ended
        rfl
      · split at ended
        · cases ended
          rfl
        · split at ended
          · cases ended
            rfl
          · cases ended

/-- An attempt ends before its first row and changes nothing, or runs its loop over the request's recipients. -/
theorem processSend_cases (weather : Weather) (w : World) (distinct : (request.recipients.map Prod.snd).Nodup) :
    let out := processSend path weather request sender w
    (out.1.answers = false ∧ out.2.2 = w) ∨
      ∃ writing contexts,
        (prepare (storeOf path weather request.messageBox) request sender w).1 = .ok (writing, contexts) ∧
          writing.sender = sender ∧ contexts.map (fun ctx => (ctx.recipient, ctx.messageId)) = request.recipients ∧
          Looped path weather writing contexts w out.2.2 out.1 := by
  intro out
  simp only [out, processSend, storeRows]
  have read := prepare_storeOf path weather request sender w
  have ends (outcome : SendOutcome)
      (ended : (prepare (storeOf path weather request.messageBox) request sender w).1 = .error outcome) :
      outcome.answers = false := answers_of_prepare ended
  generalize prepare (storeOf path weather request.messageBox) request sender w = prepared at read ends ⊢
  obtain ⟨result, w'⟩ := prepared
  obtain ⟨same, ready⟩ := read
  simp only at same
  subst same
  cases result with
  | error outcome => exact .inl ⟨ends outcome rfl, rfl⟩
  | ok made =>
    obtain ⟨writing, contexts⟩ := made
    obtain ⟨from', box, -, pairs, -⟩ := ready writing contexts rfl
    refine .inr ⟨writing, contexts, rfl, from', pairs, ?_⟩
    have ids : contexts.map Context.messageId = request.recipients.map Prod.snd := by
      rw [← pairs, List.map_map]
      rfl
    have looped := looped_insertRows path weather writing contexts (ids ▸ distinct) ⟨[], 0, ⟨[], []⟩⟩ w'
    rw [box] at looped
    exact looped

end Attempt

end MessageRelay.Send
