import MessageRelay.Lane.Frame
import MessageRelay.Mailbox.Listing
import MessageRelay.Presence.RoomRecord
import MessageRelay.Send.Acknowledged
import MessageRelay.Send.Handed
import MessageRelay.Send.Validate

/-! The boxes only the service writes: `low_events` and every `broadcast-` room. The doors of a send, which of them
refuse such a box, and who put there what such a box shows after any run of them. -/

namespace MessageRelay.Send
open MessageRelay.Lane MessageRelay.Library MessageRelay.Library.Json MessageRelay.Session

def firstPartyBoxReason (name : String) : Option String :=
  if isFirstPartyBox name then
    some ("message box '" ++ name ++ "' is first-party: only the service push may write it")
  else none

/-- The refusal of an ordinary send, read off the body before its checks. -/
def firstPartyBoxRefusal (body : Value) : Option Answer :=
  (((((body.get "message").getD body).get "messageBox").bind Value.asStr).bind firstPartyBoxReason).map
    (fun reason => errorAnswer "ERR_FIRST_PARTY_BOX" reason 403)

/-- An expected bearer that is empty matches nothing. -/
def bearerMatches (got expected : String) : Bool := expected ≠ "" && constantTimeEq (utf8 got) (utf8 expected)

def bearerOf (header : Option String) : String :=
  let written := (header.getD "").toList
  if "Bearer ".toList.isPrefixOf written then String.ofList (written.drop "Bearer ".length) else ""

def validateSendMessage (range : Range) (raw : Text) : Except Answer ValidatedSendMessage :=
  match readSendBody range raw with
  | .error refused => .error refused
  | .ok body => validateSendValue body

section Doors
variable (range : Range) (path : StorePath) (weather : Weather)

def handleSendBody (body : Value) (sender : String) (w : World) : SendOutcome × AfterAnswer × World :=
  match validateSendValue body with
  | .error refused => (.validationError refused, ⟨[], []⟩, w)
  | .ok validated => processSend path weather validated sender w

def handleSendMessage (raw : Text) (sender : String) (w : World) : SendOutcome × AfterAnswer × World :=
  match readSendBody range raw with
  | .error refused => (.validationError refused, ⟨[], []⟩, w)
  | .ok body => handleSendBody path weather body sender w

/-- `POST /sendMessage` of an authenticated caller. -/
def postSendMessage (raw : Text) (sender : String) (w : World) : SendOutcome × AfterAnswer × World :=
  match readSendBody range raw with
  | .error refused => (.validationError refused, ⟨[], []⟩, w)
  | .ok body =>
    match firstPartyBoxRefusal body with
    | some refused => (.validationError refused, ⟨[], []⟩, w)
    | none => handleSendBody path weather body sender w

end Doors

def flatNames : List String := ["body", "messageBox", "messageId", "recipient"]

/-- The push's fields as a send has them: a flat body is wrapped, under an id of its own where it has none. -/
def wrapped (sha256 : Bytes → Bytes) (sender : String) (nowMs : Nat) (fields : List (String × Value)) :
    List (String × Value) :=
  if ((Value.object fields).get "message").isSome then fields
  else
    let flat := fields.filter (fun f => f.1 ∈ flatNames)
    let message :=
      if ((Value.object flat).get "messageId").isSome then flat
      else
        let seed := utf8 sender ++ utf8 (Value.object flat).text ++ utf8 (toString nowMs)
        Value.insertField "messageId" (.string (hexEncode (sha256 seed))) flat
    Value.insertField "message" (.object message) (fields.filter (fun f => f.1 ∉ flatNames))

/-- The producer's identity and what is left of a push for the send to read. -/
def splitPushBody (range : Range) (sha256 : Bytes → Bytes) (raw : Text) (nowMs : Nat) :
    Except String (String × Text) :=
  match Value.fromSlice range raw with
  | none => .error "push body is not JSON"
  | some (.object fields) =>
    match ((Value.object fields).get "sender").bind Value.asStr with
    | none => .error "push body needs a `sender` identity key"
    | some written =>
      let sender := toAsciiLowercase written
      if !isValidPubkey sender then .error "push `sender` must be a 33-byte compressed pubkey hex"
      else .ok (sender, utf8Bytes
        (Value.object (wrapped sha256 sender nowMs (fields.filter (fun f => f.1 ≠ "sender")))).text)
  | some _ => .error "push body must be a JSON object"

def gameRoomPrefix : List Char := "low_game_".toList

/-- The push the relay files itself when a deadline is published for a game's room: an event in the box of the room's
counterparty, in the owner's name. -/
def ladderEventPushBody (owner peer room : String) (deadlineMs atMs : Nat) : Option Text :=
  match Presence.splitOwnerRoom room with
  | none => none
  | some (roomOwner, suffix) =>
    if String.ofList roomOwner ≠ owner || !gameRoomPrefix.isPrefixOf suffix then none
    else
      let gameId := suffix.drop gameRoomPrefix.length
      if gameId.length ≠ 64 || !gameId.all Presence.isAsciiHexdigit then none
      else if !isValidPubkey peer || toAsciiLowercase peer = toAsciiLowercase owner then none
      else
        let event := Value.object [("at", number atMs), ("deadlineMs", number deadlineMs),
          ("gameId", .string (String.ofList gameId)), ("kind", .string "ladder"), ("stayer", .string owner),
          ("v", number 1)]
        some (utf8Bytes (Value.object [("body", event), ("messageBox", .string eventsBox), ("recipient", .string peer),
          ("sender", .string owner)]).text)

/-- What comes through a door, or is acknowledged in either table. -/
inductive DoorInput where
  | post (sender : String) (raw : Text) (weather : Weather)
  | live (sender room : String) (message : ClientSendMessage) (payment : Option Value) (weather : Weather)
  | push (header : Option String) (raw : Text) (nowMs : Nat) (weather : Weather)
  | ladder (owner peer room : String) (deadlineMs nowMs : Nat) (weather : Weather)
  | acknowledgeInD1 (recipient : String) (ids : List String) (nowMs : Nat)
  | acknowledgeOnHub (recipient : String) (ids : List String) (retry : Bool) (nowMs : Nat)

/-- A send the service made: under the token, or by the relay in the name of a room's owner. -/
inductive DoorEvent where
  | pushed (sender : String) (request : ValidatedSendMessage)
  | laddered (owner sender : String) (request : ValidatedSendMessage)

section Run
variable (range : Range) (sha256 : Bytes → Bytes) (path : StorePath) (prefixes : List String) (token : String)

def filePush (event : String → ValidatedSendMessage → DoorEvent) (raw : Text) (nowMs : Nat) (weather : Weather)
    (w : World) : World × List DoorEvent :=
  match splitPushBody range sha256 raw nowMs with
  | .error _ => (w, [])
  | .ok (sender, body) =>
    ((handleSendMessage range path weather body sender w).2.2,
      match validateSendMessage range body with
      | .error _ => []
      | .ok request => [event sender request])

def doorStep (w : World) : DoorInput → World × List DoorEvent
  | .post sender raw weather => ((postSendMessage range path weather raw sender w).2.2, [])
  | .live sender room message payment weather =>
    ((processSendMessage path weather sender room message payment w).2.2, [])
  | .push header raw nowMs weather =>
    if bearerMatches (bearerOf header) token then filePush range sha256 path .pushed raw nowMs weather w else (w, [])
  | .ladder owner peer room deadlineMs nowMs weather =>
    match ladderEventPushBody owner peer room deadlineMs nowMs with
    | none => (w, [])
    | some raw => filePush range sha256 path (.laddered owner) raw nowMs weather w
  | .acknowledgeInD1 recipient ids nowMs =>
    ({ w with db := Database.acknowledgeMessages prefixes w.db recipient ids nowMs }, [])
  | .acknowledgeOnHub recipient ids retry nowMs =>
    (w.setHub recipient (Mailbox.acknowledge (w.hubs recipient) ids retry nowMs).2, [])

def doorMachine : Machine World DoorInput DoorEvent := ⟨doorStep range sha256 path prefixes token⟩

end Run

/-- What a recipient's box shows, from D1 and from its hub. -/
def shown (w : World) (recipient messageBox : String) : List Mailbox.MessageDbRow :=
  Database.listMessages w.db recipient messageBox ++
    Mailbox.list (w.hubs recipient) messageBox Mailbox.listLimit Mailbox.listInlineBytes

/-! Who vouches for a row: its box, its recipient, its id, its sender and its body, where it has one. -/

abbrev Vouching := String → String → String → String → Option String → Prop

/-- A box's id is its own, and every row lies in a box it is vouched for in. -/
structure FiledInD1 (vouched : Vouching) (db : Database.Store) : Prop where
  apart : ∀ o o' b b', db.boxes.find? o = some b → db.boxes.find? o' = some b' →
    b.messageBoxId = b'.messageBoxId → b = b'
  below : ∀ o b, db.boxes.find? o = some b → b.messageBoxId < db.nextBoxId
  rows : ∀ id r, db.row? id = some r → ∃ o b, db.boxes.find? o = some b ∧ b.messageBoxId = r.messageBoxId ∧
    vouched b.boxType r.recipient r.messageId r.sender (some r.body)

structure Filed (vouched : Vouching) (w : World) : Prop where
  inD1 : FiledInD1 vouched w.db
  onHubs : ∀ recipient id r, (w.hubs recipient).find? id = some r →
    vouched r.messageBox recipient r.messageId r.sender r.body

section Kept
variable {vouched : Vouching} {db : Database.Store} {w : World}

theorem filedInD1_empty : FiledInD1 vouched Database.Store.empty :=
  ⟨fun _ _ _ _ found => (by cases found), fun _ _ found => (by cases found), fun _ _ found => (by cases found)⟩

theorem filed_empty : Filed vouched World.empty := ⟨filedInD1_empty, fun _ _ _ found => (by cases found)⟩

theorem Filed.widen {wider : Vouching} (filed : Filed vouched w)
    (wide : ∀ box recipient id sender body, vouched box recipient id sender body → wider box recipient id sender body) :
    Filed wider w := by
  refine ⟨⟨filed.inD1.apart, filed.inD1.below, fun id r found => ?_⟩, fun recipient id r found => ?_⟩
  · obtain ⟨o, b, boxed, same, own⟩ := filed.inD1.rows id r found
    exact ⟨o, b, boxed, same, wide _ _ _ _ _ own⟩
  · exact wide _ _ _ _ _ (filed.onHubs recipient id r found)

/-- A box that is there after another is made was there before, or is the one made. -/
theorem find?_insertBox {identityKey boxType : String} {o : String × String} {b : Database.BoxRow}
    (found : (Database.insertBox db identityKey boxType).boxes.find? o = some b) :
    db.boxes.find? o = some b ∨ b = ⟨db.nextBoxId, boxType, identityKey⟩ := by
  simp only [Database.insertBox, Table.find?_insertIgnore] at found
  split at found
  · cases there : db.boxes.find? o with
    | some old =>
      rw [there, Option.getD_some] at found
      exact .inl found
    | none =>
      rw [there, Option.getD_none, Option.some.injEq] at found
      exact .inr found.symm
  · exact .inl found

theorem FiledInD1.insertBox (filed : FiledInD1 vouched db) (identityKey boxType : String) :
    FiledInD1 vouched (Database.insertBox db identityKey boxType) := by
  refine ⟨fun o o' b b' found found' same => ?_, fun o b found => ?_, fun id r found => ?_⟩
  · rcases find?_insertBox found with old | new
    · rcases find?_insertBox found' with old' | new'
      · exact filed.apart o o' b b' old old' same
      · have fits := filed.below o b old
        rw [same, new'] at fits
        exact absurd fits (lt_irrefl _)
    · rcases find?_insertBox found' with old' | new'
      · have fits := filed.below o' b' old'
        rw [← same, new] at fits
        exact absurd fits (lt_irrefl _)
      · rw [new, new']
  · change b.messageBoxId < db.nextBoxId + 1
    rcases find?_insertBox found with old | new
    · have fits := filed.below o b old
      omega
    · rw [new]
      exact Nat.lt_succ_self _
  · obtain ⟨o, b, boxed, same, own⟩ := filed.rows id r found
    refine ⟨o, b, ?_, same, own⟩
    simp only [Database.insertBox, Table.find?_insertIgnore, boxed, Option.getD_some, ite_self]

/-- Whatever becomes of its tries, a write keeps what the written operation keeps. -/
theorem withD1WriteRetry_kept {σ α : Type} {kept : σ → Prop} (op : σ → α × σ) (keeps : ∀ s, kept s → kept (op s).2)
    (fate : WriteFate) {s : σ} (before : kept s) : kept (withD1WriteRetry op fate s).2 := by
  have tries (lost : List Bool) (s : σ) (before : kept s) :
      kept (lost.foldl (fun s landed => if landed then (op s).2 else s) s) := by
    induction lost generalizing s with
    | nil => exact before
    | cons landed rest ih =>
      apply ih
      cases landed with
      | false => exact before
      | true => exact keeps s before
  have early := tries fate.early s before
  unfold withD1WriteRetry
  split
  · exact keeps _ early
  · split
    · exact keeps _ early
    · exact early

theorem FiledInD1.getOrCreateMessageBox (filed : FiledInD1 vouched db) (fate : BoxFate)
    (recipient messageBox : String) :
    FiledInD1 vouched (Send.getOrCreateMessageBox fate recipient messageBox db).2 := by
  have wrote := @withD1WriteRetry_kept _ _ (FiledInD1 vouched)
    (fun db => ((), Database.insertBox db recipient messageBox))
    (fun _ filed => filed.insertBox recipient messageBox) fate.write db filed
  unfold Send.getOrCreateMessageBox
  split
  · exact filed
  · split
    · exact filed
    · split
      · rename_i out
        rw [out] at wrote
        exact wrote
      · rename_i out
        rw [out] at wrote
        split <;> exact wrote

theorem insertIgnoreMessage_boxes (row : Database.MessageRow) (db : Database.Store) :
    (insertIgnoreMessage row db).2.boxes = db.boxes ∧ (insertIgnoreMessage row db).2.nextBoxId = db.nextBoxId := by
  unfold insertIgnoreMessage
  split <;> exact ⟨rfl, rfl⟩

theorem FiledInD1.insertMessage (filed : FiledInD1 vouched db) (fate : InsertFate) (row : Database.MessageRow)
    {messageBox : String} (boxed : Database.findMessageBox db row.recipient messageBox = some row.messageBoxId)
    (own : vouched messageBox row.recipient row.messageId row.sender (some row.body)) :
    FiledInD1 vouched (Send.insertMessage fate row db).2 := by
  rcases (insertMessage_spec fate row db).1 with same | same
  · rw [same]
    exact filed
  · rw [same]
    obtain ⟨boxes, next⟩ := insertIgnoreMessage_boxes row db
    refine ⟨?_, ?_, fun id r found => ?_⟩
    · rw [boxes]
      exact filed.apart
    · rw [boxes, next]
      exact filed.below
    · rw [boxes]
      rw [row?_insertIgnoreMessage] at found
      cases there : db.row? id with
      | some old =>
        rw [there, Option.getD_some, ite_self, Option.some.injEq] at found
        exact filed.rows id r (found ▸ there)
      | none =>
        rw [there, Option.getD_none] at found
        split at found
        · cases found
          obtain ⟨b, here, same⟩ := Option.map_eq_some_iff.mp boxed
          have owner := Table.key_of_find? here
          refine ⟨_, b, here, same, ?_⟩
          rw [show b.boxType = messageBox from congrArg Prod.snd owner]
          exact own
        · cases found

theorem Filed.boxInD1 (filed : Filed vouched w) (weather : Weather) (recipient messageBox : String) :
    Filed vouched (w.boxInD1 weather recipient messageBox).2 :=
  ⟨filed.inD1.getOrCreateMessageBox (weather.box recipient) recipient messageBox, filed.onHubs⟩

theorem Filed.insertInD1 (filed : Filed vouched w) (weather : Weather) {messageId messageBox : String} {boxId : Nat}
    {sender recipient : String} (body : String) (beefKey : Option String)
    (boxed : Database.findMessageBox w.db recipient messageBox = some boxId)
    (own : vouched messageBox recipient messageId sender (some body)) :
    Filed vouched (w.insertInD1 weather messageId boxId sender recipient body beefKey).2 :=
  ⟨filed.inD1.insertMessage (weather.insert messageId)
    (Database.paidRow messageId boxId sender recipient body beefKey weather.nowMs) boxed own, filed.onHubs⟩

theorem Filed.setHub (filed : Filed vouched w) {recipient : String} {hub : Mailbox.Store}
    (kept : ∀ id r, hub.find? id = some r → vouched r.messageBox recipient r.messageId r.sender r.body) :
    Filed vouched (w.setHub recipient hub) := by
  refine ⟨filed.inD1, fun owner id r found => ?_⟩
  by_cases same : owner = recipient
  · subst same
    simp only [World.setHub, Function.update_self] at found
    exact kept id r found
  · simp only [World.setHub, Function.update_of_ne same] at found
    exact filed.onHubs owner id r found

theorem Filed.insertOnHub (filed : Filed vouched w) (fate : HopFate) (row : Mailbox.NewRow) (recipient : String)
    (nowMs : Nat) (own : vouched row.messageBox recipient row.messageId row.sender (some row.body)) :
    Filed vouched (w.setHub recipient (Send.insertOnHub fate row recipient nowMs (w.hubs recipient)).2) := by
  apply filed.setHub
  intro id r found
  rcases (insertOnHub_spec fate row recipient nowMs (w.hubs recipient)).1 with same | ⟨free, same⟩
  · rw [same] at found
    exact filed.onHubs recipient id r found
  · rw [same, Mailbox.Store.find?_append free] at found
    split at found
    · cases found
      exact own
    · exact filed.onHubs recipient id r found

end Kept

section Sent
variable {vouched : Vouching} {w : World} {path : StorePath} {weather : Weather} {messageBox : String} {ctx : Context}

/-- Finding a row's box keeps what is filed, and over D1 the box is the one the row goes in. -/
theorem filed_boxOf (filed : Filed vouched w)
    (known : ∀ id, path = .d1 → ctx.boxId = some id → Database.findMessageBox w.db ctx.recipient messageBox = some id) :
    let out := boxOf (storeOf path weather messageBox) messageBox ctx w
    Filed vouched out.2 ∧ Grows w out.2 ∧ ∀ id, out.1 = .ok id → path = .d1 →
      Database.findMessageBox out.2.db ctx.recipient messageBox = some id := by
  intro out
  simp only [out, boxOf]
  cases found : ctx.boxId with
  | some id =>
    refine ⟨filed, Grows.refl w, fun id' done d1 => ?_⟩
    cases done
    exact known id d1 found
  | none =>
    cases path with
    | mailbox => exact ⟨filed, Grows.refl w, fun _ _ no => by cases no⟩
    | d1 =>
      obtain ⟨grows, made⟩ := grows_boxInD1 w weather ctx.recipient messageBox
      exact ⟨filed.boxInD1 weather ctx.recipient messageBox, grows, fun id done _ => made id done⟩

theorem filed_insertMessage (filed : Filed vouched w) {messageId sender recipient : String} {boxId : Nat}
    (body : String) (beefKey : Option String)
    (boxed : path = .d1 → Database.findMessageBox w.db recipient messageBox = some boxId)
    (own : vouched messageBox recipient messageId sender (some body)) :
    Filed vouched
      ((storeOf path weather messageBox).insertMessage messageId boxId sender recipient body beefKey w).2 := by
  cases path with
  | d1 => exact filed.insertInD1 weather body beefKey (boxed rfl) own
  | mailbox =>
    change Filed vouched (w.insertInMailbox weather messageBox messageId sender recipient body beefKey).2
    unfold World.insertInMailbox
    split
    · have made := (grows_boxInD1 w weather recipient messageBox).2
      have kept := filed.boxInD1 weather recipient messageBox
      split
      · rename_i out
        rw [out] at kept
        exact kept
      · rename_i id w' out
        rw [out] at kept made
        exact kept.insertInD1 weather body beefKey (made id rfl) own
    · exact filed.insertOnHub (weather.hop messageId) ⟨messageId, messageBox, sender, body⟩ recipient weather.nowMs own

/-- The loop files its rows in the send's box. -/
theorem filed_insertRows {writing : Writing} {contexts : List Context} (progress : Progress) (filed : Filed vouched w)
    (known : ∀ ctx ∈ contexts, ∀ id, path = .d1 → ctx.boxId = some id →
      Database.findMessageBox w.db ctx.recipient writing.messageBox = some id)
    (own : ∀ ctx ∈ contexts, vouched writing.messageBox ctx.recipient ctx.messageId writing.sender
      (some (writing.rowBody ctx.recipient))) :
    Filed vouched (insertRows (storeOf path weather writing.messageBox) writing contexts progress w).2.2 := by
  induction contexts generalizing progress w with
  | nil => exact filed
  | cons ctx rest ih =>
    have boxed := @filed_boxOf _ _ path weather writing.messageBox ctx filed (known ctx (List.mem_cons_self ..))
    simp only [insertRows]
    generalize boxOf (storeOf path weather writing.messageBox) writing.messageBox ctx w = box at boxed ⊢
    obtain ⟨boxAnswer, w₁⟩ := box
    obtain ⟨filed₁, grows₁, made⟩ := boxed
    cases boxAnswer with
    | error e => exact filed₁
    | ok boxId =>
      have inserted := @filed_insertMessage _ _ path weather _ filed₁ ctx.messageId writing.sender ctx.recipient boxId
        (writing.rowBody ctx.recipient) (writing.beefKey ctx.recipient) (made boxId rfl)
        (own ctx (List.mem_cons_self ..))
      have grows₂ := (grows_insertMessage path weather w₁
        ⟨ctx.messageId, ctx.recipient, writing.messageBox, writing.sender, writing.body⟩ boxId
        (writing.paid ctx.recipient) (writing.beefKey ctx.recipient)).1
      change Grows w₁ ((storeOf path weather writing.messageBox).insertMessage ctx.messageId boxId writing.sender
        ctx.recipient (writing.rowBody ctx.recipient) (writing.beefKey ctx.recipient) w₁).2 at grows₂
      simp only at inserted grows₂ ⊢
      generalize (storeOf path weather writing.messageBox).insertMessage ctx.messageId boxId writing.sender
        ctx.recipient (writing.rowBody ctx.recipient) (writing.beefKey ctx.recipient) w₁ = out at inserted grows₂ ⊢
      obtain ⟨answer, w₂⟩ := out
      cases answer with
      | error e => exact inserted
      | ok result =>
        cases result with
        | stored =>
          apply ih (progress.stored writing ctx) inserted
          · intro other member id d1 found
            exact (grows₁.trans grows₂).boxes _ _ _ (known other (List.mem_cons_of_mem _ member) id d1 found)
          · exact fun other member => own other (List.mem_cons_of_mem _ member)
        | duplicate => exact inserted
        | full body => exact inserted

/-- A send files its rows in its box, each for one of its recipients. -/
theorem filed_processSend {request : ValidatedSendMessage} {sender : String} (filed : Filed vouched w)
    (own : ∀ pair ∈ request.recipients, ∀ paid,
      vouched request.messageBox pair.1 pair.2 sender (some (storedBody request.body paid))) :
    Filed vouched (processSend path weather request sender w).2.2 := by
  have read := @prepare_storeOf path weather request sender w
  simp only [processSend, storeRows]
  generalize prepare (storeOf path weather request.messageBox) request sender w = prepared at read ⊢
  obtain ⟨result, w'⟩ := prepared
  obtain ⟨same, ready⟩ := read
  simp only at same
  subst same
  cases result with
  | error outcome => exact filed
  | ok made =>
    obtain ⟨writing, contexts⟩ := made
    obtain ⟨from', box, message, pairs, boxes⟩ := ready writing contexts rfl
    have looped := @filed_insertRows _ _ path weather writing contexts ⟨[], 0, ⟨[], []⟩⟩ filed
      (fun ctx member id d1 found => by rw [box, ← boxes ctx member d1, found])
      (fun ctx member => by
        rw [from', box, Writing.rowBody, message]
        exact own (ctx.recipient, ctx.messageId) (pairs ▸ List.mem_map_of_mem member) (writing.paid ctx.recipient))
    rw [box] at looped
    exact looped

end Sent

/-! The doors. -/

/-- What passes the refusal and the checks goes to a box that is not the service's. -/
theorem ordinary_of_validated {body : Value} {validated : ValidatedSendMessage}
    (passed : firstPartyBoxRefusal body = none) (accepted : validateSendValue body = .ok validated) :
    isFirstPartyBox validated.messageBox = false := by
  unfold validateSendValue at accepted
  split at accepted
  · cases accepted
  · rename_i message there
    cases named : messageBoxOf message with
    | error refused =>
      rw [named] at accepted
      cases accepted
    | ok messageBox =>
      have same : validated.messageBox = messageBox := by
        rw [named] at accepted
        simp only [bind, Except.bind] at accepted
        iterate 4 (split at accepted; · cases accepted)
        cases accepted
        rfl
      have text : (message.get "messageBox").bind Value.asStr = some messageBox := by
        unfold messageBoxOf at named
        split at named
        · cases named
        · split at named
          · cases named
          · rename_i found
            cases named
            exact (Option.filter_eq_some_iff.mp found).1
      rw [firstPartyBoxRefusal, there, Option.getD_some, text, Option.bind_some, Option.map_eq_none_iff,
        firstPartyBoxReason] at passed
      rw [same]
      by_contra first
      rw [if_pos (by simpa using first)] at passed
      cases passed

theorem ordinary_of_live {sender room : String} {message : ClientSendMessage} {payment : Option Value}
    {validated : ValidatedSendMessage} (accepted : validateWsSend sender room message payment = .ok validated) :
    isFirstPartyBox validated.messageBox = false := by
  unfold validateWsSend at accepted
  split at accepted
  · cases accepted
  · split at accepted
    · cases accepted
    · split at accepted
      · cases accepted
      · split at accepted
        · cases accepted
        · rename_i ordinary
          iterate 2 (split at accepted; · cases accepted)
          cases accepted
          simpa using ordinary

section Doors
variable (range : Range) (sha256 : Bytes → Bytes) (path : StorePath) (prefixes : List String) (token : String)

/-- The service sent a message to a recipient's box in a sender's name, and a body is of that message. -/
def SentByService (log : List DoorEvent) : Vouching := fun box recipient id sender body =>
  ∃ request : ValidatedSendMessage, (.pushed sender request ∈ log ∨ ∃ owner, .laddered owner sender request ∈ log) ∧
    request.messageBox = box ∧ (recipient, id) ∈ request.recipients ∧
    ∀ text ∈ body, ∃ paid, text = storedBody request.body paid

/-- What is in a box of the service's was sent by it. -/
def FirstParty (log : List DoorEvent) : Vouching := fun box recipient id sender body =>
  isFirstPartyBox box = true → SentByService log box recipient id sender body

variable {range sha256 path prefixes token} {log : List DoorEvent} {w : World}

theorem Filed.ordinary (filed : Filed (FirstParty log) w) {weather : Weather} {request : ValidatedSendMessage}
    {sender : String} (box : isFirstPartyBox request.messageBox = false) :
    Filed (FirstParty log) (processSend path weather request sender w).2.2 := by
  apply filed_processSend filed
  intro pair _ _ first
  rw [box] at first
  cases first

theorem Filed.logged (filed : Filed (FirstParty log) w) (events : List DoorEvent) :
    Filed (FirstParty (log ++ events)) w := by
  apply filed.widen
  intro box recipient id sender body own first
  obtain ⟨request, told, named⟩ := own first
  refine ⟨request, told.imp (fun told => List.mem_append_left _ told) ?_, named⟩
  rintro ⟨owner, told⟩
  exact ⟨owner, List.mem_append_left _ told⟩

theorem filed_filePush (filed : Filed (FirstParty log) w) {event : String → ValidatedSendMessage → DoorEvent}
    (service : (∀ sender request, event sender request = .pushed sender request) ∨
      ∃ owner, ∀ sender request, event sender request = .laddered owner sender request)
    (raw : Text) (nowMs : Nat) (weather : Weather) :
    let out := filePush range sha256 path event raw nowMs weather w
    Filed (FirstParty (log ++ out.2)) out.1 := by
  intro out
  simp only [out, filePush]
  split
  · exact filed.logged []
  · rename_i sender body split'
    simp only [handleSendMessage, handleSendBody, validateSendMessage]
    cases readSendBody range body with
    | error refused => exact filed.logged []
    | ok value =>
      simp only
      cases validateSendValue value with
      | error refused => exact filed.logged []
      | ok request =>
        apply filed_processSend (filed.logged [event sender request])
        intro pair member paid _
        have last : event sender request ∈ log ++ [event sender request] :=
          List.mem_append_right _ (List.mem_singleton.mpr rfl)
        refine ⟨request, ?_, rfl, member, fun text same => ⟨paid, (Option.some.inj same).symm⟩⟩
        rcases service with same | ⟨owner, same⟩
        · exact .inl (same sender request ▸ last)
        · exact .inr ⟨owner, same sender request ▸ last⟩

theorem filed_acknowledgeMessages {vouched : Vouching} {db : Database.Store} (filed : FiledInD1 vouched db)
    (recipient : String) (ids : List String) (nowMs : Nat) :
    FiledInD1 vouched (Database.acknowledgeMessages prefixes db recipient ids nowMs) := by
  refine ⟨filed.apart, filed.below, fun id r found => ?_⟩
  rw [Database.row?_acknowledgeMessages] at found
  obtain ⟨marked, -⟩ := Option.filter_eq_some_iff.mp found
  obtain ⟨old, there, rfl⟩ := Option.map_eq_some_iff.mp marked
  obtain ⟨o, b, boxed, same, own⟩ := filed.rows id old there
  obtain ⟨sender, toward, text⟩ := Database.markAcknowledged_keeps prefixes recipient ids nowMs db old
  refine ⟨o, b, boxed, ?_, ?_⟩
  · rw [same, (Database.markAcknowledged_placed prefixes recipient ids nowMs db old).2]
  · rw [sender, toward, text, Database.markAcknowledged_messageId]
    exact own

/-- An acknowledgment may drop a row's body, and changes nothing else a row is vouched for by. -/
theorem ackRow_keeps (ids : List String) (nowMs : Nat) (r : Mailbox.Row) :
    (Mailbox.ackRow ids nowMs r).messageBox = r.messageBox ∧ (Mailbox.ackRow ids nowMs r).messageId = r.messageId ∧
      (Mailbox.ackRow ids nowMs r).sender = r.sender ∧ ∀ text ∈ (Mailbox.ackRow ids nowMs r).body, text ∈ r.body := by
  unfold Mailbox.ackRow
  split
  · refine ⟨rfl, rfl, rfl, fun text held => ?_⟩
    simp only [Mailbox.Row.acknowledge] at held
    split at held
    · cases held
    · exact held
  · exact ⟨rfl, rfl, rfl, fun _ held => held⟩

/-- No door files a row in a box of the service's but the service's own. -/
theorem filed_step (filed : Filed (FirstParty log) w) (input : DoorInput) :
    Filed (FirstParty (log ++ (doorStep range sha256 path prefixes token w input).2))
      (doorStep range sha256 path prefixes token w input).1 := by
  cases input with
  | post sender raw weather =>
    apply Filed.logged
    simp only [doorStep, postSendMessage, handleSendBody]
    cases readSendBody range raw with
    | error refused => exact filed
    | ok body =>
      simp only
      split
      · exact filed
      · rename_i passed
        cases accepted : validateSendValue body with
        | error refused => exact filed
        | ok validated => exact filed.ordinary (ordinary_of_validated passed accepted)
  | live sender room message payment weather =>
    apply Filed.logged
    simp only [doorStep, processSendMessage]
    cases accepted : validateWsSend sender room message payment with
    | error refused => exact filed
    | ok validated => exact filed.ordinary (ordinary_of_live accepted)
  | push header raw nowMs weather =>
    rw [doorStep]
    split
    · exact filed_filePush filed (.inl fun _ _ => rfl) raw nowMs weather
    · exact filed.logged []
  | ladder owner peer room deadlineMs nowMs weather =>
    rw [doorStep]
    split
    · exact filed.logged []
    · exact filed_filePush filed (.inr ⟨owner, fun _ _ => rfl⟩) _ nowMs weather
  | acknowledgeInD1 recipient ids nowMs =>
    apply Filed.logged
    exact ⟨filed_acknowledgeMessages filed.inD1 recipient ids nowMs, filed.onHubs⟩
  | acknowledgeOnHub recipient ids retry nowMs =>
    apply Filed.logged
    apply filed.setHub
    intro id r found
    rw [Mailbox.acknowledge_find?] at found
    obtain ⟨old, there, rfl⟩ := Option.map_eq_some_iff.mp found
    obtain ⟨box, named, sender, text⟩ := ackRow_keeps ids nowMs old
    rw [box, named, sender]
    intro first
    obtain ⟨request, told, inBox, to', message⟩ := filed.onHubs recipient id old there first
    exact ⟨request, told, inBox, to', fun body held => message body (text body held)⟩

/-- A row that a box shows is vouched for in it. -/
theorem Filed.shown {vouched : Vouching} (filed : Filed vouched w) {recipient messageBox : String}
    {m : Mailbox.MessageDbRow} (shows : m ∈ Send.shown w recipient messageBox) :
    ∃ id sender, m.messageId = some id ∧ m.sender = some sender ∧ vouched messageBox recipient id sender m.body := by
  rcases List.mem_append.mp shows with inD1 | onHub
  · unfold Database.listMessages at inD1
    split at inD1
    · rename_i boxId boxed
      obtain ⟨r, picked, rfl⟩ := List.mem_map.mp inD1
      have live := List.mem_of_mem_take ((Mailbox.withinBudget_sublist _ _ 0 _).subset picked)
      obtain ⟨member, fits⟩ := List.mem_filter.mp live
      obtain ⟨toward, box, -⟩ := of_decide_eq_true fits
      obtain ⟨o, b, there, same, own⟩ := filed.inD1.rows r.messageId r
        ((w.db.messages.find?_eq_some _ r).mpr ⟨member, rfl⟩)
      obtain ⟨b', there', same'⟩ := Option.map_eq_some_iff.mp boxed
      have one : b = b' := filed.inD1.apart _ _ b b' there there' (by rw [same, same', box])
      have owner := Table.key_of_find? there'
      have type : b.boxType = messageBox := by
        rw [one]
        exact congrArg Prod.snd owner
      rw [type, toward] at own
      exact ⟨r.messageId, r.sender, rfl, rfl, own⟩
    · cases inD1
  · obtain ⟨r, picked, rfl⟩ := List.mem_map.mp onHub
    have live := List.mem_of_mem_take ((Mailbox.withinBudget_sublist _ _ 0 _).subset picked)
    obtain ⟨member, fits⟩ := List.mem_filter.mp live
    obtain ⟨box, -⟩ := of_decide_eq_true fits
    have own := filed.onHubs recipient r.messageId r (((w.hubs recipient).rows.find?_eq_some _ r).mpr ⟨member, rfl⟩)
    rw [box] at own
    exact ⟨r.messageId, r.sender, rfl, rfl, own⟩

end Doors

/-- After any sends through any doors, whatever a box of the service's shows was sent by the service: that message, to
that recipient and box, under that id and in that sender's name. -/
theorem first_party_sent (range : Range) (sha256 : Bytes → Bytes) (path : StorePath) (prefixes : List String)
    (token : String) (inputs : List DoorInput) (recipient messageBox : String)
    (first : isFirstPartyBox messageBox = true) :
    let c := (doorMachine range sha256 path prefixes token).run ⟨World.empty, []⟩ inputs
    ∀ m ∈ shown c.state recipient messageBox, ∃ id sender, m.messageId = some id ∧ m.sender = some sender ∧
      SentByService c.log messageBox recipient id sender m.body := by
  intro c m shows
  have kept : Filed (FirstParty c.log) c.state :=
    @Machine.run_kept _ _ _ (doorMachine range sha256 path prefixes token) (fun c => Filed (FirstParty c.log) c.state)
      (fun _ input filed => filed_step filed input) ⟨World.empty, []⟩ filed_empty inputs
  obtain ⟨id, sender, named, from', own⟩ := kept.shown shows
  exact ⟨id, sender, named, from', own first⟩

/-- A written body is read as it is handed on. -/
theorem readSendBody_text {range : Range} {v : Value} (writable : Value.Writable range 127 v)
    (small : (utf8Bytes v.text).length ≤ sendBodyBytes) : readSendBody range (utf8Bytes v.text) = .ok (handed v) := by
  have read := @readSendBody_derives range [] (utf8Bytes v.text) [] v (by simpa using small) (by simp [Space])
    (by simp [Space]) writable.derives
  simpa using read

/-- A case filed in a seat's box by a producer. -/
def caseMessage : List (String × Value) :=
  [("body", .string "case"), ("messageBox", .string eventsBox), ("messageId", .string "m1"),
    ("recipient", .string bobKey)]

def pushedCase : DoorInput :=
  .push (some "Bearer token") (utf8Bytes (Value.object (caseMessage ++ [("sender", .string carolKey)])).text) 5 calm

def caseRequest : ValidatedSendMessage := ⟨[(bobKey, "m1")], eventsBox, .string "case", none⟩

theorem pushedCase_step : doorStep everyNumber (fun seed => seed) .d1 [] "token" World.empty pushedCase =
    ((processSend .d1 calm caseRequest carolKey World.empty).2.2, [.pushed carolKey caseRequest]) := by
  have strings {n : Nat} {fields : List (String × Value)} (plain : ∀ f ∈ fields, ∃ s, f.2 = .string s) :
      ∀ f ∈ fields, Value.Writable everyNumber n f.2 := by
    intro f member
    obtain ⟨s, text⟩ := plain f member
    rw [text]
    exact .string
  have whole : Value.Writable everyNumber 127 (.object (caseMessage ++ [("sender", .string carolKey)])) :=
    .object (by decide) (strings (by simp [caseMessage]))
  have message : Value.Writable everyNumber 126 (.object caseMessage) :=
    .object (by decide) (strings (by simp [caseMessage]))
  have wrapper : Value.Writable everyNumber 127 (.object [("message", .object caseMessage)]) :=
    .object (List.pairwise_singleton ..) (List.forall_mem_singleton.mpr message)
  have split' : splitPushBody everyNumber (fun seed => seed)
      (utf8Bytes (Value.object (caseMessage ++ [("sender", .string carolKey)])).text) 5 =
        .ok (carolKey, utf8Bytes (Value.object [("message", .object caseMessage)]).text) := by
    rw [splitPushBody, Value.fromSlice_text whole]
    rfl
  have read : readSendBody everyNumber (utf8Bytes (Value.object [("message", .object caseMessage)]).text) =
      .ok (.object [("message", .object caseMessage)]) := readSendBody_text wrapper (by decide +kernel)
  have accepted : validateSendValue (.object [("message", .object caseMessage)]) = .ok caseRequest := rfl
  simp only [doorStep, pushedCase]
  rw [if_pos (by decide), filePush, split']
  simp only [handleSendMessage, handleSendBody, validateSendMessage, read, accepted]

/-- The case that bob's box shows was pushed. -/
theorem pushedCase_sent :
    SentByService ((doorMachine everyNumber (fun seed => seed) .d1 [] "token").run ⟨World.empty, []⟩ [pushedCase]).log
      eventsBox bobKey "m1" carolKey (some (storedBody (.string "case") none)) := by
  have ran : (doorMachine everyNumber (fun seed => seed) .d1 [] "token").run ⟨World.empty, []⟩ [pushedCase] =
      ⟨(processSend .d1 calm caseRequest carolKey World.empty).2.2, [.pushed carolKey caseRequest]⟩ := by
    rw [Machine.run_cons, Machine.run_nil, Machine.advance, doorMachine]
    simp only [pushedCase_step, List.nil_append]
  have sent := first_party_sent everyNumber (fun seed => seed) .d1 [] "token" [pushedCase] bobKey eventsBox (by decide)
  simp only [ran] at sent ⊢
  obtain ⟨id, sender, named, from', own⟩ := sent ⟨some "m1", some (storedBody (.string "case") none), some carolKey,
    some (Mailbox.sqliteTime 1000), some (Mailbox.sqliteTime 1000)⟩ (List.mem_singleton.mpr rfl)
  cases named
  cases from'
  exact own

end MessageRelay.Send
