import MessageRelay.Library.Chains
import MessageRelay.Send.StoreRows

/-! What a send owes after its answer: a hub push for every row it stored, and nothing else. The store is watched as
the send calls it, and the pushes are run in chains, one a recipient. -/

namespace MessageRelay.Send
open MessageRelay.Library MessageRelay.Session

/-- A row the store answered as stored. -/
structure StoredRow where
  messageId : String
  boxId : Nat
  sender : String
  recipient : String
  body : String
  beefKey : Option String
  deriving DecidableEq, Repr

/-- What the store has answered: the rows it stored, and the id of each box it was asked for. -/
structure Watched where
  rows : List StoredRow
  boxes : List (String × String × Nat)
  deriving DecidableEq, Repr

namespace Watched

def box (seen : Watched) (recipient messageBox : String) (id : Option Nat) : Watched :=
  { seen with boxes := seen.boxes ++ (id.map (fun id => (recipient, messageBox, id))).toList }

def row (seen : Watched) (row : StoredRow) : Watched := { seen with rows := seen.rows ++ [row] }

end Watched

/-- The same store, its answers written down. -/
def watching {σ : Type} (store : SendStore σ) : SendStore (σ × Watched) where
  boxOff := store.boxOff
  readSendContext recipient sender messageBox := fun (s, seen) =>
    match store.readSendContext recipient sender messageBox s with
    | (.ok ctx, s) => (.ok ctx, s, seen.box recipient messageBox ctx.boxId)
    | (.error e, s) => (.error e, s, seen)
  charge sender bytes := fun (s, seen) => ((store.charge sender bytes s).1, (store.charge sender bytes s).2, seen)
  settle payment r2Key fees deliveryFee sender := fun (s, seen) =>
    ((store.settle payment r2Key fees deliveryFee sender s).1,
      (store.settle payment r2Key fees deliveryFee sender s).2, seen)
  getOrCreateMessageBox recipient messageBox := fun (s, seen) =>
    match store.getOrCreateMessageBox recipient messageBox s with
    | (.ok id, s) => (.ok id, s, seen.box recipient messageBox (some id))
    | (.error e, s) => (.error e, s, seen)
  insertMessage messageId boxId sender recipient body beefKey := fun (s, seen) =>
    match store.insertMessage messageId boxId sender recipient body beefKey s with
    | (.ok .stored, s) => (.ok .stored, s, seen.row ⟨messageId, boxId, sender, recipient, body, beefKey⟩)
    | (answer, s) => (answer, s, seen)
  forgetUnnamed rowsNaming handed r2Key failed := fun (s, seen) =>
    (store.forgetUnnamed rowsNaming handed r2Key failed s, seen)

/-- The push carries what the row was stored with. -/
structure Carries (request : ValidatedSendMessage) (sender : String) (seen : Watched) (row : StoredRow)
    (push : HubPush) : Prop where
  recipient : push.recipient = row.recipient
  messageId : push.messageId = row.messageId
  sender : push.sender = row.sender ∧ row.sender = sender
  box : push.messageBox = request.messageBox ∧ (row.recipient, push.messageBox, row.boxId) ∈ seen.boxes
  body : push.body = request.body ∧ ∃ paid, row.body = storedBody push.body paid

/-- How a push ends. -/
inductive PushEnd where
  | ok
  | err (e : String)
  | timeout
  deriving DecidableEq, Repr

/-- The pushes of one send, in chains by their recipient. -/
def fanOut (pushes : List HubPush) : Config (List (Chain HubPush)) (ChainEvent HubPush PushEnd) :=
  Chains.start HubPush.recipient pushes

section
variable {σ : Type} (store : SendStore σ)

/-- The boxes of the recipients that may be sent to are the ones the store named. -/
def Placed (messageBox : String) (seen : Watched) (contexts : List Context) : Prop :=
  ∀ ctx ∈ contexts, ∀ id, ctx.boxId = some id → (ctx.recipient, messageBox, id) ∈ seen.boxes

theorem mem_box {seen : Watched} {entry : String × String × Nat} (member : entry ∈ seen.boxes)
    (recipient messageBox : String) (id : Option Nat) : entry ∈ (seen.box recipient messageBox id).boxes :=
  List.mem_append_left _ member

theorem mem_box_self (seen : Watched) (recipient messageBox : String) (id : Nat) :
    (recipient, messageBox, id) ∈ (seen.box recipient messageBox (some id)).boxes := by
  simp [Watched.box]

theorem readContexts_watching (sender messageBox : String) (recipients : List (String × String))
    (contexts : Contexts) (s : σ) (seen : Watched) (placed : Placed messageBox seen contexts.allowed) :
    ∃ seen', readContexts (watching store) sender messageBox recipients contexts (s, seen) =
        ((readContexts store sender messageBox recipients contexts s).1,
          (readContexts store sender messageBox recipients contexts s).2, seen') ∧
      seen'.rows = seen.rows ∧
      ∀ found, (readContexts store sender messageBox recipients contexts s).1 = .ok found →
        Placed messageBox seen' found.allowed := by
  induction recipients generalizing contexts s seen with
  | nil =>
    refine ⟨seen, rfl, rfl, ?_⟩
    rintro found ⟨⟩
    exact placed
  | cons pair rest ih =>
    obtain ⟨recipient, messageId⟩ := pair
    simp only [readContexts, watching]
    cases read : store.readSendContext recipient sender messageBox s with
    | mk answer s' =>
      cases answer with
      | error e => exact ⟨seen, rfl, rfl, fun _ found => by cases found⟩
      | ok ctx =>
        have kept : Placed messageBox (seen.box recipient messageBox ctx.boxId) contexts.allowed :=
          fun ctx member id named => mem_box (placed ctx member id named) ..
        by_cases blocked : ctx.recipientFee < 0
        · simp only [blocked, if_true]
          exact ih _ _ _ kept
        · simp only [blocked, if_false]
          apply ih
          intro ctx' member id named
          rcases List.mem_append.mp member with before | now
          · exact kept ctx' before id named
          · obtain rfl := List.mem_singleton.mp now
            simp only at named
            rw [named]
            exact mem_box_self ..

theorem settlePayment_watching (request : ValidatedSendMessage) (sender : String) (contexts : Contexts) (s : σ)
    (seen : Watched) : settlePayment (watching store) request sender contexts (s, seen) =
      ((settlePayment store request sender contexts s).1, (settlePayment store request sender contexts s).2, seen) := by
  simp only [settlePayment]
  split
  · cases request.payment with
    | none => rfl
    | some payment =>
      simp only
      cases decideR2Fetch payment sender with
      | error answer => rfl
      | ok r2Key =>
        simp only [watching]
        generalize store.settle payment r2Key _ contexts.deliveryFee sender s = settled
        obtain ⟨answer, s'⟩ := settled
        cases answer <;> rfl
  · rfl

/-- Watching changes nothing before the rows, and stores none. -/
theorem prepare_watching (request : ValidatedSendMessage) (sender : String) (s : σ) :
    ∃ seen, prepare (watching store) request sender (s, ⟨[], []⟩) =
        ((prepare store request sender s).1, (prepare store request sender s).2, seen) ∧
      seen.rows = [] ∧
      ∀ writing contexts, (prepare store request sender s).1 = .ok (writing, contexts) →
        Placed request.messageBox seen contexts ∧ writing.sender = sender ∧
          writing.messageBox = request.messageBox ∧ writing.body = request.body := by
  simp only [prepare, show (watching store).boxOff = store.boxOff from rfl]
  by_cases off : store.boxOff request.messageBox
  · rw [if_pos off, if_pos off]
    exact ⟨_, rfl, rfl, fun _ _ came => by cases came⟩
  · rw [if_neg off, if_neg off]
    obtain ⟨seen, read, rows, placed⟩ := readContexts_watching store sender request.messageBox request.recipients
      ⟨[], [], 0⟩ s ⟨[], []⟩ (fun _ member => absurd member List.not_mem_nil)
    rw [read]
    cases found : readContexts store sender request.messageBox request.recipients ⟨[], [], 0⟩ s with
    | mk answer s₁ =>
      rw [found] at placed
      cases answer with
      | error e => exact ⟨seen, rfl, rows, fun _ _ came => by cases came⟩
      | ok contexts =>
        simp only
        by_cases blocked : contexts.blocked ≠ []
        · rw [if_pos blocked, if_pos blocked]
          exact ⟨seen, rfl, rows, fun _ _ came => by cases came⟩
        · rw [if_neg blocked, if_neg blocked]
          simp only [show ∀ sender bytes, (watching store).charge sender bytes (s₁, seen) =
            ((store.charge sender bytes s₁).1, (store.charge sender bytes s₁).2, seen) from fun _ _ => rfl]
          cases store.charge sender (unjudged request contexts.deliveryFee) s₁ with
          | mk charged s₂ =>
            cases charged with
            | error answer => exact ⟨seen, rfl, rows, fun _ _ came => by cases came⟩
            | ok _ =>
              simp only [settlePayment_watching]
              cases settlePayment store request sender contexts s₂ with
              | mk settled s₃ =>
                cases settled with
                | error answer => exact ⟨seen, rfl, rows, fun _ _ came => by cases came⟩
                | ok paid =>
                  refine ⟨seen, rfl, rows, ?_⟩
                  rintro writing allowed ⟨⟩
                  exact ⟨placed contexts rfl, rfl, rfl, rfl⟩

/-- The pushes owed are those of the rows stored, one each, in the order stored. -/
structure Owes (request : ValidatedSendMessage) (sender : String) (seen : Watched) (after : AfterAnswer) : Prop where
  pushes : List.Forall₂ (Carries request sender seen) seen.rows after.pushes
  fcm : after.fcm = if shouldUseFcmDelivery request.messageBox then
    seen.rows.map (fun row => ⟨row.recipient, row.messageId⟩) else []

variable {request : ValidatedSendMessage} {sender : String}

theorem Owes.box {seen : Watched} {after : AfterAnswer} (owes : Owes request sender seen after)
    (recipient messageBox : String) (id : Option Nat) :
    Owes request sender (seen.box recipient messageBox id) after where
  pushes := owes.pushes.imp (fun _ _ carries => { carries with box := ⟨carries.box.1, mem_box carries.box.2 ..⟩ })
  fcm := owes.fcm

theorem boxOf_watching (ctx : Context) (s : σ) {seen : Watched} {rest : List Context} {after : AfterAnswer}
    (placed : Placed request.messageBox seen (ctx :: rest)) (owes : Owes request sender seen after) :
    ∃ seen', boxOf (watching store) request.messageBox ctx (s, seen) =
        ((boxOf store request.messageBox ctx s).1, (boxOf store request.messageBox ctx s).2, seen') ∧
      Placed request.messageBox seen' rest ∧ Owes request sender seen' after ∧
      ∀ id, (boxOf store request.messageBox ctx s).1 = .ok id →
        (ctx.recipient, request.messageBox, id) ∈ seen'.boxes := by
  have later : Placed request.messageBox seen rest := fun ctx member => placed ctx (List.mem_cons_of_mem _ member)
  unfold boxOf
  cases known : ctx.boxId with
  | some id =>
    refine ⟨seen, rfl, later, owes, ?_⟩
    rintro _ ⟨⟩
    exact placed ctx List.mem_cons_self id known
  | none =>
    simp only [watching]
    cases store.getOrCreateMessageBox ctx.recipient request.messageBox s with
    | mk answer s' =>
      cases answer with
      | error e => exact ⟨seen, rfl, later, owes, fun _ came => by cases came⟩
      | ok id =>
        refine ⟨_, rfl, fun ctx member id named => mem_box (later ctx member id named) .., owes.box .., ?_⟩
        rintro _ ⟨⟩
        exact mem_box_self ..

/-- A row the store answered as stored leaves its push behind the others. -/
theorem Owes.stored {seen : Watched} {p : Progress} (owes : Owes request sender seen p.after) {writing : Writing}
    (fromSender : writing.sender = sender) (toBox : writing.messageBox = request.messageBox)
    (ofBody : writing.body = request.body) {ctx : Context} {row : StoredRow}
    (wrote : row = ⟨ctx.messageId, row.boxId, writing.sender, ctx.recipient, writing.rowBody ctx.recipient,
      writing.beefKey ctx.recipient⟩)
    (named : (ctx.recipient, request.messageBox, row.boxId) ∈ seen.boxes) :
    Owes request sender (seen.row row) (p.stored writing ctx).after where
  pushes := by
    have before : List.Forall₂ (Carries request sender (seen.row row)) seen.rows p.after.pushes :=
      owes.pushes.imp (fun _ _ carries => { carries with box := carries.box })
    have own : Carries request sender (seen.row row) row
        ⟨ctx.recipient, writing.messageBox, writing.sender, ctx.messageId, writing.body⟩ := by
      rw [wrote]
      refine ⟨rfl, rfl, ⟨rfl, fromSender⟩, ⟨toBox, ?_⟩, ofBody, writing.paid ctx.recipient, rfl⟩
      rw [toBox]
      exact named
    exact List.rel_append before (List.Forall₂.cons own List.Forall₂.nil)
  fcm := by
    simp only [Progress.stored, toBox, owes.fcm, Watched.row]
    rw [wrote]
    split <;> simp

/-- The loop stops at the first row that is not stored, and keeps the pushes of the rows before it. -/
theorem insertRows_watching {writing : Writing} (fromSender : writing.sender = sender)
    (toBox : writing.messageBox = request.messageBox) (ofBody : writing.body = request.body)
    (contexts : List Context) (p : Progress) (s : σ) (seen : Watched)
    (placed : Placed request.messageBox seen contexts) (owes : Owes request sender seen p.after) :
    ∃ seen', insertRows (watching store) writing contexts p (s, seen) =
        ((insertRows store writing contexts p s).1, (insertRows store writing contexts p s).2.1,
          (insertRows store writing contexts p s).2.2, seen') ∧
      Owes request sender seen' (insertRows store writing contexts p s).2.1 := by
  induction contexts generalizing p s seen with
  | nil => exact ⟨seen, rfl, owes⟩
  | cons ctx rest ih =>
    obtain ⟨seen₁, boxed, placed₁, owes₁, named⟩ := boxOf_watching store ctx s placed owes
    simp only [insertRows, toBox, boxed]
    cases found : boxOf store request.messageBox ctx s with
    | mk answer s₁ =>
      rw [found] at named
      cases answer with
      | error e => exact ⟨seen₁, rfl, owes₁⟩
      | ok id =>
        simp only [watching]
        cases store.insertMessage ctx.messageId id writing.sender ctx.recipient (writing.rowBody ctx.recipient)
          (writing.beefKey ctx.recipient) s₁ with
        | mk inserted s₂ =>
          cases inserted with
          | error e => exact ⟨seen₁, rfl, owes₁⟩
          | ok insert =>
            cases insert with
            | duplicate => exact ⟨seen₁, rfl, owes₁⟩
            | full body => exact ⟨seen₁, rfl, owes₁⟩
            | stored =>
              exact ih (p.stored writing ctx) s₂ _ (fun ctx member id known => placed₁ ctx member id known)
                (owes₁.stored fromSender toBox ofBody rfl (named id rfl))

end

/-- What a send leaves, over any store, and what its deferred run does with it. -/
structure PushesOwed {σ : Type} (store : SendStore σ) (request : ValidatedSendMessage) (sender : String) (s : σ) :
    Prop where
  owed : ∃ seen, storeRows (watching store) request sender (s, ⟨[], []⟩) =
      ((storeRows store request sender s).1, (storeRows store request sender s).2.1,
        (storeRows store request sender s).2.2, seen) ∧
    Owes request sender seen (storeRows store request sender s).2.1
  inOrder : ∀ polls recipient, let pushes := (storeRows store request sender s).2.1.pushes
    let log := (Chains.machine.run (fanOut pushes) polls).log
    Chains.ofLane HubPush.recipient recipient (Chains.startedJobs log) <+:
      Chains.ofLane HubPush.recipient recipient pushes
  once : ∀ polls recipient, let pushes := (storeRows store request sender s).2.1.pushes
    Chains.Finished (Chains.machine.run (fanOut pushes) polls).state →
      let log := (Chains.machine.run (fanOut pushes) polls).log
      Chains.ofLane HubPush.recipient recipient (Chains.startedJobs log) =
          Chains.ofLane HubPush.recipient recipient pushes ∧
        Chains.ofLane HubPush.recipient recipient (Chains.endedJobs log) =
          Chains.ofLane HubPush.recipient recipient pushes
  ends : ∀ schedule : Nat → Nat × PushEnd, (∀ i n, ∃ m, n ≤ m ∧ (schedule m).1 = i) →
    let pushes := (storeRows store request sender s).2.1.pushes
    ∃ n, Chains.Finished (Chains.machine.run (fanOut pushes) ((List.range n).map schedule)).state

/-- Every row stored, and no other, leaves one push in the order stored, and the deferred run starts and ends each
push once, a recipient's in that order. -/
theorem stored_rows_pushed_once {σ : Type} (store : SendStore σ) (request : ValidatedSendMessage) (sender : String)
    (s : σ) : PushesOwed store request sender s where
  owed := by
    obtain ⟨seen, prepared, rows, writes⟩ := prepare_watching store request sender s
    have nothing : Owes request sender seen ⟨[], []⟩ := ⟨rows ▸ List.Forall₂.nil, by simp [rows]⟩
    simp only [storeRows, prepared]
    cases came : prepare store request sender s with
    | mk answer s' =>
      rw [came] at writes
      cases answer with
      | error outcome => exact ⟨seen, rfl, nothing⟩
      | ok pair =>
        obtain ⟨placed, fromSender, toBox, ofBody⟩ := writes pair.1 pair.2 rfl
        exact insertRows_watching store fromSender toBox ofBody pair.2 ⟨[], 0, ⟨[], []⟩⟩ s' seen placed nothing
  inOrder polls recipient := (Chains.started_in_order polls recipient).1
  once polls recipient finished := Chains.finished_once polls recipient finished
  ends schedule fair := Chains.fair_finishes schedule fair _

end MessageRelay.Send
