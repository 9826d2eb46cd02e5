import MessageRelay.Send.Inserts

/-! A send repeated until it is answered. The rows an attempt stored before it failed stay, and the repeat meets
them first: a duplicate at the first of them ends the send, and with it the recipients behind. -/

namespace MessageRelay.Send
open MessageRelay.Library MessageRelay.Session

/-! The rows a request has left, from its first attempt to its answer. -/

/-- A row some send wrote is there. The archive's copies of mailbox rows do not count. -/
def World.sent (w : World) (place : Place) (recipient id : String) : Bool :=
  (w.rowAt place recipient id).any (fun held => !held.archived)

/-- The rows a recipient holds of a sender's send. -/
def World.copies (w : World) (sender recipient id : String) : Nat :=
  (w.db.messages.rows.filter (fun r => decide (r.messageId = id) &&
      (r.recipient = recipient && r.sender = sender && r.archiveVersion = 0))).length +
    ((w.hubs recipient).rows.rows.filter (fun r => decide (r.messageId = id) && r.sender = sender)).length

/-- The rows under the request's ids are the request's own, none is in both tables, and the archive has only
copies of what a mailbox holds. -/
structure Sound (request : ValidatedSendMessage) (sender : String) (w : World) : Prop where
  own : ∀ p ∈ request.recipients, ∀ place held, w.rowAt place p.1 p.2 = some held →
    held.recipient = p.1 ∧ held.sender = sender
  once : ∀ p ∈ request.recipients, w.sent .hub p.1 p.2 = true → w.sent .d1 p.1 p.2 = false
  copied : ∀ p ∈ request.recipients, ∀ held, w.rowAt .d1 p.1 p.2 = some held → held.archived = true →
    w.sent .hub p.1 p.2 = true

/-- The recipient has its row. -/
def World.has (w : World) (p : String × String) : Bool := w.sent .d1 p.1 p.2 || w.sent .hub p.1 p.2

theorem Sound.copies {request : ValidatedSendMessage} {sender : String} {w : World} (sound : Sound request sender w)
    {p : String × String} (member : p ∈ request.recipients) (has : w.has p = true) : w.copies sender p.1 p.2 = 1 := by
  have d1 : (w.db.messages.rows.filter (fun r => decide (r.messageId = p.2) &&
      (r.recipient = p.1 && r.sender = sender && r.archiveVersion = 0))).length =
        if w.sent .d1 p.1 p.2 then 1 else 0 := by
    have own := sound.own p member .d1
    refine (Table.length_filter_key w.db.messages p.2 _).trans (congrArg (fun b : Bool => if b then 1 else 0) ?_)
    change (w.db.row? p.2).any _ = ((w.db.row? p.2).map _).any _
    simp only [World.rowAt] at own
    cases found : w.db.row? p.2 with
    | none => rfl
    | some r =>
      rw [found] at own
      obtain ⟨toward, from'⟩ := own _ rfl
      simp only at toward from'
      simp [toward, from']
  have hub : ((w.hubs p.1).rows.rows.filter (fun r => decide (r.messageId = p.2) && r.sender = sender)).length =
      if w.sent .hub p.1 p.2 then 1 else 0 := by
    have own := sound.own p member .hub
    refine (Table.length_filter_key (w.hubs p.1).rows p.2 _).trans (congrArg (fun b : Bool => if b then 1 else 0) ?_)
    change ((w.hubs p.1).find? p.2).any _ = (((w.hubs p.1).find? p.2).map _).any _
    simp only [World.rowAt] at own
    cases found : (w.hubs p.1).find? p.2 with
    | none => rfl
    | some r =>
      rw [found] at own
      obtain ⟨-, from'⟩ := own _ rfl
      simp only at from'
      simp [from']
  have once := sound.once p member
  unfold World.copies
  rw [d1, hub]
  simp only [World.has, Bool.or_eq_true] at has
  cases inHub : w.sent .hub p.1 p.2 with
  | true => simp [once inHub]
  | false =>
    rw [inHub] at has
    simp [has.resolve_right (by simp)]

def Place.other : Place → Place
  | .d1 => .hub
  | .hub => .d1

section Attempt
variable (path : StorePath) (request : ValidatedSendMessage) (sender : String)

/-- The attempt sends no row to one table while the other has it. -/
def apart (weather : Weather) (w : World) : Bool :=
  match (prepare (storeOf path weather request.messageBox) request sender w).1 with
  | .error _ => true
  | .ok (writing, contexts) =>
    contexts.all (fun ctx => !w.sent (ctx.place path writing).other ctx.recipient ctx.messageId)

/-- The attempt finds every row stored, or meets those that are on a repeated write or hop that knows them for its
own. -/
def recognises (weather : Weather) (w : World) : Bool :=
  match (prepare (storeOf path weather request.messageBox) request sender w).1 with
  | .error _ => true
  | .ok (writing, contexts) =>
    request.recipients.all w.has ||
      contexts.all (fun ctx => (w.rowAt (ctx.place path writing) ctx.recipient ctx.messageId).all (fun held =>
        weather.retried (ctx.place path writing) ctx.messageId && decide (held.Same (ctx.row path writing))))

/-- Nobody else uses the request's ids, and the archive only copies mailbox rows. -/
def KeepsRows (w w' : World) : Prop :=
  ∀ p ∈ request.recipients, w'.rowAt .hub p.1 p.2 = w.rowAt .hub p.1 p.2 ∧
    (w'.rowAt .d1 p.1 p.2 = w.rowAt .d1 p.1 p.2 ∨ (w.sent .hub p.1 p.2 = true ∧ ∃ held,
      w'.rowAt .d1 p.1 p.2 = some held ∧ held.archived = true ∧ held.recipient = p.1 ∧ held.sender = sender))

variable {path request sender}

theorem sent_of_rowAt {w w' : World} {place : Place} {r i : String} (same : w'.rowAt place r i = w.rowAt place r i) :
    w'.sent place r i = w.sent place r i := by
  unfold World.sent
  rw [same]

/-- A mailbox row is never the archive's. -/
theorem sent_hub_of_rowAt {w : World} {r i : String} {held : Identity} (found : w.rowAt .hub r i = some held) :
    w.sent .hub r i = true := by
  unfold World.sent
  rw [found]
  obtain ⟨row, -, same⟩ := Option.map_eq_some_iff.mp found
  rw [← same]
  rfl

theorem Sound.others {w w' : World} (sound : Sound request sender w) (kept : KeepsRows request sender w w') :
    Sound request sender w' := by
  refine ⟨?_, ?_, ?_⟩
  · intro p member place held found
    obtain ⟨hub, d1⟩ := kept p member
    cases place with
    | hub => exact sound.own p member .hub held (hub ▸ found)
    | d1 =>
      rcases d1 with same | ⟨-, copy, copied, -, toward, from'⟩
      · exact sound.own p member .d1 held (same ▸ found)
      · rw [copied, Option.some.injEq] at found
        subst found
        exact ⟨toward, from'⟩
  · intro p member inHub
    obtain ⟨hub, d1⟩ := kept p member
    rw [sent_of_rowAt hub] at inHub
    rcases d1 with same | ⟨-, copy, copied, archived, -⟩
    · rw [sent_of_rowAt same]
      exact sound.once p member inHub
    · simp [World.sent, copied, archived]
  · intro p member held found archived
    obtain ⟨hub, d1⟩ := kept p member
    rw [sent_of_rowAt hub]
    rcases d1 with same | ⟨inHub, -⟩
    · exact sound.copied p member held (same ▸ found) archived
    · exact inHub

/-- The context of a recipient, whose row alone changes for it, and only where it goes. -/
theorem Looped.recipient {weather : Weather} {writing : Writing} {contexts : List Context} {w w' : World}
    {outcome : SendOutcome} (looped : Looped path weather writing contexts w w' outcome)
    (distinct : (request.recipients.map Prod.snd).Nodup)
    (pairs : contexts.map (fun ctx => (ctx.recipient, ctx.messageId)) = request.recipients)
    {p : String × String} (member : p ∈ request.recipients) :
    ∃ ctx ∈ contexts, ctx.recipient = p.1 ∧ ctx.messageId = p.2 ∧
      w'.rowAt (ctx.place path writing).other p.1 p.2 = w.rowAt (ctx.place path writing).other p.1 p.2 := by
  rw [← pairs] at member
  obtain ⟨ctx, inside, same⟩ := List.mem_map.mp member
  subst same
  refine ⟨ctx, inside, rfl, rfl, looped.others _ _ _ (fun other later => ?_)⟩
  have ids : (contexts.map Context.messageId).Nodup := by
    have same : contexts.map Context.messageId = request.recipients.map Prod.snd := by
      rw [← pairs, List.map_map]
      rfl
    rw [same]
    exact distinct
  by_cases one : other.messageId = ctx.messageId
  · have eq := List.inj_on_of_nodup_map ids later inside one
    subst eq
    left
    cases other.place path writing <;> simp [Place.other]
  · exact .inr (fun same => one same.symm)

/-- A place of a recipient is where its row goes, or the other one. -/
theorem place_cases (place q : Place) : q = place ∨ q = place.other := by
  cases place <;> cases q <;> simp [Place.other]

/-- Where a recipient's row was it still is, and a row that is new is the attempt's. -/
theorem rowAt_attempt {weather : Weather} {writing : Writing} {contexts : List Context} {w w' : World}
    {outcome : SendOutcome} (looped : Looped path weather writing contexts w w' outcome) {ctx : Context}
    (inside : ctx ∈ contexts)
    (elsewhere : w'.rowAt (ctx.place path writing).other ctx.recipient ctx.messageId =
      w.rowAt (ctx.place path writing).other ctx.recipient ctx.messageId) (q : Place) :
    w'.rowAt q ctx.recipient ctx.messageId = w.rowAt q ctx.recipient ctx.messageId ∨
      (q = ctx.place path writing ∧ w.rowAt q ctx.recipient ctx.messageId = none ∧
        w'.rowAt q ctx.recipient ctx.messageId = some (ctx.row path writing)) := by
  rcases place_cases (ctx.place path writing) q with same | same
  · subst same
    rcases looped.here ctx inside with kept | ⟨none, new⟩
    · exact .inl kept
    · exact .inr ⟨rfl, none, new⟩
  · subst same
    exact .inl elsewhere

theorem sent_attempt {weather : Weather} {writing : Writing} {contexts : List Context} {w w' : World}
    {outcome : SendOutcome} (looped : Looped path weather writing contexts w w' outcome) {ctx : Context}
    (inside : ctx ∈ contexts)
    (elsewhere : w'.rowAt (ctx.place path writing).other ctx.recipient ctx.messageId =
      w.rowAt (ctx.place path writing).other ctx.recipient ctx.messageId) {q : Place}
    (sent : w.sent q ctx.recipient ctx.messageId = true) : w'.sent q ctx.recipient ctx.messageId = true := by
  rcases rowAt_attempt looped inside elsewhere q with same | ⟨-, none, -⟩
  · rw [sent_of_rowAt same]
    exact sent
  · simp [World.sent, none] at sent

theorem row_fields (path : StorePath) (ctx : Context) (writing : Writing) :
    (ctx.row path writing).recipient = ctx.recipient ∧ (ctx.row path writing).sender = writing.sender ∧
      (ctx.row path writing).archived = false := by
  unfold Context.row written
  split <;> simp

theorem Sound.attempt {weather : Weather} {writing : Writing} {contexts : List Context} {w w' : World}
    {outcome : SendOutcome} (sound : Sound request sender w)
    (looped : Looped path weather writing contexts w w' outcome) (from' : writing.sender = sender)
    (distinct : (request.recipients.map Prod.snd).Nodup)
    (pairs : contexts.map (fun ctx => (ctx.recipient, ctx.messageId)) = request.recipients)
    (apart : ∀ ctx ∈ contexts, w.sent (ctx.place path writing).other ctx.recipient ctx.messageId = false) :
    Sound request sender w' := by
  refine ⟨?_, ?_, ?_⟩
  · intro p member place held found
    obtain ⟨ctx, inside, toward, id, elsewhere⟩ := looped.recipient distinct pairs member
    rw [← toward, ← id] at elsewhere found
    rcases rowAt_attempt looped inside elsewhere place with same | ⟨-, -, new⟩
    · rw [same, toward, id] at found
      exact sound.own p member place held found
    · rw [new, Option.some.injEq] at found
      obtain ⟨recipient, by', -⟩ := row_fields path ctx writing
      rw [← found, recipient, by', toward, from']
      exact ⟨rfl, rfl⟩
  · intro p member inHub
    obtain ⟨ctx, inside, toward, id, elsewhere⟩ := looped.recipient distinct pairs member
    have free := apart ctx inside
    rw [toward, id] at free
    rw [← sent_of_rowAt elsewhere] at free
    rcases place_cases (ctx.place path writing) .hub with same | same
    · rw [← same] at free
      exact free
    · rw [← same, inHub] at free
      cases free
  · intro p member held found archived
    obtain ⟨ctx, inside, toward, id, elsewhere⟩ := looped.recipient distinct pairs member
    rw [← toward, ← id] at elsewhere found ⊢
    rcases rowAt_attempt looped inside elsewhere .d1 with same | ⟨-, -, new⟩
    · rw [same] at found
      apply sent_attempt looped inside elsewhere
      have before := sound.copied p member held
      rw [← toward, ← id] at before
      exact before found archived
    · rw [new, Option.some.injEq] at found
      rw [← found, (row_fields path ctx writing).2.2] at archived
      cases archived

/-- Every recipient has its row once an attempt that meets the condition is answered. -/
theorem has_of_answers {weather : Weather} {writing : Writing} {contexts : List Context} {w w' : World}
    {outcome : SendOutcome} (sound' : Sound request sender w')
    (looped : Looped path weather writing contexts w w' outcome)
    (distinct : (request.recipients.map Prod.snd).Nodup)
    (pairs : contexts.map (fun ctx => (ctx.recipient, ctx.messageId)) = request.recipients)
    (answers : outcome.answers = true)
    (met : (∀ p ∈ request.recipients, w.has p = true) ∨ ∀ ctx ∈ contexts, ∀ held,
      w.rowAt (ctx.place path writing) ctx.recipient ctx.messageId = some held →
        weather.retried (ctx.place path writing) ctx.messageId = true ∧ held.Same (ctx.row path writing))
    {p : String × String} (member : p ∈ request.recipients) : w'.has p = true := by
  obtain ⟨ctx, inside, toward, id, elsewhere⟩ := looped.recipient distinct pairs member
  cases outcome with
  | success results =>
    obtain ⟨held, found, -⟩ := looped.success results rfl ctx inside
    rw [toward, id] at found
    simp only [World.has, Bool.or_eq_true]
    rcases place_cases (ctx.place path writing) .hub with same | same
    · rw [← same] at found
      exact .inr (sent_hub_of_rowAt found)
    · have d1 : ctx.place path writing = .d1 := by
        cases place : ctx.place path writing with
        | d1 => rfl
        | hub => rw [place] at same; cases same
      rw [d1] at found
      cases archived : held.archived with
      | true => exact .inr (sound'.copied p member held found archived)
      | false => exact .inl (by simp [World.sent, found, archived])
  | duplicateMessage r i =>
    rcases met with all | known
    · have has := all p member
      simp only [World.has, Bool.or_eq_true] at has ⊢
      rw [← toward, ← id] at elsewhere has ⊢
      exact has.imp (sent_attempt looped inside elsewhere) (sent_attempt looped inside elsewhere)
    · obtain ⟨other, later, held, found, unread⟩ := looped.duplicate r i rfl
      obtain ⟨retried, same⟩ := known other later held found
      rcases unread with clean | stranger
      · rw [clean] at retried
        cases retried
      · exact absurd same stranger
  | validationError | blockedRecipients | paymentFailed | internalError | transientError => cases answers

end Attempt

section Run
variable (path : StorePath) (request : ValidatedSendMessage) (sender : String)

/-- A request on its way, with the answer that ended it. -/
structure Repeating where
  world : World
  answered : Option SendOutcome

/-- The request is sent again, or others act. -/
inductive RepeatInput where
  | attempt (weather : Weather)
  | others (world : World)

def repeatStep (s : Repeating) : RepeatInput → Repeating
  | .attempt weather =>
    match s.answered with
    | some _ => s
    | none =>
      let out := processSend path weather request sender s.world
      ⟨out.2.2, if out.1.answers then some out.1 else none⟩
  | .others world => { s with world }

def repeatMachine : Machine Repeating RepeatInput Empty := ⟨fun s input => (repeatStep path request sender s input, [])⟩

/-- Others leave the request's rows alone, and no attempt sends a row to a second table. -/
def RepeatOk (c : Config Repeating Empty) : RepeatInput → Prop
  | .attempt weather => c.state.answered = none → apart path request sender weather c.state.world = true
  | .others world => KeepsRows request sender c.state.world world

variable {path request sender}

/-- What an attempt leaves, and what it answers, when it sends no row to a second table. -/
theorem Sound.processSend {w : World} (sound : Sound request sender w)
    (distinct : (request.recipients.map Prod.snd).Nodup) {weather : Weather}
    (free : apart path request sender weather w = true) :
    Sound request sender (processSend path weather request sender w).2.2 ∧
      ((Send.processSend path weather request sender w).1.answers = true →
        recognises path request sender weather w = true →
        ∀ p ∈ request.recipients, (Send.processSend path weather request sender w).2.2.has p = true) := by
  rcases processSend_cases weather w distinct with
    ⟨unanswered, same⟩ | ⟨writing, contexts, ready, from', pairs, looped⟩
  · rw [same, unanswered]
    exact ⟨sound, fun no => by cases no⟩
  · simp only [apart, ready, List.all_eq_true, Bool.not_eq_true'] at free
    have sound' := sound.attempt looped from' distinct pairs free
    refine ⟨sound', fun answers known p member => has_of_answers sound' looped distinct pairs answers ?_ member⟩
    simp only [recognises, ready, Bool.or_eq_true, List.all_eq_true] at known
    rcases known with all | known
    · exact .inl all
    · right
      intro ctx inside held found
      have own := known ctx inside
      rw [found] at own
      simpa using own

theorem sound_step (distinct : (request.recipients.map Prod.snd).Nodup) (c : Config Repeating Empty)
    (input : RepeatInput) (sound : Sound request sender c.state.world) (ok : RepeatOk path request sender c input) :
    Sound request sender ((repeatMachine path request sender).advance c input).state.world := by
  change Sound request sender (repeatStep path request sender c.state input).world
  cases input with
  | others world => exact sound.others ok
  | attempt weather =>
    cases answered : c.state.answered with
    | some outcome =>
      simp only [repeatStep, answered]
      exact sound
    | none =>
      simp only [repeatStep, answered]
      exact (sound.processSend distinct (ok answered)).1

/-- A send repeated until it answers a success or a duplicate leaves every recipient exactly one row of it, whatever
attempts failed and wherever, when no attempt sent a row to a second table and the one that answers found every row
stored or knew those that were for its own. -/
theorem repeated_send_completes (path : StorePath) (request : ValidatedSendMessage) (sender : String) (start : World)
    (earlier : List RepeatInput) (last : Weather) (distinct : (request.recipients.map Prod.snd).Nodup)
    (fresh : ∀ p ∈ request.recipients, ∀ place, start.rowAt place p.1 p.2 = none)
    (guarded : (repeatMachine path request sender).Guarded (RepeatOk path request sender) ⟨⟨start, none⟩, []⟩
      (earlier ++ [.attempt last]))
    (unanswered : ((repeatMachine path request sender).run ⟨⟨start, none⟩, []⟩ earlier).state.answered = none)
    (answered : ((repeatMachine path request sender).run ⟨⟨start, none⟩, []⟩
      (earlier ++ [.attempt last])).state.answered ≠ none)
    (known : recognises path request sender last
      ((repeatMachine path request sender).run ⟨⟨start, none⟩, []⟩ earlier).state.world = true) :
    ∀ p ∈ request.recipients, ((repeatMachine path request sender).run ⟨⟨start, none⟩, []⟩
      (earlier ++ [.attempt last])).state.world.copies sender p.1 p.2 = 1 := by
  have first : Sound request sender start := by
    refine ⟨?_, ?_, ?_⟩
    · intro p member place held found
      rw [fresh p member place] at found
      cases found
    · intro p member inHub
      simp [World.sent, fresh p member .hub] at inHub
    · intro p member held found
      rw [fresh p member .d1] at found
      cases found
  obtain ⟨early, late⟩ := (Machine.guarded_append _ _ _ _).mp guarded
  have sound := @Machine.run_invariant _ _ _ (repeatMachine path request sender) _
    (fun c => Sound request sender c.state.world) (sound_step distinct) ⟨⟨start, none⟩, []⟩ first _ early
  obtain ⟨sound', has⟩ := sound.processSend distinct (late.1 unanswered)
  rw [Machine.run_append, Machine.run_cons, Machine.run_nil] at answered ⊢
  generalize (repeatMachine path request sender).run ⟨⟨start, none⟩, []⟩ earlier = c at *
  change (repeatStep path request sender c.state (.attempt last)).answered ≠ none at answered
  change ∀ p ∈ request.recipients, (repeatStep path request sender c.state (.attempt last)).world.copies sender p.1 p.2 = 1
  simp only [repeatStep, unanswered] at answered ⊢
  have answers : (processSend path last request sender c.state.world).1.answers = true := by
    by_contra no
    rw [if_neg no] at answered
    exact answered rfl
  intro p member
  exact sound'.copies member (has answers known p member)

end Run

def unavailable : StoreError := ⟨true, "D1_ERROR"⟩

/-- The row of one message is not stored, in either store. -/
def lostAt (id : String) : Weather :=
  { calm with
    insert := fun other => ⟨⟨[], if other = id then .failed unavailable false else .answered⟩, none⟩
    hop := fun other => if other = id then ⟨some false, .failed unavailable false⟩ else ⟨none, .answered⟩ }

/-- Every first try of an insert is lost. -/
def slow : Weather := { calm with insert := fun _ => ⟨⟨[false], .answered⟩, none⟩ }

def toTwo : ValidatedSendMessage := ⟨[("bob", "m1"), ("carol", "m2")], "inbox", .string "hi", none⟩

/-- The second row was lost, and the repeat reads the first back as its own. -/
theorem repeated_send_completes_slow :
    let final := (repeatMachine .d1 toTwo "alice").run ⟨⟨World.empty, none⟩, []⟩ [.attempt (lostAt "m2"), .attempt slow]
    final.state.world.copies "alice" "bob" "m1" = 1 ∧ final.state.world.copies "alice" "carol" "m2" = 1 := by
  have all := repeated_send_completes .d1 toTwo "alice" World.empty [.attempt (lostAt "m2")] slow (by decide)
    (by intro p member place; cases place <;> rfl) ⟨fun _ => by decide +kernel, fun _ => by decide +kernel, trivial⟩
    rfl (by decide +kernel) (by decide +kernel)
  exact ⟨all ("bob", "m1") (by simp [toTwo]), all ("carol", "m2") (by simp [toTwo])⟩

/-- The second row was lost and nothing else went wrong: the repeat is answered a duplicate at the first recipient, and
the second is left out. -/
theorem repeated_send_leaves_out :
    let final := (repeatMachine .d1 toTwo "alice").run ⟨⟨World.empty, none⟩, []⟩ [.attempt (lostAt "m2"), .attempt calm]
    (toTwo.recipients.map Prod.snd).Nodup ∧ (∀ p ∈ toTwo.recipients, ∀ place, World.empty.rowAt place p.1 p.2 = none) ∧
      final.state.answered = some (.duplicateMessage "bob" "m1") ∧
      final.state.world.copies "alice" "bob" "m1" = 1 ∧ final.state.world.copies "alice" "carol" "m2" = 0 := by
  intro final
  refine ⟨by decide, fun p member place => ?_, rfl, by decide +kernel, by decide +kernel⟩
  cases place <;> rfl

-- Over the mailboxes it is the same.
example :
    let final := (repeatMachine .mailbox toTwo "alice").run ⟨⟨World.empty, none⟩, []⟩
      [.attempt (lostAt "m2"), .attempt calm]
    final.state.world.copies "alice" "bob" "m1" = 1 ∧ final.state.world.copies "alice" "carol" "m2" = 0 := by
  decide +kernel

end MessageRelay.Send
