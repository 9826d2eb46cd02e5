import MessageRelay.Relay.InboxDatabase
import MessageRelay.Relay.NoBodyLost

/-! Every step under the condition keeps what is owed, and so does every run: nobody's message is
altered or hidden while its recipient has not acknowledged it. -/

namespace MessageRelay.Relay
open MessageRelay.Library MessageRelay.Mailbox MessageRelay.Archive MessageRelay.Database

theorem rowShape_freshRow (mb : Mailbox.Store) (row : NewRow) (nowMs : Nat) : RowShape (freshRow mb row nowMs) :=
  ⟨by simp [freshRow], fun _ => ⟨rfl, rfl⟩, fun b has => by cases has; rfl⟩

section Stored
variable {w : Hubs} {recipient : String} {row : NewRow} {nowMs : Nat}
  (free : (w.mailboxes recipient).find? row.messageId = none)
include free

theorem Sound.stored (sound : Sound w) (fresh : MailboxIdFresh w recipient row.messageId) :
    Sound (w.stored recipient row nowMs) := by
  have grows {other id : String} (handed : Enqueued w other id) : Enqueued (w.stored recipient row nowMs) other id :=
    (Hubs.enqueued_stored free).mpr (.inl handed)
  refine ⟨fun other id r there => ?_, fun m member => ?_, fun p m member => ?_, fun other id => ?_⟩
  · rcases Hubs.held_stored free there with old | ⟨rfl, rfl, rfl⟩
    · exact ⟨grows (sound.held other id r old).1, (sound.held other id r old).2⟩
    · exact ⟨(Hubs.enqueued_stored free).mpr (.inr ⟨rfl, rfl⟩), rowShape_freshRow ..⟩
  · rcases (Hubs.mem_queue_stored free).mp member with old | rfl
    · exact sound.queue m old
    · rw [(archiveMessage_named _ recipient).2.2]
      exact (rowShape_freshRow (w.mailboxes recipient) row nowMs).version
  · exact ⟨grows (sound.passes p m member).1, (sound.passes p m member).2⟩
  · by_cases here : other = recipient ∧ id = row.messageId
    · obtain ⟨rfl, rfl⟩ := here
      rcases fresh with last | ⟨rows, unhanded⟩
      · exact .inr (.inl last)
      · refine .inr (.inr ⟨row.body, fun b has => ?_, fun r there mine => absurd mine (rows r there)⟩)
        rcases Hubs.carried_stored free has with old | ⟨-, -, same⟩
        · exact absurd (sound.enqueued_of_carried old) unhanded
        · exact same
    · refine (sound.agreed other id).imp (fun unhanded there => ?_) (Or.imp_right ?_)
      · exact ((Hubs.enqueued_stored free).mp there).elim unhanded here
      · rintro ⟨body, agree, rows⟩
        refine ⟨body, fun b has => ?_, rows⟩
        rcases Hubs.carried_stored free has with old | ⟨mine, same, -⟩
        · exact agree b old
        · exact absurd ⟨mine, same⟩ here

/-- What was owed before a store under a fresh id is still in its store. -/
theorem OwedOk.stored (fresh : MailboxIdFresh w recipient row.messageId) {e : Entry} (ok : OwedOk w e) :
    OwedOk (w.stored recipient row nowMs) e := by
  obtain ⟨place, other, box, id, sender, body⟩ := e
  cases place with
  | mailbox =>
    obtain ⟨r, there, facts⟩ := ok
    refine ⟨r, ?_, facts⟩
    by_cases mine : other = recipient
    · subst mine
      have differs : row.messageId ≠ id := fun same => by
        simp only [← same, free] at there
        cases there
      exact (Hubs.find?_stored free id).trans ((if_neg differs).trans there)
    · exact (Hubs.find?_stored_other mine id).trans there
  | database =>
    obtain ⟨⟨r, there, mine, from', has, unacked, boxed⟩, unhanded⟩ := ok
    refine ⟨⟨r, there, mine, from', has, unacked, boxed⟩, fun later => ?_⟩
    rcases (Hubs.enqueued_stored free).mp later with before | ⟨rfl, rfl⟩
    · exact unhanded before
    -- The row owed from D1 is unacknowledged, so the condition does not let the id be taken.
    · rcases fresh with ⟨r', there', -, -, acked⟩ | ⟨rows, -⟩
      · rw [there] at there'
        cases there'
        exact acked unacked
      · exact rows r there mine

end Stored

theorem hubStep_db (w : Hubs) {input : HubInput} (still : ∀ p nowMs answered, input ≠ .write p nowMs answered) :
    (hubStep w input).1.db = w.db := by
  cases input with
  | insert => simp only [hubStep, insertStep]; split <;> rfl
  | acknowledge => rfl
  | replay => rfl
  | deliver =>
    simp only [hubStep, deliverStep]
    split
    · split <;> rfl
    · rfl
  | readBodies =>
    simp only [hubStep, readBodiesStep]
    split
    · split <;> rfl
    · rfl
  | plan =>
    simp only [hubStep, planStep]
    split
    · split <;> rfl
    · rfl
  | write p nowMs answered => exact absurd rfl (still p nowMs answered)
  | tell =>
    simp only [hubStep, tellStep]
    split
    · split <;> rfl
    · rfl
    · rfl
  | abandon => rfl

section Steps
variable {db : Database.Store} {c : WorldConfig} (faithful : Faithful db c)
include faithful

theorem Faithful.insert {recipient : String} {row : NewRow} {retry : Bool} {nowMs : Nat}
    (fresh : (Mailbox.insert (c.state.hubs.mailboxes recipient) row retry nowMs Bounds.ruled).1 = .stored →
      MailboxIdFresh c.state.hubs recipient row.messageId) :
    Faithful db ⟨(hubWorldStep c.state (.insert recipient row retry nowMs)).1,
      c.log ++ (hubWorldStep c.state (.insert recipient row retry nowMs)).2⟩ := by
  cases done : Mailbox.insert (c.state.hubs.mailboxes recipient) row retry nowMs Bounds.ruled with
  | mk answer mb' =>
    cases answer with
    | stored =>
      obtain ⟨free, rfl⟩ := insert_stored done
      have ok := fresh (by rw [done])
      simp only [hubWorldStep, acknowledgingOf, hubStep, insertStep, done]
      refine ⟨faithful.sound.stored free ok, fun e member => ?_⟩
      rcases (mem_owed_stored rfl).mp member with old | rfl
      · exact (faithful.owed e old).stored free ok
      · exact ⟨_, (Hubs.find?_stored free row.messageId).trans (if_pos rfl), rfl, rfl, rfl, rfl⟩
    | _ =>
      simp only [hubWorldStep, acknowledgingOf, hubStep, insertStep, done, List.map_nil, List.append_nil]
      exact faithful

theorem Faithful.deliver (p : Nat) (batch : List ArchiveMessage) :
    Faithful db { c with state := { c.state with hubs := deliverStep c.state.hubs p batch } } := by
  unfold deliverStep
  split
  · split
    · rename_i handed
      refine faithful.setPass p _ (fun m member => ?_)
      have inside := List.all_eq_true.mp handed m (List.mem_of_mem_filter member)
      have there : m ∈ c.state.hubs.queue := by simpa using inside
      exact ⟨⟨m, there, rfl, rfl⟩, faithful.sound.queue m there, fun b has => .inl ⟨m, .inl there, rfl, rfl, has⟩⟩
    · exact faithful
  · exact faithful

theorem Faithful.readBodies (p : Nat) (recipient : String) (answered : Bool) :
    Faithful db { c with state := { c.state with hubs := readBodiesStep c.state.hubs p recipient answered } } := by
  unfold readBodiesStep
  split
  · rename_i batch here
    have ok : ∀ m ∈ batch, Enqueued c.state.hubs m.recipient m.messageId ∧ m.version ≤ 2 ∧
        ∀ b, m.body = some b → Carried c.state.hubs m.recipient m.messageId b := by
      intro m member
      have inside : m ∈ (c.state.hubs.passes p).messages := by
        rw [here]
        exact member
      obtain ⟨handed, version⟩ := faithful.sound.passes p m inside
      exact ⟨handed, version, fun b has => .inl ⟨m, .inr ⟨p, inside⟩, rfl, rfl, has⟩⟩
    split
    · refine faithful.setPass p _ (fun m member => ?_)
      obtain ⟨before, inside, filled⟩ := List.mem_filterMap.mp member
      split at filled
      · rename_i asked
        obtain ⟨body, answer, rfl⟩ := Option.map_eq_some_iff.mp filled
        refine ⟨(ok before inside).1, (ok before inside).2.1, fun b has => .inr ?_⟩
        -- The body is the one the hub's row under the id holds now.
        obtain ⟨row, first, whole⟩ := Option.bind_eq_some_iff.mp answer
        obtain ⟨r, found, -, rfl⟩ := mem_archiveRows.mp (List.mem_of_find?_eq_some first)
        have matched := List.find?_some first
        have named : r.messageId = before.messageId := of_decide_eq_true matched
        refine ⟨r, ?_, whole.trans has⟩
        rw [asked.2, ← named]
        exact found
      · obtain rfl := Option.some.inj filled
        exact ok _ inside
    · exact faithful.setPass p _ (fun m member => ok m (List.mem_of_mem_filter member))
  · exact faithful

theorem Faithful.plan (p : Nat) :
    Faithful db { c with state := { c.state with hubs := planStep c.state.hubs p } } := by
  unfold planStep
  split
  · rename_i batch here
    split
    · exact faithful
    · refine faithful.setPass p _ (fun m member => ?_)
      have inside : m ∈ (c.state.hubs.passes p).messages := by
        rw [here]
        exact member
      obtain ⟨handed, version⟩ := faithful.sound.passes p m inside
      exact ⟨handed, version, fun b has => .inl ⟨m, .inr ⟨p, inside⟩, rfl, rfl, has⟩⟩
  · exact faithful

theorem Faithful.tell (p : Nat) (delivered : Bool) :
    Faithful db ⟨{ c.state with hubs := (tellStep c.state.hubs p delivered).1 },
      c.log ++ (tellStep c.state.hubs p delivered).2.map .hub⟩ := by
  have silent (pass : Pass) (empty : pass.messages = []) :
      ∀ m ∈ pass.messages, Enqueued c.state.hubs m.recipient m.messageId ∧ m.version ≤ 2 ∧
        ∀ b, m.body = some b → Carried c.state.hubs m.recipient m.messageId b := by simp [empty]
  unfold tellStep
  split
  · rename_i recipient done rest here
    split
    · exact (faithful.takeDones recipient done).setPass p (.telling rest) (by simp [Pass.messages])
    · simpa using faithful.setPass p _ (silent (.telling rest) rfl)
  · simpa using faithful.setPass p _ (silent .idle rfl)
  · simpa using faithful

theorem Faithful.hubStep {prefixes : List String} {input : HubInput} (fresh : IdsFresh c (.hub input)) :
    Faithful db ((worldMachine prefixes).advance c (.hub input)) := by
  cases input with
  | insert recipient row retry nowMs => exact faithful.insert fresh
  | acknowledge recipient ids retry nowMs => exact faithful.acknowledge recipient ids retry nowMs
  | replay recipient nowMs => exact faithful.replay recipient nowMs
  | tell p delivered => exact faithful.tell p delivered
  | deliver p batch =>
    simp only [Machine.advance, worldMachine, worldStep, hubWorldStep, acknowledgingOf, Relay.hubStep,
      List.map_nil, List.append_nil]
    exact faithful.deliver p batch
  | readBodies p recipient answered =>
    simp only [Machine.advance, worldMachine, worldStep, hubWorldStep, acknowledgingOf, Relay.hubStep,
      List.map_nil, List.append_nil]
    exact faithful.readBodies p recipient answered
  | plan p =>
    simp only [Machine.advance, worldMachine, worldStep, hubWorldStep, acknowledgingOf, Relay.hubStep,
      List.map_nil, List.append_nil]
    exact faithful.plan p
  | write p nowMs answered =>
    simp only [Machine.advance, worldMachine, worldStep, hubWorldStep, acknowledgingOf, Relay.hubStep,
      List.map_nil, List.append_nil, writeStep]
    split
    · rename_i batch verdicts here
      refine (faithful.write here nowMs).1.setPass p _ ?_
      split <;> simp [Pass.messages]
    · exact faithful
  | abandon p =>
    simp only [Machine.advance, worldMachine, worldStep, hubWorldStep, acknowledgingOf, Relay.hubStep,
      List.map_nil, List.append_nil]
    exact faithful.setPass p .idle (by simp [Pass.messages])

/-- The hub's part of an acknowledgment, whichever way it goes on. -/
theorem Faithful.ackBegin (t : Nat) (recipient : String) (ids : List String) (retry : Bool) (nowMs : Nat) :
    Faithful db ⟨(ackBeginStep c.state t recipient ids retry nowMs).1,
      c.log ++ (ackBeginStep c.state t recipient ids retry nowMs).2⟩ := by
  have began : Faithful db { c with log := c.log ++ [.ackBegan t recipient ids] } :=
    ⟨faithful.sound, fun e member => faithful.owed e ((mem_owed_quiet (by simp [WorldEvent.stores])).mp member).1⟩
  have moved := began.acknowledge recipient ids retry nowMs
  unfold ackBeginStep
  split
  · simp only
    split
    · refine ⟨moved.sound, fun e member => moved.owed e ?_⟩
      have split : e ∈ Relay.owed db ((c.log ++ [.ackBegan t recipient ids] ++
          (hubWorldStep c.state (.acknowledge recipient ids retry nowMs)).2) ++ [.ackAnswered t]) := by
        simpa using member
      exact ((mem_owed_quiet (by simp [WorldEvent.stores])).mp split).1
    · exact ⟨moved.sound, fun e member => moved.owed e (by simpa using member)⟩
  · simpa using faithful

theorem Faithful.step {prefixes : List String} {input : WorldInput} (fresh : IdsFresh c input) :
    Faithful db ((worldMachine prefixes).advance c input) := by
  have quiet (more : List WorldEvent) (silent : ∀ event ∈ more, event.stores = false) {w : World}
      (same : w.hubs = c.state.hubs) : Faithful db ⟨w, c.log ++ more⟩ :=
    ⟨same ▸ faithful.sound, fun e member => same ▸ faithful.owed e ((mem_owed_quiet silent).mp member).1⟩
  cases input with
  | hub input => exact faithful.hubStep fresh
  | paid recipient messageBox messageId sender body beefKey nowMs =>
    exact faithful.insertMessage recipient messageBox messageId sender body beefKey nowMs fresh
  | ackBegin t recipient ids retry nowMs => exact faithful.ackBegin t recipient ids retry nowMs
  | ackLive t =>
    simp only [Machine.advance, worldMachine, worldStep, ackLiveStep]
    split
    · split
      · exact quiet _ (by simp [WorldEvent.stores]) rfl
      · exact quiet _ (by simp) rfl
    · exact quiet _ (by simp) rfl
  | ackWrite t nowMs answered =>
    simp only [Machine.advance, worldMachine, worldStep, ackWriteStep]
    split
    · rename_i recipient ids here
      simp only [IdsFresh, here, AckTask.Current] at fresh
      have done := faithful.acknowledgeMessages fresh prefixes nowMs
        (if answered then [.ackAnswered t] else []) (by split <;> simp [WorldEvent.stores])
      exact ⟨done.sound, done.owed⟩
    · exact quiet _ (by simp) rfl
  | listBegin t recipient messageBox =>
    simp only [Machine.advance, worldMachine, worldStep, listBeginStep]
    split
    · exact quiet _ (by simp [WorldEvent.stores]) rfl
    · exact quiet _ (by simp) rfl
  | listBox t =>
    simp only [Machine.advance, worldMachine, worldStep, listBoxStep]
    split
    · split <;> exact quiet _ (by simp) rfl
    · exact quiet _ (by simp) rfl
  | listD1 t =>
    simp only [Machine.advance, worldMachine, worldStep, listD1Step]
    split <;> exact quiet _ (by simp) rfl
  | listFinish t =>
    simp only [Machine.advance, worldMachine, worldStep, listFinishStep]
    split
    · exact quiet _ (by simp [WorldEvent.stores]) rfl
    · exact quiet _ (by simp) rfl
  | ackFail t => exact quiet _ (by simp [worldMachine, worldStep]) rfl
  | listFail t => exact quiet _ (by simp [worldMachine, worldStep]) rfl

/-- No step alters a row of D1: the archive alone could, and it writes the row's own body. -/
theorem Faithful.rowsUnaltered (prefixes : List String) (input : WorldInput) :
    RowsUnaltered c.state.hubs.db ((worldMachine prefixes).advance c input).state.hubs.db := by
  have same {after : Database.Store} (rows : ∀ id, after.row? id = c.state.hubs.db.row? id) :
      RowsUnaltered c.state.hubs.db after := by
    intro id r r' before later
    rw [rows, before] at later
    cases later
    exact ⟨rfl, rfl, fun _ => rfl⟩
  cases input with
  | hub input =>
    by_cases writes : ∃ p nowMs answered, input = .write p nowMs answered
    · obtain ⟨p, nowMs, answered, rfl⟩ := writes
      simp only [Machine.advance, worldMachine, worldStep, hubWorldStep, Relay.hubStep, writeStep]
      split
      · rename_i batch verdicts here
        exact (faithful.write here nowMs).2
      · exact same (fun _ => rfl)
    · have still := hubStep_db c.state.hubs (fun p nowMs answered equal => writes ⟨p, nowMs, answered, equal⟩)
      exact same (fun id => congrArg (fun db : Database.Store => db.row? id) still)
  | paid recipient messageBox messageId sender body beefKey nowMs =>
    simp only [Machine.advance, worldMachine, worldStep, paidStep]
    rcases insertMessage_cases c.state.hubs.db messageId messageBox sender recipient body beefKey nowMs with
      ⟨boxId, after, done, free, -, -, rows⟩ | taken
    · rw [done]
      intro id r r' before later
      have written : after.row? id = some r' := later
      have other : messageId ≠ id := fun equal => by
        rw [← equal, free] at before
        cases before
      rw [rows, if_neg other, before] at written
      cases written
      exact ⟨rfl, rfl, fun _ => rfl⟩
    · rw [taken]
      exact same (fun _ => rfl)
  | ackBegin t recipient ids retry nowMs =>
    simp only [Machine.advance, worldMachine, worldStep, ackBeginStep]
    split
    · split <;> exact same (fun _ => rfl)
    · exact same (fun _ => rfl)
  | ackLive t =>
    simp only [Machine.advance, worldMachine, worldStep, ackLiveStep]
    split
    · split <;> exact same (fun _ => rfl)
    · exact same (fun _ => rfl)
  | ackWrite t nowMs answered =>
    simp only [Machine.advance, worldMachine, worldStep, ackWriteStep]
    split
    · intro id r r' before later
      obtain ⟨held, there, facts⟩ := acknowledgeMessages_back later
      rw [before] at there
      cases there
      exact ⟨facts.1, facts.2.1, fun _ => facts.2.2⟩
    · exact same (fun _ => rfl)
  | listBegin t recipient messageBox =>
    simp only [Machine.advance, worldMachine, worldStep, listBeginStep]
    split <;> exact same (fun _ => rfl)
  | listBox t =>
    simp only [Machine.advance, worldMachine, worldStep, listBoxStep]
    split
    · split <;> exact same (fun _ => rfl)
    · exact same (fun _ => rfl)
  | listD1 t =>
    simp only [Machine.advance, worldMachine, worldStep, listD1Step]
    split <;> exact same (fun _ => rfl)
  | listFinish t =>
    simp only [Machine.advance, worldMachine, worldStep, listFinishStep]
    split <;> exact same (fun _ => rfl)
  | ackFail t => exact same (fun _ => rfl)
  | listFail t => exact same (fun _ => rfl)

end Steps

theorem faithful_start (db : Database.Store) : Faithful db ⟨World.start db, []⟩ := by
  have unhanded (recipient id : String) : ¬ Enqueued (Hubs.start db) recipient id := by simp [Enqueued, Hubs.start]
  refine ⟨⟨?_, ?_, ?_, fun recipient id => .inl (unhanded recipient id)⟩, fun e member => ?_⟩
  · simp [World.start, Hubs.start]
  · simp [World.start, Hubs.start]
  · simp [World.start, Hubs.start, Pass.messages]
  · obtain ⟨r, inside, seen⟩ := List.mem_filterMap.mp member
    split at seen
    · rename_i unacked
      obtain ⟨b, first, rfl⟩ := Option.map_eq_some_iff.mp seen
      have matched := List.find?_some first
      simp only [Bool.and_eq_true, decide_eq_true_eq] at matched
      have boxed : db.boxes.find? (r.recipient, b.boxType) = some b :=
        (db.boxes.find?_eq_some _ b).mpr ⟨List.mem_of_find?_eq_some first, by rw [BoxRow.owner, matched.2]⟩
      have there : db.row? r.messageId = some r := (db.messages.find?_eq_some _ r).mpr ⟨inside, rfl⟩
      refine ⟨⟨r, there, rfl, rfl, rfl, unacked, ?_⟩, unhanded _ _⟩
      exact (congrArg (Option.map BoxRow.messageBoxId) boxed).trans (congrArg some matched.1)
    · cases seen

/-- Along a run, whatever is owed is shown in every state, and no step alters a row of D1. -/
def Undisturbed (prefixes : List String) (db : Database.Store) (inputs : List WorldInput) : Prop :=
  ∀ before after, before ++ after = inputs →
    let c := (worldMachine prefixes).run ⟨World.start db, []⟩ before
    (∀ e ∈ owed db c.log, Shown c.state.hubs e) ∧
      ∀ input rest, after = input :: rest →
        RowsUnaltered c.state.hubs.db ((worldMachine prefixes).advance c input).state.hubs.db

/-- In every run whose steps meet the condition nobody's message is altered or hidden. -/
theorem undisturbed_of_idsFresh (prefixes : List String) (db : Database.Store) (inputs : List WorldInput)
    (fresh : (worldMachine prefixes).Guarded IdsFresh ⟨World.start db, []⟩ inputs) :
    Undisturbed prefixes db inputs := by
  intro before after whole
  subst whole
  have faithful : Faithful db ((worldMachine prefixes).run ⟨World.start db, []⟩ before) :=
    (worldMachine prefixes).run_invariant (fun _ _ faithful ok => faithful.step ok) (faithful_start db)
      (((worldMachine prefixes).guarded_append ..).mp fresh).1
  exact ⟨fun e member => (faithful.owed e member).shown faithful.sound,
    fun input rest _ => faithful.rowsUnaltered prefixes input⟩

/-- A paid and an unpaid row to one recipient, both acknowledged, the unpaid one archived, and its id
then used again. -/
def sharedInbox : List WorldInput :=
  [.paid "alice" "inbox" "p" "carol" "invoice" none 0, .hub (.insert "alice" greeting false 0),
    .hub (.deliver 0 [firstMessage "alice" greeting]), .hub (.plan 0), .hub (.write 0 1 true),
    .hub (.tell 0 true), .hub (.tell 0 true), .listBegin 0 "alice" "inbox", .ackBegin 0 "alice" ["m", "p"] false 2,
    .listBox 0, .ackLive 0, .listD1 0, .ackWrite 0 3 true, .listFinish 0,
    .hub (.deliver 1 [ackMessage "alice" greeting]), .hub (.plan 1), .hub (.write 1 4 true), .hub (.tell 1 true),
    .hub (.insert "alice" ⟨"m", "inbox", "dave", "again"⟩ false 5)]

theorem undisturbed_sharedInbox :
    owed Database.Store.empty ((worldMachine ["inbox"]).run ⟨World.start Database.Store.empty, []⟩ sharedInbox).log =
        [⟨.mailbox, "alice", "inbox", "m", "dave", "again"⟩] ∧
      Undisturbed ["inbox"] Database.Store.empty sharedInbox :=
  ⟨by decide +kernel, undisturbed_of_idsFresh _ _ _ (by decide +kernel)⟩

/-- Mallory sends alice an unpaid message under the id of carol's paid one. The mailbox stores it and
hides carol's row, and the archive then puts mallory's body into carol's row. -/
def takenId : List WorldInput :=
  [.paid "alice" "inbox" "m" "carol" "invoice" none 0,
    .hub (.insert "alice" ⟨"m", "inbox", "mallory", "forged"⟩ false 0),
    .hub (.deliver 0 [firstMessage "alice" ⟨"m", "inbox", "mallory", "forged"⟩]), .hub (.plan 0),
    .hub (.write 0 1 true)]

theorem takenId_disturbs :
    ¬ ∀ (prefixes : List String) (db : Database.Store) (inputs : List WorldInput), Undisturbed prefixes db inputs := by
  intro always
  let c := (worldMachine []).run ⟨World.start Database.Store.empty, []⟩ (takenId.take 4)
  let after := (worldMachine []).advance c (.hub (.write 0 1 true))
  have unaltered : RowsUnaltered c.state.hubs.db after.state.hubs.db :=
    (always [] Database.Store.empty takenId (takenId.take 4) (takenId.drop 4) rfl).2 _ [] rfl
  have invoiced : (c.state.hubs.db.row? "m").map MessageRow.body = some "invoice" := by decide +kernel
  have forged : (after.state.hubs.db.row? "m").map MessageRow.body = some "forged" := by decide +kernel
  obtain ⟨r, before, has⟩ := Option.map_eq_some_iff.mp invoiced
  obtain ⟨r', later, has'⟩ := Option.map_eq_some_iff.mp forged
  have kept := (unaltered "m" r r' before later).2.2 (by rw [has]; decide)
  rw [has, has'] at kept
  exact absurd kept (by decide)

end MessageRelay.Relay
