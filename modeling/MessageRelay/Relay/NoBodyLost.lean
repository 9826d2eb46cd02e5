import MessageRelay.Relay.HubRows
import MessageRelay.Relay.HubWrites

/-! No body is lost between the hubs and the archive in a run whose steps meet the condition, and
one is lost where two consumers race on an id two recipients share. -/

namespace MessageRelay.Relay
open MessageRelay.Library MessageRelay.Mailbox MessageRelay.Archive MessageRelay.Database

/-- Every step that meets the condition keeps the invariant. -/
theorem Kept.step {c : HubConfig} (kept : Kept c) {input : HubInput} (careful : ArchiveCareful c input) :
    Kept (hubMachine.advance c input) := by
  cases input with
  | insert recipient row retry nowMs =>
    simp only [Machine.advance, hubMachine, hubStep, insertStep]
    split
    · rename_i mb' outcome
      obtain ⟨free, rfl⟩ := insert_stored outcome
      have moved := kept.insert nowMs free (careful (by rw [outcome]))
      refine moved.enqueueAfter (fun archived member => ?_)
      obtain ⟨r, found, -, same⟩ := mem_archiveRows.mp member
      refine ⟨r, ?_, same⟩
      simp only [Hubs.setMailbox, Function.update_self]
      exact found
    · simpa using kept
  | acknowledge recipient ids retry nowMs => exact kept.acknowledge recipient ids retry nowMs
  | replay recipient nowMs => exact kept.replay recipient nowMs
  | deliver p batch =>
    simp only [Machine.advance, hubMachine, hubStep, deliverStep, List.append_nil]
    split
    · split
      · rename_i handed
        refine kept.setPass p _ (fun m member => kept.queue m ?_)
        have inside := List.all_eq_true.mp handed m (List.mem_of_mem_filter member)
        exact of_decide_eq_true inside
      · exact kept
    · exact kept
  | readBodies p recipient answered =>
    simp only [Machine.advance, hubMachine, hubStep, readBodiesStep, List.append_nil]
    split
    · rename_i batch here
      have ok := kept.passes p
      rw [here] at ok
      split
      · exact kept.setPass p _ (fillBodies_ok kept ok)
      · exact kept.setPass p _ (fun m member => ok m (List.mem_of_mem_filter member))
    · exact kept
  | plan p =>
    simp only [Machine.advance, hubMachine, hubStep, planStep, List.append_nil]
    split
    · rename_i batch here
      have ok := kept.passes p
      rw [here] at ok
      split
      · exact kept
      · rename_i read
        simp only [ArchiveCareful, here, Pass.Clear] at careful
        refine kept.setPass p _ ⟨fun m member => ⟨ok m member, ?_⟩, heldBy c.state.db batch, rfl,
          heldBy_ahead _ _, fun m member shadowed => careful m member ((overshadowed_iff member).mp shadowed)⟩
        exact Bool.eq_false_of_not_eq_true (fun asks => read (List.any_eq_true.mpr ⟨m, member, asks⟩))
    · exact kept
  | write p nowMs answered =>
    simp only [Machine.advance, hubMachine, hubStep, List.append_nil]
    cases here : c.state.passes p with
    | planned batch verdicts =>
      simp only [ArchiveCareful, here, Pass.Unraced] at careful
      exact kept.write here careful nowMs answered
    | idle => simpa [writeStep, here] using kept
    | reading batch => simpa [writeStep, here] using kept
    | telling dones => simpa [writeStep, here] using kept
  | tell p delivered =>
    simp only [Machine.advance, hubMachine, hubStep, tellStep]
    split
    · rename_i recipient done rest here
      have ok := kept.passes p
      rw [here] at ok
      have restOk : PassOk c.state.db c.log (.telling rest) :=
        fun entry member => ok entry (List.mem_cons_of_mem _ member)
      split
      · have moved := kept.takeDones (ok (recipient, done) (List.mem_cons_self ..))
        exact moved.setPass p _ (restOk.advance (Advances.refl _) _)
      · simpa using kept.setPass p _ restOk
    · simpa using kept.setPass p .idle trivial
    · simpa using kept
  | abandon p => simpa [Machine.advance, hubMachine, hubStep] using kept.setPass p .idle trivial

theorem kept_start (db : Database.Store) : Kept ⟨Hubs.start db, []⟩ := by
  constructor <;> simp [Hubs.start, PassOk]

/-- In every run whose steps meet the condition, no body is lost between a hub and the archive. -/
theorem noBodyLost_of_careful (db : Database.Store) (inputs : List HubInput)
    (careful : hubMachine.Guarded ArchiveCareful ⟨Hubs.start db, []⟩ inputs) :
    NoBodyLost (hubMachine.run ⟨Hubs.start db, []⟩ inputs) :=
  (hubMachine.run_invariant (fun _ _ kept ok => kept.step ok) (kept_start db) careful).noBodyLost

/-- The message a first store hands to the queue. -/
def firstMessage (recipient : String) (row : NewRow) : ArchiveMessage :=
  archiveMessage (archiveRow (freshRow Store.empty row 0)) recipient

/-- The archive message of a row's acknowledgment, its body already given up. -/
def ackMessage (recipient : String) (row : NewRow) : ArchiveMessage :=
  { firstMessage recipient row with version := 2, change := .acknowledge, body := none }

def greeting : NewRow := ⟨"m", "inbox", "carol", "hello"⟩

/-- A row stored, archived, acknowledged, archived again and deleted. -/
def quietLife : List HubInput :=
  [.insert "alice" greeting false 0, .deliver 0 [firstMessage "alice" greeting], .plan 0, .write 0 1 true,
    .tell 0 true, .tell 0 true, .acknowledge "alice" ["m"] false 2, .replay "alice" 500000,
    .deliver 1 [ackMessage "alice" greeting], .plan 1, .write 1 3 true, .tell 1 true]

theorem noBodyLost_quietLife :
    HubEvent.deleted "alice" 1 false ∈ (hubMachine.run ⟨Hubs.start Database.Store.empty, []⟩ quietLife).log ∧
      NoBodyLost (hubMachine.run ⟨Hubs.start Database.Store.empty, []⟩ quietLife) :=
  ⟨by decide +kernel, noBodyLost_of_careful _ _ (by decide +kernel)⟩

/-- Two recipients store one id and two consumers plan before either writes. Bob's write is a no-op
that is told as done, and his acknowledgment drops the only copy of his body. -/
def racingConsumers : List HubInput :=
  [.insert "alice" greeting false 0, .insert "bob" ⟨"m", "inbox", "dave", "world"⟩ false 0,
    .deliver 0 [firstMessage "alice" greeting], .deliver 1 [firstMessage "bob" ⟨"m", "inbox", "dave", "world"⟩],
    .plan 0, .plan 1, .write 0 1 true, .write 1 1 true, .tell 1 true, .acknowledge "bob" ["m"] false 2]

theorem racingConsumers_lose_body :
    ¬ ∀ (db : Database.Store) (inputs : List HubInput),
      NoBodyLost (hubMachine.run ⟨Hubs.start db, []⟩ inputs) := by
  intro always
  obtain ⟨r, found, own, -⟩ := always Database.Store.empty racingConsumers "bob" 1
    ⟨"m", "inbox", "dave", "world"⟩ (by decide +kernel) (.inr (by decide +kernel))
  have taken : ((hubMachine.run ⟨Hubs.start Database.Store.empty, []⟩ racingConsumers).state.db.row? "m").map
      MessageRow.recipient = some "alice" := by decide +kernel
  have alices : r.recipient = "alice" := by
    rw [show (hubMachine.run _ racingConsumers).state.db.row? "m" = some r from found] at taken
    exact Option.some.inj taken
  exact absurd (own.symm.trans alices) (by decide)

end MessageRelay.Relay
