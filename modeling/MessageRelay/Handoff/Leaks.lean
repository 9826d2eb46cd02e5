import MessageRelay.Handoff.KeyWorld

/-! When no object is left behind: exactly which steps let go of a key that nothing else holds. Rows let go through
the triggers, which record the key; a fee that ends, a reclaim that gives up, a record that is forgotten and bytes
that are spooled do not. -/

namespace MessageRelay.Handoff
open MessageRelay.Library MessageRelay.Send

/-- The key is recorded for a pass, or being reclaimed. -/
def KeyWorld.watched (w : KeyWorld) : Prop :=
  w.released = true ∨ w.minted = true ∨ ∃ t, (w.tasks t).reclaims = true

/-- An object that nothing names is watched. -/
def NoLeak (w : KeyWorld) : Prop := w.object = none ∨ w.named = true ∨ w.watched

/-- Another task reclaims the key. -/
def KeyWorld.reclaimedBeside (w : KeyWorld) (t : Nat) : Prop := ∃ u, u ≠ t ∧ (w.tasks u).reclaims = true

/-- The condition on one access of a task. A hand-off may go on to reclaim the key itself. -/
def CarefulAccess (w : KeyWorld) (t : Nat) (outcome : Outcome) (stamp : Stamp) : Task → Prop
  | .hand p (.spooling next) => outcome.landed = true →
      (outcome = .ok ∧ (afterSpooled p stamp next).reclaims = true) ∨ w.named = true ∨ w.watched
  | .hand p (.ending stamp owed) => outcome.landed = true →
      (outcome = .ok ∧ (finishing p .ended (some stamp) owed).reclaims = true) ∨
        w.object = none ∨ w.rowNames = true ∨ w.announce.isSome = true ∨ w.watched
  | .drain .ending =>
    outcome.landed = true → w.object = none ∨ w.rowNames = true ∨ w.announce.isSome = true ∨ w.watched
  | .drain .settling =>
    outcome = .failedLanded → w.object = none ∨ w.rowNames = true ∨ w.announce.isSome = true ∨ w.watched
  | .reask .clearing =>
    outcome = .failedLanded → w.object = none ∨ w.rowNames = true ∨ w.feeOwes = true ∨ w.watched
  | .reclaiming _ .claiming =>
    outcome ≠ .ok → w.object = none ∨ w.named = true ∨ w.released = true ∨ w.minted = true ∨ w.reclaimedBeside t
  | .reclaiming _ (.unclaiming _) =>
    w.object = none ∨ w.named = true ∨ w.released = true ∨ w.minted = true ∨ w.reclaimedBeside t
  | .forgetting .released =>
    outcome.landed = true → w.object = none ∨ w.named = true ∨ w.minted = true ∨ w.reclaimedBeside t
  | .forgetting .minted =>
    outcome.landed = true → w.object = none ∨ w.named = true ∨ w.released = true ∨ w.reclaimedBeside t
  | _ => True

abbrev LeakConfig := Config KeyWorld Empty

/-- The condition on one step. Bytes come to a key that is held; and a fee that ends, a reclaim that gives up or a
record that is forgotten leaves a key that something else holds. -/
def Careful (c : LeakConfig) : KeyInput → Prop
  | .upload _ => c.state.named = true ∨ c.state.watched
  | .access t outcome _ stamp => CarefulAccess c.state t outcome stamp (c.state.tasks t)
  | _ => True

theorem exists_reclaims_update {tasks : Nat → Task} {t : Nat} {task : Task} :
    (∃ u, (Function.update tasks t task u).reclaims = true) ↔
      task.reclaims = true ∨ ∃ u, u ≠ t ∧ (tasks u).reclaims = true := by
  constructor
  · rintro ⟨u, reclaims⟩
    by_cases same : u = t
    · subst same
      exact .inl (by simpa using reclaims)
    · exact .inr ⟨u, same, by simpa [Function.update_of_ne same] using reclaims⟩
  · rintro (own | ⟨u, other, reclaims⟩)
    · exact ⟨t, by simpa using own⟩
    · exact ⟨u, by simpa [Function.update_of_ne other] using reclaims⟩

theorem exists_reclaims_iff {tasks : Nat → Task} (t : Nat) :
    (∃ u, (tasks u).reclaims = true) ↔ (tasks t).reclaims = true ∨ ∃ u, u ≠ t ∧ (tasks u).reclaims = true := by
  have same : (∃ u, (Function.update tasks t (tasks t) u).reclaims = true) ↔
      (tasks t).reclaims = true ∨ ∃ u, u ≠ t ∧ (tasks u).reclaims = true := exists_reclaims_update
  rwa [Function.update_eq_self] at same

/-- What holds a key, but for one task. -/
def HeldBeside (w : KeyWorld) (t : Nat) : Prop :=
  w.object = none ∨ w.named = true ∨ w.released = true ∨ w.minted = true ∨ w.reclaimedBeside t

theorem noLeak_iff (w : KeyWorld) (t : Nat) : NoLeak w ↔ (w.tasks t).reclaims = true ∨ HeldBeside w t := by
  unfold NoLeak HeldBeside KeyWorld.watched KeyWorld.reclaimedBeside
  rw [exists_reclaims_iff t]
  tauto

theorem watched_iff (w : KeyWorld) (t : Nat) :
    w.watched ↔ (w.tasks t).reclaims = true ∨ w.released = true ∨ w.minted = true ∨ w.reclaimedBeside t := by
  unfold KeyWorld.watched KeyWorld.reclaimedBeside
  rw [exists_reclaims_iff t]
  tauto

theorem noLeak_setTask (w : KeyWorld) (t : Nat) (task : Task) :
    NoLeak (w.setTask t task) ↔ task.reclaims = true ∨ HeldBeside w t := by
  unfold NoLeak HeldBeside KeyWorld.watched KeyWorld.reclaimedBeside KeyWorld.setTask
  simp only [exists_reclaims_update]
  have named : (KeyWorld.mk w.object w.rows w.fee w.announce w.released w.minted (Function.update w.tasks t task)).named
    = w.named := rfl
  rw [named]
  tauto

/-- A step that only moves a task that reclaims nothing. -/
theorem noLeak_moved {w : KeyWorld} (safe : NoLeak w) {t : Nat} (quiet : (w.tasks t).reclaims = false) (task : Task) :
    NoLeak (w.setTask t task) := by
  rw [noLeak_setTask]
  rcases (noLeak_iff w t).mp safe with own | held
  · simp [quiet] at own
  · exact .inr held

theorem heldBeside_congr {w w' : KeyWorld} {t : Nat} (object : w.object = none → w'.object = none)
    (named : w.named = true → w'.named = true) (released : w.released = true → w'.released = true)
    (minted : w.minted = true → w'.minted = true) (tasks : w'.tasks = w.tasks) (held : HeldBeside w t) :
    HeldBeside w' t := by
  unfold HeldBeside KeyWorld.reclaimedBeside at *
  rw [tasks]
  tauto

/-- An insert that ignores a row there already takes no name away. -/
theorem feeOwes_insert (fee : Option KeyFee) (etag : String) (landed : Bool)
    (owes : fee.any (fun f => !f.ended) = true) :
    (if landed then some (fee.getD ⟨etag, false⟩) else fee).any (fun f => !f.ended) = true := by
  cases fee with
  | none => cases owes
  | some f => cases landed <;> exact owes

theorem feeOwes_over (fee : Option KeyFee) : (fee.map KeyFee.over).any (fun f => !f.ended) = false := by
  cases fee <;> rfl

/-- What a task that reclaims nothing leaves as it moves on with a fee ended or gone. -/
theorem noLeak_unowed {w : KeyWorld} {t : Nat} (quiet : (w.tasks t).reclaims = false) {fee : Option KeyFee}
    (unowed : fee.any (fun f => !f.ended) = false) (task : Task) :
    NoLeak (KeyWorld.setTask { w with fee := fee } t task) ↔
      task.reclaims = true ∨ w.object = none ∨ w.rowNames = true ∨ w.announce.isSome = true ∨ w.watched := by
  rw [noLeak_setTask, watched_iff w t, quiet]
  have named : (KeyWorld.named { w with fee := fee }) = (w.rowNames || w.announce.isSome) := by
    simp only [KeyWorld.named, KeyWorld.feeOwes, unowed, Bool.or_false]
    rfl
  simp only [HeldBeside, named, Bool.or_eq_true, KeyWorld.reclaimedBeside]
  tauto

section Steps
variable {w : KeyWorld} {t : Nat} {p : Payment} {outcome : Outcome}

theorem heldBeside_of_quiet (safe : NoLeak w) (quiet : (w.tasks t).reclaims = false) : HeldBeside w t := by
  rcases (noLeak_iff w t).mp safe with own | held
  · simp [quiet] at own
  · exact held

theorem noLeak_handStep (safe : NoLeak w) {stage : HandStage} (word : Word) (stamp : Stamp)
    (task : w.tasks t = .hand p stage) :
    NoLeak (handStep w t p outcome word stamp stage) ↔ CarefulAccess w t outcome stamp (.hand p stage) := by
  have quiet : (w.tasks t).reclaims = false := by rw [task]; rfl
  have held : HeldBeside w t := heldBeside_of_quiet safe quiet
  have moved (next : Task) : NoLeak (w.setTask t next) := noLeak_moved safe quiet next
  cases stage with
  | stamping =>
    refine iff_of_true ?_ trivial
    unfold handStep
    dsimp only
    split
    · exact moved _
    · split <;> exact moved _
  | spooling next =>
    rw [handStep, noLeak_setTask, CarefulAccess]
    cases landed : outcome.landed with
    | false =>
      simp only [Bool.false_eq_true, if_false, false_imp_iff, iff_true]
      exact .inr held
    | true =>
      simp only [if_true, true_imp_iff, watched_iff w t, quiet]
      have named : (KeyWorld.named { w with object := some stamp }) = w.named := rfl
      by_cases ok : outcome = .ok
      · simp [ok, HeldBeside, named, KeyWorld.reclaimedBeside]
      · simp [ok, HeldBeside, named, KeyWorld.reclaimedBeside, Task.reclaims]
  | announcing rest =>
    refine iff_of_true ?_ trivial
    unfold handStep
    dsimp only
    split
    · exact moved _
    · split <;> exact moved _
  | owing stamp =>
    refine iff_of_true ?_ trivial
    rw [handStep, noLeak_setTask]
    right
    refine heldBeside_congr (w := w) id ?_ id id rfl held
    simp only [KeyWorld.named, Bool.or_eq_true]
    rintro (named | named)
    · exact .inl named
    · right
      split
      · rfl
      · exact named
  | asking rest owed =>
    refine iff_of_true ?_ trivial
    unfold handStep
    dsimp only
    split <;> exact moved _
  | deferring stamp owed =>
    refine iff_of_true ?_ trivial
    rw [handStep, noLeak_setTask]
    right
    refine heldBeside_congr (w := w) id ?_ id id rfl held
    simp only [KeyWorld.named, Bool.or_eq_true]
    rintro ((named | named) | named)
    · exact .inl (.inl named)
    · exact .inl (.inr (feeOwes_insert w.fee stamp.etag outcome.landed named))
    · exact .inr named
  | wording stamp owed => exact iff_of_true (moved _) trivial
  | ending stamp owed =>
    rw [handStep, CarefulAccess]
    cases landed : outcome.landed with
    | false =>
      simp only [Bool.false_eq_true, if_false, false_imp_iff, iff_true]
      exact moved _
    | true =>
      simp only [if_true, true_imp_iff]
      rw [noLeak_unowed quiet (feeOwes_over w.fee)]
      by_cases ok : outcome = .ok
      · simp [ok]
      · simp [ok, Task.reclaims]
  | storing fee kept naming => exact iff_of_true safe trivial

theorem noLeak_drainStep (safe : NoLeak w) {stage : DrainStage} (word : Word) (stamp : Stamp)
    (task : w.tasks t = .drain stage) :
    NoLeak (drainStep w t outcome word stage) ↔ CarefulAccess w t outcome stamp (.drain stage) := by
  have quiet : (w.tasks t).reclaims = false := by rw [task]; rfl
  have moved (next : Task) : NoLeak (w.setTask t next) := noLeak_moved safe quiet next
  cases stage with
  | stamping etag =>
    refine iff_of_true ?_ trivial
    unfold drainStep
    dsimp only
    split <;> exact moved _
  | presenting =>
    refine iff_of_true ?_ trivial
    unfold drainStep
    dsimp only
    split <;> exact moved _
  | settling =>
    rw [drainStep, CarefulAccess]
    cases outcome with
    | failed => exact iff_of_true (moved _) (by simp)
    | ok =>
      refine iff_of_true ?_ (by simp)
      exact (noLeak_unowed quiet rfl _).mpr (.inl rfl)
    | failedLanded =>
      rw [show (Outcome.failedLanded).landed = true from rfl, if_pos rfl, noLeak_unowed quiet rfl]
      simp [Task.reclaims]
  | puttingOff => exact iff_of_true (moved _) trivial
  | ending =>
    rw [drainStep, CarefulAccess]
    cases landed : outcome.landed with
    | false =>
      simp only [Bool.false_eq_true, if_false, false_imp_iff, iff_true]
      exact moved _
    | true =>
      simp only [if_true, true_imp_iff]
      rw [noLeak_unowed quiet (feeOwes_over w.fee)]
      simp [Task.reclaims]

theorem noLeak_reaskStep (safe : NoLeak w) {stage : ReaskStage} (word : Word) (stamp : Stamp)
    (task : w.tasks t = .reask stage) :
    NoLeak (reaskStep w t outcome word stage) ↔ CarefulAccess w t outcome stamp (.reask stage) := by
  have quiet : (w.tasks t).reclaims = false := by rw [task]; rfl
  have moved (next : Task) : NoLeak (w.setTask t next) := noLeak_moved safe quiet next
  cases stage with
  | stamping etag => exact iff_of_true (moved _) trivial
  | announcing => exact iff_of_true (moved _) trivial
  | clearing =>
    rw [reaskStep, CarefulAccess]
    cases outcome with
    | failed => exact iff_of_true (moved _) (by simp)
    | ok => exact iff_of_true ((noLeak_setTask _ t _).mpr (.inl rfl)) (by simp)
    | failedLanded =>
      have named : (KeyWorld.named { w with announce := none }) = (w.rowNames || w.feeOwes) := Bool.or_false _
      rw [noLeak_setTask, watched_iff w t, quiet]
      simp [Outcome.landed, Task.reclaims, HeldBeside, named, KeyWorld.reclaimedBeside, or_assoc]

/-- A task that reclaims on has let nothing go. -/
theorem noLeak_reclaiming (w : KeyWorld) (t : Nat) (caller : Caller) (stage : ReclaimStage) :
    NoLeak (w.setTask t (.reclaiming caller stage)) := (noLeak_setTask _ t _).mpr (.inl rfl)

theorem answered_reclaims (answer : Option Bool) (caller : Caller) : (answered answer caller).reclaims = false := by
  cases caller <;> cases answer <;> rfl

theorem noLeak_keyReclaimStep {caller : Caller} {stage : ReclaimStage} (stamp : Stamp) :
    NoLeak (keyReclaimStep w t caller outcome stage) ↔
      CarefulAccess w t outcome stamp (.reclaiming caller stage) := by
  cases stage with
  | claiming =>
    rw [keyReclaimStep, CarefulAccess, noLeak_setTask]
    by_cases ok : outcome = .ok
    · simp [ok, Task.reclaims]
    · simp [ok, answered_reclaims, HeldBeside]
  | looking looked look =>
    refine iff_of_true ?_ trivial
    cases look <;> exact noLeak_reclaiming ..
  | stamping => exact iff_of_true (noLeak_reclaiming ..) trivial
  | stampingAgain looked => exact iff_of_true (noLeak_reclaiming ..) trivial
  | clearing => exact iff_of_true (noLeak_reclaiming ..) trivial
  | unclaiming answer =>
    rw [keyReclaimStep, CarefulAccess, noLeak_setTask]
    simp [answered_reclaims, HeldBeside]

theorem noLeak_forgetStep (safe : NoLeak w) {caller : Caller} (stamp : Stamp) (task : w.tasks t = .forgetting caller) :
    NoLeak (forgetStep w t outcome caller) ↔ CarefulAccess w t outcome stamp (.forgetting caller) := by
  have quiet : (w.tasks t).reclaims = false := by rw [task]; rfl
  have held : HeldBeside w t := heldBeside_of_quiet safe quiet
  cases caller with
  | bestEffort => exact iff_of_true (noLeak_moved safe quiet _) trivial
  | released =>
    rw [forgetStep, CarefulAccess, noLeak_setTask]
    cases landed : outcome.landed with
    | false => simpa [Task.reclaims, HeldBeside, KeyWorld.named, KeyWorld.reclaimedBeside] using held
    | true =>
      have named : (KeyWorld.named { w with released := false }) = w.named := rfl
      simp [Task.reclaims, HeldBeside, named, KeyWorld.reclaimedBeside]
  | minted =>
    rw [forgetStep, CarefulAccess, noLeak_setTask]
    cases landed : outcome.landed with
    | false => simpa [Task.reclaims, HeldBeside, KeyWorld.named, KeyWorld.reclaimedBeside] using held
    | true =>
      have named : (KeyWorld.named { w with minted := false }) = w.named := rfl
      simp [Task.reclaims, HeldBeside, named, KeyWorld.reclaimedBeside]

theorem noLeak_accessStep (safe : NoLeak w) (word : Word) (stamp : Stamp) :
    NoLeak (accessStep w t outcome word stamp) ↔ CarefulAccess w t outcome stamp (w.tasks t) := by
  unfold accessStep
  cases task : w.tasks t with
  | idle => exact iff_of_true safe trivial
  | hand p stage => exact noLeak_handStep safe word stamp task
  | drain stage => exact noLeak_drainStep safe word stamp task
  | reask stage => exact noLeak_reaskStep safe word stamp task
  | reclaiming caller stage => exact noLeak_keyReclaimStep stamp
  | forgetting caller => exact noLeak_forgetStep safe stamp task

theorem noLeak_begin (safe : NoLeak w) (task : Task) : NoLeak (begin w t task) := by
  unfold begin
  split
  · rename_i idle
    exact noLeak_moved safe (by rw [idle]; rfl) task
  · exact safe

theorem noLeak_storeStep (safe : NoLeak w) (messageId : String) : NoLeak (storeStep w t messageId outcome) := by
  unfold storeStep
  split
  · rename_i p fee kept naming task
    have held : HeldBeside w t := heldBeside_of_quiet safe (by rw [task]; rfl)
    split
    · exact safe
    · rw [noLeak_setTask]
      right
      refine heldBeside_congr (w := w) id ?_ id id rfl held
      simp only [KeyWorld.named, KeyWorld.rowNames, Bool.or_eq_true]
      rintro ((named | named) | named)
      · left; left
        split
        · simp [named]
        · exact named
      · exact .inl (.inr named)
      · exact .inr named
  · exact safe

theorem noLeak_sentStep (safe : NoLeak w) (failed : Bool) : NoLeak (sentStep w t failed) := by
  unfold sentStep
  split
  · rename_i task
    exact noLeak_moved safe (by rw [task]; rfl) _
  · exact safe

/-- A row that stops naming the key leaves it released. -/
theorem noLeak_released {w : KeyWorld} (safe : NoLeak w) {rows : List KeyRow} {gone : Bool}
    (kept : gone = false → rows.any (fun r => !r.acknowledged) = w.rows.any (fun r => !r.acknowledged)) :
    NoLeak { w with rows := rows, released := w.released || gone } := by
  cases gone with
  | true => exact .inr (.inr (.inl (by simp)))
  | false =>
    rcases safe with none | named | recorded | minted | reclaims
    · exact .inl none
    · right; left
      simpa only [KeyWorld.named, KeyWorld.rowNames, KeyWorld.feeOwes, kept rfl] using named
    · exact .inr (.inr (.inl (by simpa using recorded)))
    · exact .inr (.inr (.inr (.inl minted)))
    · exact .inr (.inr (.inr (.inr reclaims)))

end Steps

/-- One step leaves no object behind exactly when it is careful. -/
theorem noLeak_keyStep {w : KeyWorld} (safe : NoLeak w) (input : KeyInput) :
    NoLeak (keyStep w input) ↔ Careful ⟨w, []⟩ input := by
  cases input with
  | mint => exact iff_of_true (.inr (.inr (.inr (.inl rfl)))) trivial
  | upload stamp =>
    simp only [keyStep, NoLeak, Careful, reduceCtorEq, false_or]
    exact Iff.rfl
  | send t p => exact iff_of_true (noLeak_begin safe _) trivial
  | drain t =>
    refine iff_of_true ?_ trivial
    simp only [keyStep]
    split
    · split
      · exact safe
      · exact noLeak_begin safe _
    · exact safe
  | reask t =>
    refine iff_of_true ?_ trivial
    simp only [keyStep]
    split
    · exact noLeak_begin safe _
    · exact safe
  | releasedPass t =>
    refine iff_of_true ?_ trivial
    simp only [keyStep]
    split
    · exact noLeak_begin safe _
    · exact safe
  | mintedPass t =>
    refine iff_of_true ?_ trivial
    simp only [keyStep]
    split
    · exact noLeak_begin safe _
    · exact safe
  | access t outcome word stamp => exact noLeak_accessStep safe word stamp
  | store t messageId outcome => exact iff_of_true (noLeak_storeStep safe messageId) trivial
  | sent t failed => exact iff_of_true (noLeak_sentStep safe failed) trivial
  | acknowledge messageId =>
    refine iff_of_true (noLeak_released safe ?_) trivial
    intro none
    have same : w.rows.map (fun r => if r.messageId = messageId then { r with acknowledged := true } else r) =
        w.rows := by
      refine (List.map_congr_left ?_).trans (List.map_id _)
      intro r member
      have unmet := List.any_eq_false.mp none r member
      split
      · rename_i named
        simp only [named, decide_true, Bool.true_and, Bool.not_eq_true', Bool.not_eq_false] at unmet
        rw [← unmet]
        rfl
      · rfl
    rw [same]
  | delete messageId =>
    refine iff_of_true (noLeak_released safe ?_) trivial
    intro none
    rw [List.filter_eq_self.mpr]
    intro r member
    simpa using List.any_eq_false.mp none r member

/-- No run leaves an object behind, in any of its states, exactly when all its steps are careful. -/
theorem no_object_leaks (inputs : List KeyInput) :
    (∀ front, front <+: inputs → NoLeak (leakMachine.run ⟨KeyWorld.start, []⟩ front).state) ↔
      leakMachine.Guarded Careful ⟨KeyWorld.start, []⟩ inputs := by
  have step (c : LeakConfig) (input : KeyInput) (safe : NoLeak c.state) :
      NoLeak (leakMachine.advance c input).state ↔ Careful c input := noLeak_keyStep safe input
  rw [leakMachine.guarded_iff_forall_prefix step (.inl rfl)]

/-- An inline payment of a fee alone: spooled as the fee is deferred. -/
def feeOnly : Payment :=
  { own := true, spooled := false, door := none, rows := false, owesFee := true, judged := true, broadcaster := false,
    size := 0 }

/-- A spooled payment whose fee the drain ends: the object stays, and nothing comes back to it. -/
theorem ended_fee_leaks : ¬ NoLeak (leakMachine.run ⟨KeyWorld.start, []⟩
    [.send 0 feeOnly, .access 0 .failed .silent ⟨1, "a"⟩, .access 0 .ok .silent ⟨1, "a"⟩,
      .access 0 .ok .silent ⟨1, "a"⟩, .access 0 .ok .no ⟨1, "a"⟩, .sent 0 false, .drain 1,
      .access 1 .ok .silent ⟨1, "a"⟩, .access 1 .ok .hopeless ⟨1, "a"⟩, .access 1 .ok .silent ⟨1, "a"⟩]).state := by
  rintro (gone | named | recorded | minted | ⟨t, reclaims⟩)
  · cases gone
  · cases named
  · cases recorded
  · cases minted
  · match t with
    | 0 => cases reclaims
    | 1 => cases reclaims
    | _ + 2 => cases reclaims

end MessageRelay.Handoff
