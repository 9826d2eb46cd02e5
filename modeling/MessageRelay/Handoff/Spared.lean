import MessageRelay.Handoff.Reclaim

/-! When no object is deleted unseen under a row that names it: exactly which placements of a clear and of a
send's check break the rule that one of the two always sees the other. -/

namespace MessageRelay.Handoff
open MessageRelay.Library

abbrev KeyConfig := Config World Empty

/-- A live row whose send has made its check has the object at rest, or the check found it orphaned. -/
def Spared (w : World) : Prop :=
  ∀ r ∈ w.rows, r.acknowledged = false → ∀ orphaned, w.sends r.send = .ended orphaned →
    w.object ≠ none ∨ orphaned = true

/-- A send has a live row under the key. -/
def World.hasRow (w : World) (j : Nat) : Prop := ∃ r ∈ w.rows, r.acknowledged = false ∧ r.send = j

/-- The condition on one step. A clear takes the object from under no row whose send has made its check and gone
on. A send whose object is gone reads the claim while it is held, and then has its stamp answered. -/
def Watched (c : KeyConfig) : Input → Prop
  | .reclaim i outcome _ => c.state.reclaims i = .unchanged → outcome.landed = true →
      ∀ r ∈ c.state.rows, r.acknowledged = false → c.state.sends r.send ≠ .ended false
  | .sendClaimed j answers now => c.state.sends j = .naming → c.state.hasRow j → c.state.object = none →
      answers = true ∧ c.state.claimed now = true
  | .sendStamps j answers => c.state.sends j = .claimSeen → c.state.hasRow j → c.state.object = none → answers = true
  | _ => True

/-- A step that keeps the rows, the sends' places and the object keeps what holds of them. -/
theorem spared_of_same {w w' : World} (rows : w'.rows = w.rows) (sends : w'.sends = w.sends)
    (object : w'.object = w.object) : Spared w' ↔ Spared w := by
  unfold Spared
  rw [rows, sends, object]

/-- What a reclaim's step leaves alone, and what its clear does. -/
theorem reclaimStep_cases (w : World) (i : Nat) (outcome : Outcome) (now : Nat) :
    (reclaimStep w i outcome now).rows = w.rows ∧ (reclaimStep w i outcome now).sends = w.sends ∧
      (reclaimStep w i outcome now).object =
        if w.reclaims i = .unchanged ∧ outcome.landed = true then none else w.object := by
  unfold reclaimStep
  cases task : w.reclaims i with
  | idle => simp only [World.setReclaim]; split <;> simp
  | unnamed => simp only [World.setReclaim]; split <;> simp_all
  | unchanged => simp [World.setReclaim]
  | claimed | stamped | unnamedStill | ended => simp [World.setReclaim]

theorem spared_reclaim {w : World} (spared : Spared w) (i : Nat) (outcome : Outcome) (now : Nat) :
    Spared (reclaimStep w i outcome now) ↔ Watched ⟨w, []⟩ (.reclaim i outcome now) := by
  obtain ⟨rows, sends, object⟩ := reclaimStep_cases w i outcome now
  by_cases clears : w.reclaims i = .unchanged ∧ outcome.landed = true
  · rw [if_pos clears] at object
    unfold Spared
    rw [rows, sends, object]
    constructor
    · intro after _ _ r member live ended
      rcases after r member live false ended with present | no
      · exact absurd rfl present
      · cases no
    · intro watched r member live orphaned ended
      cases orphaned with
      | true => exact .inr rfl
      | false => exact absurd ended (watched clears.1 clears.2 r member live)
  · rw [if_neg clears] at object
    rw [spared_of_same rows sends object]
    refine ⟨fun _ unchanged landed => absurd ⟨unchanged, landed⟩ clears, fun _ => spared⟩

/-- A send that moves on to a place at which nothing is promised yet. -/
theorem spared_setSend_pending {w : World} (spared : Spared w) (j : Nat) {task : SendTask}
    (pending : ∀ orphaned, task ≠ .ended orphaned) : Spared (w.setSend j task) := by
  intro r member live orphaned ended
  by_cases own : r.send = j
  · simp only [World.setSend, own, Function.update_self] at ended
    exact absurd ended (pending orphaned)
  · simp only [World.setSend, Function.update_of_ne own] at ended
    exact spared r member live orphaned ended

/-- A send that ends its check answers rightly, or has no live row left. -/
theorem spared_setSend_ended {w : World} (spared : Spared w) (j : Nat) (answer : Bool) :
    Spared (w.setSend j (.ended answer)) ↔ (w.hasRow j → w.object ≠ none ∨ answer = true) := by
  constructor
  · rintro after ⟨r, member, live, rfl⟩
    apply after r member live answer
    simp only [World.setSend, Function.update_self]
  · intro right r member live orphaned ended
    by_cases own : r.send = j
    · simp only [World.setSend, own, Function.update_self, SendTask.ended.injEq] at ended
      rw [← ended]
      exact right ⟨r, member, live, own⟩
    · simp only [World.setSend, Function.update_of_ne own] at ended
      exact spared r member live orphaned ended

theorem spared_sendClaimed {w : World} (spared : Spared w) (j : Nat) (answers : Bool) (now : Nat) :
    Spared (sendClaimedStep w j answers now) ↔ Watched ⟨w, []⟩ (.sendClaimed j answers now) := by
  unfold sendClaimedStep Watched
  cases task : w.sends j with
  | idle | claimSeen | ended => simp [spared, task]
  | naming =>
    simp only
    by_cases seen : answers = true ∧ w.claimed now = true
    · rw [if_pos (by simp [seen])]
      refine ⟨fun _ _ _ _ => seen, fun _ => spared_setSend_pending spared j (by simp)⟩
    · rw [if_neg (by simpa using seen), spared_setSend_ended spared]
      constructor
      · intro right _ row gone
        rcases right row with present | no
        · exact absurd gone present
        · cases no
      · intro watched row
        exact .inl (fun gone => seen (watched task row gone))

theorem spared_sendStamps {w : World} (spared : Spared w) (j : Nat) (answers : Bool) :
    Spared (sendStampsStep w j answers) ↔ Watched ⟨w, []⟩ (.sendStamps j answers) := by
  unfold sendStampsStep Watched
  cases task : w.sends j with
  | idle | naming | ended => simp [spared, task]
  | claimSeen =>
    simp only
    rw [spared_setSend_ended spared]
    cases object : w.object with
    | none => simp [task]
    | some stamp => simp

theorem spared_sendStores {w : World} (spared : Spared w) (j : Nat) (messageId : String) :
    Spared (sendStoresStep w j messageId) := by
  have stores : Spared ({ w with rows := w.rows ++ [NamingRow.mk messageId j false] }.setSend j .naming) := by
    intro r member live orphaned ended
    by_cases own : r.send = j
    · simp only [World.setSend, own, Function.update_self] at ended
      cases ended
    · simp only [World.setSend, Function.update_of_ne own] at ended
      rcases List.mem_append.mp member with old | new
      · exact spared r old live orphaned ended
      · exact absurd (congrArg NamingRow.send (List.mem_singleton.mp new)) own
  unfold sendStoresStep
  split
  · split
    · exact spared
    · exact stores
  · split
    · exact spared
    · exact stores
  · exact spared

/-- One step keeps the rule exactly when it meets the condition. -/
theorem spared_step (c : KeyConfig) (input : Input) (spared : Spared c.state) :
    Spared (keyMachine.advance c input).state ↔ Watched c input := by
  change Spared (step c.state input) ↔ _
  cases input with
  | reclaim i outcome now => exact spared_reclaim spared i outcome now
  | sendClaimed j answers now => exact spared_sendClaimed spared j answers now
  | sendStamps j answers => exact spared_sendStamps spared j answers
  | reclaimDies i => exact iff_of_true ((spared_of_same rfl rfl rfl).mpr spared) trivial
  | owe owed => exact iff_of_true ((spared_of_same rfl rfl rfl).mpr spared) trivial
  | sendStores j messageId => exact iff_of_true (spared_sendStores spared j messageId) trivial
  | put stamp => exact iff_of_true (fun _ _ _ _ _ => .inl (by simp [step])) trivial
  | acknowledge messageId =>
    refine iff_of_true (fun r member live orphaned ended => ?_) trivial
    obtain ⟨old, inside, same⟩ := List.mem_map.mp member
    split at same
    · rw [← same] at live
      cases live
    · subst same
      exact spared old inside live orphaned ended
  | delete messageId =>
    exact iff_of_true (fun r member => spared r (List.mem_of_mem_filter member)) trivial

/-- In every run of any number of reclaims and sends of one key, the object is never deleted unseen under a live
row exactly when every clear and every check of the run falls where the condition has it. -/
theorem object_spared_iff (object : Option Stamp) (claimedAt : Option Nat) (owed : Bool) (inputs : List Input) :
    (∀ front, front <+: inputs → Spared (keyMachine.run ⟨World.start object claimedAt owed, []⟩ front).state) ↔
      keyMachine.Guarded Watched ⟨World.start object claimedAt owed, []⟩ inputs := by
  have nothing : Spared (World.start object claimedAt owed) := by
    intro r member
    cases member
  exact (Machine.guarded_iff_forall_prefix keyMachine spared_step nothing inputs).symm

/-- Steps of one reclaim, each going through. -/
def reclaims (i count : Nat) : List Input := List.replicate count (.reclaim i .ok 1000)

/-- A send stores its row and makes its check. -/
def storesAndChecks : List Input := [.sendStores 0 "m", .sendClaimed 0 true 1000, .sendStamps 0 true]

/-- All of a send falls between a reclaim's last look and its clear: the send reads the claim and finds the object
there still, the reclaim clears it, and neither has seen the other. -/
theorem cleared_after_check_unseen :
    let w := (keyMachine.run ⟨World.start (some ⟨9, "e1"⟩) none false, []⟩
      (reclaims 0 5 ++ storesAndChecks ++ reclaims 0 2)).state
    w.rows = [⟨"m", 0, false⟩] ∧ w.object = none ∧ w.sends 0 = .ended false ∧ w.reclaims 0 = .idle ∧ ¬ Spared w := by
  intro w
  have rows : w.rows = [⟨"m", 0, false⟩] := by decide +kernel
  have gone : w.object = none := by decide +kernel
  have unseen : w.sends 0 = .ended false := by decide +kernel
  refine ⟨rows, gone, unseen, by decide +kernel, fun spared => ?_⟩
  rcases spared ⟨"m", 0, false⟩ (by rw [rows]; exact List.mem_singleton.mpr rfl) rfl false unseen with present | no
  · exact present gone
  · cases no

-- Two reclaims share one claim: the first's unclaim takes it from the second, whose clear the send then misses.
example :
    let w := (keyMachine.run ⟨World.start (some ⟨9, "e1"⟩) none false, []⟩
      (reclaims 0 5 ++ reclaims 1 1 ++ [.sendStores 0 "m"] ++ reclaims 1 2 ++ reclaims 0 1 ++
        [.sendClaimed 0 true 1000])).state
    w.object = none ∧ w.sends 0 = .ended false := by decide +kernel

end MessageRelay.Handoff
