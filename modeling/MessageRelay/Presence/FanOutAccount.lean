import Mathlib.Data.Finset.Lattice.Fold
import MessageRelay.Presence.FanOutSteps

/-! A fan-out is done where every push answers, its tally counts every outcome, and its pushes are accounted for. -/

namespace MessageRelay.Presence.Broadcast
open MessageRelay.Library
open MessageRelay.Mailbox (chunks)

/-- Every push answers after some number of polls. -/
def Answers (world : World) : Prop :=
  ∀ i attempt, ∃ polls, ∀ trace : List Event, polls ≤ trace.count (.waiting i attempt) →
    (world.poll trace i attempt).isSome = true

section Ends
variable (world : World) (attempt : Nat)

theorem pollSlots_counted (slots : List (Option Nat)) (remaining : Nat) (run : Run) (ahead : Nat)
    (counted : remaining = ahead + slots.reduceOption.length) :
    (pollSlots world attempt slots remaining run).remaining =
      ahead + (pollSlots world attempt slots remaining run).slots.reduceOption.length := by
  induction slots generalizing remaining run ahead with
  | nil => exact counted
  | cons slot slots ih =>
    cases slot with
    | none => exact ih remaining run ahead counted
    | some i =>
      rw [List.reduceOption_cons_of_some, List.length_cons] at counted
      rw [pollSlots]
      split
      · exact ih _ _ ahead (by omega)
      · have later := ih remaining (run.note (.waiting i attempt)) (ahead + 1) (by omega)
        rw [List.reduceOption_cons_of_some, List.length_cons, later]
        omega

theorem pollSlots_prefix (slots : List (Option Nat)) (remaining : Nat) (run : Run) :
    run.trace <+: (pollSlots world attempt slots remaining run).run.trace := by
  induction slots generalizing remaining run with
  | nil => exact List.prefix_rfl
  | cons slot slots ih =>
    cases slot with
    | none => exact ih remaining run
    | some i =>
      rw [pollSlots]
      split
      · next o _ =>
        have later := ih (remaining - 1) ⟨run.out.set i o, run.trace ++ [.ended i attempt o]⟩
        exact (List.prefix_append _ _).trans later
      · exact (List.prefix_append _ _).trans (ih remaining (run.note (.waiting i attempt)))

/-- A future that is left was polled once more, and did not answer. -/
theorem pollSlots_waited (slots : List (Option Nat)) (remaining : Nat) (run : Run) {i : Nat}
    (left : i ∈ (pollSlots world attempt slots remaining run).slots.reduceOption) :
    i ∈ slots.reduceOption ∧ ∃ seen, run.trace <+: seen ∧ world.poll seen i attempt = none ∧
      seen ++ [.waiting i attempt] <+: (pollSlots world attempt slots remaining run).run.trace := by
  induction slots generalizing remaining run with
  | nil => cases left
  | cons slot slots ih =>
    cases slot with
    | none => exact ih remaining run left
    | some j =>
      rw [pollSlots] at left ⊢
      cases polled : world.poll run.trace j attempt with
      | some o =>
        rw [polled] at left
        obtain ⟨inside, seen, grown, silent, later⟩ := ih _ _ left
        exact ⟨List.mem_cons_of_mem _ inside, seen, (List.prefix_append _ _).trans grown, silent, later⟩
      | none =>
        rw [polled] at left
        rcases List.mem_cons.mp left with rfl | behind
        · have noted := pollSlots_prefix world attempt slots remaining (run.note (.waiting i attempt))
          exact ⟨List.mem_cons_self, run.trace, List.prefix_rfl, polled, noted⟩
        · obtain ⟨inside, seen, grown, silent, later⟩ := ih _ _ behind
          exact ⟨List.mem_cons_of_mem _ inside, seen, (List.prefix_append _ _).trans grown, silent, later⟩

variable {world attempt} {polls : Nat → Nat}
  (answers : ∀ i (trace : List Event), polls i ≤ trace.count (.waiting i attempt) →
    (world.poll trace i attempt).isSome = true)
include answers

theorem joinWindow_ready (rounds : Nat) (window : Window)
    (counted : window.remaining = window.slots.reduceOption.length)
    (bound : ∀ i ∈ window.slots.reduceOption, polls i ≤ window.run.trace.count (.waiting i attempt) + rounds) :
    ∃ run, joinWindow world attempt (rounds + 1) window = .ready run := by
  have unanswered {i : Nat} {seen : List Event} (silent : world.poll seen i attempt = none) :
      seen.count (.waiting i attempt) < polls i := by
    by_contra enough
    have answered := answers i seen (Nat.le_of_not_lt enough)
    rw [silent] at answered
    cases answered
  have counted' := pollSlots_counted world attempt window.slots window.remaining window.run 0
    (by rw [Nat.zero_add, counted])
  rw [Nat.zero_add] at counted'
  induction rounds generalizing window with
  | zero =>
    have none' : (pollSlots world attempt window.slots window.remaining window.run).slots.reduceOption = [] := by
      apply List.eq_nil_iff_forall_not_mem.mpr
      intro i left
      obtain ⟨inside, seen, grown, silent, -⟩ := pollSlots_waited world attempt _ _ _ left
      have polled := grown.sublist.count_le (.waiting i attempt)
      have few := unanswered silent
      have enough := bound i inside
      omega
    rw [joinWindow, if_pos (by rw [counted', none']; rfl)]
    exact ⟨_, rfl⟩
  | succ rounds ih =>
    rw [joinWindow]
    split
    · exact ⟨_, rfl⟩
    · refine ih _ counted' ?_ ?_
      · intro i left
        obtain ⟨inside, seen, grown, -, later⟩ := pollSlots_waited world attempt _ _ _ left
        have polled := grown.sublist.count_le (.waiting i attempt)
        have once := later.sublist.count_le (.waiting i attempt)
        rw [List.count_append, List.count_singleton_self] at once
        have enough := bound i inside
        omega
      · obtain ⟨polled, polling⟩ : ∃ polled, polled = pollSlots world attempt window.slots window.remaining window.run :=
          ⟨_, rfl⟩
        rw [← polling] at counted' ⊢
        have next := pollSlots_counted world attempt polled.slots polled.remaining polled.run 0
          (counted'.trans (Nat.zero_add _).symm)
        rwa [Nat.zero_add] at next

theorem driveWindows_ready {bound : Nat} (deadline : Nat) (windows : List (List Nat)) (run : Run)
    (least : ∀ i ∈ windows.flatten, polls i ≤ bound) :
    ∃ last, driveWindows world attempt deadline (bound + 1) windows run = .ready last := by
  induction windows generalizing run with
  | nil => exact ⟨run, rfl⟩
  | cons window rest ih =>
    rw [driveWindows]
    split
    · exact ⟨_, rfl⟩
    · obtain ⟨read, reading⟩ : ∃ read, read = run.note (.read (world.now run.trace)) := ⟨_, rfl⟩
      have slots : (startWindow attempt window read).slots.reduceOption = window := reduceOption_startWindow ..
      have enough : ∀ i ∈ (startWindow attempt window read).slots.reduceOption,
          polls i ≤ (startWindow attempt window read).run.trace.count (.waiting i attempt) + bound := by
        rw [slots]
        intro i member
        exact (least i (List.mem_append_left _ member)).trans (Nat.le_add_left _ _)
      obtain ⟨next, done⟩ := joinWindow_ready answers bound _ (congrArg List.length slots.symm) enough
      rw [← reading, done]
      exact ih next (fun i member => least i (List.mem_append_right _ member))

end Ends

theorem fanOutWith_ready {world : World} (answers : Answers world) (count width deadline : Nat) :
    ∃ rounds run, fanOutWith world count width deadline rounds = .ready run := by
  choose polls enough using answers
  have positive : 0 < max width 1 := by omega
  obtain ⟨bound, least⟩ : ∃ bound, ∀ i < count, polls i 0 ≤ bound ∧ polls i 1 ≤ bound := by
    refine ⟨(Finset.range count).sup (fun i => max (polls i 0) (polls i 1)), fun i inside => ?_⟩
    have below := Finset.le_sup (f := fun i => max (polls i 0) (polls i 1)) (Finset.mem_range.mpr inside)
    exact max_le_iff.mp below
  obtain ⟨first, done⟩ := driveWindows_ready (fun i => enough i 0) deadline
    (chunks (max width 1) (List.range count)) ⟨List.replicate count .skipped, []⟩ (by
      rw [flatten_chunks positive]
      exact fun i member => (least i (List.mem_range.mp member)).1)
  refine ⟨bound + 1, ?_⟩
  rw [fanOutWith, done]
  dsimp only
  split
  · exact ⟨_, rfl⟩
  · split
    · apply driveWindows_ready (fun i => enough i 1)
      rw [flatten_chunks positive]
      exact fun i member => (least i (List.mem_range.mp (List.mem_filter.mp member).1)).2
    · exact ⟨_, rfl⟩

/-! Every push is started where no reading is at the deadline. -/

section Starts
variable (world : World) (attempt deadline rounds : Nat)

theorem startWindow_trace (window : List Nat) (run : Run) :
    (startWindow attempt window run).run.trace = run.trace ++ window.map (fun i => .started i attempt) := by
  unfold startWindow
  dsimp only
  induction window generalizing run with
  | nil => exact (List.append_nil _).symm
  | cons i rest ih =>
    rw [List.foldl_cons, ih, Run.note, List.append_assoc]
    rfl

theorem joinWindow_grows (window : Window) :
    window.run.trace <+: (joinWindow world attempt rounds window).run.trace := by
  induction rounds generalizing window with
  | zero => exact List.prefix_rfl
  | succ rounds ih =>
    have polled := pollSlots_prefix world attempt window.slots window.remaining window.run
    rw [joinWindow]
    split
    · exact polled
    · exact polled.trans (ih _)

theorem driveWindows_grows (windows : List (List Nat)) (run : Run) :
    run.trace <+: (driveWindows world attempt deadline rounds windows run).run.trace := by
  induction windows generalizing run with
  | nil => exact List.prefix_rfl
  | cons window rest ih =>
    have read : run.trace <+: (run.note (.read (world.now run.trace))).trace := List.prefix_append _ _
    rw [driveWindows]
    split
    · exact read
    · have started : (run.note (.read (world.now run.trace))).trace <+:
          (startWindow attempt window (run.note (.read (world.now run.trace)))).run.trace := by
        rw [startWindow_trace]
        exact List.prefix_append _ _
      have joined := (read.trans started).trans (joinWindow_grows world attempt rounds _)
      split
      · next later done =>
        rw [done] at joined
        exact joined.trans (ih later)
      · next later stuck =>
        rw [stuck] at joined
        exact joined

theorem driveWindows_started (windows : List (List Nat)) (run : Run) {last : Run}
    (done : driveWindows world attempt deadline rounds windows run = .ready last)
    (early : ∀ now ∈ readings last.trace, now < deadline) {i : Nat} (inside : i ∈ windows.flatten) :
    .started i attempt ∈ last.trace := by
  induction windows generalizing run with
  | nil => cases inside
  | cons window rest ih =>
    obtain ⟨read, reading⟩ : ∃ read, read = run.note (.read (world.now run.trace)) := ⟨_, rfl⟩
    have grown := driveWindows_grows world attempt deadline rounds (window :: rest) run
    rw [driveWindows, ← reading] at done grown
    split at done
    · next late =>
      cases done
      have seen : world.now run.trace ∈ readings last.trace := by
        rw [reading, Run.note, readings_snoc]
        exact List.mem_append_right _ (List.mem_singleton.mpr rfl)
      exact absurd (early _ seen) (Nat.not_lt.mpr late)
    · next soon =>
      rw [if_neg soon] at grown
      split at done
      · next later joined =>
        rw [List.flatten_cons] at inside
        rcases List.mem_append.mp inside with own | behind
        · have started : .started i attempt ∈ (startWindow attempt window read).run.trace := by
            rw [startWindow_trace]
            exact List.mem_append_right _ (List.mem_map_of_mem own)
          have through := (joinWindow_grows world attempt rounds (startWindow attempt window read)).subset started
          have onward := driveWindows_grows world attempt deadline rounds rest later
          rw [joined] at through
          rw [done] at onward
          exact onward.subset through
        · exact ih later done behind
      · cases done

/-- A fan-out that is done and never read its clock at the deadline or past it has pushed to everyone. -/
theorem fanOutWith_started (count width : Nat) {last : Run}
    (done : fanOutWith world count width deadline rounds = .ready last)
    (early : ∀ now ∈ readings last.trace, now < deadline) {i : Nat} (inside : i < count) :
    .started i 0 ∈ last.trace := by
  have everyone : i ∈ (chunks (max width 1) (List.range count)).flatten := by
    rw [flatten_chunks (by omega)]
    exact List.mem_range.mpr inside
  rw [fanOutWith] at done
  split at done
  · cases done
  · next first drove =>
    have through (grown : first.trace <+: last.trace) : .started i 0 ∈ last.trace := by
      have seen : ∀ now ∈ readings first.trace, now < deadline := fun now there =>
        early now ((grown.sublist.filterMap _).subset there)
      exact grown.subset (driveWindows_started world 0 deadline rounds _ _ drove seen everyone)
    dsimp only at done
    split at done
    · cases done
      exact through List.prefix_rfl
    · obtain ⟨read, reading⟩ : ∃ read, read = first.note (.read (world.now first.trace)) := ⟨_, rfl⟩
      have looked : first.trace <+: read.trace := by
        rw [reading]
        exact List.prefix_append _ _
      rw [← reading] at done
      split at done
      · have grown := driveWindows_grows world 1 deadline rounds
          (chunks (max width 1) ((List.range count).filter (fun i => first.out[i]? = some .timedOut))) read
        rw [done] at grown
        exact through (looked.trans grown)
      · cases done
        exact through looked

end Starts

/-! The tally. -/

theorem FanOut.count_total (t : FanOut) (o : PushOutcome) (room : t.total + 1 < 2 ^ 32) :
    (t.count o).total = t.total + 1 := by
  have below (n : UInt32) (small : n.toNat + 1 < 2 ^ 32) : (n + 1).toNat = n.toNat + 1 := by
    rw [UInt32.toNat_add]
    exact Nat.mod_eq_of_lt small
  cases o <;> simp only [total, count] at room ⊢ <;> rw [below _ (by omega)] <;> omega

theorem FanOut.of_total {outcomes : List PushOutcome} (few : outcomes.length < 2 ^ 32) (subscribers : Nat) :
    (FanOut.of subscribers outcomes).total = outcomes.length := by
  induction outcomes using List.reverseRecOn with
  | nil => rfl
  | append_singleton front o ih =>
    rw [List.length_append, List.length_singleton] at few ⊢
    have before := ih (by omega)
    have step := FanOut.count_total (FanOut.of subscribers front) o (by omega)
    rw [before] at step
    rw [FanOut.of, List.foldl_append]
    exact step

/-- Past 32 bits the counts wrap, and so does their sum. -/
theorem FanOut.of_sum (outcomes : List PushOutcome) (subscribers : Nat) :
    (FanOut.of subscribers outcomes).sum = UInt32.ofNat outcomes.length := by
  induction outcomes using List.reverseRecOn with
  | nil => rfl
  | append_singleton front o ih =>
    rw [List.length_append, List.length_singleton, UInt32.ofNat_add, ← ih, FanOut.of, List.foldl_append]
    change ((FanOut.of subscribers front).count o).sum = _
    generalize FanOut.of subscribers front = t
    cases o <;> simp only [sum, count] <;> ac_rfl

/-! The account of a fan-out. -/

/-- What holds of the pushes of a run, done or not. -/
structure Accounted (count width deadline : Nat) (trace : List Event) : Prop where
  once : ∀ i attempt, trace.count (.started i attempt) ≤ 1
  attempts : ∀ i attempt, .started i attempt ∈ trace → i < count ∧ (attempt = 0 ∨ attempt = 1)
  retried : ∀ before i after, trace = before ++ .started i 1 :: after → .ended i 0 .timedOut ∈ before
  narrow : ∀ before after, trace = before ++ after → (flying before).length ≤ max width 1
  inTime : ∀ before i attempt after, trace = before ++ .started i attempt :: after →
    ∃ now < deadline, (readings before).getLast? = some now
  /-- Of a clock that does not go back, no reading before a start was at the deadline. -/
  never : (readings trace).Pairwise (· ≤ ·) → ∀ before i attempt after, trace = before ++ .started i attempt :: after →
    ∀ now ∈ readings before, now < deadline
  single : ∀ i attempt o o', .ended i attempt o ∈ trace → .ended i attempt o' ∈ trace → o = o'

/-- What a fan-out that is done reports. -/
structure Reports (count : Nat) (run : Run) : Prop where
  length : run.out.length = count
  unstarted : ∀ i < count, (∀ attempt, .started i attempt ∉ run.trace) → run.out[i]? = some .skipped
  first : ∀ i < count, .started i 0 ∈ run.trace → .started i 1 ∉ run.trace →
    ∃ o, .ended i 0 o ∈ run.trace ∧ run.out[i]? = some o
  second : ∀ i < count, .started i 1 ∈ run.trace → ∃ o, .ended i 1 o ∈ run.trace ∧ run.out[i]? = some o
  /-- Where no push answers that it was skipped, only those that were not started are reported so. -/
  skipped : (∀ i attempt, .ended i attempt .skipped ∉ run.trace) →
    ∀ i < count, (run.out[i]? = some .skipped ↔ ∀ attempt, .started i attempt ∉ run.trace)
  tallied : count < 2 ^ 32 → (FanOut.of count run.out).total = count
  wrapped : (FanOut.of count run.out).sum = UInt32.ofNat count

theorem accounted_of_kept {count width deadline : Nat} {run : Run} (kept : Kept count width deadline run) :
    Accounted count width deadline run.trace where
  once := count_started_le kept.lawful
  attempts := by
    intro i attempt begun
    obtain ⟨_, _, _, may⟩ := mayStart_of_mem kept.lawful begun
    exact ⟨may.index, may.due.imp_right And.left⟩
  retried := by
    intro before i after parts
    have may : MayStart count width deadline i 1 before := kept.lawful before _ after parts
    rcases may.due with impossible | ⟨-, timedOut⟩
    · cases impossible
    · exact timedOut
  narrow := by
    intro before after parts
    have lawful := kept.lawful
    rw [parts] at lawful
    exact flying_length_le lawful.front
  inTime := by
    intro before i attempt after parts
    have may : MayStart count width deadline i attempt before := kept.lawful before _ after parts
    exact may.inTime
  never := by
    intro forward before i attempt after parts now read
    have may : MayStart count width deadline i attempt before := kept.lawful before _ after parts
    obtain ⟨last, early, final⟩ := may.inTime
    have ordered : (readings before).Pairwise (· ≤ ·) := by
      rw [parts, readings, List.filterMap_append] at forward
      exact (List.pairwise_append.mp forward).1
    obtain ⟨front, whole⟩ := List.getLast?_eq_some_iff.mp final
    rw [whole] at ordered read
    rcases List.mem_append.mp read with older | latest
    · exact ((List.pairwise_append.mp ordered).2.2 now older last List.mem_cons_self).trans_lt early
    · rwa [List.mem_singleton.mp latest]
  single := fun _ _ _ _ one other => ended_unique kept.lawful one other

theorem reports_of_kept {count width deadline : Nat} {run : Run} (kept : Kept count width deadline run)
    (landed : flying run.trace = []) : Reports count run := by
  have outcome {i : Nat} (inside : i < count) : run.out[i]? = some (reported i run.trace) := by
    rw [kept.out, List.getElem?_map, List.getElem?_range inside]
    rfl
  have ended {i attempt : Nat} (begun : .started i attempt ∈ run.trace) : ∃ o, .ended i attempt o ∈ run.trace := by
    rcases flying_or_ended begun with there | done
    · rw [landed] at there
      cases there
    · exact done
  have length : run.out.length = count := by rw [kept.out, List.length_map, List.length_range]
  have unstarted : ∀ i < count, (∀ attempt, .started i attempt ∉ run.trace) → run.out[i]? = some .skipped := by
    intro i inside never
    rw [outcome inside, reported_unended]
    exact fun attempt o done => never attempt (started_of_ended kept.lawful done)
  refine ⟨length, unstarted, ?_, ?_, ?_, ?_, ?_⟩
  · intro i inside begun only
    obtain ⟨o, done⟩ := ended begun
    exact ⟨o, done, by rw [outcome inside, reported_first kept.lawful done only]⟩
  · intro i inside begun
    obtain ⟨o, done⟩ := ended begun
    exact ⟨o, done, by rw [outcome inside, reported_second kept.lawful done]⟩
  · intro tried i inside
    refine ⟨fun skipped attempt begun => ?_, unstarted i inside⟩
    rw [outcome inside, Option.some.injEq] at skipped
    by_cases again : .started i 1 ∈ run.trace
    · obtain ⟨o, done⟩ := ended again
      rw [reported_second kept.lawful done] at skipped
      exact tried i 1 (skipped ▸ done)
    · obtain ⟨_, _, _, may⟩ := mayStart_of_mem kept.lawful begun
      rcases may.due with rfl | ⟨rfl, -⟩
      · obtain ⟨o, done⟩ := ended begun
        rw [reported_first kept.lawful done again] at skipped
        exact tried i 0 (skipped ▸ done)
      · exact again begun
  · intro few
    rw [← length] at few
    rw [FanOut.of_total few, length]
  · rw [FanOut.of_sum, length]

/-- At every moment the pushes are accounted for, a fan-out that is done reports each push's last word, and it is done
after some number of polls where every push answers. -/
theorem fanOutWith_accounts (world : World) (count width deadline : Nat) :
    (∀ rounds, Accounted count width deadline (fanOutWith world count width deadline rounds).run.trace ∧
      ∀ run, fanOutWith world count width deadline rounds = .ready run → Reports count run) ∧
    (Answers world → ∃ rounds run, fanOutWith world count width deadline rounds = .ready run) := by
  refine ⟨fun rounds => ?_, fun answers => fanOutWith_ready answers count width deadline⟩
  obtain ⟨kept, landed⟩ := fanOutWith_kept world count width deadline rounds
  refine ⟨accounted_of_kept kept, fun run done => ?_⟩
  have final := landed run done
  rw [done] at kept
  exact reports_of_kept kept final

/-- A push that itself answers that it was skipped is reported so, though it was started. -/
theorem skippedPush_started :
    ¬ ∀ (world : World) (count width deadline rounds : Nat) (run : Run),
      fanOutWith world count width deadline rounds = .ready run →
      ∀ i < count, (run.out[i]? = some .skipped ↔ ∀ attempt, .started i attempt ∉ run.trace) := by
  intro all
  have report := all ⟨fun _ => 0, fun _ _ _ => some .skipped⟩ 1 1 1 1
    ⟨[.skipped], [.read 0, .started 0 0, .ended 0 0 .skipped]⟩ rfl 0 (by decide)
  exact report.mp rfl 0 (by decide)

end MessageRelay.Presence.Broadcast
