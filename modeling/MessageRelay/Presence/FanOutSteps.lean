import Mathlib.Data.List.ReduceOption
import MessageRelay.Presence.FanOut

/-! What the fan-out keeps at every step: the outcomes are those the trace reports, and no event was out of order. -/

namespace MessageRelay.Presence.Broadcast
open MessageRelay.Library
open MessageRelay.Mailbox (chunks)

section Kept
variable (count width deadline : Nat)

structure Kept (run : Run) : Prop where
  out : run.out = (List.range count).map (fun i => reported i run.trace)
  lawful : Preceded (Allowed count width deadline) run.trace

/-- The pushes in flight are one attempt of the given indexes. -/
structure InFlight (attempt : Nat) (left : List Nat) (run : Run) : Prop extends Kept count width deadline run where
  flown : (flying run.trace).Perm (left.map (fun i => (i, attempt)))

variable {count width deadline}

theorem Kept.note {run : Run} (kept : Kept count width deadline run) {event : Event}
    (allowed : Allowed count width deadline run.trace event) (silent : ∀ i last, event.report i last = last) :
    Kept count width deadline (run.note event) where
  out := by
    rw [Run.note, kept.out]
    simp only [reported_snoc, silent]
  lawful := kept.lawful.snoc allowed

theorem set_range_map (count i : Nat) (f : Nat → PushOutcome) (o : PushOutcome) :
    ((List.range count).map f).set i o = (List.range count).map (fun j => if i = j then o else f j) := by
  apply List.ext_getElem?
  intro j
  rw [List.getElem?_set, List.getElem?_map, List.getElem?_map, List.length_map, List.length_range]
  by_cases inside : j < count
  · rw [List.getElem?_range inside]
    by_cases same : i = j
    · subst same
      simp [inside]
    · simp [same]
  · rw [List.getElem?_eq_none (by rw [List.length_range]; omega)]
    by_cases same : i = j
    · subst same
      simp [inside]
    · simp [same]

theorem Kept.ended {run : Run} (kept : Kept count width deadline run) {i attempt : Nat}
    (there : (i, attempt) ∈ flying run.trace) (o : PushOutcome) :
    Kept count width deadline ⟨run.out.set i o, run.trace ++ [.ended i attempt o]⟩ where
  out := by
    rw [kept.out, set_range_map]
    simp only [reported_snoc]
    rfl
  lawful := kept.lawful.snoc there

end Kept

/-- An event of one attempt, that starts none but the given indexes. -/
def Event.Of (attempt : Nat) (idxs : List Nat) : Event → Prop
  | .started i b => b = attempt ∧ i ∈ idxs
  | .ended _ b _ | .waiting _ b => b = attempt
  | .read _ => True

/-- The trace grew by events of one attempt. -/
def Grown (attempt : Nat) (idxs : List Nat) (trace later : List Event) : Prop :=
  ∃ more, later = trace ++ more ∧ ∀ event ∈ more, event.Of attempt idxs

namespace Grown
variable {attempt : Nat} {idxs : List Nat} {trace later last : List Event}

theorem refl : Grown attempt idxs trace trace := ⟨[], (List.append_nil _).symm, List.forall_mem_nil _⟩

theorem snoc {event : Event} (own : event.Of attempt idxs) : Grown attempt idxs trace (trace ++ [event]) :=
  ⟨[event], rfl, List.forall_mem_singleton.mpr own⟩

theorem trans (first : Grown attempt idxs trace later) (second : Grown attempt idxs later last) :
    Grown attempt idxs trace last := by
  obtain ⟨more, rfl, own⟩ := first
  obtain ⟨rest, rfl, own'⟩ := second
  exact ⟨more ++ rest, List.append_assoc .., List.forall_mem_append.mpr ⟨own, own'⟩⟩

theorem mono {wider : List Nat} (grown : Grown attempt idxs trace later) (sub : ∀ i ∈ idxs, i ∈ wider) :
    Grown attempt wider trace later := by
  obtain ⟨more, parts, own⟩ := grown
  refine ⟨more, parts, fun event member => ?_⟩
  have known := own event member
  cases event with
  | started i b => exact ⟨known.1, sub i known.2⟩
  | ended _ b _ | waiting _ b => exact known
  | read _ => trivial

theorem subset (grown : Grown attempt idxs trace later) {event : Event} (member : event ∈ trace) : event ∈ later := by
  obtain ⟨more, rfl, -⟩ := grown
  exact List.mem_append_left _ member

/-- What is new is of the attempt. -/
theorem old_or_own (grown : Grown attempt idxs trace later) {event : Event} (member : event ∈ later) :
    event ∈ trace ∨ event.Of attempt idxs := by
  obtain ⟨more, rfl, own⟩ := grown
  exact (List.mem_append.mp member).imp_right (own event)

end Grown

section Steps
variable {count width deadline : Nat} (world : World) (attempt : Nat)

/-- One poll of a window: what is in flight after it are the futures it left. -/
theorem pollSlots_inFlight (slots : List (Option Nat)) (remaining : Nat) (run : Run) (ahead : List Nat)
    (held : InFlight count width deadline attempt (ahead ++ slots.reduceOption) run)
    (counted : remaining = (ahead ++ slots.reduceOption).length) :
    InFlight count width deadline attempt (ahead ++ (pollSlots world attempt slots remaining run).slots.reduceOption)
      (pollSlots world attempt slots remaining run).run ∧
    (pollSlots world attempt slots remaining run).remaining =
      (ahead ++ (pollSlots world attempt slots remaining run).slots.reduceOption).length ∧
    Grown attempt [] run.trace (pollSlots world attempt slots remaining run).run.trace := by
  induction slots generalizing remaining run ahead with
  | nil => exact ⟨held, counted, .refl⟩
  | cons slot slots ih =>
    cases slot with
    | none => exact ih remaining run ahead held counted
    | some i =>
      have there : (i, attempt) ∈ flying run.trace := by
        rw [held.flown.mem_iff]
        exact List.mem_map_of_mem (by simp)
      rw [pollSlots]
      cases polled : world.poll run.trace i attempt with
      | some o =>
        have left : InFlight count width deadline attempt (ahead ++ slots.reduceOption)
            ⟨run.out.set i o, run.trace ++ [.ended i attempt o]⟩ := by
          refine ⟨held.toKept.ended there o, ?_⟩
          rw [flying_snoc]
          have moved := held.flown
          rw [List.reduceOption_cons_of_some] at moved
          have dropped := (moved.trans (List.perm_middle.map _)).erase (i, attempt)
          rwa [List.map_cons, List.erase_cons_head] at dropped
        have fewer : remaining - 1 = (ahead ++ slots.reduceOption).length := by
          rw [counted]
          simp
        obtain ⟨kept, counted', grown⟩ := ih _ _ ahead left fewer
        have first : Grown attempt [] run.trace (run.trace ++ [.ended i attempt o]) := .snoc (by rfl)
        exact ⟨kept, counted', first.trans grown⟩
      | none =>
        have same : ahead ++ (some i :: slots).reduceOption = (ahead ++ [i]) ++ slots.reduceOption := by simp
        rw [same] at held counted
        have noted : InFlight count width deadline attempt ((ahead ++ [i]) ++ slots.reduceOption)
            (run.note (.waiting i attempt)) := by
          refine ⟨held.toKept.note trivial (fun _ _ => rfl), ?_⟩
          rw [Run.note, flying_snoc]
          exact held.flown
        obtain ⟨kept, counted', grown⟩ := ih _ _ (ahead ++ [i]) noted counted
        have back (rest : List (Option Nat)) :
            ahead ++ (some i :: rest).reduceOption = (ahead ++ [i]) ++ rest.reduceOption := by simp
        have first : Grown attempt [] run.trace (run.note (.waiting i attempt)).trace := .snoc (by rfl)
        refine ⟨?_, ?_, first.trans grown⟩
        · simpa only [back] using kept
        · simpa only [back] using counted'

/-- A window that is done has nothing in flight. -/
theorem joinWindow_kept (rounds : Nat) (window : Window)
    (held : InFlight count width deadline attempt window.slots.reduceOption window.run)
    (counted : window.remaining = window.slots.reduceOption.length) :
    Kept count width deadline (joinWindow world attempt rounds window).run ∧
    (∀ run, joinWindow world attempt rounds window = .ready run → flying run.trace = []) ∧
    Grown attempt [] window.run.trace (joinWindow world attempt rounds window).run.trace := by
  induction rounds generalizing window with
  | zero =>
    refine ⟨held.toKept, ?_, .refl⟩
    intro run done
    cases done
  | succ rounds ih =>
    obtain ⟨kept, counted', grown⟩ :=
      pollSlots_inFlight world attempt window.slots window.remaining window.run [] held counted
    rw [joinWindow]
    split
    · next done =>
      refine ⟨kept.toKept, ?_, grown⟩
      rintro run ⟨⟩
      rw [done, List.nil_append] at counted'
      have nothing := kept.flown
      rw [List.nil_append, List.eq_nil_of_length_eq_zero counted'.symm, List.map_nil] at nothing
      exact nothing.eq_nil
    · obtain ⟨kept', landed, grown'⟩ := ih _ kept counted'
      exact ⟨kept', landed, grown.trans grown'⟩

/-- What may be started now. -/
structure Startable (count attempt : Nat) (i : Nat) (trace : List Event) : Prop where
  index : i < count
  fresh : .started i attempt ∉ trace
  due : attempt = 0 ∨ attempt = 1 ∧ .ended i 0 .timedOut ∈ trace

theorem Startable.grown {i : Nat} {trace later : List Event} (startable : Startable count attempt i trace)
    {idxs : List Nat} (grown : Grown attempt idxs trace later) (other : i ∉ idxs) : Startable count attempt i later where
  index := startable.index
  fresh := fun begun => (grown.old_or_own begun).elim startable.fresh (fun own => other own.2)
  due := startable.due.imp_right (fun due => ⟨due.1, grown.subset due.2⟩)

theorem readings_snoc (trace : List Event) (event : Event) :
    readings (trace ++ [event]) = readings trace ++ readings [event] := List.filterMap_append

/-- The pushes of a window are started one by one, each with room for it. -/
theorem startWindow_inFlight (window begun : List Nat) (run : Run)
    (held : InFlight count width deadline attempt begun run) (room : begun.length + window.length ≤ max width 1)
    (distinct : window.Nodup) (startable : ∀ i ∈ window, Startable count attempt i run.trace)
    (inTime : ∃ now < deadline, (readings run.trace).getLast? = some now) :
    InFlight count width deadline attempt (begun ++ window)
      (window.foldl (fun run i => run.note (.started i attempt)) run) ∧
    Grown attempt window run.trace (window.foldl (fun run i => run.note (.started i attempt)) run).trace := by
  induction window generalizing begun run with
  | nil => exact ⟨by rwa [List.append_nil], .refl⟩
  | cons i rest ih =>
    obtain ⟨other, distinct'⟩ := List.nodup_cons.mp distinct
    rw [List.length_cons] at room
    have own := startable i List.mem_cons_self
    have may : MayStart count width deadline i attempt run.trace := by
      refine ⟨own.index, own.fresh, own.due, ?_, inTime⟩
      rw [held.flown.length_eq, List.length_map]
      omega
    have next : InFlight count width deadline attempt (begun ++ [i]) (run.note (.started i attempt)) := by
      refine ⟨held.toKept.note may (fun _ _ => rfl), ?_⟩
      rw [Run.note, flying_snoc, List.map_append]
      exact (held.flown.cons (i, attempt)).trans (List.perm_append_singleton _ _).symm
    have first : Grown attempt [i] run.trace (run.note (.started i attempt)).trace := .snoc ⟨rfl, List.mem_cons_self⟩
    have later : ∀ j ∈ rest, Startable count attempt j (run.note (.started i attempt)).trace := by
      intro j member
      refine (startable j (List.mem_cons_of_mem _ member)).grown attempt first ?_
      rintro inside
      cases List.mem_singleton.mp inside
      exact other member
    have read : readings (run.note (.started i attempt)).trace = readings run.trace := by
      rw [Run.note, readings_snoc]
      exact List.append_nil _
    rw [← read] at inTime
    have room' : (begun ++ [i]).length + rest.length ≤ max width 1 := by
      rw [List.length_append, List.length_singleton]
      omega
    obtain ⟨all, grown⟩ := ih (begun ++ [i]) (run.note (.started i attempt)) next room' distinct' later inTime
    refine ⟨by simpa using all, ?_⟩
    have wider : Grown attempt (i :: rest) run.trace (run.note (.started i attempt)).trace :=
      .snoc ⟨rfl, List.mem_cons_self⟩
    exact wider.trans (grown.mono (fun j member => List.mem_cons_of_mem _ member))

theorem reduceOption_startWindow (window : List Nat) (run : Run) :
    (startWindow attempt window run).slots.reduceOption = window := by
  simp [startWindow, List.reduceOption]

/-- A window whose pushes may be started leaves nothing in flight when it is done. -/
theorem window_kept (rounds : Nat) (window : List Nat) (run : Run) (kept : Kept count width deadline run)
    (landed : flying run.trace = []) (narrow : window.length ≤ max width 1) (distinct : window.Nodup)
    (startable : ∀ i ∈ window, Startable count attempt i run.trace)
    (inTime : ∃ now < deadline, (readings run.trace).getLast? = some now) :
    Kept count width deadline (joinWindow world attempt rounds (startWindow attempt window run)).run ∧
    (∀ last, joinWindow world attempt rounds (startWindow attempt window run) = .ready last → flying last.trace = []) ∧
    Grown attempt window run.trace (joinWindow world attempt rounds (startWindow attempt window run)).run.trace := by
  have empty : InFlight count width deadline attempt [] run := by
    refine ⟨kept, ?_⟩
    rw [landed]
    exact .nil
  have room : ([] : List Nat).length + window.length ≤ max width 1 := by simpa using narrow
  obtain ⟨begun, started⟩ := startWindow_inFlight attempt window [] run empty room distinct startable inTime
  have slots : (startWindow attempt window run).slots.reduceOption = window := reduceOption_startWindow ..
  have held : InFlight count width deadline attempt (startWindow attempt window run).slots.reduceOption
      (startWindow attempt window run).run := by
    rw [slots]
    exact begun
  obtain ⟨kept', landed', joined⟩ := joinWindow_kept world attempt rounds _ held (congrArg List.length slots.symm)
  exact ⟨kept', landed', started.trans (joined.mono (List.forall_mem_nil _))⟩

/-- Every window starts only what no window before it did. -/
theorem driveWindows_kept (rounds : Nat) (windows : List (List Nat)) (run : Run) (kept : Kept count width deadline run)
    (landed : flying run.trace = []) (narrow : ∀ window ∈ windows, window.length ≤ max width 1)
    (distinct : windows.flatten.Nodup) (startable : ∀ i ∈ windows.flatten, Startable count attempt i run.trace) :
    Kept count width deadline (driveWindows world attempt deadline rounds windows run).run ∧
    (∀ last, driveWindows world attempt deadline rounds windows run = .ready last → flying last.trace = []) ∧
    Grown attempt windows.flatten run.trace (driveWindows world attempt deadline rounds windows run).run.trace := by
  induction windows generalizing run with
  | nil =>
    refine ⟨kept, ?_, .refl⟩
    rintro last ⟨⟩
    exact landed
  | cons window rest ih =>
    obtain ⟨own, others, apart⟩ := List.nodup_append'.mp (List.flatten_cons ▸ distinct)
    obtain ⟨read, reading⟩ : ∃ read, read = run.note (.read (world.now run.trace)) := ⟨_, rfl⟩
    have kept' : Kept count width deadline read := reading ▸ kept.note trivial (fun _ _ => rfl)
    have landed' : flying read.trace = [] := by
      rw [reading, Run.note, flying_snoc, landed]
      rfl
    have looked : Grown attempt [] run.trace read.trace := reading ▸ .snoc trivial
    rw [driveWindows, ← reading]
    split
    · refine ⟨kept', ?_, looked.mono (List.forall_mem_nil _)⟩
      rintro last ⟨⟩
      exact landed'
    · next early =>
      have inTime : ∃ now < deadline, (readings read.trace).getLast? = some now := by
        refine ⟨world.now run.trace, Nat.lt_of_not_le early, ?_⟩
        rw [reading, Run.note, readings_snoc]
        exact List.getLast?_concat
      have due : ∀ i ∈ window, Startable count attempt i read.trace := fun i member =>
        (startable i (List.mem_append_left _ member)).grown attempt looked List.not_mem_nil
      obtain ⟨joined, down, grown⟩ := window_kept world attempt rounds window read kept' landed'
        (narrow window List.mem_cons_self) own due inTime
      have since : Grown attempt window run.trace _ := (looked.mono (List.forall_mem_nil _)).trans grown
      have wider : Grown attempt (window :: rest).flatten run.trace _ :=
        since.mono (fun i member => List.mem_append_left _ member)
      split
      · next later done =>
        rw [done] at joined since wider
        have due' : ∀ i ∈ rest.flatten, Startable count attempt i later.trace := fun i member =>
          (startable i (List.mem_append_right _ member)).grown attempt since (fun early => apart early member)
        obtain ⟨kept'', down', grown'⟩ := ih later joined (down later done)
          (fun w member => narrow w (List.mem_cons_of_mem _ member)) others due'
        exact ⟨kept'', down', wider.trans (grown'.mono (fun i member => List.mem_append_right _ member))⟩
      · next later stuck =>
        rw [stuck] at joined wider
        refine ⟨joined, ?_, wider⟩
        intro last done
        cases done

end Steps

theorem length_chunk_le {α : Type} {size : Nat} {items chunk : List α} (member : chunk ∈ chunks size items) :
    chunk.length ≤ size := by
  obtain ⟨i, -, rfl⟩ := List.mem_map.mp member
  exact List.length_take_le _ _

theorem flatten_chunks {α : Type} {size : Nat} (positive : 0 < size) (items : List α) :
    (chunks size items).flatten = items := by
  have front (k : Nat) :
      ((List.range k).map (fun i => (items.drop (i * size)).take size)).flatten = items.take (k * size) := by
    induction k with
    | zero => simp
    | succ k ih =>
      rw [List.range_succ, List.map_append, List.flatten_append, ih, Nat.succ_mul, List.take_add]
      simp
  have all : items.length ≤ (items.length + size - 1) / size * size := by
    have whole := Nat.div_add_mod (items.length + size - 1) size
    have rest := Nat.mod_lt (items.length + size - 1) positive
    rw [Nat.mul_comm] at whole
    omega
  rw [chunks, front, List.take_of_length_le all]

section Whole
variable (world : World) (count width deadline rounds : Nat)

/-- Both passes keep the order, and a fan-out that is done has nothing in flight. -/
theorem fanOutWith_kept : Kept count width deadline (fanOutWith world count width deadline rounds).run ∧
    ∀ run, fanOutWith world count width deadline rounds = .ready run → flying run.trace = [] := by
  have positive : 0 < max width 1 := by omega
  have fresh : Kept count width deadline ⟨List.replicate count .skipped, []⟩ := by
    refine ⟨?_, preceded_nil⟩
    simp [reported, List.map_const']
  have first : ∀ i ∈ (chunks (max width 1) (List.range count)).flatten, Startable count 0 i [] := by
    intro i member
    rw [flatten_chunks positive] at member
    exact ⟨List.mem_range.mp member, List.not_mem_nil, .inl rfl⟩
  obtain ⟨kept, landed, grown⟩ := driveWindows_kept world 0 rounds (chunks (max width 1) (List.range count)) _ fresh rfl
    (fun window member => length_chunk_le member) (by rw [flatten_chunks positive]; exact List.nodup_range) first
  rw [fanOutWith]
  split
  · next run stuck =>
    rw [stuck] at kept
    refine ⟨kept, fun run done => ?_⟩
    cases done
  · next run done =>
    rw [done] at kept grown
    change Kept count width deadline run at kept
    change Grown 0 _ [] run.trace at grown
    have down := landed run done
    dsimp only
    split
    · refine ⟨kept, ?_⟩
      rintro last ⟨⟩
      exact down
    · obtain ⟨read, reading⟩ : ∃ read, read = run.note (.read (world.now run.trace)) := ⟨_, rfl⟩
      have kept' : Kept count width deadline read := reading ▸ kept.note trivial (fun _ _ => rfl)
      have down' : flying read.trace = [] := by
        rw [reading, Run.note, flying_snoc, down]
        rfl
      have looked : Grown 0 [] run.trace read.trace := reading ▸ .snoc trivial
      rw [← reading]
      split
      · have second : ∀ i ∈ (chunks (max width 1)
            ((List.range count).filter (fun i => run.out[i]? = some .timedOut))).flatten,
            Startable count 1 i read.trace := by
          intro i member
          rw [flatten_chunks positive, List.mem_filter, List.mem_range, decide_eq_true_eq] at member
          obtain ⟨inside, timedOut⟩ := member
          rw [kept.out, List.getElem?_map, List.getElem?_range inside] at timedOut
          obtain ⟨attempt, ended⟩ := ended_of_reported (Option.some.inj timedOut) (by decide)
          have own := (grown.old_or_own ended).resolve_left List.not_mem_nil
          cases own
          refine ⟨inside, fun begun => ?_, .inr ⟨rfl, looked.subset ended⟩⟩
          rcases (grown.trans (looked.mono (List.forall_mem_nil _))).old_or_own begun with never | ⟨wrong, -⟩
          · cases never
          · cases wrong
        obtain ⟨kept'', down'', -⟩ := driveWindows_kept world 1 rounds _ read kept' down'
          (fun window member => length_chunk_le member)
          (by rw [flatten_chunks positive]; exact List.nodup_range.filter _) second
        exact ⟨kept'', down''⟩
      · refine ⟨kept', ?_⟩
        rintro last ⟨⟩
        exact down'

end Whole

end MessageRelay.Presence.Broadcast
