import Mathlib

/-! State machines that emit events, their runs over input lists, and the invariant rule for runs
whose steps all meet a guard. Everything a step does not decide itself (answers of other parties,
clocks, failures, evictions) is carried by its input. -/

namespace MessageRelay.Library

/-- A deterministic machine. One input moves the state and emits a list of events. -/
structure Machine (State Input Event : Type) where
  step : State → Input → State × List Event

/-- A state with everything emitted so far, oldest first. -/
structure Config (State Event : Type) where
  state : State
  log : List Event

namespace Machine

variable {State Input Event : Type}

def advance (m : Machine State Input Event) (c : Config State Event) (input : Input) :
    Config State Event :=
  { state := (m.step c.state input).1, log := c.log ++ (m.step c.state input).2 }

def run (m : Machine State Input Event) (c : Config State Event) (inputs : List Input) :
    Config State Event :=
  inputs.foldl m.advance c

/-- Every step of the run meets the guard, which may read the state and the log before the step. -/
def Guarded (m : Machine State Input Event) (ok : Config State Event → Input → Prop) :
    Config State Event → List Input → Prop
  | _, [] => True
  | c, input :: rest => ok c input ∧ Guarded m ok (m.advance c input) rest

instance decidableGuarded (m : Machine State Input Event) (ok : Config State Event → Input → Prop)
    [decide : ∀ c input, Decidable (ok c input)] (c : Config State Event) (inputs : List Input) :
    Decidable (m.Guarded ok c inputs) :=
  match inputs with
  | [] => .isTrue trivial
  | input :: rest =>
    match decide c input, decidableGuarded m ok (m.advance c input) rest with
    | .isTrue first, .isTrue later => .isTrue ⟨first, later⟩
    | .isFalse first, _ => .isFalse (fun both => first both.1)
    | _, .isFalse later => .isFalse (fun both => later both.2)

variable (m : Machine State Input Event) {ok : Config State Event → Input → Prop}

@[simp] theorem run_nil (c : Config State Event) : m.run c [] = c := rfl

@[simp] theorem run_cons (c : Config State Event) (input : Input) (rest : List Input) :
    m.run c (input :: rest) = m.run (m.advance c input) rest := rfl

theorem run_append (c : Config State Event) (first second : List Input) :
    m.run c (first ++ second) = m.run (m.run c first) second := by
  simp only [run, List.foldl_append]

theorem guarded_append (c : Config State Event) (first second : List Input) :
    m.Guarded ok c (first ++ second) ↔ m.Guarded ok c first ∧ m.Guarded ok (m.run c first) second := by
  induction first generalizing c with
  | nil => simp [Guarded]
  | cons input rest ih => simp [Guarded, ih, and_assoc]

theorem guarded_and {m : Machine State Input Event} {ok ok' : Config State Event → Input → Prop}
    {c : Config State Event} {inputs : List Input} (first : m.Guarded ok c inputs) (second : m.Guarded ok' c inputs) :
    m.Guarded (fun c input => ok c input ∧ ok' c input) c inputs := by
  induction inputs generalizing c with
  | nil => trivial
  | cons input rest ih => exact ⟨⟨first.1, second.1⟩, ih first.2 second.2⟩

/-- A run is guarded exactly when each of its steps is, where it stands. -/
theorem guarded_iff_forall_step (c : Config State Event) (inputs : List Input) :
    m.Guarded ok c inputs ↔ ∀ front input, front ++ [input] <+: inputs → ok (m.run c front) input := by
  induction inputs generalizing c with
  | nil =>
    refine ⟨fun _ front input part => ?_, fun _ => trivial⟩
    simp at part
  | cons first rest ih =>
    constructor
    · rintro ⟨now, later⟩ front input part
      cases front with
      | nil =>
        obtain ⟨rfl, -⟩ := List.cons_prefix_cons.mp part
        exact now
      | cons head front =>
        obtain ⟨rfl, shorter⟩ := List.cons_prefix_cons.mp part
        exact (ih (m.advance c head)).mp later front input shorter
    · intro all
      refine ⟨all [] first (List.cons_prefix_cons.mpr ⟨rfl, List.nil_prefix⟩), (ih _).mpr ?_⟩
      intro front input part
      exact all (first :: front) input (List.cons_prefix_cons.mpr ⟨rfl, part⟩)

/-- The log only grows. -/
theorem log_isPrefix_run (c : Config State Event) (inputs : List Input) :
    c.log <+: (m.run c inputs).log := by
  induction inputs generalizing c with
  | nil => exact List.prefix_rfl
  | cons input rest ih => exact (List.prefix_append _ _).trans (ih (m.advance c input))

/-- What holds at the start and is kept by every guarded step holds at the end of a guarded run. -/
theorem run_invariant {inv : Config State Event → Prop}
    (step : ∀ c input, inv c → ok c input → inv (m.advance c input))
    {c : Config State Event} (start : inv c) {inputs : List Input} (guarded : m.Guarded ok c inputs) :
    inv (m.run c inputs) := by
  induction inputs generalizing c with
  | nil => exact start
  | cons input rest ih => exact ih (step c input start guarded.1) guarded.2

/-- What every step keeps, every run keeps. -/
theorem run_kept {inv : Config State Event → Prop} (step : ∀ c input, inv c → inv (m.advance c input))
    {c : Config State Event} (start : inv c) (inputs : List Input) : inv (m.run c inputs) := by
  induction inputs generalizing c with
  | nil => exact start
  | cons input rest ih => exact ih (step c input start)

/-- Where a step keeps what held before it exactly when it meets the guard, a run is guarded exactly when all
its states hold. -/
theorem guarded_iff_forall_prefix {inv : Config State Event → Prop}
    (step : ∀ c input, inv c → (inv (m.advance c input) ↔ ok c input)) {c : Config State Event} (start : inv c)
    (inputs : List Input) :
    m.Guarded ok c inputs ↔ ∀ front, front <+: inputs → inv (m.run c front) := by
  induction inputs generalizing c with
  | nil =>
    refine ⟨fun _ front part => ?_, fun _ => trivial⟩
    rw [List.prefix_nil.mp part]
    exact start
  | cons input rest ih =>
    constructor
    · intro guarded front part
      cases front with
      | nil => exact start
      | cons first front =>
        obtain ⟨rfl, shorter⟩ := List.cons_prefix_cons.mp part
        exact (ih ((step c first start).mpr guarded.1)).mp guarded.2 front shorter
    · intro all
      have next : inv (m.advance c input) := all [input] (List.cons_prefix_cons.mpr ⟨rfl, List.nil_prefix⟩)
      refine ⟨(step c input start).mp next, (ih next).mpr (fun front part => ?_)⟩
      exact all (input :: front) (List.cons_prefix_cons.mpr ⟨rfl, part⟩)

end Machine

end MessageRelay.Library
