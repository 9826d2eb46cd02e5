import MessageRelay.Library.Machine

/-! Properties of a log that say of each event what came before it, and what a log says last. -/

namespace MessageRelay.Library

/-- Every event of the log stands in the relation to the events before it. -/
def Preceded {Event : Type} (p : List Event → Event → Prop) (log : List Event) : Prop :=
  ∀ before event after, log = before ++ event :: after → p before event

variable {Event : Type} {p : List Event → Event → Prop}

theorem preceded_nil : Preceded p [] := by
  intro before event after parts
  simp at parts

/-- A log grows by an event that stands in the relation to all of it. -/
theorem Preceded.snoc {log : List Event} {event : Event} (preceded : Preceded p log) (last : p log event) :
    Preceded p (log ++ [event]) := by
  intro before event' after parts
  cases later : after using List.reverseRecOn with
  | nil =>
    subst later
    obtain ⟨same, final⟩ := List.append_inj' parts rfl
    cases final
    subst same
    exact last
  | append_singleton rest final =>
    subst later
    rw [← List.cons_append, ← List.append_assoc] at parts
    obtain ⟨same, -⟩ := List.append_inj' parts rfl
    exact preceded before event' rest same

/-- What the whole log satisfies, its front does. -/
theorem Preceded.front {log later : List Event} (preceded : Preceded p (log ++ later)) : Preceded p log := by
  intro before event after parts
  exact preceded before event (after ++ later) (by rw [parts, List.append_assoc, List.cons_append])

theorem preceded_snoc_iff {log : List Event} {event : Event} :
    Preceded p (log ++ [event]) ↔ Preceded p log ∧ p log event :=
  ⟨fun preceded => ⟨preceded.front, preceded log event [] rfl⟩, fun both => both.1.snoc both.2⟩

/-- Events of which nothing is asked change nothing. -/
theorem preceded_append_iff {log later : List Event} (free : ∀ event ∈ later, ∀ before, p before event) :
    Preceded p (log ++ later) ↔ Preceded p log := by
  induction later using List.reverseRecOn with
  | nil => rw [List.append_nil]
  | append_singleton front event ih =>
    rw [← List.append_assoc, preceded_snoc_iff, ih (fun e member => free e (List.mem_append_left _ member))]
    exact ⟨And.left, fun before => ⟨before, free event (by simp) _⟩⟩

/-- Where what came before an event is only added to, several events can follow at once. -/
theorem Preceded.append {log later : List Event} (grows : ∀ before more event, p before event → p (before ++ more) event)
    (preceded : Preceded p log) (all : ∀ event ∈ later, p log event) : Preceded p (log ++ later) := by
  induction later using List.reverseRecOn with
  | nil => rwa [List.append_nil]
  | append_singleton front event ih =>
    rw [← List.append_assoc]
    apply (ih (fun e member => all e (List.mem_append_left _ member))).snoc
    exact grows log front event (all event (by simp))

/-! What a log says last: folds over it that most events leave alone. -/

theorem foldl_append_idle {State : Type} {f : State → Event → State} {log later : List Event} {start : State}
    (idle : ∀ event ∈ later, ∀ s, f s event = s) : (log ++ later).foldl f start = log.foldl f start := by
  rw [List.foldl_append]
  generalize log.foldl f start = s
  induction later generalizing s with
  | nil => rfl
  | cons event rest ih =>
    rw [List.foldl_cons, idle event List.mem_cons_self,
      ih (fun event member => idle event (List.mem_cons_of_mem _ member))]

/-- Where every event leaves the value or writes one of its own, the later part of a log has the last word. -/
theorem foldl_append_last {Value : Type} {f : Option Value → Event → Option Value}
    (writes : ∀ event, (∀ last, f last event = last) ∨ ∃ v, ∀ last, f last event = some v) (log later : List Event) :
    (log ++ later).foldl f none = (later.foldl f none).or (log.foldl f none) := by
  rw [List.foldl_append]
  generalize log.foldl f none = last
  induction later using List.reverseRecOn with
  | nil => rfl
  | append_singleton front event ih =>
    rw [List.foldl_append, List.foldl_append, ih]
    obtain idle | ⟨v, own⟩ := writes event
    · simp only [List.foldl_cons, List.foldl_nil, idle]
    · simp only [List.foldl_cons, List.foldl_nil, own, Option.some_or]

/-- Where a step keeps the log's property exactly when it meets the guard, the log of a run has the property exactly
when the run is guarded. -/
theorem preceded_run_iff {State Input : Type} (m : Machine State Input Event) {inv : Config State Event → Prop}
    {ok : Config State Event → Input → Prop}
    (step : ∀ c input, inv c → Preceded p c.log →
      inv (m.advance c input) ∧ (Preceded p (m.advance c input).log ↔ ok c input))
    {c : Config State Event} (start : inv c) (preceded : Preceded p c.log) (inputs : List Input) :
    Preceded p (m.run c inputs).log ↔ m.Guarded ok c inputs := by
  induction inputs generalizing c with
  | nil => exact ⟨fun _ => trivial, fun _ => preceded⟩
  | cons input rest ih =>
    obtain ⟨next, iff⟩ := step c input start preceded
    constructor
    · intro whole
      obtain ⟨later, grown⟩ := m.log_isPrefix_run (m.advance c input) rest
      have now : Preceded p (m.advance c input).log := by
        rw [Machine.run_cons, ← grown] at whole
        exact whole.front
      exact ⟨iff.mp now, (ih next now).mp whole⟩
    · rintro ⟨now, later⟩
      exact (ih next (iff.mpr now)).mpr later

end MessageRelay.Library
