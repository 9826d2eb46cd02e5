import MessageRelay.Library.History
import MessageRelay.Send.StoreRows

/-! The budget of sends: what each identity's window holds, the charge of one send, and the forgetting of the windows
that have closed. A store that cannot answer refuses nothing, and what it was asked may have landed. -/

namespace MessageRelay.Send
open MessageRelay.Library MessageRelay.Session

/-- One identity's budget. A deployment's window is never of no length. -/
structure Budget where
  windowSecs : Nat
  sends : Nat
  bytes : Nat
  lasts : 0 < windowSecs

namespace Budget

/-- The start of the window a time falls in. -/
def windowOf (b : Budget) (now : Nat) : Nat := now - now % b.windowSecs

theorem lt_windowOf_add (b : Budget) (now : Nat) : now < b.windowOf now + b.windowSecs := by
  have below := Nat.mod_lt now b.lasts
  have whole := Nat.mod_le now b.windowSecs
  rw [windowOf]
  omega

end Budget

/-- The sends and the bytes of every window, by its identity and its start. -/
abbrev Windows := String × Nat → Option (Nat × Nat)

namespace Windows

def held (w : Windows) (key : String × Nat) : Nat × Nat := (w key).getD (0, 0)

/-- One send added to a window, which is begun with it if it is not there. -/
def add (w : Windows) (key : String × Nat) (bytes : Nat) : Windows :=
  Function.update w key (some ((w.held key).1 + 1, (w.held key).2 + bytes))

def forgetBefore (w : Windows) (start : Nat) : Windows := fun key => if key.2 < start then none else w key

@[simp] theorem held_add_self (w : Windows) (key : String × Nat) (bytes : Nat) :
    (w.add key bytes).held key = ((w.held key).1 + 1, (w.held key).2 + bytes) := by
  simp [held, add]

theorem held_add_of_ne (w : Windows) {key key' : String × Nat} (bytes : Nat) (other : key' ≠ key) :
    (w.add key bytes).held key' = w.held key' := by
  rw [held, add, Function.update_of_ne other, held]

theorem held_forgetBefore (w : Windows) {start : Nat} {key : String × Nat} (kept : start ≤ key.2) :
    (w.forgetBefore start).held key = w.held key := by
  rw [held, forgetBefore, if_neg (Nat.not_lt.mpr kept), held]

end Windows

def spentAnswer (b : Budget) (start : Nat) (what : String) : Answer :=
  let next := start + b.windowSecs
  ⟨.object [("code", .string "ERR_SEND_BUDGET"),
    ("description",
      .string s!"{what} in the window of {b.windowSecs} s from {start} (unix seconds); send again from {next}."),
    ("retryAt", .number (toString next)), ("status", .string "error"),
    ("windowSecs", .number (toString b.windowSecs)), ("windowStart", .number (toString start))], 429⟩

/-- Whether the store answered a charge, and where it did not, whether it landed. -/
inductive ChargeFate where
  | answered
  | lost (landed : Bool)
  deriving DecidableEq, Repr

def ChargeFate.landed : ChargeFate → Bool
  | .answered => true
  | .lost landed => landed

/-- One send charged. The sends are looked at before the bytes. -/
def charge (b : Budget) (identity : String) (now bytes : Nat) (fate : ChargeFate) (w : Windows) :
    Except Answer Unit × Windows :=
  let start := b.windowOf now
  let charged := w.add (identity, start) bytes
  match fate with
  | .lost landed => (.ok (), if landed then charged else w)
  | .answered =>
    let (sends, held) := charged.held (identity, start)
    if b.sends < sends then
      (.error (spentAnswer b start s!"{sends} sends, and an identity makes at most {b.sends}"), charged)
    else if b.bytes < held then
      let long :=
        s!"{held} bytes of message and payment no delivery fee judges, and an identity sends at most {b.bytes}"
      (.error (spentAnswer b start long), charged)
    else (.ok (), charged)

inductive BudgetInput where
  | charge (identity : String) (now bytes : Nat) (fate : ChargeFate)
  | forget (now : Nat) (landed : Bool)

inductive BudgetEvent where
  | charged (identity : String) (now bytes : Nat) (fate : ChargeFate) (verdict : Except Answer Unit)
  | forgot (start : Nat)

def budgetStep (b : Budget) (w : Windows) : BudgetInput → Windows × List BudgetEvent
  | .charge identity now bytes fate =>
    let (verdict, w) := charge b identity now bytes fate w
    (w, [.charged identity now bytes fate verdict])
  | .forget now landed => if landed then (w.forgetBefore (b.windowOf now), [.forgot (b.windowOf now)]) else (w, [])

def budgetMachine (b : Budget) : Machine Windows BudgetInput BudgetEvent := ⟨budgetStep b⟩

abbrev BudgetConfig := Config Windows BudgetEvent

def budgetStart : BudgetConfig := ⟨fun _ => none, []⟩

variable (b : Budget)

/-- The bytes an event adds to a window. -/
def addedTo (key : String × Nat) : BudgetEvent → Option Nat
  | .charged identity now bytes fate _ => if (identity, b.windowOf now) = key ∧ fate.landed then some bytes else none
  | .forgot _ => none

/-- The bytes of a send the store charged to a window and the budget let through. -/
def letThrough (key : String × Nat) : BudgetEvent → Option Nat
  | .charged identity now bytes fate verdict =>
    if (identity, b.windowOf now) = key ∧ fate = .answered ∧ verdict.isOk then some bytes else none
  | .forgot _ => none

/-- The first window that is not forgotten. -/
def horizon (log : List BudgetEvent) : Nat :=
  log.foldl (fun first event =>
    match event with
    | .forgot start => max first start
    | _ => first) 0

/-- A charge that comes into a window after the windows before it are forgotten, never into one of these. -/
def InTime (c : BudgetConfig) : BudgetInput → Prop
  | .charge _ now _ _ => horizon c.log ≤ b.windowOf now
  | .forget _ _ => True

/-- A charge the store answered is refused exactly where the window's sends, or its bytes, come to more than the budget
with it, and is told when the next window opens. What the store does not answer is let through. -/
def Judged (before : List BudgetEvent) : BudgetEvent → Prop
  | .charged identity now bytes fate verdict =>
    let added := before.filterMap (addedTo b (identity, b.windowOf now))
    (fate ≠ .answered → verdict = .ok ()) ∧
    (fate = .answered → (verdict = .ok () ↔ added.length + 1 ≤ b.sends ∧ added.sum + bytes ≤ b.bytes)) ∧
    ∀ refusal, verdict = .error refusal → refusal.status = 429 ∧
      ∃ next, refusal.body.get "retryAt" = some (.number (toString next)) ∧ now < next ∧
        b.windowOf now + b.windowSecs = next
  | .forgot _ => True

/-- The windows hold what the log added to them, but for those forgotten. -/
def Counted (c : BudgetConfig) : Prop :=
  ∀ key : String × Nat, horizon c.log ≤ key.2 →
    c.state.held key = ((c.log.filterMap (addedTo b key)).length, (c.log.filterMap (addedTo b key)).sum)

theorem horizon_snoc (log : List BudgetEvent) (event : BudgetEvent) :
    horizon (log ++ [event]) = match event with
      | .forgot start => max (horizon log) start
      | _ => horizon log := by
  rw [horizon, List.foldl_append]
  rfl

theorem charge_windows (identity : String) (now bytes : Nat) (fate : ChargeFate) (w : Windows) :
    (charge b identity now bytes fate w).2 = if fate.landed then w.add (identity, b.windowOf now) bytes else w := by
  cases fate with
  | lost landed => rfl
  | answered =>
    simp only [charge, ChargeFate.landed, if_true]
    split
    · rfl
    · split <;> rfl

theorem counted_step {c : BudgetConfig} (counted : Counted b c) (input : BudgetInput) :
    Counted b ((budgetMachine b).advance c input) := by
  cases input with
  | charge identity now bytes fate =>
    intro key kept
    have same : horizon ((budgetMachine b).advance c (.charge identity now bytes fate)).log = horizon c.log :=
      horizon_snoc c.log _
    have before := counted key (same ▸ kept)
    simp only [Machine.advance, budgetMachine, budgetStep, charge_windows, List.filterMap_append, List.filterMap_cons,
      List.filterMap_nil, addedTo]
    by_cases here : (identity, b.windowOf now) = key
    · subst here
      cases landed : fate.landed with
      | true => simp [before]
      | false => simpa using before
    · have other : (if fate.landed then c.state.add (identity, b.windowOf now) bytes else c.state).held key =
          c.state.held key := by
        split
        · exact c.state.held_add_of_ne bytes (Ne.symm here)
        · rfl
      simpa [here, other] using before
  | forget now landed =>
    cases landed with
    | false => simpa [Machine.advance, budgetMachine, budgetStep, Counted] using counted
    | true =>
      intro key kept
      have first : horizon ((budgetMachine b).advance c (.forget now true)).log =
          max (horizon c.log) (b.windowOf now) := horizon_snoc c.log _
      rw [first] at kept
      have before := counted key (le_trans (Nat.le_max_left _ _) kept)
      simp only [Machine.advance, budgetMachine, budgetStep, if_true, List.filterMap_append, List.filterMap_cons,
        List.filterMap_nil, addedTo, List.append_nil]
      rwa [c.state.held_forgetBefore (le_trans (Nat.le_max_right _ _) kept)]

theorem spentAnswer_retry (start now : Nat) (what : String) (open' : now < start + b.windowSecs) :
    (spentAnswer b start what).status = 429 ∧ ∃ next,
      (spentAnswer b start what).body.get "retryAt" = some (.number (toString next)) ∧ now < next ∧
        start + b.windowSecs = next :=
  ⟨rfl, start + b.windowSecs, rfl, open', rfl⟩

theorem judged_charge {c : BudgetConfig} (counted : Counted b c) {identity : String} {now : Nat} (bytes : Nat)
    (fate : ChargeFate) (inTime : horizon c.log ≤ b.windowOf now) :
    Judged b c.log (.charged identity now bytes fate (charge b identity now bytes fate c.state).1) := by
  have held := counted (identity, b.windowOf now) inTime
  have next := b.lt_windowOf_add now
  cases fate with
  | lost landed =>
    refine ⟨fun _ => rfl, fun answered => (by cases answered), fun refusal refused => ?_⟩
    cases refused
  | answered =>
    refine ⟨fun lost => absurd rfl lost, fun _ => ?_, fun refusal refused => ?_⟩
    · simp only [charge, Windows.held_add_self, held]
      split
      · rename_i many
        simp only [reduceCtorEq, false_iff, not_and]
        intro few
        omega
      · split
        · rename_i long
          simp only [reduceCtorEq, false_iff, not_and]
          intro few
          omega
        · rename_i few short
          simp only [true_iff]
          omega
    · simp only [charge, Windows.held_add_self] at refused
      split at refused
      · cases refused
        exact spentAnswer_retry b _ now _ next
      · split at refused
        · cases refused
          exact spentAnswer_retry b _ now _ next
        · cases refused

theorem letThrough_sublist (log : List BudgetEvent) (key : String × Nat) :
    (log.filterMap (letThrough b key)).Sublist (log.filterMap (addedTo b key)) := by
  induction log with
  | nil => exact .slnil
  | cons event rest ih =>
    cases event with
    | forgot start => exact ih
    | charged identity now bytes fate verdict =>
      simp only [List.filterMap_cons, letThrough, addedTo]
      by_cases landed : (identity, b.windowOf now) = key ∧ fate.landed
      · rw [if_pos landed]
        split
        · exact ih.cons _
        · rename_i through
          simp only [Option.ite_none_right_eq_some, Option.some.injEq] at through
          rw [through.2]
          exact ih.cons_cons _
      · have stopped : ¬((identity, b.windowOf now) = key ∧ fate = .answered ∧ verdict.isOk) :=
          fun through => landed ⟨through.1, by rw [through.2.1]; rfl⟩
        rw [if_neg landed, if_neg stopped]
        exact ih

/-- What is let through is no more than the budget: it is among what was added, and the last of it found room. -/
theorem letThrough_bounded {log : List BudgetEvent} (judged : Preceded (Judged b) log) (key : String × Nat) :
    (log.filterMap (letThrough b key)).length ≤ b.sends ∧ (log.filterMap (letThrough b key)).sum ≤ b.bytes := by
  induction log using List.reverseRecOn with
  | nil => exact ⟨Nat.zero_le _, Nat.zero_le _⟩
  | append_singleton front event ih =>
    obtain ⟨before, last⟩ := preceded_snoc_iff.mp judged
    have bounded := ih before
    cases event with
    | forgot start => simpa [letThrough, List.filterMap_cons] using bounded
    | charged identity now bytes fate verdict =>
      rw [List.filterMap_append, List.filterMap_cons, List.filterMap_nil, letThrough]
      by_cases through : (identity, b.windowOf now) = key ∧ fate = .answered ∧ verdict.isOk
      · obtain ⟨rfl, answered, ok⟩ := through
        have among := letThrough_sublist b front (identity, b.windowOf now)
        have passed : verdict = .ok () := by
          cases verdict with
          | ok => rfl
          | error => cases ok
        have room := (last.2.1 answered).mp passed
        have fewer := among.length_le
        have lighter := among.sum_le_sum (fun n _ => Nat.zero_le n)
        simp only [answered, ok, and_self, if_true, List.length_append, List.length_singleton, List.sum_append,
          List.sum_singleton]
        omega
      · simpa [through] using bounded

/-- In every run in which no send is charged to a window that was forgotten, a charge the store answers is refused
exactly where the window's sends or bytes come to more than the budget with it; so the charges that are answered let no
more than the budget through in a window. -/
theorem budget_kept {inputs : List BudgetInput} (inTime : (budgetMachine b).Guarded (InTime b) budgetStart inputs) :
    Preceded (Judged b) ((budgetMachine b).run budgetStart inputs).log ∧
      ∀ key : String × Nat,
        (((budgetMachine b).run budgetStart inputs).log.filterMap (letThrough b key)).length ≤ b.sends ∧
        (((budgetMachine b).run budgetStart inputs).log.filterMap (letThrough b key)).sum ≤ b.bytes := by
  have start : Counted b budgetStart ∧ Preceded (Judged b) budgetStart.log := ⟨fun _ _ => rfl, preceded_nil⟩
  have step (c : BudgetConfig) (input : BudgetInput) (before : Counted b c ∧ Preceded (Judged b) c.log)
      (ok : InTime b c input) : Counted b ((budgetMachine b).advance c input) ∧
        Preceded (Judged b) ((budgetMachine b).advance c input).log := by
    refine ⟨counted_step b before.1 input, ?_⟩
    cases input with
    | charge identity now bytes fate => exact before.2.snoc (judged_charge b before.1 bytes fate ok)
    | forget now landed =>
      cases landed with
      | true => exact before.2.snoc trivial
      | false => simpa [Machine.advance, budgetMachine, budgetStep] using before.2
  have kept := ((budgetMachine b).run_invariant step start inTime).2
  exact ⟨kept, letThrough_bounded b kept⟩

def twoSends : Budget := ⟨60, 2, 100, by decide⟩

/-- Three sends in a minute, the first of them never answered; the minute forgotten; one send of the next. -/
def minuteRun : List BudgetInput :=
  [.charge "alice" 61 10 (.lost true), .charge "alice" 70 10 .answered, .charge "alice" 119 10 .answered,
    .forget 120 true, .charge "alice" 120 100 .answered]

def verdictsOf (log : List BudgetEvent) : List Bool :=
  log.filterMap (fun event =>
    match event with
    | .charged _ _ _ _ verdict => some verdict.isOk
    | .forgot _ => none)

theorem minuteRun_kept :
    Preceded (Judged twoSends) ((budgetMachine twoSends).run budgetStart minuteRun).log ∧
      verdictsOf ((budgetMachine twoSends).run budgetStart minuteRun).log = [true, true, false, true] := by
  refine ⟨(@budget_kept twoSends minuteRun ⟨?_, ?_, ?_, trivial, ?_, trivial⟩).1, rfl⟩ <;>
  · unfold InTime
    decide

/-- A send charged to a minute that was forgotten finds the whole budget of that minute again. -/
example : verdictsOf ((budgetMachine twoSends).run budgetStart
    [.charge "alice" 61 10 .answered, .charge "alice" 62 10 .answered, .charge "alice" 63 10 .answered,
      .forget 120 true, .charge "alice" 64 10 .answered]).log = [true, true, false, true] := rfl

end MessageRelay.Send
