import MessageRelay.Library.Table
import MessageRelay.Permissions.Fees

/-! The budgets of the TURN credentials: one batch opens a row a budget, charges every row or none, and reads what the
rows hold. A bound number reaches the database through i64 and f64. -/

namespace MessageRelay.Turn
open MessageRelay.Library MessageRelay.Permissions

/-- The bounds of the deployment, u64 each. -/
structure Config where
  identityHour : UInt64
  sourceHour : UInt64
  prefix48Hour : UInt64
  totalHour : UInt64

/-- The group a request counts under at its source, and the /48 above it for IPv6. -/
structure Source where
  group : String
  prefix48 : Option String

structure Charge where
  name : String
  key : String
  cap : UInt64

/-- The budgets a mint counts against, in the order a refusal names them. -/
def charges (cfg : Config) (identity : String) (source : Source) : List Charge :=
  [⟨"identity", "turn:id:" ++ identity, cfg.identityHour⟩, ⟨"source", "turn:src:" ++ source.group, cfg.sourceHour⟩] ++
    (match source.prefix48 with
      | some p48 => [⟨"prefix48", "turn:p48:" ++ p48, cfg.prefix48Hour⟩]
      | none => []) ++
    [⟨"total", "turn:all", cfg.totalHour⟩]

/-- A bound value, as JavaScript is handed it. A number is an integral f64. -/
inductive Bound where
  | number (n : Int)
  | text (s : String)
  deriving DecidableEq, Repr

/-- A u64 `as i64`. -/
def asI64 (n : UInt64) : Int := if n.toNat < 2 ^ 63 then n.toNat else n.toNat - 2 ^ 64

/-- An integer `as f64`. -/
def asF64 (n : Int) : Int := n.sign * nearestF64 n.natAbs

def Bound.ofU64 (n : UInt64) : Bound := .number (asF64 (asI64 n))

structure BudgetRow where
  key : String
  windowStart : Int
  n : Nat
  deriving DecidableEq, Repr

def BudgetRow.place (row : BudgetRow) : String × Int := (row.key, row.windowStart)

/-- The table `turn_budget`, one row a key and window. -/
abbrev Budgets := Table BudgetRow.place

def BudgetRow.raised (row : BudgetRow) : BudgetRow := { row with n := row.n + 1 }

theorem BudgetRow.place_raised (p : BudgetRow → Bool) (row : BudgetRow) :
    BudgetRow.place (if p row then row.raised else row) = row.place := by
  split <;> rfl

/-- The rows that pass the test gain one. -/
def raise (p : BudgetRow → Bool) (t : Budgets) : Budgets :=
  t.map (fun row => if p row then row.raised else row) (BudgetRow.place_raised p)

/-- The values of a statement's marks, in order: the window and the keys, then the guard's window and each key with
its bound. -/
def takeBinds (windowStart : UInt64) (charges : List Charge) : List Bound :=
  [.ofU64 windowStart] ++ charges.map (fun c => .text c.key) ++ [.ofU64 windowStart] ++
    charges.flatMap (fun c => [.text c.key, .ofU64 c.cap])

/-- `key = ?` and `window_start = ?`. -/
def textIs (s : String) (b : Option Bound) : Bool := b = some (.text s)

def numberIs (n : Int) (b : Option Bound) : Bool := b = some (.number n)

/-- `n >= ?` against a number. -/
def reaches (n : Nat) : Option Bound → Bool
  | some (.number m) => m ≤ n
  | _ => false

/-- A budget's row, made if the window has none. -/
def openBudget (windowStart : UInt64) (t : Budgets) (c : Charge) : Budgets :=
  t.insertIgnore ⟨c.key, asF64 (asI64 windowStart), 0⟩

/-- The statement with `n` budgets: the rows it names gain one unless the window holds a spent one, and are returned. -/
def take (n : Nat) (binds : List Bound) (t : Budgets) : Budgets × List BudgetRow :=
  let named (row : BudgetRow) : Bool :=
    numberIs row.windowStart binds[0]? && (List.range n).any (fun i => textIs row.key binds[1 + i]?)
  let spent (row : BudgetRow) : Bool :=
    numberIs row.windowStart binds[n + 1]? &&
      (List.range n).any (fun i => textIs row.key binds[n + 2 + 2 * i]? && reaches row.n binds[n + 3 + 2 * i]?)
  if t.rows.any spent then (t, [])
  else (raise named t, (t.rows.filter named).map BudgetRow.raised)

/-- What each budget holds in the window, its count as a u64 read from f64. -/
def held (windowStart : UInt64) (charges : List Charge) (t : Budgets) : List (String × Nat) :=
  (t.rows.filter (fun row => row.windowStart = asF64 (asI64 windowStart) &&
    charges.any (fun c => row.key = c.key))).map (fun row => (row.key, nearestF64 row.n))

def firstSpent (charges : List Charge) (held : List (String × Nat)) : Option Nat :=
  charges.findIdx? (fun c => held.any (fun h => h.1 = c.key && c.cap.toNat ≤ h.2))

/-- The batch, as one transaction. Refused with nothing spent it names the last budget. -/
def charge (windowStart : UInt64) (charges : List Charge) (t : Budgets) : Option Nat × Budgets :=
  let opened := charges.foldl (openBudget windowStart) t
  let (after, taken) := take charges.length (takeBinds windowStart charges) opened
  if taken.length = charges.length then (none, after)
  else (some ((firstSpent charges (held windowStart charges after)).getD (charges.length - 1)), after)

/-! Numbers that reach the database as they are. -/

theorem nearestF64_of_le {n : Nat} (small : n ≤ 2 ^ 53) : nearestF64 n = n := by
  rcases small.lt_or_eq with below | rfl
  · exact nearestF64_of_lt below
  · decide +kernel

theorem asF64_asI64 {n : UInt64} (small : n.toNat ≤ 2 ^ 53) : asF64 (asI64 n) = n.toNat := by
  have positive : asI64 n = (n.toNat : Int) := if_pos (by omega)
  rw [positive, asF64, Int.natAbs_natCast, nearestF64_of_le small]
  exact Int.sign_mul_natAbs (n.toNat : Int)

/-! The marks of the statement by their places. -/

section Binds
variable (windowStart : UInt64) (cs : List Charge)

theorem getElem?_flatMap_pair {α β : Type} (f g : α → β) (l : List α) (i : Nat) :
    (l.flatMap (fun x => [f x, g x]))[2 * i]? = l[i]?.map f ∧
      (l.flatMap (fun x => [f x, g x]))[2 * i + 1]? = l[i]?.map g := by
  induction l generalizing i with
  | nil => simp
  | cons x rest ih =>
    cases i with
    | zero => simp
    | succ i =>
      obtain ⟨even, odd⟩ := ih i
      simp only [List.flatMap_cons, List.cons_append, List.nil_append]
      exact ⟨even, odd⟩

theorem takeBinds_window : (takeBinds windowStart cs)[0]? = some (.ofU64 windowStart) := by
  simp [takeBinds]

theorem takeBinds_key (i : Nat) (inside : i < cs.length) :
    (takeBinds windowStart cs)[1 + i]? = cs[i]?.map (fun c => .text c.key) := by
  simp only [takeBinds, List.append_assoc]
  rw [List.getElem?_append_right (by simp), List.getElem?_append_left (by simp; omega)]
  simp

theorem takeBinds_guardWindow : (takeBinds windowStart cs)[cs.length + 1]? = some (.ofU64 windowStart) := by
  simp only [takeBinds, List.append_assoc]
  rw [List.getElem?_append_right (by simp), List.getElem?_append_right (by simp)]
  simp

theorem takeBinds_guard (i : Nat) :
    (takeBinds windowStart cs)[cs.length + 2 + 2 * i]? = cs[i]?.map (fun c => .text c.key) ∧
      (takeBinds windowStart cs)[cs.length + 3 + 2 * i]? = cs[i]?.map (fun c => .ofU64 c.cap) := by
  have front (j : Nat) : (takeBinds windowStart cs)[cs.length + 2 + j]? =
      (cs.flatMap (fun c => [Bound.text c.key, .ofU64 c.cap]))[j]? := by
    rw [takeBinds, List.getElem?_append_right (by simp)]
    congr 1
    simp
  have pair := getElem?_flatMap_pair (fun c : Charge => Bound.text c.key) (fun c => .ofU64 c.cap) cs i
  refine ⟨(front (2 * i)).trans pair.1, ?_⟩
  have next : cs.length + 3 + 2 * i = cs.length + 2 + (2 * i + 1) := by omega
  rw [next, front, pair.2]

end Binds

/-- Asking every place of a list is asking its items. -/
theorem any_range {α : Type} (l : List α) (f : α → Bool) (g : Nat → Bool)
    (same : ∀ (i : Nat) (inside : i < l.length), g i = f l[i]) : (List.range l.length).any g = l.any f := by
  rw [Bool.eq_iff_iff, List.any_eq_true, List.any_eq_true]
  constructor
  · rintro ⟨i, inside, holds⟩
    rw [same i (List.mem_range.mp inside)] at holds
    exact ⟨_, List.getElem_mem _, holds⟩
  · rintro ⟨x, member, holds⟩
    obtain ⟨i, inside, rfl⟩ := List.mem_iff_getElem.mp member
    exact ⟨i, List.mem_range.mpr inside, by rwa [same i inside]⟩

/-! What a charge does to the counts. -/

/-- What a budget holds in a window. -/
def count (t : Budgets) (key : String) (windowStart : Int) : Nat := ((t.find? (key, windowStart)).map BudgetRow.n).getD 0

/-- The row is one the charge names. -/
def Names (windowStart : Int) (cs : List Charge) (row : BudgetRow) : Bool :=
  row.windowStart = windowStart && cs.any (fun c => row.key = c.key)

/-- The row is one the charge names, and it is spent. -/
def Spends (windowStart : Int) (cs : List Charge) (row : BudgetRow) : Bool :=
  row.windowStart = windowStart && cs.any (fun c => row.key = c.key && c.cap.toNat ≤ row.n)

/-- Every number the charge binds reaches the database as it is. -/
structure Plain (windowStart : UInt64) (cs : List Charge) : Prop where
  window : windowStart.toNat ≤ 2 ^ 53
  caps : ∀ c ∈ cs, c.cap.toNat ≤ 2 ^ 53

theorem take_eq {windowStart : UInt64} {cs : List Charge} (plain : Plain windowStart cs) (t : Budgets) :
    take cs.length (takeBinds windowStart cs) t =
      if t.rows.any (Spends windowStart.toNat cs) then (t, [])
      else (raise (Names windowStart.toNat cs) t,
        (t.rows.filter (Names windowStart.toNat cs)).map BudgetRow.raised) := by
  have window : Bound.ofU64 windowStart = .number windowStart.toNat := by rw [Bound.ofU64, asF64_asI64 plain.window]
  have named (row : BudgetRow) : (numberIs row.windowStart (takeBinds windowStart cs)[0]? &&
      (List.range cs.length).any (fun i => textIs row.key (takeBinds windowStart cs)[1 + i]?)) =
      Names windowStart.toNat cs row := by
    rw [takeBinds_window, window, any_range cs (fun c => row.key = c.key)]
    · simp [Names, numberIs, eq_comm]
    · intro i inside
      rw [takeBinds_key windowStart cs i inside, List.getElem?_eq_getElem inside]
      simp [textIs, eq_comm]
  have spent (row : BudgetRow) : (numberIs row.windowStart (takeBinds windowStart cs)[cs.length + 1]? &&
      (List.range cs.length).any (fun i => textIs row.key (takeBinds windowStart cs)[cs.length + 2 + 2 * i]? &&
        reaches row.n (takeBinds windowStart cs)[cs.length + 3 + 2 * i]?)) = Spends windowStart.toNat cs row := by
    rw [takeBinds_guardWindow, window, any_range cs (fun c => row.key = c.key && c.cap.toNat ≤ row.n)]
    · simp [Spends, numberIs, eq_comm]
    · intro i inside
      have cap : Bound.ofU64 cs[i].cap = .number cs[i].cap.toNat := by
        rw [Bound.ofU64, asF64_asI64 (plain.caps _ (List.getElem_mem inside))]
      rw [(takeBinds_guard windowStart cs i).1, (takeBinds_guard windowStart cs i).2, List.getElem?_eq_getElem inside,
        Option.map_some, Option.map_some, cap]
      simp [textIs, reaches, eq_comm]
  have namedAll := funext named
  have spentAll := funext spent
  simp only [take, namedAll, spentAll]

theorem find?_foldl_openBudget (windowStart : UInt64) (cs : List Charge) (t : Budgets) (key : String) (w : Int) :
    (cs.foldl (openBudget windowStart) t).find? (key, w) =
      (t.find? (key, w)).or
        (if w = asF64 (asI64 windowStart) ∧ ∃ c ∈ cs, c.key = key then some ⟨key, w, 0⟩ else none) := by
  induction cs generalizing t with
  | nil => simp
  | cons c rest ih =>
    rw [List.foldl_cons, ih, openBudget, Table.find?_insertIgnore]
    by_cases aimed : w = asF64 (asI64 windowStart) ∧ c.key = key
    · obtain ⟨rfl, rfl⟩ := aimed
      cases found : t.find? (c.key, asF64 (asI64 windowStart)) <;> simp [BudgetRow.place]
    · have other : BudgetRow.place ⟨c.key, asF64 (asI64 windowStart), 0⟩ ≠ (key, w) := by
        intro same
        cases same
        exact aimed ⟨rfl, rfl⟩
      rw [if_neg other]
      congr 1
      simp only [List.mem_cons, exists_eq_or_imp]
      by_cases here : w = asF64 (asI64 windowStart)
      · have named : c.key ≠ key := fun same => aimed ⟨here, same⟩
        simp [here, named]
      · simp [here]

theorem count_foldl_openBudget (windowStart : UInt64) (cs : List Charge) (t : Budgets) (key : String) (w : Int) :
    count (cs.foldl (openBudget windowStart) t) key w = count t key w := by
  rw [count, find?_foldl_openBudget, count]
  cases t.find? (key, w) with
  | none =>
    rw [Option.none_or]
    split <;> rfl
  | some row => rfl

theorem count_of_mem {t : Budgets} {row : BudgetRow} (member : row ∈ t.rows) :
    count t row.key row.windowStart = row.n := by
  have found : t.find? (row.key, row.windowStart) = some row := (t.find?_eq_some _ _).mpr ⟨member, rfl⟩
  rw [count, found]
  rfl

/-- A charge's row of a budget it names. -/
theorem exists_row {windowStart : UInt64} {cs : List Charge} {c : Charge} (member : c ∈ cs)
    (small : windowStart.toNat ≤ 2 ^ 53) (t : Budgets) :
    ∃ row ∈ (cs.foldl (openBudget windowStart) t).rows, row.key = c.key ∧ row.windowStart = windowStart.toNat := by
  have present : ((cs.foldl (openBudget windowStart) t).find? (c.key, (windowStart.toNat : Int))).isSome := by
    rw [find?_foldl_openBudget, if_pos ⟨(asF64_asI64 small).symm, c, member, rfl⟩]
    simp
  obtain ⟨row, found⟩ := Option.isSome_iff_exists.mp present
  obtain ⟨inside, place⟩ := (Table.find?_eq_some _ _ _).mp found
  exact ⟨row, inside, congrArg Prod.fst place, congrArg Prod.snd place⟩

section Charge
variable {windowStart : UInt64} {cs : List Charge}

/-- The budget is spent in the window. -/
def Spent (t : Budgets) (windowStart : UInt64) (c : Charge) : Prop := c.cap.toNat ≤ count t c.key windowStart.toNat

instance (t : Budgets) (windowStart : UInt64) : DecidablePred (Spent t windowStart) :=
  fun _ => inferInstanceAs (Decidable (_ ≤ _))

/-- The guard holds the charge back exactly when a budget it names is spent. -/
theorem any_spends (plain : Plain windowStart cs) (t : Budgets) :
    (cs.foldl (openBudget windowStart) t).rows.any (Spends windowStart.toNat cs) ↔
      ∃ c ∈ cs, Spent t windowStart c := by
  rw [List.any_eq_true]
  constructor
  · rintro ⟨row, inside, spends⟩
    simp only [Spends, Bool.and_eq_true, decide_eq_true_eq, List.any_eq_true] at spends
    obtain ⟨window, c, member, key, full⟩ := spends
    refine ⟨c, member, ?_⟩
    rw [Spent, ← count_foldl_openBudget windowStart cs, ← key, ← window, count_of_mem inside]
    exact full
  · rintro ⟨c, member, full⟩
    obtain ⟨row, inside, key, window⟩ := exists_row member plain.window t
    refine ⟨row, inside, ?_⟩
    rw [Spent, ← count_foldl_openBudget windowStart cs, ← key, ← window, count_of_mem inside] at full
    simp only [Spends, Bool.and_eq_true, decide_eq_true_eq, List.any_eq_true]
    exact ⟨window, c, member, key, full⟩

/-- One row a budget is taken. -/
theorem length_names (plain : Plain windowStart cs) (unique : (cs.map Charge.key).Nodup) (t : Budgets) :
    ((cs.foldl (openBudget windowStart) t).rows.filter (Names windowStart.toNat cs)).length = cs.length := by
  have same : (((cs.foldl (openBudget windowStart) t).rows.filter (Names windowStart.toNat cs)).map
      BudgetRow.key).Perm (cs.map Charge.key) := by
    rw [List.perm_ext_iff_of_nodup _ unique]
    · intro key
      simp only [List.mem_map, List.mem_filter, Names, Bool.and_eq_true, decide_eq_true_eq, List.any_eq_true]
      constructor
      · rintro ⟨row, ⟨-, -, c, member, named⟩, rfl⟩
        exact ⟨c, member, named.symm⟩
      · rintro ⟨c, member, rfl⟩
        obtain ⟨row, inside, named, window⟩ := exists_row member plain.window t
        exact ⟨row, ⟨inside, window, c, member, named⟩, named⟩
    · apply List.Nodup.map_on _ (List.Nodup.filter _ (List.Nodup.of_map _ (Table.unique _)))
      intro row member other member' same
      simp only [List.mem_filter, Names, Bool.and_eq_true, decide_eq_true_eq] at member member'
      apply List.inj_on_of_nodup_map (Table.unique _) member.1 member'.1
      rw [BudgetRow.place, BudgetRow.place, same, member.2.1, member'.2.1]
  rw [← List.length_map BudgetRow.key, same.length_eq, List.length_map]

theorem findIdx?_congr {α : Type} {p q : α → Bool} {l : List α} (same : ∀ x ∈ l, p x = q x) :
    l.findIdx? p = l.findIdx? q := by
  induction l with
  | nil => rfl
  | cons x rest ih =>
    rw [List.findIdx?_cons, List.findIdx?_cons, same x (List.mem_cons_self ..),
      ih (fun y member => same y (List.mem_cons_of_mem _ member))]

/-- The first budget the reading shows spent is the first that is. -/
theorem firstSpent_held (plain : Plain windowStart cs) {t : Budgets}
    (bounded : ∀ c ∈ cs, count t c.key windowStart.toNat ≤ c.cap.toNat) :
    firstSpent cs (held windowStart cs (cs.foldl (openBudget windowStart) t)) =
      cs.findIdx? (fun c => Spent t windowStart c) := by
  apply findIdx?_congr
  intro c member
  have exact (row : BudgetRow) (inside : row ∈ (cs.foldl (openBudget windowStart) t).rows)
      (key : row.key = c.key) (window : row.windowStart = windowStart.toNat) :
      nearestF64 row.n = count t c.key windowStart.toNat := by
    have held : count t c.key windowStart.toNat = row.n := by
      rw [← count_foldl_openBudget windowStart cs, ← key, ← window, count_of_mem inside]
    rw [held]
    exact nearestF64_of_le (held ▸ (bounded c member).trans (plain.caps c member))
  rw [Bool.eq_iff_iff, List.any_eq_true, decide_eq_true_iff, Spent]
  constructor
  · rintro ⟨_, reading, shown⟩
    obtain ⟨row, inside, rfl⟩ := List.mem_map.mp reading
    simp only [List.mem_filter, Bool.and_eq_true, decide_eq_true_eq, asF64_asI64 plain.window] at inside shown
    rw [exact row inside.1 shown.1 inside.2.1] at shown
    exact shown.2
  · intro full
    obtain ⟨row, inside, key, window⟩ := exists_row member plain.window t
    refine ⟨(row.key, nearestF64 row.n), List.mem_map.mpr ⟨row, List.mem_filter.mpr ⟨inside, ?_⟩, rfl⟩, ?_⟩
    · simp only [Bool.and_eq_true, decide_eq_true_eq, asF64_asI64 plain.window, List.any_eq_true]
      exact ⟨window, c, member, key⟩
    · simp only [Bool.and_eq_true, decide_eq_true_eq]
      exact ⟨key, by rwa [exact row inside key window]⟩

/-- A charge with a spent budget is refused with the first of them, and changes no count. -/
theorem charge_refused (plain : Plain windowStart cs) {t : Budgets}
    (bounded : ∀ c ∈ cs, count t c.key windowStart.toNat ≤ c.cap.toNat) (spent : ∃ c ∈ cs, Spent t windowStart c) :
    (charge windowStart cs t).1 = cs.findIdx? (fun c => Spent t windowStart c) ∧
      ∀ key w, count (charge windowStart cs t).2 key w = count t key w := by
  have several : cs.length ≠ 0 := by
    obtain ⟨c, member, -⟩ := spent
    exact Nat.ne_of_gt (List.length_pos_of_mem member)
  have first : cs.findIdx? (fun c => Spent t windowStart c) = some (cs.findIdx (fun c => Spent t windowStart c)) := by
    apply List.findIdx?_eq_some_of_exists
    obtain ⟨c, member, full⟩ := spent
    exact ⟨c, member, by simpa using full⟩
  rw [charge, take_eq plain, if_pos ((any_spends plain t).mpr spent)]
  simp only [List.length_nil]
  rw [if_neg (Ne.symm several)]
  refine ⟨?_, fun key w => count_foldl_openBudget ..⟩
  rw [firstSpent_held plain bounded, first, Option.getD_some]

/-- A charge with no spent budget is taken, and adds one to each count it names. -/
theorem charge_taken (plain : Plain windowStart cs) (unique : (cs.map Charge.key).Nodup) {t : Budgets}
    (spare : ¬ ∃ c ∈ cs, Spent t windowStart c) :
    (charge windowStart cs t).1 = none ∧ ∀ key w, count (charge windowStart cs t).2 key w =
      count t key w + if w = windowStart.toNat ∧ ∃ c ∈ cs, c.key = key then 1 else 0 := by
  have guard : ¬ (cs.foldl (openBudget windowStart) t).rows.any (Spends windowStart.toNat cs) :=
    fun any => spare ((any_spends plain t).mp any)
  rw [charge, take_eq plain, if_neg guard]
  have all : ((((cs.foldl (openBudget windowStart) t).rows.filter (Names windowStart.toNat cs))).map
      BudgetRow.raised).length = cs.length := by
    rw [List.length_map, length_names plain unique]
  simp only [if_pos all, true_and]
  intro key w
  rw [← count_foldl_openBudget windowStart cs t key w, count, raise, Table.find?_map, count]
  cases found : (cs.foldl (openBudget windowStart) t).find? (key, w) with
  | none =>
    have absent := (Table.find?_eq_none _ _).mp found
    rw [if_neg]
    · rfl
    · rintro ⟨rfl, c, member, rfl⟩
      obtain ⟨row, inside, named, window⟩ := exists_row member plain.window t
      exact absent row inside (by rw [BudgetRow.place, named, window])
  | some row =>
    have place := Table.key_of_find? found
    have key' : row.key = key := congrArg Prod.fst place
    have window : row.windowStart = w := congrArg Prod.snd place
    by_cases named : w = windowStart.toNat ∧ ∃ c ∈ cs, c.key = key
    · have names : Names windowStart.toNat cs row = true := by
        obtain ⟨here, c, member, same⟩ := named
        simp only [Names, Bool.and_eq_true, decide_eq_true_eq, List.any_eq_true]
        exact ⟨window.trans here, c, member, key'.trans same.symm⟩
      simp [names, named, BudgetRow.raised]
    · have names : ¬ Names windowStart.toNat cs row = true := by
        intro names
        simp only [Names, Bool.and_eq_true, decide_eq_true_eq, List.any_eq_true] at names
        obtain ⟨here, c, member, same⟩ := names
        exact named ⟨window.symm.trans here, c, member, same.symm.trans key'⟩
      simp [names, named]

end Charge

/-! Mints one after another. -/

structure Request where
  identity : String
  source : Source
  windowStart : UInt64

def Request.charges (cfg : Config) (q : Request) : List Charge := Turn.charges cfg q.identity q.source

/-- The mints one after another, each logged with its answer. -/
def mints (cfg : Config) : Machine Budgets Request (Request × Option Nat) where
  step t q :=
    let (answer, after) := charge q.windowStart (q.charges cfg) t
    (after, [(q, answer)])

/-- The table after some mints, and their log. -/
def served (cfg : Config) (requests : List Request) : Library.Config Budgets (Request × Option Nat) :=
  (mints cfg).run ⟨.empty, []⟩ requests

/-- The charges that were taken in a window and name a key. -/
def takenFor (cfg : Config) (log : List (Request × Option Nat)) (key : String) (w : Int) : Nat :=
  log.countP (fun (q, answer) =>
    answer = none && (q.windowStart.toNat : Int) = w && (q.charges cfg).any (fun c => c.key = key))

/-- The charge answers with the first of its budgets that is spent, and changes no count. -/
structure RefusedFirst (cfg : Config) (t : Budgets) (q : Request) (i : Nat) : Prop where
  still : ∀ key w, count (charge q.windowStart (q.charges cfg) t).2 key w = count t key w
  spent : ∃ c, (q.charges cfg)[i]? = some c ∧ Spent t q.windowStart c
  first : ∀ j c, j < i → (q.charges cfg)[j]? = some c → ¬ Spent t q.windowStart c

/-- Every count is that of the charges taken, and none is above its bound. -/
structure Counted (cfg : Config) (c : Library.Config Budgets (Request × Option Nat)) : Prop where
  taken : ∀ key w, count c.state key w = takenFor cfg c.log key w
  bounded : ∀ identity source, ∀ b ∈ charges cfg identity source, ∀ w, count c.state b.key w ≤ b.cap.toNat

/-- The counts are kept, and a refusal anywhere in the run names a spent budget. -/
structure BudgetsKept (cfg : Config) (requests : List Request) : Prop where
  counted : Counted cfg (served cfg requests)
  refused : ∀ front q, front ++ [q] <+: requests → ∀ i,
    (charge q.windowStart (q.charges cfg) (served cfg front).state).1 = some i →
    RefusedFirst cfg (served cfg front).state q i

/-- A budget's kind is a letter of its key. -/
def capOf (cfg : Config) (key : String) : UInt64 :=
  match key.toList[5]? with
  | some 'i' => cfg.identityHour
  | some 's' => cfg.sourceHour
  | some 'p' => cfg.prefix48Hour
  | _ => cfg.totalHour

theorem cap_eq {cfg : Config} {identity : String} {source : Source} {c : Charge}
    (member : c ∈ charges cfg identity source) : c.cap = capOf cfg c.key := by
  unfold charges at member
  cases prefixed : source.prefix48 with
  | none =>
    simp only [prefixed, List.append_nil, List.cons_append, List.nil_append, List.mem_cons, List.not_mem_nil,
      or_false] at member
    rcases member with rfl | rfl | rfl <;> simp [capOf, String.toList_append]
  | some p48 =>
    simp only [prefixed, List.cons_append, List.nil_append, List.mem_cons, List.not_mem_nil, or_false] at member
    rcases member with rfl | rfl | rfl | rfl <;> simp [capOf, String.toList_append]

theorem charges_unique (cfg : Config) (identity : String) (source : Source) :
    ((charges cfg identity source).map Charge.key).Nodup := by
  apply List.Nodup.of_map (fun key : String => key.toList[5]?)
  unfold charges
  cases source.prefix48 <;> simp [String.toList_append]

theorem charge_cases {cfg : Config} {t : Budgets} {q : Request} (plain : Plain q.windowStart (q.charges cfg))
    (bounded : ∀ identity source, ∀ c ∈ charges cfg identity source, ∀ w, count t c.key w ≤ c.cap.toNat) :
    (∃ i, (charge q.windowStart (q.charges cfg) t).1 = some i ∧ RefusedFirst cfg t q i) ∨
    ((charge q.windowStart (q.charges cfg) t).1 = none ∧ (∀ c ∈ q.charges cfg, ¬ Spent t q.windowStart c) ∧
      ∀ key w, count (charge q.windowStart (q.charges cfg) t).2 key w =
        count t key w + if w = q.windowStart.toNat ∧ ∃ c ∈ q.charges cfg, c.key = key then 1 else 0) := by
  by_cases spent : ∃ c ∈ q.charges cfg, Spent t q.windowStart c
  · obtain ⟨answer, still⟩ := charge_refused plain (fun c member => bounded _ _ c member _) spent
    obtain ⟨c, member, full⟩ := spent
    have first := List.findIdx?_eq_some_of_exists
      (p := fun c => decide (Spent t q.windowStart c)) ⟨c, member, by simpa using full⟩
    obtain ⟨inside, holds, before⟩ := List.findIdx?_eq_some_iff_getElem.mp first
    refine .inl ⟨_, answer.trans first, still, ⟨_, List.getElem?_eq_getElem inside, by simpa using holds⟩, ?_⟩
    intro j other earlier found
    obtain ⟨small, rfl⟩ := List.getElem?_eq_some_iff.mp found
    simpa using before j earlier
  · obtain ⟨answer, counts⟩ := charge_taken plain (charges_unique ..) spent
    exact .inr ⟨answer, fun c member full => spent ⟨c, member, full⟩, counts⟩

/-- One mint keeps the counts. -/
theorem Counted.advance {cfg : Config} {c : Library.Config Budgets (Request × Option Nat)} {q : Request}
    (counted : Counted cfg c) (plain : Plain q.windowStart (q.charges cfg)) : Counted cfg ((mints cfg).advance c q) := by
  have log (key : String) (w : Int) : takenFor cfg ((mints cfg).advance c q).log key w = takenFor cfg c.log key w +
      if (charge q.windowStart (q.charges cfg) c.state).1 = none ∧ w = q.windowStart.toNat ∧
        ∃ b ∈ q.charges cfg, b.key = key then 1 else 0 := by
    rw [takenFor, Machine.advance, List.countP_append, takenFor]
    congr 1
    simp only [mints, List.countP_cons, List.countP_nil, zero_add, Bool.and_eq_true, decide_eq_true_eq,
      List.any_eq_true, and_assoc, @eq_comm _ w]
  rcases charge_cases plain counted.bounded with ⟨i, answer, refused⟩ | ⟨answer, spare, counts⟩
  · constructor
    · intro key w
      rw [log, if_neg (by simp [answer]), add_zero, ← counted.taken]
      exact refused.still key w
    · intro identity source b member w
      exact (refused.still b.key w).trans_le (counted.bounded identity source b member w)
  · constructor
    · intro key w
      rw [log, ← counted.taken]
      simp only [answer, true_and]
      exact counts key w
    · intro identity source b member w
      have now : count ((mints cfg).advance c q).state b.key w = _ := counts b.key w
      rw [now]
      split
      · rename_i named
        obtain ⟨rfl, other, inside, same⟩ := named
        have room := spare other inside
        have caps : other.cap = b.cap := by rw [cap_eq inside, cap_eq member, same]
        rw [Spent, same, caps] at room
        omega
      · exact counted.bounded identity source b member w

/-- In every run whose caps and windows are at most 2^53, the budgets are kept. -/
theorem budgets_kept (cfg : Config) (requests : List Request)
    (plain : ∀ q ∈ requests, Plain q.windowStart (q.charges cfg)) : BudgetsKept cfg requests := by
  have guarded (front : List Request) (part : front <+: requests) :
      (mints cfg).Guarded (fun _ q => Plain q.windowStart (q.charges cfg)) ⟨.empty, []⟩ front := by
    rw [Machine.guarded_iff_forall_step]
    intro before q shorter
    exact plain q ((shorter.trans part).mem (by simp))
  have start : Counted cfg ⟨.empty, []⟩ := ⟨fun key w => rfl, fun identity source b member w => Nat.zero_le _⟩
  have counted (front : List Request) (part : front <+: requests) : Counted cfg (served cfg front) :=
    (mints cfg).run_invariant (fun c q => Counted.advance) start (guarded front part)
  refine ⟨counted requests List.prefix_rfl, fun front q part i answered => ?_⟩
  have before := counted front ((List.prefix_append front [q]).trans part)
  rcases charge_cases (plain q (part.mem (by simp))) before.bounded with ⟨i', answer, refused⟩ | ⟨answer, -⟩
  · rw [answered, Option.some.injEq] at answer
    exact answer ▸ refused
  · rw [answered] at answer
    cases answer

/-- A mint from an IPv4 address. -/
def oneMint : Request := ⟨"02ab", ⟨"203.0.113.7", none⟩, 1793952000⟩

/-- The default bounds. -/
def defaultConfig : Config := ⟨6, 6, 24, 600⟩

theorem budgets_kept_default : BudgetsKept defaultConfig [oneMint, oneMint] :=
  budgets_kept defaultConfig [oneMint, oneMint] (by
    intro q member
    have same : q = oneMint := by simpa using member
    subst same
    exact ⟨by decide, by decide⟩)

/-- A bound of 2^63 reaches the guard as a negative number: the first mint is refused with nothing spent. -/
theorem huge_bound_refuses :
    (charge oneMint.windowStart (oneMint.charges ⟨9223372036854775808, 6, 24, 600⟩) .empty).1 = some 2 ∧
      ¬ BudgetsKept ⟨9223372036854775808, 6, 24, 600⟩ [oneMint] := by
  have refused : (charge oneMint.windowStart (oneMint.charges ⟨9223372036854775808, 6, 24, 600⟩) .empty).1 = some 2 := by
    decide +kernel
  refine ⟨refused, fun kept => ?_⟩
  obtain ⟨c, found, spent⟩ := (kept.refused [] oneMint List.prefix_rfl 2 refused).spent
  have total : c = ⟨"total", "turn:all", 600⟩ := (Option.some.inj found).symm
  subst total
  exact absurd spent (by decide)

end MessageRelay.Turn
