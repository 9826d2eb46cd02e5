import MessageRelay.Permissions.World

/-! The two readers of a recipient's permissions: `get_recipient_fee`, which asks twice and leaves a default behind,
and `read_send_context`, which asks once. They agree on every table. The upsert of a box-wide rule adds a row where
one is there already, so the last set wins exactly as long as no such row says otherwise. -/

namespace MessageRelay.Permissions
open MessageRelay.Library

/-- The first row a sender's query returns, and the first the box-wide one returns. -/
def senderRow (rows : List PermissionRow) (sender messageBox : String) : Option PermissionRow :=
  rows.find? (fun r => r.sender = some sender && r.messageBox = messageBox)

def boxRow (rows : List PermissionRow) (messageBox : String) : Option PermissionRow :=
  rows.find? (fun r => r.sender = none && r.messageBox = messageBox)

/-- The fee, and the table with the default row where neither query returned one. -/
def getRecipientFee (rows : List PermissionRow) (sender messageBox : String) : Int × List PermissionRow :=
  match senderRow rows sender messageBox with
  | some r => (r.recipientFee, rows)
  | none =>
    match boxRow rows messageBox with
    | some r => (r.recipientFee, rows)
    | none => (smartDefaultFee messageBox, rows ++ [⟨none, messageBox, smartDefaultFee messageBox⟩])

/-- The one query of the send path: `ORDER BY (sender IS NULL) ASC LIMIT 1`. -/
def readSendContext (rows : List PermissionRow) (sender messageBox : String) : Int :=
  let answered := rows.filter (fun r => r.messageBox = messageBox && (r.sender = some sender || r.sender = none))
  match (answered.insertionSort (fun a b => a.sender.isNone ≤ b.sender.isNone)).head? with
  | some r => r.recipientFee
  | none => smartDefaultFee messageBox

theorem getRecipientFee_fst (rows : List PermissionRow) (sender messageBox : String) :
    (getRecipientFee rows sender messageBox).1 = recipientFee rows sender messageBox := by
  unfold getRecipientFee recipientFee
  cases own : senderRow rows sender messageBox with
  | some r =>
    simp only [senderRow] at own
    rw [own]
  | none =>
    simp only [senderRow] at own
    rw [own]
    cases wide : boxRow rows messageBox with
    | some r =>
      simp only [boxRow] at wide
      rw [wide]
    | none =>
      simp only [boxRow] at wide
      rw [wide]

/-- The first of rows sorted by a flag is the first without the flag, or the first of all. -/
theorem head?_insertionSort (flag : PermissionRow → Bool) (rows : List PermissionRow) :
    (rows.insertionSort (fun a b => flag a ≤ flag b)).head? = (rows.find? (fun r => !flag r)).or rows.head? := by
  induction rows with
  | nil => rfl
  | cons row rest ih =>
    have inserted (sorted : List PermissionRow) :
        (sorted.orderedInsert (fun a b => flag a ≤ flag b) row).head? =
          if flag row then (sorted.head?.filter (fun r => !flag r)).or (some row) else some row := by
      cases sorted with
      | nil => simp
      | cons first later =>
        rw [List.orderedInsert_cons]
        cases marked : flag row <;> cases firstMarked : flag first <;> simp [Option.filter, firstMarked, show ¬ (true ≤ false) by decide]
    rw [List.insertionSort_cons, inserted, ih, List.find?_cons]
    cases marked : flag row with
    | false => rfl
    | true =>
      cases found : rest.find? (fun r => !flag r) with
      | some r =>
        have unmarked := List.find?_some found
        simp only [Bool.not_eq_true'] at unmarked
        simp [Option.filter, unmarked]
      | none =>
        cases rest with
        | nil => rfl
        | cons first later =>
          have firstMarked := List.find?_eq_none.mp found first List.mem_cons_self
          simp only [Bool.not_eq_true', Bool.not_eq_false] at firstMarked
          simp [Option.filter, firstMarked]

theorem readSendContext_eq (rows : List PermissionRow) (sender messageBox : String) :
    readSendContext rows sender messageBox = recipientFee rows sender messageBox := by
  have own : (fun r : PermissionRow => decide
      ((r.messageBox = messageBox && (r.sender = some sender || r.sender = none)) = true ∧
        (!r.sender.isNone) = true)) = fun r => r.sender = some sender && r.messageBox = messageBox := by
    funext r
    cases r.sender <;> simp [Bool.and_comm]
  unfold readSendContext recipientFee
  simp only
  rw [head?_insertionSort (fun r => r.sender.isNone), List.find?_filter, List.head?_filter, own]
  cases found : rows.find? (fun r => r.sender = some sender && r.messageBox = messageBox) with
  | some r => rfl
  | none =>
    have wide : rows.find? (fun r => r.messageBox = messageBox && (r.sender = some sender || r.sender = none)) =
        rows.find? (fun r => r.sender = none && r.messageBox = messageBox) := by
      apply List.find?_congr
      intro r member
      have other := List.find?_eq_none.mp found r member
      simp only [Bool.and_eq_true, decide_eq_true_eq, not_and] at other
      by_cases sent : r.sender = some sender
      · simp [sent, other sent]
      · simp [sent, Bool.and_comm]
    rw [wide]
    rfl

/-! What a set and the default row do to the first row of a query. -/

theorem senderRow_append_box (rows : List PermissionRow) (messageBox : String) (fee : Int) (sender box : String) :
    senderRow (rows ++ [⟨none, messageBox, fee⟩]) sender box = senderRow rows sender box := by
  simp [senderRow, List.find?_append]

theorem boxRow_append_box (rows : List PermissionRow) (messageBox : String) (fee : Int) (box : String) :
    boxRow (rows ++ [⟨none, messageBox, fee⟩]) box =
      (boxRow rows box).or (if messageBox = box then some ⟨none, messageBox, fee⟩ else none) := by
  by_cases same : messageBox = box <;> simp [boxRow, List.find?_append, same]

theorem setPermission_box (rows : List PermissionRow) (messageBox : String) (fee : Int) :
    setPermission rows none messageBox fee = rows ++ [⟨none, messageBox, fee⟩] := by
  simp [setPermission]

/-- The upsert of a sender's row. -/
theorem setPermission_sender (rows : List PermissionRow) (sender messageBox : String) (fee : Int) :
    setPermission rows (some sender) messageBox fee =
      match senderRow rows sender messageBox with
      | some _ => rows.map (fun r =>
          if r.sender = some sender ∧ r.messageBox = messageBox then { r with recipientFee := fee } else r)
      | none => rows ++ [⟨some sender, messageBox, fee⟩] := by
  unfold setPermission senderRow
  cases found : rows.find? (fun r => r.sender = some sender && r.messageBox = messageBox) with
  | some r =>
    have named := List.find?_some found
    have any : rows.any (fun r => r.sender = some sender && r.messageBox = messageBox) = true :=
      List.any_eq_true.mpr ⟨r, List.mem_of_find?_eq_some found, named⟩
    simp [any]
  | none =>
    have any : rows.any (fun r => r.sender = some sender && r.messageBox = messageBox) = false :=
      List.any_eq_false.mpr (List.find?_eq_none.mp found)
    simp [any]

/-- A change of fees alone is no change of which row a query returns. -/
theorem find?_map_fee {p : PermissionRow → Bool} (g : PermissionRow → PermissionRow) (same : ∀ r, p (g r) = p r)
    (rows : List PermissionRow) : (rows.map g).find? p = (rows.find? p).map g := by
  rw [List.find?_map]
  congr 2
  funext r
  exact same r

theorem senderRow_setPermission (rows : List PermissionRow) (sender messageBox : String) (fee : Int)
    (sender' box : String) :
    senderRow (setPermission rows (some sender) messageBox fee) sender' box =
      if sender = sender' ∧ messageBox = box then some ⟨some sender, messageBox, fee⟩
      else senderRow rows sender' box := by
  rw [setPermission_sender]
  cases found : senderRow rows sender messageBox with
  | none =>
    by_cases own : sender = sender' ∧ messageBox = box
    · obtain ⟨rfl, rfl⟩ := own
      unfold senderRow at found
      simp [senderRow, List.find?_append, found]
    · rw [if_neg own]
      simp [senderRow, List.find?_append, own]
  | some r =>
    have kept := find?_map_fee (p := fun r => r.sender = some sender' && r.messageBox = box)
      (fun r => if r.sender = some sender ∧ r.messageBox = messageBox then { r with recipientFee := fee } else r)
      (fun r => by split <;> rfl) rows
    unfold senderRow at found ⊢
    rw [kept]
    by_cases own : sender = sender' ∧ messageBox = box
    · obtain ⟨rfl, rfl⟩ := own
      have named := List.find?_some found
      simp only [Bool.and_eq_true, decide_eq_true_eq] at named
      rw [found, if_pos ⟨rfl, rfl⟩, Option.map_some, if_pos named, ← named.1, ← named.2]
    · rw [if_neg own]
      cases other : rows.find? (fun r => r.sender = some sender' && r.messageBox = box) with
      | none => rfl
      | some r' =>
        have named := List.find?_some other
        simp only [Bool.and_eq_true, decide_eq_true_eq] at named
        rw [Option.map_some, if_neg]
        rintro ⟨sent, boxed⟩
        exact own ⟨Option.some.inj (sent.symm.trans named.1), boxed.symm.trans named.2⟩

theorem boxRow_setPermission (rows : List PermissionRow) (sender messageBox : String) (fee : Int) (box : String) :
    boxRow (setPermission rows (some sender) messageBox fee) box = boxRow rows box := by
  rw [setPermission_sender]
  cases found : senderRow rows sender messageBox with
  | none => simp [boxRow, List.find?_append]
  | some r =>
    unfold boxRow
    simp only
    rw [find?_map_fee _ (fun r => by split <;> rfl)]
    cases wide : rows.find? (fun r => r.sender = none && r.messageBox = box) with
    | none => rfl
    | some r' =>
      have named := List.find?_some wide
      simp only [Bool.and_eq_true, decide_eq_true_eq] at named
      simp [named.1]

/-- The default row comes only where the box has none. -/
theorem boxRow_getRecipientFee (rows : List PermissionRow) (sender messageBox box : String) :
    boxRow (getRecipientFee rows sender messageBox).2 box = boxRow rows box ∨ boxRow rows box = none := by
  unfold getRecipientFee
  split
  · exact .inl rfl
  · split
    · exact .inl rfl
    · rename_i missing
      by_cases same : messageBox = box
      · exact .inr (same ▸ missing)
      · left
        rw [boxRow_append_box, if_neg same, Option.or_none]

theorem senderRow_getRecipientFee (rows : List PermissionRow) (sender messageBox sender' box : String) :
    senderRow (getRecipientFee rows sender messageBox).2 sender' box = senderRow rows sender' box := by
  unfold getRecipientFee
  split
  · rfl
  · split
    · rfl
    · exact senderRow_append_box ..

namespace Readers

inductive Call where
  | setPermission (sender : Option String) (messageBox : String) (fee : Int)
  | getRecipientFee (sender messageBox : String)
  | readSendContext (sender messageBox : String)
  deriving DecidableEq, Repr

inductive Event where
  | set (sender : Option String) (messageBox : String) (fee : Int)
  | got (sender messageBox : String) (fee : Int)
  | read (sender messageBox : String) (fee : Int)
  deriving DecidableEq, Repr

/-- One call on the recipient's rows. -/
def step (rows : List PermissionRow) : Call → List PermissionRow × List Event
  | .setPermission sender messageBox fee =>
    (setPermission rows sender messageBox fee, [.set sender messageBox fee])
  | .getRecipientFee sender messageBox =>
    let (fee, rows) := getRecipientFee rows sender messageBox
    (rows, [.got sender messageBox fee])
  | .readSendContext sender messageBox =>
    (rows, [.read sender messageBox (readSendContext rows sender messageBox)])

def machine : Machine (List PermissionRow) Call Event := ⟨step⟩

abbrev RowsConfig := Config (List PermissionRow) Event

/-- The fee of the last set of a sender, or of the box. -/
def lastSet (log : List Event) (sender : Option String) (messageBox : String) : Option Int :=
  log.foldl (fun last event => match event with
    | .set sender' messageBox' fee => if sender' = sender ∧ messageBox' = messageBox then some fee else last
    | _ => last) none

/-- The readers agree, the last set of a sender is that sender's fee, and the box's last set is the fee of every sender
without a row of its own. -/
def LastSetWins (c : RowsConfig) : Prop :=
  ∀ sender messageBox,
    (getRecipientFee c.state sender messageBox).1 = readSendContext c.state sender messageBox ∧
      (∀ fee, lastSet c.log (some sender) messageBox = some fee →
        (getRecipientFee c.state sender messageBox).1 = fee) ∧
      (∀ fee, lastSet c.log none messageBox = some fee → senderRow c.state sender messageBox = none →
        (getRecipientFee c.state sender messageBox).1 = fee)

/-- The condition on one call. A box-wide set finds no box-wide row, or one that says the same already. -/
def Unopposed (c : RowsConfig) : Call → Prop
  | .setPermission none messageBox fee => ∀ r, boxRow c.state messageBox = some r → r.recipientFee = fee
  | _ => True

/-- What every run keeps: a sender's last set is in its first row, and a box that was set has a row. -/
structure Rowed (c : RowsConfig) : Prop where
  own : ∀ sender messageBox fee, lastSet c.log (some sender) messageBox = some fee →
    ∃ r, senderRow c.state sender messageBox = some r ∧ r.recipientFee = fee
  wide : ∀ messageBox fee, lastSet c.log none messageBox = some fee → boxRow c.state messageBox ≠ none

/-- What the box's last set is read as: the fee of the box's first row. -/
def WideWins (c : RowsConfig) : Prop :=
  ∀ messageBox fee, lastSet c.log none messageBox = some fee →
    ∀ r, boxRow c.state messageBox = some r → r.recipientFee = fee

theorem lastSet_set (log : List Event) (sender : Option String) (messageBox : String) (fee : Int)
    (sender' : Option String) (box : String) :
    lastSet (log ++ [.set sender messageBox fee]) sender' box =
      if sender = sender' ∧ messageBox = box then some fee else lastSet log sender' box := by
  simp [lastSet, List.foldl_append]

theorem lastSet_got (log : List Event) (sender messageBox : String) (fee : Int) (sender' : Option String)
    (box : String) : lastSet (log ++ [.got sender messageBox fee]) sender' box = lastSet log sender' box := by
  simp [lastSet, List.foldl_append]

theorem lastSet_read (log : List Event) (sender messageBox : String) (fee : Int) (sender' : Option String)
    (box : String) : lastSet (log ++ [.read sender messageBox fee]) sender' box = lastSet log sender' box := by
  simp [lastSet, List.foldl_append]

theorem rowed_start (rows : List PermissionRow) : Rowed ⟨rows, []⟩ :=
  ⟨fun _ _ _ last => (nomatch last), fun _ _ last => (nomatch last)⟩

theorem rowed_advance {c : RowsConfig} (rowed : Rowed c) (call : Call) : Rowed (machine.advance c call) := by
  obtain ⟨own, wide⟩ := rowed
  cases call with
  | setPermission sender messageBox fee =>
    constructor
    · intro sender' box fee' last
      simp only [Machine.advance, machine, step, lastSet_set] at last ⊢
      cases sender with
      | none =>
        rw [if_neg (by simp)] at last
        rw [setPermission_box, senderRow_append_box]
        exact own _ _ _ last
      | some sender =>
        rw [senderRow_setPermission]
        by_cases same : sender = sender' ∧ messageBox = box
        · rw [if_pos (by simpa using same)] at last
          rw [if_pos same]
          exact ⟨_, rfl, Option.some.inj last⟩
        · rw [if_neg (by simpa using same)] at last
          rw [if_neg same]
          exact own _ _ _ last
    · intro box fee' last
      simp only [Machine.advance, machine, step, lastSet_set] at last ⊢
      cases sender with
      | none =>
        rw [setPermission_box, boxRow_append_box]
        by_cases same : messageBox = box
        · cases boxRow c.state box <;> simp [same]
        · rw [if_neg (by simpa using same)] at last
          rw [if_neg same, Option.or_none]
          exact wide _ _ last
      | some sender =>
        rw [if_neg (by simp)] at last
        rw [boxRow_setPermission]
        exact wide _ _ last
  | getRecipientFee sender messageBox =>
    constructor
    · intro sender' box fee' last
      simp only [Machine.advance, machine, step, lastSet_got] at last ⊢
      rw [senderRow_getRecipientFee]
      exact own _ _ _ last
    · intro box fee' last
      simp only [Machine.advance, machine, step, lastSet_got] at last ⊢
      rcases boxRow_getRecipientFee c.state sender messageBox box with same | missing
      · rw [same]
        exact wide _ _ last
      · exact absurd missing (wide _ _ last)
  | readSendContext sender messageBox =>
    constructor
    · intro sender' box fee' last
      simp only [Machine.advance, machine, step, lastSet_read] at last ⊢
      exact own _ _ _ last
    · intro box fee' last
      simp only [Machine.advance, machine, step, lastSet_read] at last ⊢
      exact wide _ _ last

theorem rowed_run (rows : List PermissionRow) (calls : List Call) : Rowed (machine.run ⟨rows, []⟩ calls) := by
  induction calls using List.reverseRecOn with
  | nil => exact rowed_start rows
  | append_singleton front call ih =>
    rw [Machine.run_append]
    exact rowed_advance ih call

/-- Some sender has no row of its own. -/
theorem exists_stranger (rows : List PermissionRow) (messageBox : String) :
    ∃ sender, senderRow rows sender messageBox = none := by
  have many : Infinite String := Infinite.of_injective (fun n : Nat => String.ofList (List.replicate n 'a'))
    (fun a b same => by simpa using congrArg String.length same)
  obtain ⟨sender, fresh⟩ := Infinite.exists_notMem_finset (rows.filterMap (·.sender)).toFinset
  refine ⟨sender, List.find?_eq_none.mpr ?_⟩
  intro r member
  simp only [Bool.and_eq_true, decide_eq_true_eq, not_and]
  intro sent
  exact absurd (List.mem_toFinset.mpr (List.mem_filterMap.mpr ⟨r, member, sent⟩)) fresh

theorem lastSetWins_iff {c : RowsConfig} (rowed : Rowed c) : LastSetWins c ↔ WideWins c := by
  constructor
  · intro wins messageBox fee last r first
    obtain ⟨sender, stranger⟩ := exists_stranger c.state messageBox
    have given := (wins sender messageBox).2.2 fee last stranger
    simpa only [getRecipientFee, stranger, first] using given
  · intro wide sender messageBox
    refine ⟨?_, ?_, ?_⟩
    · rw [getRecipientFee_fst, readSendContext_eq]
    · intro fee last
      obtain ⟨r, first, is⟩ := rowed.own _ _ _ last
      simpa only [getRecipientFee, first] using is
    · intro fee last stranger
      obtain ⟨r, first⟩ := Option.ne_none_iff_exists'.mp (rowed.wide _ _ last)
      simpa only [getRecipientFee, stranger, first] using wide _ _ last r first

theorem wideWins_advance {c : RowsConfig} (rowed : Rowed c) (wins : WideWins c) (call : Call) :
    WideWins (machine.advance c call) ↔ Unopposed c call := by
  cases call with
  | setPermission sender messageBox fee =>
    cases sender with
    | some sender =>
      refine ⟨fun _ => trivial, fun _ box fee' last r first => ?_⟩
      simp only [Machine.advance, machine, step, lastSet_set, boxRow_setPermission] at last first
      rw [if_neg (by simp)] at last
      exact wins _ _ last r first
    | none =>
      simp only [WideWins, Unopposed, Machine.advance, machine, step, lastSet_set, setPermission_box,
        boxRow_append_box]
      constructor
      · intro after r first
        exact after messageBox fee (by simp) r (by simp [first])
      · intro agreed box fee' last r first
        by_cases same : messageBox = box
        · subst same
          rw [if_pos (by simp)] at last
          rw [if_pos rfl] at first
          cases last
          cases before : boxRow c.state messageBox with
          | none =>
            rw [before] at first
            cases first
            rfl
          | some r' =>
            rw [before] at first
            cases first
            exact agreed r before
        · rw [if_neg (by simpa using same)] at last
          rw [if_neg same, Option.or_none] at first
          exact wins _ _ last r first
  | getRecipientFee sender messageBox =>
    refine ⟨fun _ => trivial, fun _ box fee' last r first => ?_⟩
    simp only [Machine.advance, machine, step, lastSet_got] at last first
    rcases boxRow_getRecipientFee c.state sender messageBox box with same | missing
    · exact wins _ _ last r (same ▸ first)
    · exact absurd missing (rowed.wide _ _ last)
  | readSendContext sender messageBox =>
    refine ⟨fun _ => trivial, fun _ box fee' last r first => ?_⟩
    simp only [Machine.advance, machine, step, lastSet_read] at last first
    exact wins _ _ last r first

/-- The last set wins for both readers after every call of a sequence exactly when no box-wide set of it meets a
box-wide row of another fee. -/
theorem last_set_wins (rows : List PermissionRow) (calls : List Call) :
    (∀ front, front <+: calls → LastSetWins (machine.run ⟨rows, []⟩ front)) ↔
      machine.Guarded Unopposed ⟨rows, []⟩ calls := by
  have start : Rowed ⟨rows, []⟩ ∧ WideWins ⟨rows, []⟩ := ⟨rowed_start rows, fun _ _ last => nomatch last⟩
  have step (c : RowsConfig) (call : Call) (both : Rowed c ∧ WideWins c) :
      (Rowed (machine.advance c call) ∧ WideWins (machine.advance c call)) ↔ Unopposed c call := by
    rw [← wideWins_advance both.1 both.2 call]
    exact ⟨And.right, fun wide => ⟨rowed_advance both.1 call, wide⟩⟩
  rw [machine.guarded_iff_forall_prefix step start]
  constructor
  · intro all front part
    exact ⟨rowed_run rows front, (lastSetWins_iff (rowed_run rows front)).mp (all front part)⟩
  · intro all front part
    exact (lastSetWins_iff (rowed_run rows front)).mpr (all front part).2

/-- A box opened to all and then closed to all stays open: the second rule is a second row. -/
theorem closed_box_stays_open :
    ¬ LastSetWins (machine.run ⟨[], []⟩ [.setPermission none "inbox" 0, .setPermission none "inbox" (-1)]) := by
  intro wins
  have given := (wins "stranger" "inbox").2.2 (-1) (by decide) (by decide)
  exact absurd given (by decide)

end Readers

end MessageRelay.Permissions
