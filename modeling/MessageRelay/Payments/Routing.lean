import MessageRelay.Send.Live

/-! The outputs of a payment, routed to the recipients whose fee they pay: those an output's custom instructions name,
then the rest of the outputs in order. An output is a reference into the payment's list, read by `deref`. -/

namespace MessageRelay.Payments
open MessageRelay.Library MessageRelay.Session MessageRelay.Send

/-- An integer without sign, fraction or exponent, inside u64. -/
def asU64 : Value → Option Nat
  | .number text =>
    let n := text.toList.foldl (fun n c => 10 * n + (c.toNat - 48)) 0
    if text ≠ "" ∧ text.toList.all Char.isDigit ∧ n < 2 ^ 64 then some n else none
  | _ => none

def outputIndex (out : Value) : Option Nat := (out.get "outputIndex").bind asU64

def customInstructions (out : Value) : Option Value :=
  (((out.get "insertionRemittance").bind (fun r => r.get "customInstructions")).or
    ((out.get "paymentRemittance").bind (fun r => r.get "customInstructions"))).or
    (out.get "customInstructions")

def recipientIdentityKey (v : Value) : Option String := (v.get "recipientIdentityKey").bind Value.asStr

section
variable (parse : String → Option Value)

/-- The recipient an output's instructions name, as an object or as its JSON text. A blank name is none. -/
def recipientTag (out : Value) : Option String :=
  let key := match customInstructions out with
    | some (.string s) => (parse s).bind recipientIdentityKey
    | some (.object fields) => recipientIdentityKey (.object fields)
    | _ => none
  key.filter (fun k => !k.toList.all whiteSpace)

variable {Ref : Type} (deref : Ref → Value)

/-- Lists of outputs by recipient. -/
abbrev Routes (Ref : Type) := Table (Prod.fst : String × List Ref → String)

structure Tagging (Ref : Type) where
  byKey : Routes Ref
  usedIndices : Finset Nat

/-- The pass over the outputs that looks for names. -/
def tagOutput (t : Tagging Ref) (out : Ref) : Tagging Ref :=
  match recipientTag parse (deref out) with
  | none => t
  | some k =>
    let tagged := ((t.byKey.find? k).map Prod.snd).getD []
    { byKey := t.byKey.upsert (k, tagged ++ [out])
      usedIndices := match outputIndex (deref out) with
        | some i => insert i t.usedIndices
        | none => t.usedIndices }

def tagOutputs (outputs : List Ref) : Tagging Ref := outputs.foldl (tagOutput parse deref) ⟨.empty, ∅⟩

/-- One output each. -/
def assign (result : Routes Ref) (pairs : List (String × Ref)) : Routes Ref :=
  pairs.foldl (fun result pair => result.upsert (pair.1, [pair.2])) result

def assignTagged (byKey : Routes Ref) (feeRecipients : List String) : Routes Ref :=
  feeRecipients.foldl (fun result r =>
    match byKey.find? r with
    | some tagged => result.upsert (r, tagged.2)
    | none => result) .empty

def insufficientOutputs (expected received : Nat) : Answer :=
  errorAnswer "ERR_INSUFFICIENT_OUTPUTS"
    s!"Expected at least {expected} recipient output(s) but received {received}" 400

def insufficientRemaining (expected remain : Nat) : Answer :=
  errorAnswer "ERR_INSUFFICIENT_OUTPUTS"
    s!"Expected at least {expected} additional recipient output(s) but only {remain} remain" 400

def missingRecipientOutputs (r : String) : Answer :=
  errorAnswer "ERR_MISSING_RECIPIENT_OUTPUTS" s!"Recipient fee required but no outputs were provided for {r}" 400

/-- Every recipient has a list. -/
def checkCovered (result : Routes Ref) : List String → Except Answer (Routes Ref)
  | [] => .ok result
  | r :: rest => if (result.find? r).isNone then .error (missingRecipientOutputs r) else checkCovered result rest

/-- The outputs whose index no named output has. One without an index counts. -/
def unused (usedIndices : Finset Nat) (out : Ref) : Bool :=
  match outputIndex (deref out) with
  | some i => i ∉ usedIndices
  | none => true

def routeOutputsToRecipients (outputs : List Ref) (feeRecipients : List String) : Except Answer (Routes Ref) :=
  let tagging := tagOutputs parse deref outputs
  if tagging.byKey.rows.isEmpty then
    if outputs.length < feeRecipients.length then .error (insufficientOutputs feeRecipients.length outputs.length)
    else .ok (assign .empty (feeRecipients.zip outputs))
  else
    let result := assignTagged tagging.byKey feeRecipients
    let unmapped := feeRecipients.filter (fun r => (result.find? r).isNone)
    if unmapped.isEmpty then checkCovered result feeRecipients
    else
      let remaining := outputs.filter (unused deref tagging.usedIndices)
      if remaining.length < unmapped.length then
        .error (insufficientRemaining unmapped.length remaining.length)
      else checkCovered (assign result (unmapped.zip remaining)) feeRecipients

/-! The references carry the values through: routing the values is routing the references and reading them. -/

/-- The lists of references, read. -/
def Routes.read (t : Routes Ref) : Routes Value where
  rows := t.rows.map (fun row => (row.1, row.2.map deref))
  unique := by
    rw [List.map_map]
    exact t.unique

variable {deref} in
theorem Routes.ext {t t' : Routes Ref} (same : t.rows = t'.rows) : t = t' := by
  cases t
  cases t'
  cases same
  rfl

theorem find?_read (t : Routes Ref) (r : String) :
    (t.read deref).find? r = (t.find? r).map (fun row => (row.1, row.2.map deref)) := by
  simp only [Table.find?, Routes.read, List.find?_map]
  rfl

theorem upsert_read (t : Routes Ref) (r : String) (refs : List Ref) :
    Routes.read deref (t.upsert (r, refs)) = (t.read deref).upsert (r, refs.map deref) := by
  apply Routes.ext
  simp only [Routes.read, Table.rows_upsert, List.map_append, List.filter_map, List.map_cons, List.map_nil]
  rfl

theorem tagOutputs_read (outputs : List Ref) :
    tagOutputs parse id (outputs.map deref) =
      ⟨(tagOutputs parse deref outputs).byKey.read deref, (tagOutputs parse deref outputs).usedIndices⟩ := by
  induction outputs using List.reverseRecOn with
  | nil => rfl
  | append_singleton front out ih =>
    simp only [tagOutputs, List.map_append, List.map_cons, List.map_nil, List.foldl_append, List.foldl_cons,
      List.foldl_nil] at ih ⊢
    rw [ih, tagOutput, tagOutput]
    simp only [id_eq]
    cases recipientTag parse (deref out) with
    | none => rfl
    | some k =>
      simp only [find?_read, upsert_read, List.map_append, List.map_cons, List.map_nil]
      cases (List.foldl (tagOutput parse deref) ⟨.empty, ∅⟩ front).byKey.find? k <;> rfl

theorem assign_read (result : Routes Ref) (rs : List String) (outs : List Ref) :
    assign (result.read deref) (rs.zip (outs.map deref)) = (assign result (rs.zip outs)).read deref := by
  induction rs generalizing result outs with
  | nil => rfl
  | cons r rest ih =>
    cases outs with
    | nil => rfl
    | cons out outs =>
      have step := ih (result.upsert (r, [out])) outs
      rw [upsert_read] at step
      exact step

theorem assignTagged_read (byKey : Routes Ref) (feeRecipients : List String) :
    assignTagged (byKey.read deref) feeRecipients = (assignTagged byKey feeRecipients).read deref := by
  induction feeRecipients using List.reverseRecOn with
  | nil => rfl
  | append_singleton front r ih =>
    simp only [assignTagged, List.foldl_append, List.foldl_cons, List.foldl_nil, find?_read] at ih ⊢
    rw [ih]
    cases byKey.find? r with
    | none => rfl
    | some row => exact (upsert_read deref _ r row.2).symm

theorem checkCovered_read (result : Routes Ref) (feeRecipients : List String) :
    checkCovered (result.read deref) feeRecipients =
      (checkCovered result feeRecipients).map (Routes.read deref) := by
  induction feeRecipients with
  | nil => rfl
  | cons r rest ih =>
    simp only [checkCovered, find?_read, Option.isNone_map, ih]
    split <;> rfl

theorem routeOutputsToRecipients_read (outputs : List Ref) (feeRecipients : List String) :
    routeOutputsToRecipients parse id (outputs.map deref) feeRecipients =
      (routeOutputsToRecipients parse deref outputs feeRecipients).map (Routes.read deref) := by
  unfold routeOutputsToRecipients
  simp only [tagOutputs_read, assignTagged_read, find?_read, Option.isNone_map, List.length_map, List.filter_map,
    checkCovered_read, assign_read]
  have empty : (tagOutputs parse deref outputs).byKey.rows.isEmpty =
      ((tagOutputs parse deref outputs).byKey.read deref).rows.isEmpty := by
    simp [Routes.read]
  rw [← empty]
  split
  · split
    · rfl
    · exact congrArg Except.ok (assign_read deref .empty feeRecipients outputs)
  · split
    · rfl
    · change (if (outputs.filter (unused deref _)).length < _ then _ else _) = _
      split <;> rfl

/-! What the pass over the outputs comes to. -/

/-- The outputs that name a recipient. -/
def taggedFor (outputs : List Ref) (r : String) : List Ref :=
  outputs.filter (fun out => recipientTag parse (deref out) = some r)

theorem tagOutputs_snoc (outputs : List Ref) (out : Ref) :
    tagOutputs parse deref (outputs ++ [out]) = tagOutput parse deref (tagOutputs parse deref outputs) out := by
  simp [tagOutputs, List.foldl_append]

theorem taggedFor_snoc (outputs : List Ref) (out : Ref) (r : String) :
    taggedFor parse deref (outputs ++ [out]) r =
      taggedFor parse deref outputs r ++ if recipientTag parse (deref out) = some r then [out] else [] := by
  rw [taggedFor, List.filter_append]
  congr 1
  by_cases named : recipientTag parse (deref out) = some r <;> simp [named]

theorem find?_tagOutputs (outputs : List Ref) (r : String) :
    (tagOutputs parse deref outputs).byKey.find? r =
      if taggedFor parse deref outputs r = [] then none else some (r, taggedFor parse deref outputs r) := by
  induction outputs using List.reverseRecOn with
  | nil => rfl
  | append_singleton front out ih =>
    rw [tagOutputs_snoc, taggedFor_snoc, tagOutput]
    cases named : recipientTag parse (deref out) with
    | none => simpa using ih
    | some k =>
      simp only [Table.find?_upsert]
      by_cases same : k = r
      · subst same
        rw [ih]
        by_cases first : taggedFor parse deref front k = [] <;> simp [first]
      · simp [same, ih]

theorem mem_usedIndices (outputs : List Ref) (i : Nat) :
    i ∈ (tagOutputs parse deref outputs).usedIndices ↔
      ∃ out ∈ outputs, (recipientTag parse (deref out)).isSome ∧ outputIndex (deref out) = some i := by
  induction outputs using List.reverseRecOn with
  | nil => simp [tagOutputs]
  | append_singleton front out ih =>
    rw [tagOutputs_snoc, tagOutput]
    simp only [List.mem_append, List.mem_singleton, or_and_right, exists_or, exists_eq_left, ← ih]
    cases named : recipientTag parse (deref out) with
    | none => simp
    | some k =>
      cases indexed : outputIndex (deref out) with
      | none => simp
      | some j => simp [or_comm, eq_comm]

theorem rows_tagOutputs (outputs : List Ref) :
    (tagOutputs parse deref outputs).byKey.rows.isEmpty ↔
      ∀ out ∈ outputs, recipientTag parse (deref out) = none := by
  induction outputs using List.reverseRecOn with
  | nil => simp [tagOutputs, Table.empty]
  | append_singleton front out ih =>
    rw [tagOutputs_snoc, tagOutput]
    cases named : recipientTag parse (deref out) with
    | none => simpa [named, or_imp, forall_and] using ih
    | some k => simp [Table.rows_upsert, named]

/-! The lists of the recipients. -/

variable {parse deref}

theorem find?_assign {pairs : List (String × Ref)} (unique : (pairs.map Prod.fst).Nodup) (result : Routes Ref)
    (r : String) :
    (assign result pairs).find? r =
      match pairs.find? (fun pair => pair.1 = r) with
      | some pair => some (r, [pair.2])
      | none => result.find? r := by
  induction pairs generalizing result with
  | nil => rfl
  | cons pair rest ih =>
    obtain ⟨other, out⟩ := pair
    rw [List.map_cons, List.nodup_cons] at unique
    change (assign (result.upsert (other, [out])) rest).find? r = _
    rw [ih unique.2, Table.find?_upsert]
    by_cases same : other = r
    · subst same
      have absent : rest.find? (fun pair => decide (pair.1 = other)) = none := by
        rw [List.find?_eq_none]
        intro pair member
        simp only [decide_eq_true_eq]
        intro again
        exact unique.1 (List.mem_map.mpr ⟨pair, member, again⟩)
      simp [absent]
    · simp [same]

theorem find?_assignTagged (byKey : Routes Ref) (feeRecipients : List String) (r : String) :
    (assignTagged byKey feeRecipients).find? r = if r ∈ feeRecipients then byKey.find? r else none := by
  induction feeRecipients using List.reverseRecOn with
  | nil => rfl
  | append_singleton front other ih =>
    have step : assignTagged byKey (front ++ [other]) = match byKey.find? other with
        | some tagged => (assignTagged byKey front).upsert (other, tagged.2)
        | none => assignTagged byKey front := by
      simp [assignTagged, List.foldl_append]
    rw [step]
    by_cases same : r = other
    · subst same
      cases found : byKey.find? r with
      | none => simp [ih, found]
      | some tagged =>
        have key : tagged.1 = r := Table.key_of_find? found
        simp [Table.find?_upsert, ← key]
    · cases found : byKey.find? other with
      | none => simp [ih, same]
      | some tagged => simp [Table.find?_upsert, ih, same, Ne.symm same]

theorem checkCovered_eq {result : Routes Ref} {feeRecipients : List String}
    (covered : ∀ r ∈ feeRecipients, (result.find? r).isSome) : checkCovered result feeRecipients = .ok result := by
  induction feeRecipients with
  | nil => rfl
  | cons r rest ih =>
    have present := covered r (List.mem_cons_self ..)
    rw [checkCovered, if_neg (by simpa [Option.isSome_iff_ne_none] using present)]
    exact ih (fun other member => covered other (List.mem_cons_of_mem _ member))

variable (parse deref)

/-- The recipients no output names. -/
def unclaimed (outputs : List Ref) (feeRecipients : List String) : List String :=
  feeRecipients.filter (fun r => (taggedFor parse deref outputs r).isEmpty)

/-- No named output has the output's index. -/
def available (outputs : List Ref) (out : Ref) : Bool :=
  (outputIndex (deref out)).all (fun i =>
    outputs.all (fun other => recipientTag parse (deref other) = none || outputIndex (deref other) ≠ some i))

theorem unused_eq (outputs : List Ref) (out : Ref) :
    unused deref (tagOutputs parse deref outputs).usedIndices out = available parse deref outputs out := by
  unfold unused available
  cases indexed : outputIndex (deref out) with
  | none => rfl
  | some i =>
    rw [Option.all_some, Bool.eq_iff_iff, decide_eq_true_iff, mem_usedIndices, List.all_eq_true]
    constructor
    · intro fresh other member
      cases named : recipientTag parse (deref other) with
      | none => simp
      | some k =>
        have different : outputIndex (deref other) ≠ some i := fun same => fresh ⟨other, member, by simp [named], same⟩
        simp [different]
    · rintro fresh ⟨other, member, named, same⟩
      have := fresh other member
      simp [same, Option.isSome_iff_ne_none.mp named] at this

/-- The unclaimed recipients, each with the output that is dealt to it. -/
def dealt (outputs : List Ref) (feeRecipients : List String) : List (String × Ref) :=
  (unclaimed parse deref outputs feeRecipients).zip (outputs.filter (available parse deref outputs))

/-- What a recipient is given: the outputs that name it, or the one dealt to it. -/
def routeOf (outputs : List Ref) (feeRecipients : List String) (r : String) : Option (String × List Ref) :=
  if taggedFor parse deref outputs r = [] then
    ((dealt parse deref outputs feeRecipients).find? (fun pair => pair.1 = r)).map (fun pair => (r, [pair.2]))
  else some (r, taggedFor parse deref outputs r)

variable {parse deref}

theorem nodup_fst_zip {rs : List String} {outs : List Ref} (unique : rs.Nodup) (enough : rs.length ≤ outs.length) :
    ((rs.zip outs).map Prod.fst).Nodup := by
  rw [List.map_fst_zip enough]
  exact unique

theorem routeOf_isSome {outputs : List Ref} {feeRecipients : List String} {r : String} (member : r ∈ feeRecipients)
    (enough : (unclaimed parse deref outputs feeRecipients).length ≤
      (outputs.filter (available parse deref outputs)).length) :
    (routeOf parse deref outputs feeRecipients r).isSome := by
  unfold routeOf
  split
  · rename_i untagged
    have inside : r ∈ unclaimed parse deref outputs feeRecipients :=
      List.mem_filter.mpr ⟨member, by simp [untagged]⟩
    obtain ⟨i, small, rfl⟩ := List.mem_iff_getElem.mp inside
    rw [Option.isSome_map, List.find?_isSome]
    refine ⟨_, List.getElem_mem (l := _) (n := i) (by simp [dealt]; omega), ?_⟩
    simp [dealt]
  · rfl

section Spec
variable {outputs : List Ref} {feeRecipients : List String}

theorem taggedFor_nil (untagged : ∀ out ∈ outputs, recipientTag parse (deref out) = none) (r : String) :
    taggedFor parse deref outputs r = [] :=
  List.filter_eq_nil_iff.mpr (fun out member => by simp [untagged out member])

theorem unclaimed_untagged (untagged : ∀ out ∈ outputs, recipientTag parse (deref out) = none) :
    unclaimed parse deref outputs feeRecipients = feeRecipients :=
  List.filter_eq_self.mpr (fun r _ => by simp [taggedFor_nil untagged r])

theorem available_untagged (untagged : ∀ out ∈ outputs, recipientTag parse (deref out) = none) :
    outputs.filter (available parse deref outputs) = outputs := by
  apply List.filter_eq_self.mpr
  intro out _
  unfold available
  cases outputIndex (deref out) with
  | none => rfl
  | some i => simpa using fun other member => .inl (untagged other member)

/-- The recipients without a list after the named outputs are given are the unclaimed ones. -/
theorem unmapped_eq :
    feeRecipients.filter (fun r =>
      ((assignTagged (tagOutputs parse deref outputs).byKey feeRecipients).find? r).isNone) =
      unclaimed parse deref outputs feeRecipients := by
  apply List.filter_congr
  intro r member
  rw [find?_assignTagged, if_pos member, find?_tagOutputs]
  by_cases untagged : taggedFor parse deref outputs r = [] <;> simp [untagged]

theorem nodup_dealt (unique : feeRecipients.Nodup) (enough : (unclaimed parse deref outputs feeRecipients).length ≤
    (outputs.filter (available parse deref outputs)).length) :
    ((dealt parse deref outputs feeRecipients).map Prod.fst).Nodup :=
  nodup_fst_zip (unique.filter _) enough

/-- The lists after the outputs that are left are dealt out. -/
theorem find?_dealt (unique : feeRecipients.Nodup)
    (enough : (unclaimed parse deref outputs feeRecipients).length ≤
      (outputs.filter (available parse deref outputs)).length) {r : String} (member : r ∈ feeRecipients) :
    (assign (assignTagged (tagOutputs parse deref outputs).byKey feeRecipients)
      (dealt parse deref outputs feeRecipients)).find? r = routeOf parse deref outputs feeRecipients r := by
  have present := routeOf_isSome member enough
  rw [find?_assign (nodup_dealt unique enough), find?_assignTagged, if_pos member, find?_tagOutputs]
  unfold routeOf at present ⊢
  by_cases untagged : taggedFor parse deref outputs r = []
  · rw [if_pos untagged, if_pos untagged]
    rw [if_pos untagged] at present
    cases found : (dealt parse deref outputs feeRecipients).find? (fun pair => decide (pair.1 = r)) with
    | none => simp [found] at present
    | some pair => rfl
  · have absent : (dealt parse deref outputs feeRecipients).find? (fun pair => decide (pair.1 = r)) = none := by
      rw [List.find?_eq_none]
      rintro ⟨other, out⟩ inside
      have claimed := (List.mem_filter.mp (List.of_mem_zip inside).1).2
      simp only [decide_eq_true_eq]
      rintro rfl
      exact untagged (by simpa using claimed)
    rw [absent, if_neg untagged, if_neg untagged]

/-- The call answers exactly when enough outputs are left for the unclaimed recipients, and then with these lists. -/
theorem routeOutputsToRecipients_spec (unique : feeRecipients.Nodup) :
    if (unclaimed parse deref outputs feeRecipients).length ≤
        (outputs.filter (available parse deref outputs)).length then
      ∃ result, routeOutputsToRecipients parse deref outputs feeRecipients = .ok result ∧
        ∀ r ∈ feeRecipients, result.find? r = routeOf parse deref outputs feeRecipients r
    else ∃ answer, routeOutputsToRecipients parse deref outputs feeRecipients = .error answer := by
  unfold routeOutputsToRecipients
  simp only [rows_tagOutputs, unmapped_eq]
  have same : unused deref (tagOutputs parse deref outputs).usedIndices = available parse deref outputs :=
    funext (unused_eq parse deref outputs)
  rw [same]
  by_cases untagged : ∀ out ∈ outputs, recipientTag parse (deref out) = none
  · rw [if_pos untagged, unclaimed_untagged untagged, available_untagged untagged]
    by_cases few : outputs.length < feeRecipients.length
    · rw [if_pos few, if_neg (by omega)]
      exact ⟨_, rfl⟩
    · rw [if_neg few, if_pos (by omega)]
      refine ⟨_, rfl, fun r member => ?_⟩
      have enough : feeRecipients.length ≤ outputs.length := by omega
      have present : (routeOf parse deref outputs feeRecipients r).isSome := by
        apply routeOf_isSome member
        rwa [unclaimed_untagged untagged, available_untagged untagged]
      rw [find?_assign (nodup_fst_zip unique enough)]
      rw [routeOf, if_pos (taggedFor_nil untagged r), dealt, unclaimed_untagged untagged,
        available_untagged untagged] at present ⊢
      cases found : (feeRecipients.zip outputs).find? (fun pair => decide (pair.1 = r)) with
      | none => simp [found] at present
      | some pair => rfl
  · rw [if_neg untagged]
    by_cases enough : (unclaimed parse deref outputs feeRecipients).length ≤
        (outputs.filter (available parse deref outputs)).length
    · rw [if_pos enough]
      have covered : checkCovered (assign (assignTagged (tagOutputs parse deref outputs).byKey feeRecipients)
          (dealt parse deref outputs feeRecipients)) feeRecipients = .ok _ :=
        checkCovered_eq (fun r member => by
          rw [find?_dealt unique enough member]
          exact routeOf_isSome member enough)
      refine ⟨_, ?_, fun r member => find?_dealt unique enough member⟩
      by_cases claimed : (unclaimed parse deref outputs feeRecipients).isEmpty
      · have none : unclaimed parse deref outputs feeRecipients = [] := by simpa using claimed
        rw [if_pos claimed]
        simpa [dealt, none, assign] using covered
      · rw [if_neg claimed, if_neg (by omega)]
        exact covered
    · rw [if_neg enough]
      have some : ¬ (unclaimed parse deref outputs feeRecipients).isEmpty := by
        intro none
        simp [List.isEmpty_iff.mp none] at enough
      rw [if_neg some, if_pos (by omega)]
      exact ⟨_, rfl⟩

end Spec

/-! Outputs and recipients. -/

/-- The outputs a recipient is given. -/
def given (result : Routes Ref) (r : String) : List Ref := ((result.find? r).map Prod.snd).getD []

variable (parse deref) in
/-- Every recipient has an output, no output has two recipients, and one that names a recipient is given to no other. -/
structure Separate (feeRecipients : List String) (result : Routes Ref) : Prop where
  covered : ∀ r ∈ feeRecipients, given result r ≠ []
  unshared : ∀ r ∈ feeRecipients, ∀ r' ∈ feeRecipients, r ≠ r' → ∀ out ∈ given result r, out ∉ given result r'
  own : ∀ r ∈ feeRecipients, ∀ out ∈ given result r, ∀ k, recipientTag parse (deref out) = some k → k = r

variable (parse deref) in
/-- An output that names a recipient and has no index is dealt out: fewer outputs are left before it than there are
unclaimed recipients, and enough are left for all of these. -/
def Strays (outputs : List Ref) (feeRecipients : List String) : Prop :=
  ∃ front out back, outputs = front ++ out :: back ∧ (recipientTag parse (deref out)).isSome ∧
    outputIndex (deref out) = none ∧
    (front.filter (available parse deref outputs)).length < (unclaimed parse deref outputs feeRecipients).length ∧
    (unclaimed parse deref outputs feeRecipients).length ≤ (outputs.filter (available parse deref outputs)).length

/-- An item is among the first that pass a test when it passes and few before it do. -/
theorem mem_take_filter {α : Type} {p : α → Bool} {l : List α} {n : Nat} {x : α} :
    x ∈ (l.filter p).take n ↔ ∃ front back, l = front ++ x :: back ∧ p x ∧ (front.filter p).length < n := by
  constructor
  · intro member
    induction l generalizing n with
    | nil => simp at member
    | cons y rest ih =>
      by_cases passing : p y = true
      · rw [List.filter_cons_of_pos passing] at member
        cases n with
        | zero => simp at member
        | succ n =>
          rcases List.mem_cons.mp (List.take_succ_cons ▸ member) with rfl | later
          · exact ⟨[], rest, rfl, passing, by simp⟩
          · obtain ⟨front, back, rfl, passes, few⟩ := ih later
            refine ⟨y :: front, back, rfl, passes, ?_⟩
            rw [List.filter_cons_of_pos passing, List.length_cons]
            omega
      · rw [List.filter_cons_of_neg passing] at member
        obtain ⟨front, back, rfl, passes, few⟩ := ih member
        refine ⟨y :: front, back, rfl, passes, ?_⟩
        rwa [List.filter_cons_of_neg passing]
  · rintro ⟨front, back, rfl, passes, few⟩
    rw [List.filter_append, List.filter_cons_of_pos passes]
    apply List.mem_of_getElem? (i := (front.filter p).length)
    rw [List.getElem?_take_of_lt few]
    simp

section Claim
variable {outputs : List Ref} {feeRecipients : List String}

/-- Only an output without an index is left although it names a recipient. -/
theorem outputIndex_of_available {out : Ref} (member : out ∈ outputs)
    (left : available parse deref outputs out = true) (named : (recipientTag parse (deref out)).isSome) :
    outputIndex (deref out) = none := by
  cases indexed : outputIndex (deref out) with
  | none => rfl
  | some i =>
    simp only [available, indexed, Option.all_some, List.all_eq_true] at left
    have := left out member
    simp [indexed, Option.isSome_iff_ne_none.mp named] at this

theorem strays_iff (enough : (unclaimed parse deref outputs feeRecipients).length ≤
    (outputs.filter (available parse deref outputs)).length) :
    Strays parse deref outputs feeRecipients ↔
      ∃ pair ∈ dealt parse deref outputs feeRecipients, (recipientTag parse (deref pair.2)).isSome := by
  have seconds : (dealt parse deref outputs feeRecipients).map Prod.snd =
      (outputs.filter (available parse deref outputs)).take (unclaimed parse deref outputs feeRecipients).length := by
    rw [dealt, List.zip_eq_zip_take_min, Nat.min_eq_left enough, List.take_length, List.map_snd_zip (by simp)]
  have moved : (∃ pair ∈ dealt parse deref outputs feeRecipients, (recipientTag parse (deref pair.2)).isSome) ↔
      ∃ out ∈ (dealt parse deref outputs feeRecipients).map Prod.snd, (recipientTag parse (deref out)).isSome := by
    simp only [List.mem_map, exists_exists_and_eq_and]
  rw [moved, seconds]
  simp only [mem_take_filter]
  constructor
  · rintro ⟨front, out, back, whole, named, indexed, few, -⟩
    exact ⟨out, ⟨front, back, whole, by simp [available, indexed], few⟩, named⟩
  · rintro ⟨out, ⟨front, back, whole, left, few⟩, named⟩
    have member : out ∈ outputs := by simp [whole]
    exact ⟨front, out, back, whole, named, outputIndex_of_available member left named, few, enough⟩

theorem given_of_routes {result : Routes Ref} {r : String}
    (routes : result.find? r = routeOf parse deref outputs feeRecipients r) {out : Ref}
    (member : out ∈ given result r) :
    recipientTag parse (deref out) = some r ∧ out ∈ outputs ∨
      taggedFor parse deref outputs r = [] ∧ (r, out) ∈ dealt parse deref outputs feeRecipients := by
  rw [given, routes, routeOf] at member
  split at member
  · rename_i untagged
    cases found : (dealt parse deref outputs feeRecipients).find? (fun pair => decide (pair.1 = r)) with
    | none => simp [found] at member
    | some pair =>
      have key := List.find?_some found
      have inside := List.mem_of_find?_eq_some found
      simp only [found, Option.map_some, Option.getD_some, List.mem_singleton] at member
      refine .inr ⟨untagged, ?_⟩
      have same : pair = (r, out) := Prod.ext (by simpa using key) member.symm
      rwa [same] at inside
  · have := List.mem_filter.mp (show out ∈ taggedFor parse deref outputs r from member)
    exact .inl ⟨by simpa using this.2, this.1⟩

theorem given_dealt (unique : feeRecipients.Nodup) (enough : (unclaimed parse deref outputs feeRecipients).length ≤
    (outputs.filter (available parse deref outputs)).length) {result : Routes Ref} {r : String}
    (routes : result.find? r = routeOf parse deref outputs feeRecipients r) {out : Ref}
    (member : (r, out) ∈ dealt parse deref outputs feeRecipients) :
    out ∈ given result r ∧ taggedFor parse deref outputs r = [] := by
  have untagged : taggedFor parse deref outputs r = [] := by
    simpa using (List.mem_filter.mp (List.of_mem_zip member).1).2
  have present : ((dealt parse deref outputs feeRecipients).find? (fun pair => decide (pair.1 = r))).isSome :=
    List.find?_isSome.mpr ⟨_, member, by simp⟩
  obtain ⟨pair, found⟩ := Option.isSome_iff_exists.mp present
  have key : pair.1 = r := by simpa using List.find?_some found
  have same : pair = (r, out) :=
    List.inj_on_of_nodup_map (nodup_dealt unique enough) (List.mem_of_find?_eq_some found) member key
  refine ⟨?_, untagged⟩
  rw [given, routes, routeOf, if_pos untagged, found, same]
  simp

/-- Two recipients are dealt different outputs. -/
theorem dealt_inj (distinct : outputs.Nodup) {r r' : String} {out : Ref}
    (first : (r, out) ∈ dealt parse deref outputs feeRecipients)
    (second : (r', out) ∈ dealt parse deref outputs feeRecipients) : r = r' := by
  obtain ⟨i, small, pair⟩ := List.mem_iff_getElem.mp first
  obtain ⟨j, small', pair'⟩ := List.mem_iff_getElem.mp second
  simp only [dealt, List.getElem_zip, Prod.mk.injEq] at pair pair'
  have same : i = j := (distinct.filter _).getElem_inj_iff.mp (pair.2.trans pair'.2.symm)
  subst same
  exact pair.1.symm.trans pair'.1

/-- The outputs of a payment are kept apart exactly when no named output without an index is dealt out. -/
theorem outputs_separate_iff (parse : String → Option Value) {Ref : Type} (deref : Ref → Value) (outputs : List Ref)
    (feeRecipients : List String) (distinct : outputs.Nodup) (unique : feeRecipients.Nodup) :
    (∀ result, routeOutputsToRecipients parse deref outputs feeRecipients = .ok result →
      Separate parse deref feeRecipients result) ↔ ¬ Strays parse deref outputs feeRecipients := by
  have spec := @routeOutputsToRecipients_spec parse Ref deref outputs feeRecipients unique
  constructor
  · intro separate strays
    have enough : (unclaimed parse deref outputs feeRecipients).length ≤
        (outputs.filter (available parse deref outputs)).length := by
      obtain ⟨_, _, _, _, _, _, _, enough⟩ := strays
      exact enough
    obtain ⟨⟨r, out⟩, member, named⟩ := (strays_iff enough).mp strays
    obtain ⟨k, named⟩ := Option.isSome_iff_exists.mp named
    rw [if_pos enough] at spec
    obtain ⟨result, answered, routes⟩ := spec
    obtain ⟨claimed, left⟩ := List.of_mem_zip member
    have fee : r ∈ feeRecipients := (List.mem_filter.mp claimed).1
    obtain ⟨inside, untagged⟩ := given_dealt unique enough (routes r fee) member
    have same : k = r := (separate result answered).own r fee out inside k named
    subst same
    have other : out ∈ taggedFor parse deref outputs k :=
      List.mem_filter.mpr ⟨(List.mem_filter.mp left).1, by simp [named]⟩
    simp [untagged] at other
  · intro kept result answered
    split at spec
    · rename_i enough
      obtain ⟨same, answered', routes⟩ := spec
      cases answered.symm.trans answered'
      have plain (pair : String × Ref) (member : pair ∈ dealt parse deref outputs feeRecipients) :
          recipientTag parse (deref pair.2) = none := by
        by_contra named
        exact kept ((strays_iff enough).mpr ⟨pair, member, Option.isSome_iff_ne_none.mpr named⟩)
      refine ⟨fun r fee => ?_, fun r fee r' fee' different out member member' => ?_, fun r fee out member k named => ?_⟩
      · have present := routeOf_isSome fee enough
        rw [given, routes r fee]
        unfold routeOf at present ⊢
        split at present
        · rename_i untagged
          obtain ⟨pair, found⟩ := Option.isSome_iff_exists.mp (Option.isSome_map ▸ present)
          simp [untagged, found]
        · rename_i tagged
          simp [tagged]
      · rcases given_of_routes (routes r fee) member with ⟨named, -⟩ | ⟨-, dealt⟩ <;>
          rcases given_of_routes (routes r' fee') member' with ⟨named', -⟩ | ⟨-, dealt'⟩
        · rw [named, Option.some.injEq] at named'
          exact different named'
        · simp [plain _ dealt'] at named
        · simp [plain _ dealt] at named'
        · exact different (dealt_inj distinct dealt dealt')
      · rcases given_of_routes (routes r fee) member with ⟨own, -⟩ | ⟨-, dealt⟩
        · rw [named, Option.some.injEq] at own
          exact own
        · simp [plain _ dealt] at named
    · obtain ⟨refusal, refused⟩ := spec
      rw [refused] at answered
      cases answered

/-- The outputs of a payment are routed as their positions are, so what is shown of a route of distinct references holds
of the route the payment takes. -/
theorem routeOutputsToRecipients_positions (parse : String → Option Value) (outputs : List Value)
    (feeRecipients : List String) :
    routeOutputsToRecipients parse id outputs feeRecipients =
      (routeOutputsToRecipients parse outputs.get (List.finRange outputs.length) feeRecipients).map
        (Routes.read outputs.get) := by
  rw [← routeOutputsToRecipients_read, List.map_get_finRange]

end Claim

end

section Payment

def firstKey : String := "028d37b941208cd6b8a4c28288eda5f2f16c2b3ab0fcb6d13c18b47fe37b971fc1"

def secondKey : String := "038d37b941208cd6b8a4c28288eda5f2f16c2b3ab0fcb6d13c18b47fe37b971fc1"

/-- An output that names a recipient, its index beside it or not. -/
def namingOutput (key : String) (index : List (String × Value)) : Value :=
  .object (index ++ [("customInstructions", .object [("recipientIdentityKey", .string key)])])

/-- The first recipient's output and one that names nobody. -/
def mixedOutputs (place : Fin 2) : Value :=
  if place = 0 then namingOutput firstKey [("outputIndex", .number "0")] else .object [("outputIndex", .number "1")]

theorem mixed_outputs_separate :
    ∃ result, routeOutputsToRecipients (fun _ => none) mixedOutputs [0, 1] [firstKey, secondKey] = .ok result ∧
      Separate (fun _ => none) mixedOutputs [firstKey, secondKey] result := by
  refine ⟨⟨[(firstKey, [0]), (secondKey, [1])], by decide⟩, rfl, ?_⟩
  apply (outputs_separate_iff (fun _ => none) mixedOutputs [0, 1] [firstKey, secondKey] (by decide) (by decide)).mpr
  · rintro ⟨front, out, back, whole, named, indexed, -⟩
    fin_cases out
    · revert indexed
      decide
    · revert named
      decide
  · rfl

theorem unindexed_output_shared :
    ∃ result, routeOutputsToRecipients (fun _ => none) (fun _ : Unit => namingOutput firstKey []) [()]
        [firstKey, secondKey] = .ok result ∧
      ¬ Separate (fun _ => none) (fun _ : Unit => namingOutput firstKey []) [firstKey, secondKey] result := by
  refine ⟨⟨[(firstKey, [()]), (secondKey, [()])], by decide⟩, rfl, fun separate => ?_⟩
  have different : firstKey ≠ secondKey := by decide
  exact separate.unshared firstKey (by simp) secondKey (by simp) different () (by decide) (by decide)

end Payment

end MessageRelay.Payments
