import MessageRelay.Library.Like

/-! The merkle roots of a payment asked of the header service, so many heights a request. A request that runs out
comes back to the first root whose lookup failed, or goes on where it stopped; a root that keeps failing with too many
heights behind it is come back to for ever. -/

namespace MessageRelay.Door
open MessageRelay.Library

inductive UnverifiableReason where
  | invalidBeef (offset : Nat) (kind : String)
  | spendRefused (offset : Nat) (kind : String)
  | miningContextUnavailable (offset : Nat) (kind : String)
  | noProof
  | noTransaction
  | malformedTransaction (what : String)
  | headerLookupFailed (height : Nat) (reason : String)
  deriving DecidableEq, Repr

/-- The six words on a payment. -/
inductive PaymentVerdict where
  | verified (satoshis : Nat)
  | underpaid (satoshis : Nat)
  | wrongScript
  | rootMismatch (height : Nat) (merkleRoot : String)
  | noHeaderService
  | unverifiable (reason : UnverifiableReason)
  deriving DecidableEq, Repr

/-- What asking the roots came to: a word, with the place of the first failed lookup where that is the word, or the
place to go on from. -/
inductive Rooted where
  | word (word : PaymentVerdict) (failedAt : Option Nat)
  | paused (place : Nat)
  deriving DecidableEq, Repr

def eqIgnoreAsciiCase (a b : String) : Bool := foldCase a.toList = foldCase b.toList

section
variable {Hash : Type} (displayHex : Hash → String) (headers : Nat → Except String String) (satoshis : Nat)

/-- The roots in turn. `asked` holds the heights looked up in this request, each once. -/
def askRoots (lookups : Option Nat) : Nat → Finset Nat → Option (Nat × UnverifiableReason) → List (Nat × Hash) → Rooted
  | _, _, some (failed, reason), [] => .word (.unverifiable reason) (some failed)
  | _, _, none, [] => .word (.verified satoshis) none
  | place, asked, firstFailure, (height, root) :: rest =>
    if height ∉ asked ∧ lookups.any (· ≤ asked.card) then .paused ((firstFailure.map Prod.fst).getD place)
    else
      match headers height with
      | .ok carried =>
        if eqIgnoreAsciiCase carried (displayHex root) then
          askRoots lookups (place + 1) (insert height asked) firstFailure rest
        else .word (.rootMismatch height (displayHex root)) none
      | .error reason =>
        askRoots lookups (place + 1) (insert height asked)
          (firstFailure.or (some (place, .headerLookupFailed height reason))) rest

def claimsHeight (height : Nat) : PaymentVerdict :=
  .unverifiable (.malformedTransaction s!"a BUMP claims the block height {height}")

/-- Every root from a place on. A height past u32 is refused before any is asked, and the roots are sorted. -/
def rootsWord (roots : List (Nat × Hash)) (start : Nat) (lookups : Option Nat) : Rooted :=
  match roots.getLast? with
  | none => .word (.unverifiable .noProof) none
  | some (height, _) =>
    if 2 ^ 32 ≤ height then .word (claimsHeight height) none
    else askRoots displayHex headers satoshis lookups start ∅ none
      ((roots.drop start).map (fun r => (r.1 % 2 ^ 32, r.2)))

/-- So many requests, each from the place the one before it saved. -/
def requests (roots : List (Nat × Hash)) (lookups : Nat) : Nat → Nat → Option PaymentVerdict
  | 0, _ => none
  | n + 1, place =>
    match rootsWord displayHex headers satoshis roots place (some lookups) with
    | .word word _ => some word
    | .paused place => requests roots lookups n place

/-! One request, by what the service says of each root. -/

def Carried (r : Nat × Hash) : Prop :=
  ∃ carried, headers r.1 = .ok carried ∧ eqIgnoreAsciiCase carried (displayHex r.2) = true

def Mismatched (r : Nat × Hash) : Prop :=
  ∃ carried, headers r.1 = .ok carried ∧ eqIgnoreAsciiCase carried (displayHex r.2) = false

def Failing (r : Nat × Hash) : Prop := ∃ reason, headers r.1 = .error reason

/-- The heights a reading of the roots looks up: those up to the first mismatch, or all. -/
def heightsAsked : List (Nat × Hash) → Finset Nat
  | [] => ∅
  | r :: rest =>
    match headers r.1 with
    | .ok carried =>
      if eqIgnoreAsciiCase carried (displayHex r.2) then insert r.1 (heightsAsked rest) else {r.1}
    | .error _ => insert r.1 (heightsAsked rest)

/-- Every root is one of the three. -/
theorem answer_cases (r : Nat × Hash) :
    Carried displayHex headers r ∨ Mismatched displayHex headers r ∨ Failing headers r := by
  cases answer : headers r.1 with
  | error reason => exact .inr (.inr ⟨reason, answer⟩)
  | ok carried =>
    cases same : eqIgnoreAsciiCase carried (displayHex r.2) with
    | true => exact .inl ⟨carried, answer, same⟩
    | false => exact .inr (.inl ⟨carried, answer, same⟩)

/-- Where a limited request pauses that has met no failure: past the carried roots, at once only if the first fails. -/
def PausedAt (limit place : Nat) (asked : Finset Nat) (rest : List (Nat × Hash)) (p : Nat) : Prop :=
  ∃ front back, rest = front ++ back ∧ p = place + front.length ∧ (∀ r ∈ front, Carried displayHex headers r) ∧
    (front = [] → limit ≤ asked.card ∨ ∃ r ∈ back.head?, Failing headers r)

variable {displayHex headers satoshis}

theorem Failing.not_carried {r : Nat × Hash} (failing : Failing headers r) : ¬ Carried displayHex headers r := by
  rintro ⟨carried, answer, -⟩
  obtain ⟨reason, other⟩ := failing
  cases answer.symm.trans other

section Step
variable {lookups : Option Nat} {place : Nat} {asked : Finset Nat} {firstFailure : Option (Nat × UnverifiableReason)}
  {r : Nat × Hash} {rest : List (Nat × Hash)}

/-- The request asks the height, or knows it. -/
def Asks (lookups : Option Nat) (asked : Finset Nat) (height : Nat) : Prop :=
  ¬ (height ∉ asked ∧ lookups.any (· ≤ asked.card))

theorem askRoots_carried (asks : Asks lookups asked r.1) (carried : Carried displayHex headers r) :
    askRoots displayHex headers satoshis lookups place asked firstFailure (r :: rest) =
      askRoots displayHex headers satoshis lookups (place + 1) (insert r.1 asked) firstFailure rest := by
  obtain ⟨hex, answer, same⟩ := carried
  rw [askRoots, if_neg asks, answer]
  simp [same]

theorem askRoots_mismatched (asks : Asks lookups asked r.1) (mismatched : Mismatched displayHex headers r) :
    askRoots displayHex headers satoshis lookups place asked firstFailure (r :: rest) =
      .word (.rootMismatch r.1 (displayHex r.2)) none := by
  obtain ⟨hex, answer, different⟩ := mismatched
  rw [askRoots, if_neg asks, answer]
  simp [different]

theorem askRoots_failing (asks : Asks lookups asked r.1) {reason : String} (failing : headers r.1 = .error reason) :
    askRoots displayHex headers satoshis lookups place asked firstFailure (r :: rest) =
      askRoots displayHex headers satoshis lookups (place + 1) (insert r.1 asked)
        (firstFailure.or (some (place, .headerLookupFailed r.1 reason))) rest := by
  rw [askRoots, if_neg asks, failing]

theorem asks_none (asked : Finset Nat) (height : Nat) : Asks none asked height := by
  simp [Asks]

theorem heightsAsked_carried (carried : Carried displayHex headers r) :
    heightsAsked displayHex headers (r :: rest) = insert r.1 (heightsAsked displayHex headers rest) := by
  obtain ⟨hex, answer, same⟩ := carried
  simp [heightsAsked, answer, same]

theorem heightsAsked_mismatched (mismatched : Mismatched displayHex headers r) :
    heightsAsked displayHex headers (r :: rest) = {r.1} := by
  obtain ⟨hex, answer, different⟩ := mismatched
  simp [heightsAsked, answer, different]

theorem heightsAsked_failing (failing : Failing headers r) :
    heightsAsked displayHex headers (r :: rest) = insert r.1 (heightsAsked displayHex headers rest) := by
  obtain ⟨reason, answer⟩ := failing
  simp [heightsAsked, answer]

/-- A lookup that goes on adds its height to those known. -/
theorem union_heightsAsked_going_on (asked : Finset Nat) (going : Carried displayHex headers r ∨ Failing headers r) :
    insert r.1 asked ∪ heightsAsked displayHex headers rest = asked ∪ heightsAsked displayHex headers (r :: rest) := by
  have head : heightsAsked displayHex headers (r :: rest) = insert r.1 (heightsAsked displayHex headers rest) := by
    rcases going with carried | failing
    · exact heightsAsked_carried carried
    · exact heightsAsked_failing failing
  rw [head, Finset.insert_union, Finset.union_insert]

/-- A lookup that is allowed keeps the heights within the limit. -/
theorem Asks.card_insert_le {limit : Nat} {asked : Finset Nat} {height : Nat} (asks : Asks (some limit) asked height)
    (room : asked.card ≤ limit) : (insert height asked).card ≤ limit := by
  by_cases known : height ∈ asked
  · rwa [Finset.insert_eq_self.mpr known]
  · have free : ¬ limit ≤ asked.card := fun full => asks ⟨known, by simpa using full⟩
    rw [Finset.card_insert_of_notMem known]
    omega

theorem mem_heightsAsked_head : r.1 ∈ heightsAsked displayHex headers (r :: rest) := by
  rcases answer_cases displayHex headers r with carried | mismatched | failing
  · simp [heightsAsked_carried carried]
  · simp [heightsAsked_mismatched mismatched]
  · simp [heightsAsked_failing failing]

end Step

variable (displayHex headers satoshis) in
/-- A request whose heights fit answers as one without a limit; another pauses. -/
theorem askRoots_limited (limit place : Nat) (asked : Finset Nat) (firstFailure : Option (Nat × UnverifiableReason))
    (rest : List (Nat × Hash)) (room : asked.card ≤ limit) :
    if (asked ∪ heightsAsked displayHex headers rest).card ≤ limit then
      askRoots displayHex headers satoshis (some limit) place asked firstFailure rest =
        askRoots displayHex headers satoshis none place asked firstFailure rest
    else ∃ p, askRoots displayHex headers satoshis (some limit) place asked firstFailure rest = .paused p ∧
      match firstFailure with
      | some failure => p = failure.1
      | none => PausedAt displayHex headers limit place asked rest p := by
  induction rest generalizing place asked firstFailure with
  | nil =>
    rw [if_pos (by simpa [heightsAsked] using room)]
    cases firstFailure <;> rfl
  | cons r rest ih =>
    by_cases asks : Asks (some limit) asked r.1
    · have fits := asks.card_insert_le room
      rcases answer_cases displayHex headers r with carried | mismatched | failing
      · have step := ih (place + 1) (insert r.1 asked) firstFailure fits
        rw [union_heightsAsked_going_on asked (.inl carried)] at step
        rw [askRoots_carried asks carried, askRoots_carried (asks_none asked r.1) carried]
        split
        · rename_i small
          rwa [if_pos small] at step
        · rename_i large
          rw [if_neg large] at step
          obtain ⟨p, paused, where'⟩ := step
          refine ⟨p, paused, ?_⟩
          cases firstFailure with
          | some failure => exact where'
          | none =>
            obtain ⟨front, back, rfl, rfl, all, -⟩ := where'
            refine ⟨r :: front, back, rfl, by simp; omega, ?_, by simp⟩
            rintro other (_ | ⟨_, member⟩)
            · exact carried
            · exact all other member
      · rw [heightsAsked_mismatched mismatched, Finset.union_comm, ← Finset.insert_eq, if_pos fits,
          askRoots_mismatched asks mismatched, askRoots_mismatched (asks_none asked r.1) mismatched]
      · obtain ⟨reason, answer⟩ := failing
        have step := ih (place + 1) (insert r.1 asked)
          (firstFailure.or (some (place, .headerLookupFailed r.1 reason))) fits
        rw [union_heightsAsked_going_on asked (.inr ⟨reason, answer⟩)] at step
        rw [askRoots_failing asks answer, askRoots_failing (asks_none asked r.1) answer]
        split
        · rename_i small
          rwa [if_pos small] at step
        · rename_i large
          rw [if_neg large] at step
          obtain ⟨p, paused, at'⟩ := step
          refine ⟨p, paused, ?_⟩
          cases firstFailure with
          | some failure => exact at'
          | none => exact ⟨[], r :: rest, rfl, at', by simp, fun _ => .inr ⟨r, rfl, reason, answer⟩⟩
    · have stuck := asks
      simp only [Asks, not_not, Option.any_some, decide_eq_true_eq] at asks
      have large : ¬ (asked ∪ heightsAsked displayHex headers (r :: rest)).card ≤ limit := by
        have inside : insert r.1 asked ⊆ asked ∪ heightsAsked displayHex headers (r :: rest) :=
          Finset.insert_subset (Finset.mem_union_right _ mem_heightsAsked_head) Finset.subset_union_left
        have more := Finset.card_le_card inside
        rw [Finset.card_insert_of_notMem asks.1] at more
        omega
      rw [if_neg large]
      refine ⟨(firstFailure.map Prod.fst).getD place, ?_, ?_⟩
      · rw [askRoots, if_pos (not_not.mp stuck)]
      · cases firstFailure with
        | some failure => rfl
        | none => exact ⟨[], r :: rest, rfl, rfl, by simp, fun _ => .inl asks.2⟩

/-! A request without a limit. -/

theorem askRoots_none_asked (place : Nat) (asked other : Finset Nat)
    (firstFailure : Option (Nat × UnverifiableReason)) (rest : List (Nat × Hash)) :
    askRoots displayHex headers satoshis none place asked firstFailure rest =
      askRoots displayHex headers satoshis none place other firstFailure rest := by
  induction rest generalizing place asked other firstFailure with
  | nil => cases firstFailure <;> rfl
  | cons r rest ih =>
    rcases answer_cases displayHex headers r with carried | mismatched | ⟨reason, answer⟩
    · rw [askRoots_carried (asks_none asked r.1) carried, askRoots_carried (asks_none other r.1) carried]
      exact ih ..
    · rw [askRoots_mismatched (asks_none asked r.1) mismatched, askRoots_mismatched (asks_none other r.1) mismatched]
    · rw [askRoots_failing (asks_none asked r.1) answer, askRoots_failing (asks_none other r.1) answer]
      exact ih ..

/-- Carried roots at the front change nothing. -/
theorem askRoots_none_append (place : Nat) (asked : Finset Nat) (firstFailure : Option (Nat × UnverifiableReason))
    {front : List (Nat × Hash)} (carried : ∀ r ∈ front, Carried displayHex headers r) (back : List (Nat × Hash)) :
    askRoots displayHex headers satoshis none place asked firstFailure (front ++ back) =
      askRoots displayHex headers satoshis none (place + front.length) asked firstFailure back := by
  induction front generalizing place asked with
  | nil => rfl
  | cons r front ih =>
    rw [List.cons_append, askRoots_carried (asks_none asked r.1) (carried r (List.mem_cons_self ..)),
      ih _ _ (fun other member => carried other (List.mem_cons_of_mem _ member)),
      askRoots_none_asked _ (insert r.1 asked) asked, List.length_cons]
    congr 1
    omega

theorem askRoots_none_word (place : Nat) (asked : Finset Nat) (firstFailure : Option (Nat × UnverifiableReason))
    (rest : List (Nat × Hash)) :
    ∃ word failedAt, askRoots displayHex headers satoshis none place asked firstFailure rest = .word word failedAt := by
  induction rest generalizing place asked firstFailure with
  | nil =>
    cases firstFailure with
    | none => exact ⟨_, _, rfl⟩
    | some failure => exact ⟨_, _, rfl⟩
  | cons r rest ih =>
    rcases answer_cases displayHex headers r with carried | mismatched | ⟨reason, answer⟩
    · rw [askRoots_carried (asks_none asked r.1) carried]
      exact ih ..
    · rw [askRoots_mismatched (asks_none asked r.1) mismatched]
      exact ⟨_, _, rfl⟩
    · rw [askRoots_failing (asks_none asked r.1) answer]
      exact ih ..

/-- The roots behind carried ones need no more heights than all of them. -/
theorem heightsAsked_append {front : List (Nat × Hash)} (carried : ∀ r ∈ front, Carried displayHex headers r)
    (back : List (Nat × Hash)) :
    heightsAsked displayHex headers back ⊆ heightsAsked displayHex headers (front ++ back) := by
  induction front with
  | nil => exact Finset.Subset.refl _
  | cons r front ih =>
    rw [List.cons_append, heightsAsked_carried (carried r (List.mem_cons_self ..))]
    exact (ih (fun other member => carried other (List.mem_cons_of_mem _ member))).trans (Finset.subset_insert _ _)

/-! Requests one after another. -/

variable (displayHex headers) in
/-- Behind the first root whose lookup fails, with none mismatched before it, the heights up to the first mismatch or
the end fit one request. A height past u32 ends the reading before any lookup. -/
def Reaches (roots : List (Nat × Hash)) (limit : Nat) : Prop :=
  (∃ r ∈ roots, 2 ^ 32 ≤ r.1) ∨ ∀ front r back, roots = front ++ r :: back →
    (∀ q ∈ front, Carried displayHex headers q) → Failing headers r →
    (heightsAsked displayHex headers (r :: back)).card ≤ limit

section Requests
variable {roots : List (Nat × Hash)} {limit : Nat}

theorem heights_in_range (small : ∀ r ∈ roots, r.1 < 2 ^ 32) (start : Nat) :
    (roots.drop start).map (fun r => (r.1 % 2 ^ 32, r.2)) = roots.drop start := by
  conv_rhs => rw [← List.map_id (roots.drop start)]
  apply List.map_congr_left
  intro r member
  rw [Nat.mod_eq_of_lt (small r (List.mem_of_mem_drop member)), id]

theorem rootsWord_in_range (nonempty : roots ≠ []) (small : ∀ r ∈ roots, r.1 < 2 ^ 32) (start : Nat)
    (lookups : Option Nat) :
    rootsWord displayHex headers satoshis roots start lookups =
      askRoots displayHex headers satoshis lookups start ∅ none (roots.drop start) := by
  have last := List.getLast?_eq_some_getLast nonempty
  rw [rootsWord, last]
  simp only
  rw [if_neg (Nat.not_le.mpr (small _ (List.getLast_mem nonempty))), heights_in_range small]

variable (displayHex headers satoshis) in
/-- In a sorted list a height past u32 is seen at its end. -/
theorem rootsWord_past (sorted : roots.Pairwise (fun a b => a.1 ≤ b.1)) (past : ∃ r ∈ roots, 2 ^ 32 ≤ r.1) :
    ∃ height, ∀ start lookups,
      rootsWord displayHex headers satoshis roots start lookups = .word (claimsHeight height) none := by
  obtain ⟨r, member, high⟩ := past
  have nonempty : roots ≠ [] := List.ne_nil_of_mem member
  have last := List.getLast?_eq_some_getLast nonempty
  have above : r.1 ≤ (roots.getLast nonempty).1 := by
    rcases List.mem_iff_getElem.mp member with ⟨i, inside, rfl⟩
    rw [List.getLast_eq_getElem]
    rcases Nat.lt_or_eq_of_le (Nat.le_sub_one_of_lt inside) with before | here
    · exact List.pairwise_iff_getElem.mp sorted i _ inside (by omega) before
    · simp [here]
  refine ⟨(roots.getLast nonempty).1, fun start lookups => ?_⟩
  rw [rootsWord, last]
  exact if_pos (high.trans above)

variable (satoshis) in
/-- One request from a place with only carried roots before it: the word, if its heights fit, and otherwise a pause at
a place with only carried roots before it, which is the same place only where the root there fails. -/
theorem request_step (nonempty : roots ≠ []) (small : ∀ r ∈ roots, r.1 < 2 ^ 32) (positive : 1 ≤ limit)
    {front back : List (Nat × Hash)} (whole : roots = front ++ back)
    (carried : ∀ r ∈ front, Carried displayHex headers r) :
    if (heightsAsked displayHex headers back).card ≤ limit then
      rootsWord displayHex headers satoshis roots front.length (some limit) =
        rootsWord displayHex headers satoshis roots 0 none
    else ∃ more rest, back = more ++ rest ∧ (∀ r ∈ more, Carried displayHex headers r) ∧
      (more = [] → ∃ r ∈ rest.head?, Failing headers r) ∧
      rootsWord displayHex headers satoshis roots front.length (some limit) = .paused (front ++ more).length := by
  have limited := askRoots_limited displayHex headers satoshis limit front.length ∅ none back (Nat.zero_le _)
  have place : roots.drop front.length = back := by simp [whole]
  have unlimited : rootsWord displayHex headers satoshis roots 0 none =
      askRoots displayHex headers satoshis none front.length ∅ none back := by
    rw [rootsWord_in_range nonempty small, List.drop_zero, whole, askRoots_none_append 0 ∅ none carried, zero_add]
  rw [Finset.empty_union] at limited
  rw [rootsWord_in_range nonempty small front.length, place, unlimited]
  split
  · rename_i fits
    rwa [if_pos fits] at limited
  · rename_i large
    rw [if_neg large] at limited
    obtain ⟨p, paused, more, rest, rfl, rfl, all, first⟩ := limited
    refine ⟨more, rest, rfl, all, fun none => ?_, by rw [paused, List.length_append]⟩
    rcases first none with full | failing
    · simp at full
      omega
    · exact failing

/-- Requests reach the word when no failing root holds them back. -/
theorem requests_reach (nonempty : roots ≠ []) (small : ∀ r ∈ roots, r.1 < 2 ^ 32) (positive : 1 ≤ limit)
    (reaches : ∀ front r back, roots = front ++ r :: back → (∀ q ∈ front, Carried displayHex headers q) →
      Failing headers r → (heightsAsked displayHex headers (r :: back)).card ≤ limit)
    {word : PaymentVerdict} {failedAt : Option Nat}
    (unlimited : rootsWord displayHex headers satoshis roots 0 none = .word word failedAt)
    (front back : List (Nat × Hash)) (whole : roots = front ++ back)
    (carried : ∀ r ∈ front, Carried displayHex headers r) :
    ∃ n, requests displayHex headers satoshis roots limit n front.length = some word := by
  -- the roots still to be asked grow fewer with each pause
  induction remaining : back.length using Nat.strongRecOn generalizing front back with
  | ind m ih =>
    have step := request_step satoshis nonempty small positive whole carried
    split at step
    · exact ⟨1, by rw [requests, step, unlimited]⟩
    · rename_i large
      obtain ⟨more, rest, rfl, all, first, paused⟩ := step
      have moved : more ≠ [] := by
        intro none
        obtain ⟨r, head, failing⟩ := first none
        subst none
        cases rest with
        | nil => cases head
        | cons other rest =>
          cases head
          exact large (reaches front r rest whole carried failing)
      have fewer : rest.length < m := by
        have := List.length_pos_iff.mpr moved
        rw [List.length_append] at remaining
        omega
      have every : ∀ r ∈ front ++ more, Carried displayHex headers r := by
        intro r member
        rcases List.mem_append.mp member with old | new
        · exact carried r old
        · exact all r new
      obtain ⟨n, reached⟩ := ih rest.length fewer (front ++ more) rest (by rw [whole, List.append_assoc]) every rfl
      exact ⟨n + 1, by rw [requests, paused]; exact reached⟩

variable (satoshis) in
/-- Requests never pass a failing root with too many heights behind it. -/
theorem requests_stuck (nonempty : roots ≠ []) (small : ∀ r ∈ roots, r.1 < 2 ^ 32) (positive : 1 ≤ limit)
    {before : List (Nat × Hash)} {r : Nat × Hash} {after : List (Nat × Hash)} (place : roots = before ++ r :: after)
    (failing : Failing headers r) (large : ¬ (heightsAsked displayHex headers (r :: after)).card ≤ limit)
    (n : Nat) (front back : List (Nat × Hash)) (whole : roots = front ++ back) (early : front <+: before)
    (carried : ∀ q ∈ before, Carried displayHex headers q) :
    requests displayHex headers satoshis roots limit n front.length = none := by
  induction n generalizing front back with
  | zero => rfl
  | succ n ih =>
    obtain ⟨middle, rfl⟩ := early
    have rest : back = middle ++ r :: after := by
      rw [place, List.append_assoc] at whole
      exact (List.append_cancel_left whole).symm
    have larger : ¬ (heightsAsked displayHex headers back).card ≤ limit := by
      intro fits
      apply large
      rw [rest] at fits
      exact (Finset.card_le_card (heightsAsked_append
        (fun q member => carried q (List.mem_append_right _ member)) _)).trans fits
    have step := request_step satoshis nonempty small positive whole
      (fun q member => carried q (List.mem_append_left _ member))
    rw [if_neg larger] at step
    obtain ⟨more, later, split, all, -, paused⟩ := step
    have inside : more <+: middle := by
      rw [rest] at split
      rcases List.append_eq_append_iff.mp split with ⟨extra, rfl, tail⟩ | ⟨extra, rfl, -⟩
      · cases extra with
        | nil => simp
        | cons first extra =>
          cases tail
          exact absurd (all r (by simp)) failing.not_carried
      · exact List.prefix_append _ _
    rw [requests, paused]
    apply ih (front ++ more) later (by rw [whole, split, List.append_assoc])
    exact (List.prefix_append_right_inj front).mpr inside

/-- Asking so many heights a request comes to the unlimited word exactly when no failing root holds it back. -/
theorem sliced_roots_iff {Hash : Type} (displayHex : Hash → String) (headers : Nat → Except String String)
    (satoshis : Nat) (roots : List (Nat × Hash)) (limit : Nat) (sorted : roots.Pairwise (fun a b => a.1 ≤ b.1))
    (positive : 1 ≤ limit) :
    (∃ n word failedAt, requests displayHex headers satoshis roots limit n 0 = some word ∧
      rootsWord displayHex headers satoshis roots 0 none = .word word failedAt) ↔
      Reaches displayHex headers roots limit := by
  by_cases past : ∃ r ∈ roots, 2 ^ 32 ≤ r.1
  · obtain ⟨height, answer⟩ := rootsWord_past displayHex headers satoshis sorted past
    exact iff_of_true ⟨1, claimsHeight height, none, by rw [requests, answer], answer 0 none⟩ (.inl past)
  · have small : ∀ r ∈ roots, r.1 < 2 ^ 32 := fun r member => Nat.lt_of_not_le (fun high => past ⟨r, member, high⟩)
    cases empty : roots with
    | nil =>
      refine iff_of_true ⟨1, _, _, rfl, rfl⟩ (.inr ?_)
      intro front r back whole
      simp at whole
    | cons first others =>
      have nonempty : roots ≠ [] := by simp [empty]
      rw [← empty]
      have unlimited : ∃ word failedAt, rootsWord displayHex headers satoshis roots 0 none = .word word failedAt := by
        rw [rootsWord_in_range nonempty small]
        exact askRoots_none_word ..
      constructor
      · rintro ⟨n, word, failedAt, reached, -⟩
        refine .inr (fun front r back whole carried failing => ?_)
        by_contra large
        have stuck := requests_stuck satoshis nonempty small positive whole failing large n [] roots rfl
          List.nil_prefix carried
        rw [List.length_nil, reached] at stuck
        cases stuck
      · intro reaches
        obtain ⟨word, failedAt, unlimited⟩ := unlimited
        obtain ⟨n, reached⟩ := requests_reach nonempty small positive (reaches.resolve_left past) unlimited [] roots
          rfl (by simp)
        exact ⟨n, word, failedAt, reached, unlimited⟩

/-- A service whose first height cannot be looked up. -/
def lostHeader (height : Nat) : Except String String :=
  if height = 1 then .error "no header at 1" else .ok "cc"

theorem sliced_roots_reach : (∃ n word failedAt,
    requests (fun root : String => root) lostHeader 5 [(2, "cc"), (3, "CC"), (4, "dd")] 1 n 0 = some word ∧
      rootsWord (fun root : String => root) lostHeader 5 [(2, "cc"), (3, "CC"), (4, "dd")] 0 none =
        .word word failedAt) := by
  refine (sliced_roots_iff (fun root : String => root) lostHeader 5 [(2, "cc"), (3, "CC"), (4, "dd")] 1
    (by decide) (by decide)).mpr (.inr ?_)
  rintro front r back whole - ⟨reason, failing⟩
  have member : r ∈ [(2, "cc"), (3, "CC"), (4, "dd")] := by simp [whole]
  fin_cases member <;> cases failing

/-- The second root is mismatched. With one lookup a request it is never asked. -/
theorem sliced_roots_never_end :
    rootsWord (fun root : String => root) lostHeader 5 [(1, "aa"), (2, "bb")] 0 none =
        .word (.rootMismatch 2 "bb") none ∧
      ∀ n, requests (fun root : String => root) lostHeader 5 [(1, "aa"), (2, "bb")] 1 n 0 = none := by
  have paused : rootsWord (fun root : String => root) lostHeader 5 [(1, "aa"), (2, "bb")] 0 (some 1) = .paused 0 := by
    decide
  refine ⟨by decide, fun n => ?_⟩
  induction n with
  | zero => rfl
  | succ n ih =>
    rw [requests, paused]
    exact ih

end Requests

end

end MessageRelay.Door
