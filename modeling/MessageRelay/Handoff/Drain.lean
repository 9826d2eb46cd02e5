import MessageRelay.Handoff.Deferred

/-! The drain of the fees, call after call, on a ledger that answers. What a call does to a row is told once for each
outcome of a try, and a call moves each row at most once since the keys of the due rows differ. -/

namespace MessageRelay.Handoff
open MessageRelay.Library MessageRelay.Session MessageRelay.Send

namespace Ledger

/-- The primary key of `fee_internalize`. -/
def Keyed (l : Ledger) : Prop := (l.fees.map (·.fee.key)).Nodup

/-- `FEES_FIGURE_SQL`: the fees still owed, and the fees ended. -/
def feesFigure (l : Ledger) : Nat × Nat := (l.fees.countP (·.ended.isNone), l.fees.countP (·.ended.isSome))

/-- Nothing that asks what is owed finds the fee of the key: not the drain, not the look before a reclaim, not the
health figure. -/
structure Forgets (l : Ledger) (key : String) : Prop where
  due : ∀ now limit, key ∉ (l.due now limit).map (·.key)
  owes : l.owes key = l.announces.any (fun a => a.key = key)
  figure : (l.settle key).feesFigure.1 = l.feesFigure.1

end Ledger

/-- What the store, the deployment and wallet-infra answer while one fee is drained, the ledger answering. -/
structure FeeMeets where
  stampFails : Option String
  bucketName : Option String
  argsParse : Bool
  wallet : Except String Bool
  reclaims : Bool

def FeeMeets.answers (m : FeeMeets) : FeeAnswers :=
  { stampFails := m.stampFails, bucketName := m.bucketName, argsParse := m.argsParse, wallet := m.wallet,
    recorded := .ok, worded := .ok, wordRead := true, reclaims := m.reclaims }

/-- One call: its time, its limit, the bucket and the rows as they stand then, and what each fee meets. -/
structure DrainCall where
  now : Nat
  limit : Nat
  objects : String → Option Stamp
  rows : List String
  meets : String → FeeMeets

/-- What wallet-infra answers a fee it is asked to record. It is asked only of an object that is still the upload. -/
def walletAsked (s : Stores) (fee : DeferredFee) (answers : FeeAnswers) : Option (Except String Bool) :=
  match answers.stampFails, s.objects fee.key with
  | none, some stamp =>
    if stamp.etag = fee.etag ∧ answers.bucketName.isSome ∧ answers.argsParse then some answers.wallet else none
  | _, _ => none

/-- The fees presented to wallet-infra by one pass, each with its answer. -/
def presentations (answers : String → FeeAnswers) (now : Nat) :
    List DeferredFee → Stores → List (String × Except String Bool)
  | [], _ => []
  | fee :: rest, s =>
    ((walletAsked s fee (answers fee.key)).map (fun answer => (fee.key, answer))).toList ++
      match drainFee s fee (answers fee.key) now with
      | (.error _, _) => []
      | (.ok (), s) => presentations answers now rest s

namespace DrainCall

def stores (call : DrainCall) (l : Ledger) : Stores := ⟨call.objects, call.rows, l⟩

def answers (call : DrainCall) (key : String) : FeeAnswers := (call.meets key).answers

def drain (call : DrainCall) (l : Ledger) : Ledger :=
  (drainFees (call.stores l) call.answers call.now call.limit).ledger

def presents (call : DrainCall) (l : Ledger) : List (String × Except String Bool) :=
  presentations call.answers call.now (l.due call.now call.limit) (call.stores l)

end DrainCall

/-- The ledger under calls of the drain. The log holds what was presented to wallet-infra, and its answers. -/
def drainMachine : Machine Ledger DrainCall (String × Except String Bool) :=
  ⟨fun l call => (call.drain l, call.presents l)⟩

/-- What an answer of wallet-infra says of the relay's bucket: refused, or read. -/
def bucketSaid : Except String Bool → Option Bool
  | .ok true => some false
  | .ok false => none
  | .error e => if cannotReadBucket e then some true else none

/-- The last answer about the bucket was a refusal. -/
def lastRefused (log : List (String × Except String Bool)) (before : Bool) : Bool :=
  ((log.filterMap (fun p => bucketSaid p.2)).getLast?).getD before

/-- What a try does to its own row. -/
def moved (now : Nat) (fee : DeferredFee) (tried : Tried) (r : FeeRow) : Option FeeRow :=
  match tried with
  | .settled => none
  | .putOff why =>
    if feeAttemptsCeiling ≤ fee.attempts + 1 then
      let why := "not recorded after " ++ toString (fee.attempts + 1) ++ " attempts: " ++ why
      some { r with ended := some (keptWord why), lastError := some (keptWord why) }
    else
      some { r with
        fee := { r.fee with attempts := fee.attempts + 1, nextAt := now + backoffSecs (fee.attempts + 1) }
        lastError := some (keptWord why) }
  | .ends why => some { r with ended := some (keptWord why), lastError := some (keptWord why) }

/-- A row after a pass over one fee. -/
def movedRow (now : Nat) (fee : DeferredFee) (tried : Tried) (r : FeeRow) : Option FeeRow :=
  if r.fee.key = fee.key then moved now fee tried r else some r

/-- What a try says of the bucket. -/
def Tried.tells : Tried → Option Bool
  | .settled => some false
  | .putOff _ => none
  | .ends why => if cannotReadBucket why then some true else none

/-- The ledger after a try that the ledger answers. -/
def afterTry (l : Ledger) (now : Nat) (fee : DeferredFee) (tried : Tried) : Ledger :=
  { l with
    fees := l.fees.filterMap (movedRow now fee tried)
    walletWord :=
      match tried with
      | .settled => none
      | .putOff _ => l.walletWord
      | .ends why => if cannotReadBucket why then some (keptWord why, now) else l.walletWord }

theorem write_ok (s : Stores) (ledger : Ledger) : Outcome.ok.write s ledger = (.ok (), { s with ledger }) := rfl

theorem filterMap_movedRow_ends (fees : List FeeRow) (now : Nat) (fee : DeferredFee) (why : String) :
    fees.filterMap (movedRow now fee (.ends why)) = fees.map (fun r => if r.fee.key = fee.key then
      { r with ended := some (keptWord why), lastError := some (keptWord why) } else r) := by
  rw [← List.filterMap_eq_map]
  congr 1
  funext r
  by_cases same : r.fee.key = fee.key <;> simp [movedRow, moved, same]

theorem filterMap_movedRow_settled (fees : List FeeRow) (now : Nat) (fee : DeferredFee) :
    fees.filterMap (movedRow now fee .settled) = fees.filter (fun r => r.fee.key ≠ fee.key) := by
  rw [← List.filterMap_eq_filter]
  congr 1
  funext r
  by_cases same : r.fee.key = fee.key <;> simp [movedRow, moved, same, Option.guard]

theorem filterMap_movedRow_putOff (l : Ledger) (now : Nat) (fee : DeferredFee) (why : String) :
    l.fees.filterMap (movedRow now fee (.putOff why)) =
      if feeAttemptsCeiling ≤ fee.attempts + 1 then
        (l.endFee fee.key ("not recorded after " ++ toString (fee.attempts + 1) ++ " attempts: " ++ why)).fees
      else (l.putOff fee.key (fee.attempts + 1) (now + backoffSecs (fee.attempts + 1)) why).fees := by
  by_cases full : feeAttemptsCeiling ≤ fee.attempts + 1
  · rw [if_pos full, Ledger.endFee, ← List.filterMap_eq_map]
    congr 1
    funext r
    by_cases same : r.fee.key = fee.key <;> simp [movedRow, moved, same, full]
  · rw [if_neg full, Ledger.putOff, ← List.filterMap_eq_map]
    congr 1
    funext r
    by_cases same : r.fee.key = fee.key <;> simp [movedRow, moved, same, full]

theorem reclaim_ledger (s : Stores) (key : String) (answers : Bool) : (s.reclaim key answers).ledger = s.ledger := by
  unfold Stores.reclaim
  split <;> rfl

theorem reclaim_objects (s : Stores) (key : String) (answers : Bool) {other : String} (different : other ≠ key) :
    (s.reclaim key answers).objects other = s.objects other := by
  unfold Stores.reclaim
  split
  · exact Function.update_of_ne different ..
  · rfl

/-- One fee is drained: the ledger moves by what the try came to, and no other object is touched. -/
theorem drainFee_spec (s : Stores) (fee : DeferredFee) (m : FeeMeets) (now : Nat) :
    ∃ t, drainFee s fee m.answers now = (.ok (), t) ∧
      t.ledger = afterTry s.ledger now fee (tryFee s fee m.answers) ∧
      ∀ other, other ≠ fee.key → t.objects other = s.objects other := by
  unfold drainFee
  have recorded : m.answers.recorded = .ok := rfl
  have worded : m.answers.worded = .ok := rfl
  have wordRead : m.answers.wordRead = true := rfl
  cases tryFee s fee m.answers with
  | settled =>
    simp only [recorded, worded, wordRead, write_ok, Bool.true_and]
    generalize gone : Stores.reclaim _ fee.key m.answers.reclaims = t
    have ledger : t.ledger = s.ledger.settle fee.key := by rw [← gone, reclaim_ledger]
    have objects : ∀ other, other ≠ fee.key → t.objects other = s.objects other := by
      intro other different
      rw [← gone, reclaim_objects _ _ _ different]
    by_cases word : t.ledger.walletWord.isSome
    · refine ⟨_, if_pos word, ?_, objects⟩
      simp [afterTry, filterMap_movedRow_settled, ledger, Ledger.settle, Ledger.setWalletWord]
    · refine ⟨_, if_neg word, ?_, objects⟩
      have silent : s.ledger.walletWord = none := by simpa [ledger, Ledger.settle] using word
      simp [afterTry, filterMap_movedRow_settled, ledger, Ledger.settle, silent]
  | putOff why =>
    simp only [recorded, write_ok]
    by_cases full : feeAttemptsCeiling ≤ fee.attempts + 1
    · refine ⟨_, if_pos full, ?_, fun _ _ => rfl⟩
      simp only [afterTry, filterMap_movedRow_putOff, if_pos full, Ledger.endFee]
    · refine ⟨_, if_neg full, ?_, fun _ _ => rfl⟩
      simp only [afterTry, filterMap_movedRow_putOff, if_neg full, Ledger.putOff]
  | ends why =>
    simp only [recorded, worded, write_ok]
    by_cases cannot : cannotReadBucket why
    · refine ⟨_, if_pos cannot, ?_, fun _ _ => rfl⟩
      simp [afterTry, filterMap_movedRow_ends, cannot, Ledger.endFee, Ledger.setWalletWord]
    · refine ⟨_, if_neg cannot, ?_, fun _ _ => rfl⟩
      simp [afterTry, filterMap_movedRow_ends, cannot, Ledger.endFee]

theorem movedRow_key {now : Nat} {fee : DeferredFee} {tried : Tried} {r r' : FeeRow}
    (came : movedRow now fee tried r = some r') : r'.fee.key = r.fee.key := by
  unfold movedRow at came
  split at came
  · cases tried with
    | settled => cases came
    | putOff why =>
      simp only [moved] at came
      split at came <;> · cases came; rfl
    | ends why => cases came; rfl
  · cases came; rfl

/-- Rows that are moved or removed one by one, under keys that stay and differ. -/
theorem find_filterMap {fees : List FeeRow} (keyed : (fees.map (·.fee.key)).Nodup) {f : FeeRow → Option FeeRow}
    (keeps : ∀ r r', f r = some r' → r'.fee.key = r.fee.key) (key : String) :
    (fees.filterMap f).find? (fun r => r.fee.key = key) = (fees.find? (fun r => r.fee.key = key)).bind f := by
  induction fees with
  | nil => rfl
  | cons r rest ih =>
    obtain ⟨fresh, keyed⟩ := List.nodup_cons.mp keyed
    by_cases same : r.fee.key = key
    · have alone : (rest.filterMap f).find? (fun r => r.fee.key = key) = none := by
        rw [List.find?_eq_none]
        intro r' member
        obtain ⟨r₀, member₀, came⟩ := List.mem_filterMap.mp member
        have other : r₀.fee.key ≠ r.fee.key := fun h => fresh (List.mem_map.mpr ⟨r₀, member₀, h⟩)
        simpa [keeps r₀ r' came, ← same] using other
      cases came : f r with
      | none => simp [came, same, alone]
      | some r' =>
        have kept := (keeps r r' came).trans same
        simp [came, same, kept]
    · cases came : f r with
      | none => simp [came, same, ih keyed]
      | some r' =>
        have kept : r'.fee.key ≠ key := fun h => same ((keeps r r' came).symm.trans h)
        simp [came, same, kept, ih keyed]

theorem keys_filterMap_sublist (fees : List FeeRow) {f : FeeRow → Option FeeRow}
    (keeps : ∀ r r', f r = some r' → r'.fee.key = r.fee.key) :
    ((fees.filterMap f).map (·.fee.key)).Sublist (fees.map (·.fee.key)) := by
  induction fees with
  | nil => exact List.Sublist.slnil
  | cons r rest ih =>
    cases came : f r with
    | none => simpa [List.filterMap_cons, came] using ih.cons r.fee.key
    | some r' => simpa [List.filterMap_cons, came, keeps r r' came] using ih.cons_cons r.fee.key

theorem keyed_afterTry {l : Ledger} (keyed : l.Keyed) (now : Nat) (fee : DeferredFee) (tried : Tried) :
    (afterTry l now fee tried).Keyed :=
  (keys_filterMap_sublist l.fees (fun _ _ came => movedRow_key came)).nodup keyed

theorem row_afterTry {l : Ledger} (keyed : l.Keyed) (now : Nat) (fee : DeferredFee) (tried : Tried) (key : String) :
    (afterTry l now fee tried).row key = (l.row key).bind (movedRow now fee tried) :=
  find_filterMap keyed (fun _ _ came => movedRow_key came) key

theorem row_key {l : Ledger} {key : String} {r : FeeRow} (found : l.row key = some r) : r.fee.key = key := by
  simpa using List.find?_some found

theorem row_of_mem {l : Ledger} (keyed : l.Keyed) {r : FeeRow} (member : r ∈ l.fees) : l.row r.fee.key = some r := by
  have found : (l.row r.fee.key).isSome := by
    rw [Ledger.row, List.find?_isSome]
    exact ⟨r, member, by simp⟩
  obtain ⟨r', found⟩ := Option.isSome_iff_exists.mp found
  have member' := List.mem_of_find?_eq_some found
  rw [found, List.inj_on_of_nodup_map keyed member' member (row_key found)]

theorem tryFee_congr {s t : Stores} {fee : DeferredFee} (same : s.objects fee.key = t.objects fee.key)
    (answers : FeeAnswers) : tryFee s fee answers = tryFee t fee answers := by
  simp only [tryFee, same]

theorem walletAsked_congr {s t : Stores} {fee : DeferredFee} (same : s.objects fee.key = t.objects fee.key)
    (answers : FeeAnswers) : walletAsked s fee answers = walletAsked t fee answers := by
  simp only [walletAsked, same]

theorem containsText_append (front : String) {word part : String} (contains : containsText word part = true) :
    containsText (front ++ word) part = true := by
  simp only [containsText, decide_eq_true_eq, String.toList_append] at contains ⊢
  exact contains.trans (List.suffix_append _ _).isInfix

theorem cannotReadBucket_append (front : String) {word : String} (cannot : cannotReadBucket word = true) :
    cannotReadBucket (front ++ word) = true := by
  simp only [cannotReadBucket, Bool.or_eq_true, Bool.and_eq_true] at cannot ⊢
  rcases cannot with none | ⟨bucket, unbound⟩
  · exact Or.inl (containsText_append front none)
  · exact Or.inr ⟨containsText_append front bucket, containsText_append front unbound⟩

/-- The relay's own reasons to end a fee do not speak of wallet-infra's reach. -/
theorem tells_own_words :
    (Tried.ends "the object is not in the store").tells = none ∧
      (Tried.ends "another upload is at the key").tells = none ∧
      (Tried.ends "the deployment names no bucket for the reference").tells = none ∧
      (Tried.ends "the row's arguments do not parse").tells = none :=
  ⟨rfl, rfl, rfl, rfl⟩

/-- A try comes to a word about the bucket exactly by what wallet-infra answered. -/
theorem tells_tryFee (s : Stores) (fee : DeferredFee) (answers : FeeAnswers) :
    (tryFee s fee answers).tells = (walletAsked s fee answers).bind bucketSaid := by
  obtain ⟨gone, replaced, unnamed, unparsed⟩ := tells_own_words
  unfold tryFee walletAsked
  cases answers.stampFails with
  | some e => rfl
  | none =>
    cases s.objects fee.key with
    | none => simpa using gone
    | some stamp =>
      by_cases etag : stamp.etag = fee.etag
      · cases bucket : answers.bucketName with
        | none => simpa [etag] using unnamed
        | some name =>
          cases parse : answers.argsParse with
          | false => simpa [etag] using unparsed
          | true =>
            cases wallet : answers.wallet with
            | ok accepted => cases accepted <;> simp [etag, Tried.tells, bucketSaid]
            | error e =>
              by_cases cannot : cannotReadBucket e
              · simp [etag, Tried.tells, bucketSaid, cannot, cannotReadBucket_append]
              · simp [etag, Tried.tells, bucketSaid, cannot]
      · simpa [etag] using replaced

/-- The relay has a fee recorded only where wallet-infra answered that it accepted it. -/
theorem walletAsked_of_settled {s : Stores} {fee : DeferredFee} {answers : FeeAnswers}
    (settled : tryFee s fee answers = .settled) : walletAsked s fee answers = some (.ok true) := by
  have told := tells_tryFee s fee answers
  rw [settled] at told
  cases asked : walletAsked s fee answers with
  | none => simp [asked, Tried.tells] at told
  | some answer =>
    match answer with
    | .ok true => rfl
    | .ok false => simp [asked, Tried.tells, bucketSaid] at told
    | .error e =>
      simp only [asked, Tried.tells, bucketSaid, Option.bind_some] at told
      split at told <;> cases told

variable {meets : String → FeeMeets} {now : Nat}

variable (meets now) in
theorem drainDue_cons (fee : DeferredFee) (rest : List DeferredFee) (s : Stores) :
    ∃ t, drainDue (fun key => (meets key).answers) now (fee :: rest) s =
        drainDue (fun key => (meets key).answers) now rest t ∧
      presentations (fun key => (meets key).answers) now (fee :: rest) s =
        ((walletAsked s fee (meets fee.key).answers).map (fun answer => (fee.key, answer))).toList ++
          presentations (fun key => (meets key).answers) now rest t ∧
      t.ledger = afterTry s.ledger now fee (tryFee s fee (meets fee.key).answers) ∧
      ∀ other, other ≠ fee.key → t.objects other = s.objects other := by
  obtain ⟨t, drained, ledger, objects⟩ := drainFee_spec s fee (meets fee.key) now
  refine ⟨t, ?_, ?_, ledger, objects⟩
  · simp only [drainDue, drained]
  · simp only [presentations, drained]

theorem drainDue_keyed (fees : List DeferredFee) {s : Stores} (keyed : s.ledger.Keyed) :
    (drainDue (fun key => (meets key).answers) now fees s).ledger.Keyed := by
  induction fees generalizing s with
  | nil => exact keyed
  | cons fee rest ih =>
    obtain ⟨t, drained, -, ledger, -⟩ := drainDue_cons meets now fee rest s
    rw [drained]
    exact ih (ledger ▸ keyed_afterTry keyed ..)

/-- A row no fee of the pass names stays as it is. -/
theorem drainDue_row_other {fees : List DeferredFee} {s : Stores} (keyed : s.ledger.Keyed) {key : String}
    (absent : key ∉ fees.map (·.key)) :
    (drainDue (fun key => (meets key).answers) now fees s).ledger.row key = s.ledger.row key := by
  induction fees generalizing s with
  | nil => rfl
  | cons fee rest ih =>
    obtain ⟨t, drained, -, ledger, -⟩ := drainDue_cons meets now fee rest s
    obtain ⟨different, absent⟩ := not_or.mp (List.mem_cons.not.mp absent)
    have unmoved : (s.ledger.row key).bind
        (movedRow now fee (tryFee s fee (meets fee.key).answers)) = s.ledger.row key := by
      cases found : s.ledger.row key with
      | none => rfl
      | some r => simp [movedRow, row_key found, different]
    rw [drained, ih (ledger ▸ keyed_afterTry keyed ..) absent, ledger, row_afterTry keyed, unmoved]

/-- A row the pass names is moved by its own fee's try, and by nothing else. -/
theorem drainDue_row {fees : List DeferredFee} (distinct : (fees.map (·.key)).Nodup) {s : Stores}
    (keyed : s.ledger.Keyed) {fee : DeferredFee} (member : fee ∈ fees) {r : FeeRow}
    (found : s.ledger.row fee.key = some r) :
    (drainDue (fun key => (meets key).answers) now fees s).ledger.row fee.key =
      moved now fee (tryFee s fee (meets fee.key).answers) r := by
  induction fees generalizing s with
  | nil => cases member
  | cons first rest ih =>
    obtain ⟨t, drained, -, ledger, objects⟩ := drainDue_cons meets now first rest s
    obtain ⟨fresh, distinct⟩ := List.nodup_cons.mp distinct
    have keyed' : t.ledger.Keyed := ledger ▸ keyed_afterTry keyed ..
    rcases List.mem_cons.mp member with rfl | later
    · rw [drained, drainDue_row_other keyed' fresh, ledger, row_afterTry keyed, found]
      simp [movedRow, row_key found]
    · have different : fee.key ≠ first.key := fun h => fresh (List.mem_map.mpr ⟨fee, later, h⟩)
      have found' : t.ledger.row fee.key = some r := by
        rw [ledger, row_afterTry keyed, found]
        simp [movedRow, row_key found, different]
      rw [drained, ih distinct keyed' later found', tryFee_congr (objects _ different)]

theorem presentations_eq {fees : List DeferredFee} (distinct : (fees.map (·.key)).Nodup) (s : Stores) :
    presentations (fun key => (meets key).answers) now fees s = fees.filterMap (fun fee =>
      (walletAsked s fee (meets fee.key).answers).map (fun answer => (fee.key, answer))) := by
  induction fees generalizing s with
  | nil => rfl
  | cons first rest ih =>
    obtain ⟨t, -, presented, -, objects⟩ := drainDue_cons meets now first rest s
    obtain ⟨fresh, distinct⟩ := List.nodup_cons.mp distinct
    have later : rest.filterMap (fun fee =>
          (walletAsked t fee (meets fee.key).answers).map (fun answer => (fee.key, answer))) =
        rest.filterMap (fun fee =>
          (walletAsked s fee (meets fee.key).answers).map (fun answer => (fee.key, answer))) := by
      apply List.filterMap_congr
      intro fee member
      have different : fee.key ≠ first.key := fun h => fresh (List.mem_map.mpr ⟨fee, member, h⟩)
      rw [walletAsked_congr (objects _ different)]
    rw [presented, ih distinct, later, List.filterMap_cons]
    cases walletAsked s first (meets first.key).answers <;> rfl

theorem lastRefused_append (first second : List (String × Except String Bool)) (before : Bool) :
    lastRefused (first ++ second) before = lastRefused second (lastRefused first before) := by
  simp only [lastRefused, List.filterMap_append, List.getLast?_append]
  cases (second.filterMap (fun p => bucketSaid p.2)).getLast? <;> rfl

theorem afterTry_word (l : Ledger) (fee : DeferredFee) (tried : Tried) :
    (afterTry l now fee tried).walletWord.isSome = tried.tells.getD l.walletWord.isSome := by
  cases tried with
  | settled => rfl
  | putOff why => rfl
  | ends why =>
    simp only [afterTry, Tried.tells]
    split <;> rfl

variable (meets now) in
/-- The relay's word after a pass is what the last answer about the bucket left. -/
theorem drainDue_word (fees : List DeferredFee) (s : Stores) :
    (drainDue (fun key => (meets key).answers) now fees s).ledger.walletWord.isSome =
      lastRefused (presentations (fun key => (meets key).answers) now fees s) s.ledger.walletWord.isSome := by
  induction fees generalizing s with
  | nil => rfl
  | cons fee rest ih =>
    obtain ⟨t, drained, presented, ledger, -⟩ := drainDue_cons meets now fee rest s
    rw [drained, ih, presented, lastRefused_append, ledger, afterTry_word, tells_tryFee]
    congr 1
    cases walletAsked s fee (meets fee.key).answers with
    | none => rfl
    | some answer => cases told : bucketSaid answer <;> simp [lastRefused, told]

theorem mem_due {l : Ledger} {now limit : Nat} {fee : DeferredFee} (member : fee ∈ l.due now limit) :
    ∃ r ∈ l.fees, r.fee = fee ∧ r.fee.nextAt ≤ now ∧ r.ended = none := by
  have listed := (List.mem_insertionSort _).mp (List.mem_of_mem_take member)
  obtain ⟨r, kept, rfl⟩ := List.mem_map.mp listed
  obtain ⟨stored, waits⟩ := List.mem_filter.mp kept
  simp only [Bool.and_eq_true, decide_eq_true_eq, Option.isNone_iff_eq_none] at waits
  exact ⟨r, stored, rfl, waits⟩

theorem due_distinct {l : Ledger} (keyed : l.Keyed) (now limit : Nat) :
    ((l.due now limit).map (·.key)).Nodup := by
  have kept : (((l.fees.filter (fun r => r.fee.nextAt ≤ now && r.ended.isNone)).map (·.fee)).map
      (·.key)).Nodup := by
    rw [List.map_map]
    exact (List.filter_sublist.map _).nodup keyed
  have sorted := ((List.perm_insertionSort (fun a b : DeferredFee => a.nextAt ≤ b.nextAt) _).map
    (·.key)).nodup_iff.mpr kept
  exact ((List.take_sublist limit _).map _).nodup sorted

/-- A row is named by the due fees exactly when it is one of them. -/
theorem mem_due_of_key {l : Ledger} (keyed : l.Keyed) {now limit : Nat} {r : FeeRow} (stored : r ∈ l.fees)
    (named : r.fee.key ∈ (l.due now limit).map (·.key)) :
    r.fee ∈ l.due now limit ∧ r.fee.nextAt ≤ now ∧ r.ended = none := by
  obtain ⟨fee, member, same⟩ := List.mem_map.mp named
  obtain ⟨r', stored', rfl, waits⟩ := mem_due member
  obtain rfl : r' = r := List.inj_on_of_nodup_map keyed stored' stored same
  exact ⟨member, waits⟩

/-- The one move a call of the drain makes of a row that is due. -/
inductive Moves (call : DrainCall) (l : Ledger) (r : FeeRow) : Option FeeRow → Prop where
  | removed (accepted : (r.fee.key, .ok true) ∈ call.presents l) : Moves call l r none
  | ended (why : String) : Moves call l r (some { r with ended := some why, lastError := some why })
  | putOff (why : String) (later : Nat) (soonest : 60 ≤ later) (latest : later ≤ 86400)
      (below : r.fee.attempts + 1 < feeAttemptsCeiling) (strictly : r.fee.nextAt < call.now + later) :
      Moves call l r (some { r with
        fee := { r.fee with attempts := r.fee.attempts + 1, nextAt := call.now + later }
        lastError := some why })

theorem backoffSecs_bounds (attempts : Nat) : 60 ≤ backoffSecs attempts ∧ backoffSecs attempts ≤ 86400 := by
  have positive : 1 ≤ 2 ^ min (attempts - 1) 20 := Nat.one_le_two_pow
  unfold backoffSecs
  omega

/-- How often a row may still be presented. -/
def triesLeft (l : Ledger) (key : String) : Nat :=
  match l.row key with
  | none => 0
  | some r => if r.ended.isSome then 0 else max 1 (feeAttemptsCeiling - r.fee.attempts)

theorem triesLeft_le (l : Ledger) (key : String) : triesLeft l key ≤ feeAttemptsCeiling := by
  unfold triesLeft feeAttemptsCeiling
  split
  · omega
  · split <;> omega

theorem keys_presented_sublist (fees : List DeferredFee) (asked : DeferredFee → Option (Except String Bool)) :
    ((fees.filterMap (fun fee => (asked fee).map (fun answer => (fee.key, answer)))).map (·.1)).Sublist
      (fees.map (·.key)) := by
  induction fees with
  | nil => exact List.Sublist.slnil
  | cons fee rest ih =>
    cases said : asked fee with
    | none => simpa [said] using ih.cons fee.key
    | some answer => simpa [said] using ih.cons_cons fee.key

/-- What every run of calls keeps: the keys, the tries left of each, and the word about the bucket. -/
structure Drained (first : Ledger) (c : Config Ledger (String × Except String Bool)) : Prop where
  keyed : c.state.Keyed
  presented : ∀ key, (c.log.map (·.1)).count key + triesLeft c.state key ≤ triesLeft first key
  word : c.state.walletWord.isSome = lastRefused c.log first.walletWord.isSome

section
variable {l : Ledger} (keyed : l.Keyed) (call : DrainCall)
include keyed

theorem drain_keyed : (call.drain l).Keyed := drainDue_keyed (s := call.stores l) (l.due call.now call.limit) keyed

/-- A row that is due makes one move. -/
theorem drain_moves {r : FeeRow} (stored : r ∈ l.fees) (due : r.fee ∈ l.due call.now call.limit) :
    Moves call l r ((call.drain l).row r.fee.key) := by
  have distinct := due_distinct keyed call.now call.limit
  have moves : (call.drain l).row r.fee.key =
      moved call.now r.fee (tryFee (call.stores l) r.fee (call.meets r.fee.key).answers) r :=
    drainDue_row (s := call.stores l) distinct keyed due (row_of_mem keyed stored)
  obtain ⟨-, waits, -⟩ := mem_due_of_key keyed stored (List.mem_map_of_mem due)
  rw [moves]
  cases tried : tryFee (call.stores l) r.fee (call.meets r.fee.key).answers with
  | settled =>
    apply Moves.removed
    rw [DrainCall.presents, show call.answers = fun key => (call.meets key).answers from rfl,
      presentations_eq distinct]
    exact List.mem_filterMap.mpr ⟨r.fee, due, by simp [walletAsked_of_settled tried]⟩
  | putOff why =>
    simp only [moved]
    split
    · exact Moves.ended _
    · obtain ⟨soonest, latest⟩ := backoffSecs_bounds (r.fee.attempts + 1)
      exact Moves.putOff _ _ soonest latest (by omega) (by omega)
  | ends why => exact Moves.ended _

/-- A row that is not due, or beyond the limit, stays as it is. -/
theorem drain_stays {r : FeeRow} (stored : r ∈ l.fees) (waits : r.fee ∉ l.due call.now call.limit) :
    (call.drain l).row r.fee.key = some r := by
  have absent : r.fee.key ∉ (l.due call.now call.limit).map (·.key) := fun named =>
    waits (mem_due_of_key keyed stored named).1
  exact (drainDue_row_other (s := call.stores l) keyed absent).trans (row_of_mem keyed stored)

/-- An ended row stays as it is. -/
theorem drain_ended {r : FeeRow} (stored : r ∈ l.fees) (ended : r.ended.isSome) : r ∈ (call.drain l).fees := by
  have waits : r.fee ∉ l.due call.now call.limit := by
    intro due
    have unended := (mem_due_of_key keyed stored (List.mem_map_of_mem due)).2.2
    simp [unended] at ended
  exact List.mem_of_find?_eq_some (drain_stays keyed call stored waits)

/-- An ended row is not asked for by anything that looks for what is owed. -/
theorem forgets_of_ended {r : FeeRow} (stored : r ∈ l.fees) (ended : r.ended.isSome) : l.Forgets r.fee.key where
  due now limit named := by
    have unended := (mem_due_of_key keyed stored named).2.2
    simp [unended] at ended
  owes := by
    have closed : l.fees.any (fun r' => r'.fee.key = r.fee.key && r'.ended.isNone) = false := by
      rw [List.any_eq_false]
      intro r' stored'
      by_cases same : r'.fee.key = r.fee.key
      · obtain rfl := List.inj_on_of_nodup_map keyed stored' stored same
        simpa using Option.isSome_iff_ne_none.mp ended
      · simp [same]
    rw [Ledger.owes, closed, Bool.false_or]
  figure := by
    simp only [Ledger.settle, Ledger.feesFigure, List.countP_filter]
    apply List.countP_congr
    intro r' stored'
    by_cases same : r'.fee.key = r.fee.key
    · obtain rfl := List.inj_on_of_nodup_map keyed stored' stored same
      simpa using Option.isSome_iff_ne_none.mp ended
    · simp [same]

/-- What a call presents of a key is paid for by the tries the key had left. -/
theorem presented_le (key : String) :
    ((call.presents l).map (·.1)).count key + triesLeft (call.drain l) key ≤ triesLeft l key := by
  have distinct := due_distinct keyed call.now call.limit
  have presented : ((call.presents l).map (·.1)).Sublist ((l.due call.now call.limit).map (·.key)) := by
    rw [DrainCall.presents, show call.answers = fun key => (call.meets key).answers from rfl,
      presentations_eq distinct]
    exact keys_presented_sublist _ _
  by_cases named : key ∈ (l.due call.now call.limit).map (·.key)
  · obtain ⟨fee, due, rfl⟩ := List.mem_map.mp named
    obtain ⟨r, stored, rfl, -, unended⟩ := mem_due due
    have once := List.nodup_iff_count_le_one.mp (presented.nodup distinct) r.fee.key
    have before : triesLeft l r.fee.key = max 1 (feeAttemptsCeiling - r.fee.attempts) := by
      simp [triesLeft, row_of_mem keyed stored, unended]
    have moves := drain_moves keyed call stored due
    generalize after : (call.drain l).row r.fee.key = row at moves
    cases moves with
    | removed accepted =>
      have left : triesLeft (call.drain l) r.fee.key = 0 := by simp [triesLeft, after]
      omega
    | ended why =>
      have left : triesLeft (call.drain l) r.fee.key = 0 := by simp [triesLeft, after]
      omega
    | putOff why later soonest latest below strictly =>
      have left : triesLeft (call.drain l) r.fee.key = max 1 (feeAttemptsCeiling - (r.fee.attempts + 1)) := by
        simp [triesLeft, after, unended]
      omega
  · have silent : ((call.presents l).map (·.1)).count key = 0 :=
      List.count_eq_zero.mpr (fun member => named (presented.subset member))
    have same : (call.drain l).row key = l.row key := drainDue_row_other (s := call.stores l) keyed named
    rw [silent, triesLeft, triesLeft, same]
    omega

theorem drained_run (calls : List DrainCall) : Drained l (drainMachine.run ⟨l, []⟩ calls) := by
  apply Machine.run_kept
  · intro c call kept
    refine ⟨drain_keyed kept.keyed call, fun key => ?_, ?_⟩
    · have before := kept.presented key
      have step := presented_le kept.keyed call key
      simp only [Machine.advance, drainMachine, List.map_append, List.count_append]
      omega
    · calc (call.drain c.state).walletWord.isSome
          = lastRefused (call.presents c.state) c.state.walletWord.isSome :=
            drainDue_word call.meets call.now _ (call.stores c.state)
        _ = lastRefused (call.presents c.state) (lastRefused c.log l.walletWord.isSome) := by rw [kept.word]
        _ = lastRefused (c.log ++ call.presents c.state) l.walletWord.isSome := (lastRefused_append ..).symm
  · exact ⟨keyed, fun key => by simp, rfl⟩

theorem ended_run {r : FeeRow} (stored : r ∈ l.fees) (ended : r.ended.isSome) (later : List DrainCall)
    (log : List (String × Except String Bool)) :
    r ∈ (drainMachine.run ⟨l, log⟩ later).state.fees ∧ (drainMachine.run ⟨l, log⟩ later).state.Keyed := by
  induction later generalizing l log with
  | nil => exact ⟨stored, keyed⟩
  | cons call rest ih => exact ih (drain_keyed keyed call) (drain_ended keyed call stored ended) _

end

/-- What a run of the drain has done, and what the next call does. A fee that is due makes one move and any other row
none, an ended fee stays ended and forgotten, no fee was presented more often than the ceiling of attempts, and the
relay's word stands exactly while the last answer about the bucket was a refusal. -/
structure InBounds (first : Ledger) (calls : List DrainCall) (c : Config Ledger (String × Except String Bool)) :
    Prop where
  moves : ∀ call, ∀ r ∈ c.state.fees, r.fee ∈ c.state.due call.now call.limit →
    Moves call c.state r ((drainMachine.run ⟨first, []⟩ (calls ++ [call])).state.row r.fee.key)
  stays : ∀ call, ∀ r ∈ c.state.fees, r.fee ∉ c.state.due call.now call.limit →
    (drainMachine.run ⟨first, []⟩ (calls ++ [call])).state.row r.fee.key = some r
  ended : ∀ r ∈ c.state.fees, r.ended.isSome → ∀ later,
    r ∈ (drainMachine.run ⟨first, []⟩ (calls ++ later)).state.fees ∧
      (drainMachine.run ⟨first, []⟩ (calls ++ later)).state.Forgets r.fee.key
  presented : ∀ key, (c.log.map (·.1)).count key ≤ feeAttemptsCeiling
  word : c.state.walletWord.isSome = lastRefused c.log first.walletWord.isSome

theorem fees_drained_in_bounds (first : Ledger) (keyed : first.Keyed) (calls : List DrainCall) :
    InBounds first calls (drainMachine.run ⟨first, []⟩ calls) := by
  have kept := drained_run keyed calls
  refine ⟨?_, ?_, ?_, ?_, kept.word⟩
  · intro call r stored due
    rw [Machine.run_append]
    exact drain_moves kept.keyed call stored due
  · intro call r stored waits
    rw [Machine.run_append]
    exact drain_stays kept.keyed call stored waits
  · intro r stored ended later
    rw [Machine.run_append]
    obtain ⟨stays, keyed'⟩ := ended_run kept.keyed stored ended later (drainMachine.run ⟨first, []⟩ calls).log
    exact ⟨stays, forgets_of_ended keyed' stays ended⟩
  · intro key
    calc ((drainMachine.run ⟨first, []⟩ calls).log.map (·.1)).count key
        ≤ triesLeft first key := le_of_add_le_left (kept.presented key)
      _ ≤ feeAttemptsCeiling := triesLeft_le first key

def owedFee (key : String) : FeeRow := ⟨⟨key, "e", "t", "args", true, 0, 5⟩, none, none⟩

/-- A call that finds every object, and wallet-infra without the bucket for one of them. -/
def halfReadCall : DrainCall where
  now := 100
  limit := 10
  objects := fun _ => some ⟨1, "e"⟩
  rows := []
  meets := fun key =>
    ⟨none, some "bucket", true,
      if key = "b" then .error "no bucket is bound here for bytes at rest" else .ok (key = "a"), true⟩

theorem three_fees_drained :
    InBounds ⟨[owedFee "a", owedFee "b", owedFee "c"], [], none⟩ [halfReadCall]
        (drainMachine.run ⟨⟨[owedFee "a", owedFee "b", owedFee "c"], [], none⟩, []⟩ [halfReadCall]) ∧
      ((halfReadCall.drain ⟨[owedFee "a", owedFee "b", owedFee "c"], [], none⟩).fees.map
        (fun r => (r.fee.key, r.fee.attempts, r.fee.nextAt, r.ended.isSome))) =
          [("b", 0, 5, true), ("c", 1, 160, false)] :=
  ⟨fees_drained_in_bounds _ (by unfold Ledger.Keyed; decide) [halfReadCall], by decide +kernel⟩

end MessageRelay.Handoff
