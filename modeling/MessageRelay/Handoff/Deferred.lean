import MessageRelay.Handoff.HandOff

/-! Whether a fee the hand-off answers as deferred is in the ledger as this payment's. The insert ignores a row that
is there already, so it is exactly when that row is this fee, still owed. -/

namespace MessageRelay.Handoff
open MessageRelay.Library MessageRelay.Session MessageRelay.Send

/-- The ledger's row of a key. -/
def Ledger.row (l : Ledger) (key : String) : Option FeeRow := l.fees.find? (fun r => r.fee.key = key)

/-- The row is a fee still owed, of these bytes and these arguments. -/
def FeeRow.presents (r : FeeRow) (stamp : Stamp) (args : String) : Prop :=
  r.ended = none ∧ r.fee.etag = stamp.etag ∧ r.fee.args = args

/-- A fee answered as deferred is in the ledger, as the drain will present it. -/
def DeferredIsOwed (s : Stores) (paid : Paid) (w : Weather) : Prop :=
  ∀ handed s', handOff s paid w = (.ok handed, s') → handed.fee = .deferred →
    ∃ key stamp output r, handed.kept = some key ∧ s'.objects key = some stamp ∧ paid.serverOutput = some output ∧
      s'.ledger.row key = some r ∧ r.presents stamp (feeArgs output paid.payment).text

/-- What a hand-off has in hand as it comes to defer a fee for good: the key, the stamp and the server's output. -/
def deferral (s : Stores) (paid : Paid) (w : Weather) : Option (String × Stamp × Value) :=
  if paid.r2Key.isNone && paid.inHand.isNone then none
  else
    match atRest s paid w with
    | .error _ => none
    | .ok rest =>
      match beforeFee s paid w rest with
      | (.error _, _) => none
      | (.ok announced, s) =>
        match paid.serverOutput, askWallet paid w announced.rest, spool s paid w announced.rest with
        | some output, .owed _, (.ok (some (key, stamp)), s) =>
          if w.deferred = .ok ∧ wordNow s paid w = none then some (key, stamp, output) else none
        | _, _, _ => none

inductive Request where
  | upload (key : String) (stamp : Stamp)
  | send (paid : Paid) (weather : Weather)
  | drain (answers : String → FeeAnswers) (now limit : Nat)
  | name (key : String)
  | release (key : String)
  | reclaim (key : String) (answers : Bool)

def request (s : Stores) : Request → Stores
  | .upload key stamp => s.put key stamp
  | .send paid weather => (handOff s paid weather).2
  | .drain answers now limit => drainFees s answers now limit
  | .name key => { s with rows := key :: s.rows }
  | .release key => { s with rows := s.rows.erase key }
  | .reclaim key answers => s.reclaim key answers

def feeMachine : Machine Stores Request Empty := ⟨fun s r => (request s r, [])⟩

abbrev FeeConfig := Config Stores Empty

/-- The condition on one request. A send that comes to defer a fee finds no row of its key, or its own fee, still
owed. -/
def FindsRoom (c : FeeConfig) : Request → Prop
  | .send paid w => ∀ key stamp output, deferral c.state paid w = some (key, stamp, output) →
      ∀ r, c.state.ledger.row key = some r → r.presents stamp (feeArgs output paid.payment).text
  | _ => True

theorem row_defer (l : Ledger) (fee : DeferredFee) :
    (l.defer fee).row fee.key = (l.row fee.key).or (some ⟨fee, none, none⟩) := by
  unfold Ledger.defer
  split
  · rename_i any
    obtain ⟨r, found⟩ := Option.isSome_iff_exists.mp (List.find?_isSome.mpr (List.any_eq_true.mp any))
    simp [Ledger.row, found]
  · simp [Ledger.row, List.find?_append]

/-- The bytes a hand-off holds to be at rest are there. -/
def Resting (s : Stores) (rest : Rest) : Prop := ∀ key stamp, rest = some (key, stamp) → s.objects key = some stamp

/-- What a stage before the fee leaves alone, and that the bytes rest where it says. -/
structure Kept (s s' : Stores) (rest : Rest) : Prop where
  fees : s'.ledger.fees = s.ledger.fees
  word : s'.ledger.walletWord = s.ledger.walletWord
  resting : Resting s' rest

theorem Kept.trans {a b c : Stores} {rest rest' : Rest} (first : Kept a b rest) (second : Kept b c rest') :
    Kept a c rest' :=
  ⟨second.fees.trans first.fees, second.word.trans first.word, second.resting⟩

theorem Kept.refl {s : Stores} {rest : Rest} (resting : Resting s rest) : Kept s s rest := ⟨rfl, rfl, resting⟩

theorem atRest_resting {s : Stores} {paid : Paid} {w : Weather} {rest : Rest} (found : atRest s paid w = .ok rest) :
    Resting s rest := by
  unfold atRest at found
  split at found
  · split at found <;> cases found
    rename_i there
    rintro _ _ ⟨⟩
    exact there
  · split at found <;> cases found
    intro key stamp same
    obtain ⟨stamp', there, pair⟩ := Option.map_eq_some_iff.mp same
    cases pair
    exact there
  · cases found
    rintro _ _ ⟨⟩

theorem spool_kept {s s' : Stores} {paid : Paid} {w : Weather} {rest rest' : Rest} (resting : Resting s rest)
    (spooled : spool s paid w rest = (.ok rest', s')) : Kept s s' rest' := by
  unfold spool at spooled
  split at spooled
  · split at spooled <;> cases spooled
    refine ⟨rfl, rfl, ?_⟩
    rintro _ _ ⟨⟩
    exact Function.update_self ..
  · cases spooled
    exact Kept.refl resting

theorem announceOwed_kept {s s' : Stores} {paid : Paid} {w : Weather} {rest : Rest} {txid : String} {said : Hint}
    {announced : Announced} (resting : Resting s rest)
    (came : announceOwed s paid w rest txid said = (.ok announced, s')) : Kept s s' announced.rest := by
  unfold announceOwed at came
  split at came
  · cases came
  · rename_i spooled
    cases came
    exact spool_kept resting spooled
  · rename_i key stamp t spooled
    have kept := spool_kept resting spooled
    split at came
    · cases came
    · rename_i written
      cases came
      obtain ⟨-, rfl⟩ := Prod.mk.inj written
      split
      · refine kept.trans ⟨?_, ?_, kept.resting⟩ <;> · unfold Ledger.oweAnnounce; split <;> rfl
      · exact kept

theorem announce_kept {s s' : Stores} {paid : Paid} {w : Weather} {rest : Rest} {announced : Announced}
    (resting : Resting s rest) (came : announce s paid w rest = (.ok announced, s')) : Kept s s' announced.rest := by
  unfold announce at came
  split at came
  · simp only at came
    generalize (if rest.isSome || paid.inHand.isSome then w.announcer else none) = word at came
    split at came
    · exact announceOwed_kept resting came
    · cases came
      exact Kept.refl resting
  · cases came
    exact Kept.refl resting

theorem beforeFee_kept {s s' : Stores} {paid : Paid} {w : Weather} {rest : Rest} {announced : Announced}
    (resting : Resting s rest) (came : beforeFee s paid w rest = (.ok announced, s')) : Kept s s' announced.rest := by
  unfold beforeFee at came
  split at came
  · cases came
  · split at came
    · cases came
    · rename_i rest' t spooled
      have kept : Kept s t rest' := by
        split at spooled
        · exact spool_kept resting spooled
        · cases spooled
          exact Kept.refl resting
      exact kept.trans (announce_kept kept.resting came)

theorem wordNow_defer (s : Stores) (paid : Paid) (w : Weather) (fee : DeferredFee) :
    wordNow { s with ledger := s.ledger.defer fee } paid w = wordNow s paid w := by
  have same : (s.ledger.defer fee).walletWord = s.ledger.walletWord := by
    unfold Ledger.defer
    split <;> rfl
  simp only [wordNow, Ledger.freshWord, same]

/-- A fee is deferred for good exactly when the insert is answered and no word ends it. -/
theorem deferFee_eq_deferred {s s' : Stores} {paid : Paid} {w : Weather} {output : Value} {key : String}
    {stamp : Stamp} :
    deferFee s paid w output key stamp = (.ok .deferred, s') ↔
      (w.deferred = .ok ∧ wordNow s paid w = none) ∧
        s' = { s with ledger := s.ledger.defer (feeOf paid output key stamp) } := by
  unfold deferFee
  cases answered : w.deferred with
  | failed | failedLanded => simp [Outcome.write]
  | ok =>
    simp only [Outcome.write, Outcome.landed, if_true, wordNow_defer]
    cases word : wordNow s paid w with
    | none => simp [eq_comm]
    | some word =>
      simp only [reduceCtorEq, and_false, false_and, iff_false]
      cases w.ended <;> simp

/-- A hand-off whose stages come to the fee goes on from there. -/
theorem handOff_eq {s t : Stores} {paid : Paid} {w : Weather} {rest : Rest} {announced : Announced} {output : Value}
    (valid : ¬(paid.r2Key.isNone && paid.inHand.isNone) = true) (found : atRest s paid w = .ok rest)
    (came : beforeFee s paid w rest = (.ok announced, t)) (owes : paid.serverOutput = some output) :
    handOff s paid w =
      match settleFee t paid w announced.rest with
      | (.error answer, s) => (.error answer, s)
      | (.ok (fee, rest), s) => ((.ok (finish s paid w announced fee rest).1), (finish s paid w announced fee rest).2) := by
  unfold handOff
  rw [if_neg valid, found]
  simp only [owes, came]
  cases heldToDoor paid rest <;> rfl

theorem finish_deferred (s : Stores) (paid : Paid) (w : Weather) (announced : Announced) (rest : Rest) :
    (finish s paid w announced .deferred rest).1.fee = .deferred ∧
      (finish s paid w announced .deferred rest).1.kept = rest.map (·.1) ∧
      (finish s paid w announced .deferred rest).2 = s := by
  simp [finish]

theorem finish_fee (s : Stores) (paid : Paid) (w : Weather) (announced : Announced) (fee : Fee) (rest : Rest) :
    (finish s paid w announced fee rest).1.fee = fee := by
  unfold finish
  split <;> rfl

/-- A hand-off that comes to defer a fee answers so, with the insert made. -/
theorem handOff_of_deferral {s : Stores} {paid : Paid} {w : Weather} {key : String} {stamp : Stamp} {output : Value}
    (comes : deferral s paid w = some (key, stamp, output)) :
    ∃ handed s', handOff s paid w = (.ok handed, s') ∧ handed.fee = .deferred ∧ handed.kept = some key ∧
      s'.objects key = some stamp ∧ paid.serverOutput = some output ∧
      s'.ledger.row key = (s.ledger.row key).or (some ⟨feeOf paid output key stamp, none, none⟩) := by
  unfold deferral at comes
  split at comes
  · cases comes
  · rename_i valid
    split at comes
    · cases comes
    · rename_i rest found
      split at comes
      · cases comes
      · rename_i announced t came
        split at comes
        · rename_i output' why key' stamp' u owes asked spooled
          split at comes
          · rename_i answered
            cases comes
            have before := beforeFee_kept (atRest_resting found) came
            have kept := before.trans (spool_kept before.resting spooled)
            have deferred : deferFee u paid w output key stamp =
                (.ok .deferred, { u with ledger := u.ledger.defer (feeOf paid output key stamp) }) :=
              deferFee_eq_deferred.mpr ⟨answered, rfl⟩
            obtain ⟨fee, keeps, same⟩ := finish_deferred
              { u with ledger := u.ledger.defer (feeOf paid output key stamp) } paid w announced (some (key, stamp))
            refine ⟨_, { u with ledger := u.ledger.defer (feeOf paid output key stamp) }, ?_, fee, keeps, ?_, owes, ?_⟩
            · rw [handOff_eq valid found came owes]
              simp only [settleFee, owes, asked, spooled, deferred, same]
            · exact kept.resting key stamp rfl
            · have row := row_defer u.ledger (feeOf paid output key stamp)
              simp only [Ledger.row, kept.fees] at row ⊢
              exact row
          · cases comes
        · cases comes

theorem settleFee_deferred {s s' : Stores} {paid : Paid} {w : Weather} {rest rest' : Rest}
    (settled : settleFee s paid w rest = (.ok (.deferred, rest'), s')) :
    ∃ output why key stamp u, paid.serverOutput = some output ∧ askWallet paid w rest = .owed why ∧
      spool s paid w rest = (.ok (some (key, stamp)), u) ∧ w.deferred = .ok ∧ wordNow u paid w = none := by
  unfold settleFee at settled
  split at settled
  · cases settled
  · rename_i output owes
    split at settled
    · cases settled
    · cases settled
    · rename_i why asked
      split at settled
      · cases settled
      · cases settled
      · rename_i key stamp u spooled
        split at settled
        · cases settled
        · rename_i fee t deferred
          cases settled
          obtain ⟨⟨answered, wordless⟩, -⟩ := deferFee_eq_deferred.mp deferred
          exact ⟨output, why, key, stamp, u, owes, asked, spooled, answered, wordless⟩

/-- A hand-off that answers a fee as deferred came to defer it. -/
theorem deferral_of_handOff {s s' : Stores} {paid : Paid} {w : Weather} {handed : HandedOff}
    (answered : handOff s paid w = (.ok handed, s')) (deferred : handed.fee = .deferred) :
    ∃ key stamp output, deferral s paid w = some (key, stamp, output) := by
  unfold handOff at answered
  split at answered
  · cases answered
  · rename_i valid
    split at answered
    · cases answered
    · rename_i rest found
      split at answered
      · cases answered
        cases deferred
      · split at answered
        · cases answered
        · rename_i announced t came
          split at answered
          · cases answered
          · rename_i fee rest' u settled
            have fees := finish_fee u paid w announced fee rest'
            generalize finish u paid w announced fee rest' = finished at answered fees
            cases answered
            rw [fees] at deferred
            subst deferred
            obtain ⟨output, why, key, stamp, v, owes, asked, spooled, answered, wordless⟩ := settleFee_deferred settled
            refine ⟨key, stamp, output, ?_⟩
            unfold deferral
            rw [if_neg valid, found]
            simp only [came, owes, asked, spooled, answered, wordless, and_self, if_true]

/-- A send's deferred fee is owed exactly when it found room for it. -/
theorem deferredIsOwed_iff (s : Stores) (paid : Paid) (w : Weather) :
    DeferredIsOwed s paid w ↔ FindsRoom ⟨s, []⟩ (.send paid w) := by
  constructor
  · intro owed key stamp output comes r before
    obtain ⟨handed, s', answered, deferred, keeps, there, owes, row⟩ := handOff_of_deferral comes
    obtain ⟨key', stamp', output', r', keeps', there', owes', row', presents⟩ := owed handed s' answered deferred
    cases keeps.symm.trans keeps'
    cases there.symm.trans there'
    cases owes.symm.trans owes'
    rw [row', before] at row
    cases row
    exact presents
  · intro room handed s' answered deferred
    obtain ⟨key, stamp, output, comes⟩ := deferral_of_handOff answered deferred
    obtain ⟨handed', t, again, -, keeps, there, owes, row⟩ := handOff_of_deferral comes
    cases again.symm.trans answered
    cases before : s.ledger.row key with
    | none =>
      rw [before] at row
      exact ⟨key, stamp, output, _, keeps, there, owes, row, rfl, rfl, rfl⟩
    | some r =>
      rw [before] at row
      exact ⟨key, stamp, output, r, keeps, there, owes, row, room key stamp output comes r before⟩

/-- Every fee a run answers as deferred is owed exactly when every send of the run that comes to defer one finds no
row of its key, or its own. -/
theorem deferred_fees_owed (s : Stores) (requests : List Request) :
    (∀ front paid w, front ++ [.send paid w] <+: requests →
      DeferredIsOwed (feeMachine.run ⟨s, []⟩ front).state paid w) ↔
      feeMachine.Guarded FindsRoom ⟨s, []⟩ requests := by
  rw [feeMachine.guarded_iff_forall_step]
  constructor
  · intro owed front r part
    cases r with
    | send paid w => exact (deferredIsOwed_iff _ paid w).mp (owed front paid w part)
    | upload | drain | name | release | reclaim => trivial
  · intro room front paid w part
    exact (deferredIsOwed_iff _ paid w).mpr (room front (.send paid w) part)

/-- A fee of an upload, which wallet-infra does not answer for. -/
def unansweredPaid (etag : String) : Paid :=
  { payment := .object [], carrier := none, r2Key := some "k", spooled := none, spoolKey := "spool",
    serverOutput := some .null, stamp := some ⟨1, etag⟩, txid := some "t", rows := false, reader := "relay", now := 0 }

def unansweredWeather : Weather :=
  { stampFails := none, spool := .error "", reader := none, announcer := none, owed := .ok, readBack := .ok "00",
    wallet := .error "no answer", deferred := .ok, wordRead := true, ended := .ok, reclaims := true }

def drainAnswers : FeeAnswers :=
  { stampFails := none, bucketName := some "b", argsParse := true, wallet := .error "no answer", recorded := .ok,
    worded := .ok, wordRead := true, reclaims := true }

/-- A key uploaded again ends its first fee; the fee of the second upload is answered as deferred, and is not. -/
theorem ended_fee_answered_deferred :
    ¬ DeferredIsOwed (feeMachine.run ⟨⟨fun _ => none, [], ⟨[], [], none⟩⟩, []⟩
      [.upload "k" ⟨1, "a"⟩, .send (unansweredPaid "a") unansweredWeather, .upload "k" ⟨1, "b"⟩,
        .drain (fun _ => drainAnswers) 0 10]).state (unansweredPaid "b") unansweredWeather := by
  rw [deferredIsOwed_iff]
  intro room
  have ended := (room "k" ⟨1, "b"⟩ .null rfl _ rfl).1
  exact absurd ended (by decide +kernel)

end MessageRelay.Handoff
