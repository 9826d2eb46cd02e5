import MessageRelay.Handoff.Deferred

/-! What a hand-off records. Every fee and every announcement that it adds to the ledger names its own spool of the bytes
in hand, or the bytes its payment names, as the door read them. -/

namespace MessageRelay.Handoff
open MessageRelay.Library MessageRelay.Session MessageRelay.Send

/-- The bytes a payment may be recorded by. -/
def Paid.Owns (paid : Paid) (key : String) (stamp : Stamp) : Prop :=
  (paid.inHand.isSome = true ∧ key = paid.spoolKey) ∨
    ((paid.r2Key = some key ∨ paid.r2Key = none ∧ paid.spooled = some key) ∧ ∀ door ∈ paid.stamp, stamp = door)

def Paid.Held (paid : Paid) (rest : Rest) : Prop := ∀ key stamp, rest = some (key, stamp) → paid.Owns key stamp

/-- The rows of a ledger that were in another one, or are of this payment. -/
structure Recorded (paid : Paid) (before after : Ledger) : Prop where
  fees : ∀ row ∈ after.fees, (∃ old ∈ before.fees, old.fee = row.fee) ∨ ∃ output stamp,
    paid.serverOutput = some output ∧ paid.Owns row.fee.key stamp ∧ row.fee = feeOf paid output row.fee.key stamp
  announces : ∀ row ∈ after.announces, row ∈ before.announces ∨ ∃ stamp,
    paid.serverOutput.isSome = true ∧ paid.Owns row.key stamp ∧ row.etag = stamp.etag ∧ paid.txid = some row.txid

namespace Recorded

variable {paid : Paid}

theorem refl (l : Ledger) : Recorded paid l l where
  fees row member := .inl ⟨row, member, rfl⟩
  announces _ member := .inl member

theorem trans {a b c : Ledger} (first : Recorded paid a b) (second : Recorded paid b c) : Recorded paid a c where
  fees row member := by
    rcases second.fees row member with ⟨old, before, same⟩ | new
    · rcases first.fees old before with ⟨older, earlier, alike⟩ | new
      · exact .inl ⟨older, earlier, alike.trans same⟩
      · rw [same] at new
        exact .inr new
    · exact .inr new
  announces row member := by
    rcases second.announces row member with old | new
    · exact first.announces row old
    · exact .inr new

theorem defer (l : Ledger) {output : Value} {key : String} {stamp : Stamp} (owes : paid.serverOutput = some output)
    (owns : paid.Owns key stamp) : Recorded paid l (l.defer (feeOf paid output key stamp)) := by
  unfold Ledger.defer
  split
  · exact refl l
  · refine ⟨fun row member => ?_, fun row member => .inl member⟩
    rcases List.mem_append.mp member with old | new
    · exact .inl ⟨row, old, rfl⟩
    · rw [List.mem_singleton.mp new]
      exact .inr ⟨output, stamp, owes, owns, rfl⟩

theorem endFee (l : Ledger) (key why : String) : Recorded paid l (l.endFee key why) where
  fees row member := by
    obtain ⟨old, before, rfl⟩ := List.mem_map.mp member
    left
    refine ⟨old, before, ?_⟩
    split <;> rfl
  announces row member := .inl member

theorem oweAnnounce (l : Ledger) {owed : OwedAnnounce} {stamp : Stamp} (owes : paid.serverOutput.isSome = true)
    (owns : paid.Owns owed.key stamp) (etag : owed.etag = stamp.etag) (txid : paid.txid = some owed.txid) :
    Recorded paid l (l.oweAnnounce owed) := by
  unfold Ledger.oweAnnounce
  split
  · exact refl l
  · refine ⟨fun row member => .inl ⟨row, member, rfl⟩, fun row member => ?_⟩
    rcases List.mem_append.mp member with old | new
    · exact .inl old
    · rw [List.mem_singleton.mp new]
      exact .inr ⟨stamp, owes, owns, etag, txid⟩

theorem write {s : Stores} {after : Ledger} (recorded : Recorded paid s.ledger after) (outcome : Outcome) :
    Recorded paid s.ledger (outcome.write s after).2.ledger := by
  unfold Outcome.write
  dsimp only
  split
  · exact recorded
  · exact refl _

end Recorded

/-! The stages. -/

theorem held_atRest {s : Stores} {paid : Paid} {w : Weather} {rest : Rest} (found : atRest s paid w = .ok rest)
    (same : heldToDoor paid rest = .ok ()) : paid.Held rest := by
  have stamped : ∀ key stamp, rest = some (key, stamp) → ∀ door ∈ paid.stamp, stamp = door := by
    intro key stamp there door member
    have read : paid.stamp = some door := member
    by_contra other
    simp [heldToDoor, read, there, Ne.symm other] at same
  intro key stamp there
  refine .inr ⟨?_, stamped key stamp there⟩
  unfold atRest at found
  split at found
  · rename_i named
    split at found <;> cases found
    cases there
    exact .inl named
  · rename_i inline spooled
    split at found
    · cases found
    · cases found
      obtain ⟨stamp', -, pair⟩ := Option.map_eq_some_iff.mp there
      cases pair
      exact .inr ⟨inline, spooled⟩
  · cases found
    cases there

/-- What is asked of a stage: of what it records, and of where it says the bytes rest. -/
structure Faithful {α : Type} (paid : Paid) (s : Stores) (rest : α → Rest) (out : Except Answer α × Stores) : Prop where
  recorded : Recorded paid s.ledger out.2.ledger
  held : ∀ a, out.1 = .ok a → paid.Held (rest a)

theorem Faithful.refused {α : Type} {paid : Paid} {s s' : Stores} {rest : α → Rest} (answer : Answer)
    (recorded : Recorded paid s.ledger s'.ledger) : Faithful paid s rest (.error answer, s') :=
  ⟨recorded, fun a came => by cases came⟩

theorem Faithful.came {α : Type} {paid : Paid} {s s' : Stores} {rest : α → Rest} {a : α}
    (recorded : Recorded paid s.ledger s'.ledger) (held : paid.Held (rest a)) : Faithful paid s rest (.ok a, s') :=
  ⟨recorded, fun other same => by cases same; exact held⟩

section
variable {s : Stores} {paid : Paid} {w : Weather} {rest : Rest}

theorem spool_faithful (held : paid.Held rest) : Faithful paid s id (spool s paid w rest) := by
  unfold spool
  split
  · rename_i carrier inHand
    split
    · refine .came (.refl _) (fun key stamp there => ?_)
      cases there
      exact .inl ⟨by rw [inHand]; rfl, rfl⟩
    · exact .refused _ (.refl _)
  · exact .came (.refl _) held

theorem announceOwed_faithful {txid : String} (owes : paid.serverOutput.isSome = true) (named : paid.txid = some txid)
    (held : paid.Held rest) (said : Hint) :
    Faithful paid s Announced.rest (announceOwed s paid w rest txid said) := by
  have spooled : Faithful paid s id (spool s paid w rest) := spool_faithful held
  unfold announceOwed
  split
  · rename_i same
    rw [same] at spooled
    exact .refused _ spooled.recorded
  · rename_i same
    rw [same] at spooled
    exact .came spooled.recorded (spooled.held none rfl)
  · rename_i key stamp t same
    rw [same] at spooled
    have owns := spooled.held (some (key, stamp)) rfl
    have owed : Recorded paid t.ledger (t.ledger.oweAnnounce ⟨key, stamp.etag, txid, 0, paid.now, keptWord said.word⟩) :=
      .oweAnnounce t.ledger owes (owns key stamp rfl) rfl named
    have recorded := spooled.recorded.trans (owed.write w.owed)
    split
    · rename_i written
      rw [written] at recorded
      exact .refused _ recorded
    · rename_i written
      rw [written] at recorded
      exact .came recorded owns

/-- The subject is announced only where the door judged the payment. -/
theorem announce_faithful (held : paid.Held rest) : Faithful paid s Announced.rest (announce s paid w rest) := by
  unfold announce
  split
  · rename_i output txid owes named
    dsimp only
    generalize (if rest.isSome || paid.inHand.isSome then w.announcer else none) = word
    split
    · exact announceOwed_faithful (by rw [owes]; rfl) named held _
    · exact .came (.refl _) held
  · exact .came (.refl _) held

theorem beforeFee_faithful (found : atRest s paid w = .ok rest) :
    Faithful paid s Announced.rest (beforeFee s paid w rest) := by
  unfold beforeFee
  split
  · exact .refused _ (.refl _)
  · rename_i same
    have held := held_atRest found same
    have spooled : Faithful paid s id (if paid.rows then spool s paid w rest else (.ok rest, s)) := by
      split
      · exact spool_faithful held
      · exact .came (.refl _) held
    split
    · rename_i refused
      rw [refused] at spooled
      exact .refused _ spooled.recorded
    · rename_i rest' t came
      rw [came] at spooled
      have announced : Faithful paid t Announced.rest (announce t paid w rest') :=
        announce_faithful (spooled.held rest' rfl)
      exact ⟨spooled.recorded.trans announced.recorded, announced.held⟩

theorem deferFee_recorded {output : Value} {key : String} {stamp : Stamp} (owes : paid.serverOutput = some output)
    (owns : paid.Owns key stamp) : Recorded paid s.ledger (deferFee s paid w output key stamp).2.ledger := by
  have deferred := (Recorded.defer s.ledger owes owns).write w.deferred
  unfold deferFee
  split
  · rename_i written
    rw [written] at deferred
    exact deferred
  · rename_i t written
    rw [written] at deferred
    split
    · rename_i word _
      have ended := deferred.trans ((Recorded.endFee t.ledger key
        ("not deferred: wallet-infra cannot read the relay's bucket (" ++ word ++ ")")).write w.ended)
      split
      · rename_i written
        rw [written] at ended
        exact ended
      · rename_i written
        rw [written] at ended
        exact ended
    · exact deferred

theorem dropSpool_ledger (s : Stores) (paid : Paid) (w : Weather) (rest : Rest) :
    (dropSpool s paid w rest).ledger = s.ledger := by
  unfold dropSpool
  split
  · unfold Stores.reclaim
    split <;> rfl
  · rfl

theorem settleFee_faithful (held : paid.Held rest) : Faithful paid s Prod.snd (settleFee s paid w rest) := by
  unfold settleFee
  split
  · exact .came (.refl _) held
  · rename_i output owes
    split
    · exact .came (.refl _) held
    · exact .refused _ (by rw [dropSpool_ledger]; exact .refl _)
    · have spooled : Faithful paid s id (spool s paid w rest) := spool_faithful held
      split
      · rename_i same
        rw [same] at spooled
        exact .refused _ spooled.recorded
      · rename_i same
        rw [same] at spooled
        exact .refused _ spooled.recorded
      · rename_i key stamp t same
        rw [same] at spooled
        have owns := spooled.held (some (key, stamp)) rfl
        have recorded := spooled.recorded.trans (deferFee_recorded (w := w) owes (owns key stamp rfl))
        split
        · rename_i deferred
          rw [deferred] at recorded
          exact .refused _ recorded
        · rename_i deferred
          rw [deferred] at recorded
          exact .came recorded owns

end

theorem finish_ledger (s : Stores) (paid : Paid) (w : Weather) (announced : Announced) (fee : Fee) (rest : Rest) :
    (finish s paid w announced fee rest).2.ledger = s.ledger := by
  unfold finish
  split
  · rfl
  · exact dropSpool_ledger ..

/-- A hand-off adds to the ledger only what names the bytes it was handed, and nothing where no output was judged. -/
theorem handOff_recorded (s : Stores) (paid : Paid) (w : Weather) :
    Recorded paid s.ledger (handOff s paid w).2.ledger := by
  unfold handOff
  split
  · exact .refl _
  · split
    · exact .refl _
    · rename_i rest found
      split
      · exact .refl _
      · have before : Faithful paid s Announced.rest (beforeFee s paid w rest) := beforeFee_faithful found
        split
        · rename_i refused
          rw [refused] at before
          exact before.recorded
        · rename_i announced t came
          rw [came] at before
          have settled : Faithful paid t Prod.snd (settleFee t paid w announced.rest) :=
            settleFee_faithful (before.held announced rfl)
          have recorded := before.recorded.trans settled.recorded
          split
          · rename_i refused
            rw [refused] at recorded
            exact recorded
          · rename_i fee rest' u fees
            rw [fees] at recorded
            dsimp only
            rw [finish_ledger]
            exact recorded

/-- A fee is only of an output that was judged. -/
theorem handOff_owed {s : Stores} {paid : Paid} {w : Weather} {handed : HandedOff} (came : (handOff s paid w).1 = .ok handed)
    (fee : handed.fee ≠ .notOwed) : paid.serverOutput.isSome = true := by
  cases owes : paid.serverOutput with
  | some output => rfl
  | none =>
    exfalso
    apply fee
    unfold handOff at came
    split at came
    · cases came
    · split at came
      · cases came
      · split at came
        · cases came
          rfl
        · split at came
          · cases came
          · rename_i announced t _
            have settled : settleFee t paid w announced.rest = (.ok (.notOwed, announced.rest), t) := by
              simp only [settleFee, owes]
            have unowed := finish_fee t paid w announced .notOwed announced.rest
            rw [settled] at came
            dsimp only at came
            generalize finish t paid w announced .notOwed announced.rest = finished at came unowed
            cases came
            exact unowed

end MessageRelay.Handoff
