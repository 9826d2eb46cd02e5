import MessageRelay.Handoff.Recorded
import MessageRelay.Payments.Process

/-! What is recorded of a payment is recorded of bytes that the door verified, for the fee that the send owes. -/

namespace MessageRelay.Payments
open MessageRelay.Library MessageRelay.Lane MessageRelay.Session MessageRelay.Send MessageRelay.Upload
open MessageRelay.Handoff (Stores Paid handOff)
open MessageRelay.Door (Terms PaymentVerdict DoorVerdict)

/-- An object's stamp as the hand-off compares it. -/
def atHandOff (stamp : Door.Stamp) : Handoff.Stamp := ⟨stamp.size.toNat, stamp.etag⟩

section
variable (d : Deployment) (parse : String → Option Value) {Cursor Slice Hash : Type} [LinearOrder Hash]
  (reader : Door.Reader Bytes Cursor Slice Hash) (whole : Slice) (content : String → Door.Stamp → Bytes)
  (objectRoots : Bytes → Set (Nat × Hash)) (heard : Nat → String → Prop)

/-- A verdict at rest is given by the door, in a run of requests on that key, by what the header service said. -/
def DoorAnswers (w : DoorWeather) : Prop :=
  ∀ key terms verdict stamp, w.atRest key terms = .ok (.done verdict, stamp) →
    ∃ (inputs : List (Door.Input Slice)) (before after : List (Door.Event Hash)) (read : Option Door.Stamp)
      (subject : Option Hash),
      ((Door.doors reader (content key)).run ⟨⟨none, none, []⟩, []⟩ inputs).log =
        before ++ .done read terms verdict.word subject :: after ∧
      stamp = read.map atHandOff ∧ verdict.subject = subject.map reader.displayHex ∧
      ∀ stamp height carried, .answered stamp height (.ok carried) ∈ before → heard height carried

/-- The output pays the fee the send owes, under the server's script for this sender, on these bytes; every root of
theirs is one the header service named; and the outputs cover the recipients. -/
def Verified (payment : Value) (feeMap : List (String × String × Int)) (deliveryFee : Int) (senderKey : String)
    (bytes : Bytes) (txid : String) : Prop :=
  0 < deliveryFee ∧ ∃ serverOutput rest terms satoshis hash routes,
    payment.get "outputs" = some (.array (serverOutput :: rest)) ∧
    deliveryTerms d serverOutput (deliveryFee.toNat * feeMap.length) senderKey = .ok terms ∧
    Door.Paid reader bytes terms (hash, satoshis) ∧ deliveryFee.toNat * feeMap.length ≤ satoshis ∧
    txid = reader.displayHex hash ∧
    (∀ r ∈ objectRoots bytes, ∃ carried, heard r.1 carried ∧
      Door.eqIgnoreAsciiCase carried (reader.displayHex r.2) = true) ∧
    routed parse (serverOutput :: rest) feeMap deliveryFee = .ok routes

/-- The bytes a key and an etag of the ledger stand for: the upload that the door read, or the relay's own copy of the
bytes in the request, which the door read there or at their spool. -/
inductive Names (payment : Value) (r2Key : Option String) (senderKey uuid key etag : String) : Bytes → Prop
  | read (stamp : Door.Stamp) (same : stamp.etag = etag) : Names payment r2Key senderKey uuid key etag (content key stamp)
  | sent (carrier : Door.Carrier) (inline : r2Key = none) (own : key = buildUploadKey senderKey uuid)
      (sent : (payment.get "tx").bind Door.Carrier.of = some carrier) :
      Names payment r2Key senderKey uuid key etag (wholeBytes carrier)
  | spooled (carrier : Door.Carrier) (stamp : Door.Stamp) (inline : r2Key = none)
      (own : key = buildUploadKey senderKey uuid) (sent : (payment.get "tx").bind Door.Carrier.of = some carrier) :
      Names payment r2Key senderKey uuid key etag (content (inlineSpoolKey d senderKey carrier) stamp)

variable {d parse reader whole content objectRoots heard}

/-- What the output word demands is paid. -/
theorem paid_required
    (fair : ∀ raw proof terms satoshis, reader.outputWord raw proof terms = .verified satoshis →
      terms.requiredSatoshis ≤ satoshis)
    {object : Bytes} {terms : Terms} {hash : Hash} {satoshis : Nat}
    (paid : Door.Paid reader object terms (hash, satoshis)) : terms.requiredSatoshis ≤ satoshis := by
  obtain ⟨raw, proof, -, -, word⟩ := paid.subject
  exact fair raw proof terms satoshis word

theorem deliveryTerms_required {serverOutput : Value} {due : Nat} {senderKey : String} {terms : Terms}
    (asked : deliveryTerms d serverOutput due senderKey = .ok terms) : terms.requiredSatoshis = due := by
  unfold deliveryTerms at asked
  cases remittance : deliveryRemittance serverOutput senderKey with
  | error answer => simp [remittance, bind, Except.bind] at asked
  | ok named =>
    simp only [remittance, bind, Except.bind] at asked
    cases script : deliveryScript d named.2.1 named.2.2 senderKey with
    | error answer => simp [script] at asked
    | ok expectedScript =>
      simp only [script, pure, Except.pure, Except.ok.injEq] at asked
      rw [← asked]

theorem deliveryFeeDue_ok {deliveryFee : Int} {recipients due : Nat} (owed : deliveryFeeDue deliveryFee recipients = .ok due) :
    due = deliveryFee.toNat * recipients := by
  unfold deliveryFeeDue at owed
  split at owed
  · cases owed
    rfl
  · cases owed

/-- A verdict at rest is of an upload of that key whose output pays and whose roots the header service named. -/
theorem DoorAnswers.sound {w : DoorWeather} (answers : DoorAnswers reader content heard w)
    (correct : reader.Correct objectRoots) {key : String} {terms : Terms} {verdict : DoorVerdict String}
    {stamp : Option Handoff.Stamp} {satoshis : Nat} {txid : String} (said : w.atRest key terms = .ok (.done verdict, stamp))
    (word : verdict.word = .verified satoshis) (subject : verdict.subject = some txid) :
    ∃ read hash, stamp = some (atHandOff read) ∧ txid = reader.displayHex hash ∧
      Door.Paid reader (content key read) terms (hash, satoshis) ∧ ∀ r ∈ objectRoots (content key read),
        ∃ carried, heard r.1 carried ∧ Door.eqIgnoreAsciiCase carried (reader.displayHex r.2) = true := by
  obtain ⟨inputs, before, after, read, named, log, stamped, shown, asked⟩ := answers key terms verdict stamp said
  rw [word] at log
  obtain ⟨read', rfl, sound⟩ := (Door.run_sound correct none inputs).log before _ after log satoshis rfl
  obtain ⟨roots, hash, rfl, paid⟩ := sound satoshis rfl
  rw [subject] at shown
  refine ⟨read', hash, stamped, Option.some.inj shown, paid, fun r member => ?_⟩
  obtain ⟨carried, answered, same⟩ := roots r member
  exact ⟨carried, asked read' r.1 carried answered, same⟩

section
variable {payment : Value} {r2Key : Option String} {feeMap : List (String × String × Int)} {deliveryFee : Int}
  {senderKey relay : String} {w : RouteWeather}

theorem inHand_paidOf {delivery : DeliveryJudged} :
    (paidOf payment r2Key feeMap senderKey relay w delivery).inHand.isSome = true ↔
      r2Key = none ∧ ∃ carrier, (payment.get "tx").bind Door.Carrier.of = some carrier := by
  unfold Paid.inHand paidOf
  cases r2Key with
  | some key => simp
  | none => simp only [Option.isSome_none, Bool.false_eq_true, if_false, Option.isSome_map, true_and,
      Option.isSome_iff_exists]

/-- What the door vouches for is verified, and the bytes the hand-off may record are those. -/
theorem Vouched.verified (correct : reader.Correct objectRoots)
    (fair : ∀ raw proof terms satoshis, reader.outputWord raw proof terms = .verified satoshis →
      terms.requiredSatoshis ≤ satoshis)
    (served : ∀ headers ∈ d.headers, ∀ height carried, headers height = .ok carried → heard height carried)
    (answers : DoorAnswers reader content heard w.door) {serverOutput : Value} {rest : List Value} {due : Nat}
    {judged : Judged} {routes : List (String × Value)} {delivery : DeliveryJudged}
    (outputs : payment.get "outputs" = some (.array (serverOutput :: rest)))
    (charged : 0 < deliveryFee) (owed : deliveryFeeDue deliveryFee feeMap.length = .ok due)
    (dealt : routed parse (serverOutput :: rest) feeMap deliveryFee = .ok routes)
    (named : delivery.judged = some (serverOutput, judged))
    (vouched : Vouched d reader whole payment r2Key w.door serverOutput due senderKey judged delivery.spooled) :
    ∃ bytes, Verified d parse reader objectRoots heard payment feeMap deliveryFee senderKey bytes judged.txid ∧
      ∀ key stamp, (paidOf payment r2Key feeMap senderKey relay w delivery).Owns key stamp →
        Names d content payment r2Key senderKey w.uuid key stamp.etag bytes := by
  have due' := deliveryFeeDue_ok owed
  have pays : ∀ {bytes terms hash}, deliveryTerms d serverOutput due senderKey = .ok terms →
      Door.Paid reader bytes terms (hash, judged.satoshis) → deliveryFee.toNat * feeMap.length ≤ judged.satoshis := by
    intro bytes terms hash asked paid
    rw [← due', ← deliveryTerms_required asked]
    exact paid_required fair paid
  have door : (paidOf payment r2Key feeMap senderKey relay w delivery).stamp = judged.stamp := by
    simp [paidOf, named]
  generalize spool : delivery.spooled = spooled at vouched
  cases vouched with
  | uploaded key terms verdict upload asked said word subject =>
    obtain ⟨read, hash, stamped, shown, paid, roots⟩ := answers.sound correct said word subject
    refine ⟨content key read, ⟨charged, serverOutput, rest, terms, judged.satoshis, hash, routes, outputs, due' ▸ asked,
      paid, pays asked paid, shown, roots, dealt⟩, fun other stamp owns => ?_⟩
    rcases owns with ⟨inHand, -⟩ | ⟨upload' | ⟨inline, -⟩, same⟩
    · rw [(inHand_paidOf.mp inHand).1] at upload
      cases upload
    · rw [same (atHandOff read) (door.trans stamped)]
      cases upload.symm.trans upload'
      exact .read read rfl
    · cases upload.symm.trans inline
  | spooled carrier terms verdict inline sent asked said word subject =>
    obtain ⟨read, hash, stamped, shown, paid, roots⟩ := answers.sound correct said word subject
    refine ⟨content (inlineSpoolKey d senderKey carrier) read, ⟨charged, serverOutput, rest, terms, judged.satoshis, hash,
      routes, outputs, due' ▸ asked, paid, pays asked paid, shown, roots, dealt⟩, fun other stamp owns => ?_⟩
    rcases owns with ⟨-, own⟩ | ⟨upload | ⟨-, there⟩, same⟩
    · exact .spooled carrier read inline own sent
    · cases inline.symm.trans upload
    · rw [same (atHandOff read) (door.trans stamped)]
      cases spool.symm.trans there
      exact .read read rfl
  | sent carrier terms verdict inline sent asked said word subject =>
    obtain ⟨word', found, hash⟩ := verdict
    simp only at word subject
    subst word
    cases headers : d.headers with
    | none =>
      rw [headers] at said
      cases said
    | some lookup =>
      rw [headers] at said
      obtain ⟨txid, rfl, paid, carried⟩ := Door.verifyInline_verified correct said
      refine ⟨wholeBytes carrier, ⟨charged, serverOutput, rest, terms, judged.satoshis, txid, routes, outputs, due' ▸ asked,
        paid, pays asked paid, (Option.some.inj subject).symm, fun r member => ?_, dealt⟩, fun other stamp owns => ?_⟩
      · obtain ⟨hex, told, same⟩ := carried r member
        exact ⟨hex, served lookup headers r.1 hex told, same⟩
      · rcases owns with ⟨-, own⟩ | ⟨upload | ⟨-, there⟩, same⟩
        · exact .sent carrier inline own sent
        · cases inline.symm.trans upload
        · cases spool.symm.trans there

end

/-- A payment is refused with nothing recorded, or everything it owes is judged and dealt before the hand-off. -/
theorem processPayment_cases (payment : Value) (r2Key : Option String) (feeMap : List (String × String × Int))
    (deliveryFee : Int) (senderKey : String) (s : Stores) (w : RouteWeather) :
    (∃ answer t minted, processPayment d parse reader whole payment r2Key feeMap deliveryFee senderKey s w =
      (.error answer, t, minted) ∧ t.ledger = s.ledger) ∨
    ∃ outputs relay delivery t minted routes, payment.get "outputs" = some (.array outputs) ∧
      judgeDelivery d reader whole payment outputs r2Key feeMap.length deliveryFee senderKey s w =
        (.ok delivery, t, minted) ∧ t.ledger = s.ledger ∧ routed parse outputs feeMap deliveryFee = .ok routes ∧
      processPayment d parse reader whole payment r2Key feeMap deliveryFee senderKey s w =
        ((handOff t (paidOf payment r2Key feeMap senderKey relay w delivery) w.handOff).1.map (fun handed => ⟨routes, handed⟩),
          (handOff t (paidOf payment r2Key feeMap senderKey relay w delivery) w.handOff).2, minted) := by
  unfold processPayment
  split
  · exact .inl ⟨_, s, [], rfl, rfl⟩
  · exact .inl ⟨_, s, [], rfl, rfl⟩
  · rename_i outputs relay checked _
    have listed : payment.get "outputs" = some (.array outputs) := by
      unfold checkPayment at checked
      split at checked
      · cases checked
      · split at checked
        · rename_i there
          cases checked
          exact there
        · cases checked
    have kept := @judgeDelivery_ledger d _ _ _ _ reader whole payment outputs r2Key feeMap.length deliveryFee senderKey s w
    split
    · rename_i answer t minted refused
      rw [refused] at kept
      exact .inl ⟨answer, t, minted, rfl, kept⟩
    · rename_i delivery t minted came
      rw [came] at kept
      split
      · exact .inl ⟨_, t, minted, rfl, kept⟩
      · exact .inl ⟨_, t, minted, rfl, kept⟩
      · rename_i routes _ dealt
        split
        · exact .inl ⟨_, t, minted, rfl, kept⟩
        · exact .inr ⟨outputs, relay, delivery, t, minted, routes, listed, came, kept, dealt, rfl⟩

variable (d parse reader whole content objectRoots heard) in
/-- Every fee and every announcement that a send's payment adds to the ledger, and every fee its answer says is paid,
is of bytes the door verified, for all that the send owes and with the outputs that its recipients are due. -/
theorem recorded_as_verified (correct : reader.Correct objectRoots)
    (fair : ∀ raw proof terms satoshis, reader.outputWord raw proof terms = .verified satoshis →
      terms.requiredSatoshis ≤ satoshis)
    (served : ∀ headers ∈ d.headers, ∀ height carried, headers height = .ok carried → heard height carried)
    (payment : Value) (r2Key : Option String) (feeMap : List (String × String × Int)) (deliveryFee : Int)
    (senderKey : String) (s : Stores) (w : RouteWeather) (answers : DoorAnswers reader content heard w.door) :
    (∀ row ∈ (processPayment d parse reader whole payment r2Key feeMap deliveryFee senderKey s w).2.1.ledger.fees,
      (∃ old ∈ s.ledger.fees, old.fee = row.fee) ∨
        ∃ bytes, Names d content payment r2Key senderKey w.uuid row.fee.key row.fee.etag bytes ∧
          Verified d parse reader objectRoots heard payment feeMap deliveryFee senderKey bytes row.fee.txid) ∧
    (∀ row ∈ (processPayment d parse reader whole payment r2Key feeMap deliveryFee senderKey s w).2.1.ledger.announces,
      row ∈ s.ledger.announces ∨
        ∃ bytes, Names d content payment r2Key senderKey w.uuid row.key row.etag bytes ∧
          Verified d parse reader objectRoots heard payment feeMap deliveryFee senderKey bytes row.txid) ∧
    ∀ settled, (processPayment d parse reader whole payment r2Key feeMap deliveryFee senderKey s w).1 = .ok settled →
      settled.handed.fee ≠ .notOwed → ∃ bytes txid,
        Verified d parse reader objectRoots heard payment feeMap deliveryFee senderKey bytes txid := by
  rcases @processPayment_cases d parse _ _ _ _ reader whole payment r2Key feeMap deliveryFee senderKey s w with
    ⟨answer, t, minted, refused, kept⟩ | ⟨outputs, relay, delivery, t, minted, routes, listed, came, kept, dealt, whole'⟩
  · rw [refused]
    refine ⟨fun row member => ?_, fun row member => ?_, fun settled wrong => by cases wrong⟩
    · rw [kept] at member
      exact .inl ⟨row, member, rfl⟩
    · rw [kept] at member
      exact .inl member
  · rw [whole']
    have recorded := Handoff.handOff_recorded t (paidOf payment r2Key feeMap senderKey relay w delivery) w.handOff
    rw [kept] at recorded
    rcases judgeDelivery_ok came with unjudged | ⟨serverOutput, rest, due, judged, rfl, charged, owed, named, vouched⟩
    · have unowed : (paidOf payment r2Key feeMap senderKey relay w delivery).serverOutput = none := by
        simp [paidOf, unjudged]
      refine ⟨fun row member => ?_, fun row member => ?_, fun settled came' fee => ?_⟩
      · rcases recorded.fees row member with old | ⟨output, stamp, owes, -⟩
        · exact .inl old
        · cases unowed.symm.trans owes
      · rcases recorded.announces row member with old | ⟨stamp, owes, -⟩
        · exact .inl old
        · rw [unowed] at owes
          cases owes
      · obtain ⟨handed, given, rfl⟩ := map_ok came'
        have owes := Handoff.handOff_owed given fee
        rw [unowed] at owes
        cases owes
    · have backed : ∃ bytes,
          Verified d parse reader objectRoots heard payment feeMap deliveryFee senderKey bytes judged.txid ∧
          ∀ key stamp, (paidOf payment r2Key feeMap senderKey relay w delivery).Owns key stamp →
            Names d content payment r2Key senderKey w.uuid key stamp.etag bytes :=
        vouched.verified correct fair served answers listed charged owed dealt named
      obtain ⟨bytes, verified, names⟩ := backed
      have txid : (paidOf payment r2Key feeMap senderKey relay w delivery).txid = some judged.txid := by
        simp [paidOf, named]
      refine ⟨fun row member => ?_, fun row member => ?_, fun settled _ _ => ⟨bytes, judged.txid, verified⟩⟩
      · rcases recorded.fees row member with old | ⟨output, stamp, -, owns, same⟩
        · exact .inl old
        · have etag : row.fee.etag = stamp.etag := congrArg (·.etag) same
          have subject : row.fee.txid = judged.txid := (congrArg (·.txid) same).trans (by simp [Handoff.feeOf, txid])
          rw [etag, subject]
          exact .inr ⟨bytes, names _ stamp owns, verified⟩
      · rcases recorded.announces row member with old | ⟨stamp, -, owns, etag, subject⟩
        · exact .inl old
        · have same : row.txid = judged.txid := (Option.some.inj (txid.symm.trans subject)).symm
          rw [etag, same]
          exact .inr ⟨bytes, names _ stamp owns, verified⟩

end

/-- A reader of any bytes as two roots and a subject that pays 40. -/
def payingReader : Door.Reader Bytes Unit Unit Nat where
  codec := Door.twoRoots.codec
  read _ _ _ _ := .valid ()
  roots := Door.twoRoots.roots
  stream _ := Door.twoRoots.stream ()
  hash := Door.twoRoots.hash
  sha256d := Door.twoRoots.sha256d
  bumpBytes _ _ := .ok []
  outputWord := Door.twoRoots.outputWord
  displayHex := Door.twoRoots.displayHex

theorem payingReader_correct : payingReader.Correct (fun _ => {(7, 0), (8, 1)}) where
  roots _ _ _ r := by simp [payingReader, Door.twoRoots, or_comm]
  saves _ := rfl
  counts _ := by simp [payingReader, Door.twoRoots]

theorem payingReader_fair (raw : List UInt8) (proof : Option (List UInt8)) (terms : Terms) (satoshis : Nat)
    (word : payingReader.outputWord raw proof terms = .verified satoshis) : terms.requiredSatoshis ≤ satoshis := by
  simp only [payingReader, Door.twoRoots] at word
  split at word
  · cases word
    assumption
  · cases word

def plainDeployment : Deployment where
  relay := .ok "02ab"
  lockingScript _ _ _ := .ok [0x51]
  headers := some Door.wellServed.headers
  words := ⟨fun _ => "refused", fun _ => false, fun _ => none⟩
  sha256Hex _ := "00"

def uploadTerms : Terms := ⟨0, [0x51], 10⟩

/-- The door answers for the one upload, under its terms. -/
def uploadWeather : RouteWeather where
  door := {
    atRest := fun _ terms =>
      if terms.outputIndex = 0 ∧ terms.expectedScript = [0x51] ∧ terms.requiredSatoshis = 10 then
        .ok (.done ⟨.verified 40, none, some "bb"⟩, some ⟨100, "e1"⟩)
      else .error (.source "no such request")
    stampFails := none
    mint := .ok ()
    spool := .error "unused"
    spoolLanded := none }
  bucket := true
  database := none
  forgets := true
  mintedAt := 5
  now := 5
  uuid := "u"
  handOff := ⟨none, .error "unused", none, none, .ok, .ok "00", .error "down", .ok, false, .ok, true⟩

def uploadRun : List (Door.Input Unit) :=
  [.upload Door.oneUpload, .start uploadTerms 2 true] ++ List.replicate 8 (.advance 0 Door.wellServed)

theorem uploadWeather_answers :
    DoorAnswers payingReader (fun _ _ => []) (fun height carried => Door.wellServed.headers height = .ok carried)
      uploadWeather.door := by
  intro key terms verdict stamp said
  simp only [uploadWeather] at said
  split at said
  · rename_i same
    obtain ⟨index, script, required⟩ := same
    have known : terms = uploadTerms := by
      cases terms
      cases index
      cases script
      cases required
      rfl
    cases said
    subst known
    have log : ((Door.doors payingReader (fun _ => [])).run ⟨⟨none, none, []⟩, []⟩ uploadRun).log =
        [.answered Door.oneUpload 7 (.ok "AA"), .answered Door.oneUpload 8 (.ok "bb")] ++
          .done (some Door.oneUpload) uploadTerms (.verified 40) (some 5) :: [] := by
      rfl
    have stamped : some (Handoff.Stamp.mk 100 "e1") = (some Door.oneUpload).map atHandOff := by
      decide
    refine ⟨uploadRun, _, [], some Door.oneUpload, some 5, log, stamped, by decide, ?_⟩
    intro stamp height carried member
    simp only [List.mem_cons, Door.Event.answered.injEq, Except.ok.injEq, List.not_mem_nil, or_false] at member
    rcases member with ⟨-, rfl, rfl⟩ | ⟨-, rfl, rfl⟩ <;> rfl
  · cases said

def uploadPayment : Value :=
  .object [("beefR2Key", .string "k"), ("outputs", .array [.object [("outputIndex", .number "0"),
    ("paymentRemittance", .object [("derivationPrefix", .string "p"), ("derivationSuffix", .string "s"),
      ("senderIdentityKey", .string "alice")]),
    ("protocol", .string "wallet payment")]])]

def uploadStores : Stores where
  objects key := if key = "k" then some ⟨100, "e1"⟩ else none
  rows := []
  ledger := ⟨[], [], none⟩

/-- wallet-infra is down: the fee of the upload is recorded as owed. -/
theorem uploadPayment_recorded : ∃ key etag txid bytes,
    ((processPayment plainDeployment (fun _ => none) payingReader () uploadPayment (some "k") [("bob", "m", 0)] 10 "alice"
      uploadStores uploadWeather).2.1.ledger.fees.map (fun row => (row.fee.key, row.fee.etag, row.fee.txid))) =
        [(key, etag, txid)] ∧
    Names plainDeployment (fun _ _ => []) uploadPayment (some "k") "alice" "u" key etag bytes ∧
    Verified plainDeployment (fun _ => none) payingReader (fun _ => {(7, 0), (8, 1)})
      (fun height carried => Door.wellServed.headers height = .ok carried) uploadPayment [("bob", "m", 0)] 10 "alice"
      bytes txid := by
  have fees : ((processPayment plainDeployment (fun _ => none) payingReader () uploadPayment (some "k")
      [("bob", "m", 0)] 10 "alice" uploadStores uploadWeather).2.1.ledger.fees.map
        (fun row => (row.fee.key, row.fee.etag, row.fee.txid))) = [("k", "e1", "bb")] := by
    decide +kernel
  have held := (recorded_as_verified plainDeployment (fun _ => none) payingReader () (fun _ _ => [])
    (fun _ => {(7, 0), (8, 1)}) (fun height carried => Door.wellServed.headers height = .ok carried) payingReader_correct
    payingReader_fair (fun headers same height carried answered => by cases same; exact answered) uploadPayment (some "k")
    [("bob", "m", 0)] 10 "alice" uploadStores uploadWeather uploadWeather_answers).1
  obtain ⟨row, rest, all, here, none⟩ := List.map_eq_cons_iff.mp fees
  rcases held row (by rw [all]; exact List.mem_cons_self ..) with ⟨old, before, -⟩ | ⟨bytes, names, verified⟩
  · cases before
  · exact ⟨_, _, _, bytes, by rw [fees, ← here], names, verified⟩

end MessageRelay.Payments
