import MessageRelay.Handoff.Reclaim
import MessageRelay.Lane.Frame
import MessageRelay.Library.Parts

/-! A payment put at rest: one `put` where it is no longer than a part, a multipart upload otherwise. The bytes come in
chunks of any length, and each may fail; so may every call on the bucket, and one that failed may have landed. -/

namespace MessageRelay.Upload
open MessageRelay.Library MessageRelay.Lane MessageRelay.Handoff

def spoolPartBytes : Nat := 8 * 1024 * 1024

/-- What the bucket is asked. -/
inductive R2Call where
  | put (key : String) (bytes : Bytes) (reader : String)
  | createMultipartUpload (key reader : String)
  | uploadPart (number : Nat) (bytes : Bytes)
  | abort
  | complete (numbers : List Nat)

/-- The objects with their readers, and the multipart upload under way: its key, its reader and its parts by number. -/
structure R2Bucket where
  objects : String → Option (Bytes × String)
  upload : Option (String × String × (Nat → Option Bytes))

def R2Bucket.land (b : R2Bucket) : R2Call → R2Bucket
  | .put key bytes reader => { b with objects := Function.update b.objects key (some (bytes, reader)) }
  | .createMultipartUpload key reader => { b with upload := some (key, reader, fun _ => none) }
  | .uploadPart number bytes =>
    { b with upload := b.upload.map (fun u => (u.1, u.2.1, Function.update u.2.2 number (some bytes))) }
  | .abort => { b with upload := none }
  | .complete numbers =>
    match b.upload with
    | none => b
    | some (key, reader, parts) =>
      ⟨Function.update b.objects key (some (numbers.flatMap (fun n => (parts n).getD []), reader)), none⟩

def R2Bucket.landAll (b : R2Bucket) (calls : List (R2Call × Outcome)) : R2Bucket :=
  calls.foldl (fun b call => if call.2.landed then b.land call.1 else b) b

/-- How the bucket answers each call, and whether a `put` returns its object. -/
structure SpoolWeather where
  put : Outcome
  returned : Bool
  create : Outcome
  part : Nat → Outcome
  abort : Outcome
  complete : Outcome
  error : String

/-- `parts.len() as u16 + 1`. -/
def partNumber (count : Nat) : Nat := (count % 2 ^ 16 + 1) % 2 ^ 16

section
variable (weather : SpoolWeather)

/-- The parts that are full, and at the end the one that is not. The third argument bounds the rounds. -/
def sendParts (ended : Bool) : Nat → Nat → Bytes → List (R2Call × Outcome) × Except String (Nat × Bytes)
  | 0, count, part => ([], .ok (count, part))
  | fuel + 1, count, part =>
    if spoolPartBytes ≤ part.length ∨ (ended = true ∧ part ≠ []) then
      let number := partNumber count
      let call := R2Call.uploadPart number (part.take spoolPartBytes)
      match weather.part number with
      | .ok =>
        let (calls, sent) := sendParts ended fuel (count + 1) (part.drop spoolPartBytes)
        ((call, .ok) :: calls, sent)
      | outcome => ([(call, outcome), (.abort, weather.abort)], .error s!"R2 part {number}: {weather.error}")
    else ([], .ok (count, part))

/-- The chunks as they come, gathered into parts. A chunk that fails ends the upload. -/
def fillParts : List (Except String Bytes) → Nat → Bytes → List (R2Call × Outcome) × Except String Nat
  | [], count, part =>
    let (calls, sent) := sendParts weather true (part.length + 1) count part
    (calls, sent.map Prod.fst)
  | .error e :: _, _, _ => ([(.abort, weather.abort)], .error e)
  | .ok chunk :: rest, count, part =>
    let (calls, sent) := sendParts weather false ((part ++ chunk).length + 1) count (part ++ chunk)
    match sent with
    | .error e => (calls, .error e)
    | .ok (count, part) =>
      let (more, sent) := fillParts rest count part
      (calls ++ more, sent)

def gather : List (Except String Bytes) → Except String Bytes
  | [] => .ok []
  | .error e :: _ => .error e
  | .ok chunk :: rest => (gather rest).map (fun bytes => chunk ++ bytes)

/-- The calls on the bucket and how each came back, and whether the object came back, which is stamped. A `usize` has
32 bits. -/
def spool (key : String) (chunks : List (Except String Bytes)) (size : Nat) (reader : String) :
    List (R2Call × Outcome) × Except String Unit :=
  if size % 2 ^ 32 ≤ spoolPartBytes then
    match gather chunks with
    | .error e => ([], .error e)
    | .ok bytes =>
      ([(.put key bytes reader, weather.put)],
        match weather.put with
        | .ok => if weather.returned then .ok () else .error "R2 put: no object"
        | _ => .error ("R2 put: " ++ weather.error))
  else
    let create := R2Call.createMultipartUpload key reader
    match weather.create with
    | .ok =>
      match fillParts weather chunks 0 [] with
      | (calls, .error e) => ((create, .ok) :: calls, .error e)
      | (calls, .ok count) =>
        let complete := R2Call.complete ((List.range count).map partNumber)
        ((create, .ok) :: calls ++ [(complete, weather.complete)],
          match weather.complete with
          | .ok => .ok ()
          | _ => .error ("R2 multipart complete: " ++ weather.error))
    | outcome => ([(create, outcome)], .error ("R2 multipart: " ++ weather.error))

end

/-! The parts that are sent. -/

theorem partBytes_positive : 0 < spoolPartBytes := by decide

/-- Parts sent one after another, each of them taken. -/
def partCalls (count : Nat) : List Bytes → List (R2Call × Outcome)
  | [] => []
  | bytes :: rest => (.uploadPart (partNumber count) bytes, .ok) :: partCalls (count + 1) rest

theorem partCalls_append (count : Nat) (a b : List Bytes) :
    partCalls count (a ++ b) = partCalls count a ++ partCalls (count + a.length) b := by
  induction a generalizing count with
  | nil => rfl
  | cons bytes rest ih =>
    have next : count + 1 + rest.length = count + (rest.length + 1) := by omega
    rw [List.cons_append, partCalls, ih, next]
    rfl

/-- A call that writes no object. -/
def R2Call.quiet : R2Call → Bool
  | .put .. => false
  | .complete _ => false
  | _ => true

def Quiet (calls : List (R2Call × Outcome)) : Prop := ∀ call ∈ calls, call.1.quiet = true

theorem quiet_partCalls (count : Nat) (parts : List Bytes) : Quiet (partCalls count parts) := by
  induction parts generalizing count with
  | nil => exact fun call member => absurd member List.not_mem_nil
  | cons bytes rest ih =>
    intro call member
    rcases List.mem_cons.mp member with rfl | later
    · rfl
    · exact ih (count + 1) call later

/-- The parts that are cut off what has come, and what is left of it. -/
def cutOff (ended : Bool) (part : Bytes) : List Bytes × Bytes :=
  if ended then (allParts spoolPartBytes part, []) else (wholeParts spoolPartBytes part, lastPart spoolPartBytes part)

theorem cutOff_next {ended : Bool} {part : Bytes} (more : spoolPartBytes ≤ part.length ∨ (ended = true ∧ part ≠ [])) :
    cutOff ended part = (part.take spoolPartBytes :: (cutOff ended (part.drop spoolPartBytes)).1,
      (cutOff ended (part.drop spoolPartBytes)).2) := by
  by_cases long : spoolPartBytes ≤ part.length
  · unfold cutOff
    cases ended with
    | true => simp only [if_true, allParts_long partBytes_positive long]
    | false =>
      simp only [Bool.false_eq_true, if_false, wholeParts_long partBytes_positive long,
        lastPart_long partBytes_positive long]
  · obtain ⟨rfl, some'⟩ := more.resolve_left long
    have short := Nat.lt_of_not_le long
    have nothing : part.drop spoolPartBytes = [] := List.drop_eq_nil_of_le short.le
    simp only [cutOff, if_true, nothing, allParts_nil, allParts_short short some', List.take_of_length_le short.le]

theorem cutOff_done {ended : Bool} {part : Bytes}
    (done : ¬(spoolPartBytes ≤ part.length ∨ (ended = true ∧ part ≠ []))) : cutOff ended part = ([], part) := by
  rw [not_or, not_and, not_not] at done
  unfold cutOff
  cases ended with
  | true => simp [done.2 rfl]
  | false =>
    have short := Nat.lt_of_not_le done.1
    simp [wholeParts_short short, lastPart_short short]

/-- Either every part that is cut off is sent, or one is refused and the upload given up. -/
theorem sendParts_cases (weather : SpoolWeather) (ended : Bool) {fuel : Nat} (count : Nat) {part : Bytes}
    (enough : part.length < fuel) :
    sendParts weather ended fuel count part =
      (partCalls count (cutOff ended part).1, .ok (count + (cutOff ended part).1.length, (cutOff ended part).2)) ∨
    ∃ calls e, sendParts weather ended fuel count part = (calls, .error e) ∧ Quiet calls := by
  induction fuel generalizing count part with
  | zero => omega
  | succ fuel ih =>
    rw [sendParts]
    split
    · rename_i more
      have fewer : (part.drop spoolPartBytes).length < fuel := by
        have some' : 0 < part.length := by
          rcases more with long | ⟨-, written⟩
          · exact lt_of_lt_of_le partBytes_positive long
          · exact List.length_pos_iff.mpr written
        have positive := partBytes_positive
        rw [List.length_drop]
        omega
      have next : count + 1 + (cutOff ended (part.drop spoolPartBytes)).1.length =
          count + ((cutOff ended (part.drop spoolPartBytes)).1.length + 1) := by
        omega
      cases taken : weather.part (partNumber count) with
      | ok =>
        rcases ih (count + 1) fewer with all | ⟨calls, e, refused, quiet⟩
        · left
          simp only [taken, all, cutOff_next more, List.length_cons, partCalls, next]
        · right
          refine ⟨_, e, by simp only [taken, refused]; rfl, fun call member => ?_⟩
          rcases List.mem_cons.mp member with rfl | later
          · rfl
          · exact quiet call later
      | failed | failedLanded =>
        right
        refine ⟨_, _, by simp only [taken]; rfl, fun call member => ?_⟩
        simp only [List.mem_cons, List.not_mem_nil, or_false] at member
        rcases member with rfl | rfl <;> rfl
    · rename_i done
      left
      rw [cutOff_done done]
      rfl

theorem fillParts_cases (weather : SpoolWeather) (chunks : List (Except String Bytes)) (count : Nat) {part : Bytes}
    (short : part.length < spoolPartBytes) :
    (∃ bytes, gather chunks = .ok bytes ∧ fillParts weather chunks count part =
      (partCalls count (allParts spoolPartBytes (part ++ bytes)),
        .ok (count + (allParts spoolPartBytes (part ++ bytes)).length))) ∨
    ∃ calls e, fillParts weather chunks count part = (calls, .error e) ∧ Quiet calls := by
  induction chunks generalizing count part with
  | nil =>
    rcases sendParts_cases weather true count (Nat.lt_succ_self part.length) with all | ⟨calls, e, refused, quiet⟩
    · left
      refine ⟨[], rfl, ?_⟩
      rw [fillParts, all, List.append_nil]
      rfl
    · right
      exact ⟨calls, e, by rw [fillParts, refused]; rfl, quiet⟩
  | cons chunk rest ih =>
    cases chunk with
    | error e =>
      right
      refine ⟨_, e, rfl, fun call member => ?_⟩
      rw [List.mem_singleton.mp member]
      rfl
    | ok chunk =>
      rcases sendParts_cases weather false count (Nat.lt_succ_self (part ++ chunk).length) with
        all | ⟨calls, e, refused, quiet⟩
      · have left' : (lastPart spoolPartBytes (part ++ chunk)).length < spoolPartBytes :=
          lastPart_length partBytes_positive _
        have cut : cutOff false (part ++ chunk) =
            (wholeParts spoolPartBytes (part ++ chunk), lastPart spoolPartBytes (part ++ chunk)) := rfl
        rw [cut] at all
        rcases ih (count + (wholeParts spoolPartBytes (part ++ chunk)).length) left' with
          ⟨bytes, gathered, whole⟩ | ⟨calls, e, refused, quiet⟩
        · left
          refine ⟨chunk ++ bytes, by rw [gather, gathered]; rfl, ?_⟩
          rw [fillParts, all, ← List.append_assoc, allParts_append partBytes_positive (part ++ chunk) bytes,
            partCalls_append, List.length_append, ← Nat.add_assoc]
          simp only [whole]
        · right
          refine ⟨_, e, by rw [fillParts, all]; simp only [refused]; rfl, fun call member => ?_⟩
          rcases List.mem_append.mp member with early | late
          · exact quiet_partCalls _ _ call early
          · exact quiet call late
      · right
        exact ⟨calls, e, by rw [fillParts, refused], quiet⟩

theorem spool_cases (weather : SpoolWeather) (key : String) (chunks : List (Except String Bytes)) (size : Nat)
    (reader : String) :
    (∃ calls e, spool weather key chunks size reader = (calls, .error e) ∧ Quiet calls) ∨
    (∃ bytes result, gather chunks = .ok bytes ∧
      spool weather key chunks size reader = ([(.put key bytes reader, weather.put)], result) ∧
      (result = .ok () → weather.put = .ok)) ∨
    ∃ bytes result, gather chunks = .ok bytes ∧
      spool weather key chunks size reader = ((.createMultipartUpload key reader, .ok) ::
        partCalls 0 (allParts spoolPartBytes bytes) ++
        [(.complete ((List.range (allParts spoolPartBytes bytes).length).map partNumber), weather.complete)], result) ∧
      (result = .ok () → weather.complete = .ok) := by
  unfold spool
  split
  · cases gathered : gather chunks with
    | error e => exact .inl ⟨[], e, rfl, fun call member => absurd member List.not_mem_nil⟩
    | ok bytes =>
      right
      left
      refine ⟨bytes, _, rfl, rfl, fun done => ?_⟩
      cases put : weather.put with
      | ok => rfl
      | failed | failedLanded => simp [put] at done
  · cases create : weather.create with
    | ok =>
      rcases @fillParts_cases weather chunks 0 [] partBytes_positive with
        ⟨bytes, gathered, whole⟩ | ⟨calls, e, refused, quiet⟩
      · right
        right
        rw [List.nil_append, Nat.zero_add] at whole
        refine ⟨bytes, _, gathered, by simp only [whole]; rfl, fun done => ?_⟩
        cases complete : weather.complete with
        | ok => rfl
        | failed | failedLanded => simp [complete] at done
      · left
        refine ⟨_, e, by simp only [refused]; rfl, fun call member => ?_⟩
        rcases List.mem_cons.mp member with rfl | later
        · rfl
        · exact quiet call later
    | failed | failedLanded =>
      left
      refine ⟨_, _, rfl, fun call member => ?_⟩
      rw [List.mem_singleton.mp member]
      rfl

/-! What lands in the bucket. -/

theorem quiet_objects {calls : List (R2Call × Outcome)} (quiet : Quiet calls) (b : R2Bucket) :
    (b.landAll calls).objects = b.objects := by
  induction calls generalizing b with
  | nil => rfl
  | cons call rest ih =>
    have later : Quiet rest := fun call member => quiet call (List.mem_cons_of_mem _ member)
    have kept : (if call.2.landed then b.land call.1 else b).objects = b.objects := by
      have silent := quiet call (List.mem_cons_self ..)
      split
      · cases asked : call.1 with
        | put key bytes reader => simp [asked, R2Call.quiet] at silent
        | complete numbers => simp [asked, R2Call.quiet] at silent
        | createMultipartUpload key reader => rfl
        | uploadPart number bytes => rfl
        | abort => rfl
      · rfl
    rw [← kept]
    exact ih later _

theorem landAll_append (b : R2Bucket) (early late : List (R2Call × Outcome)) :
    b.landAll (early ++ late) = (b.landAll early).landAll late := List.foldl_append ..

theorem partNumber_few {count : Nat} (few : count < 2 ^ 16 - 1) : partNumber count = count + 1 := by
  unfold partNumber
  omega

/-- Parts that are taken stand in the upload under their numbers, and the earlier ones with them. -/
theorem landAll_partCalls (b : R2Bucket) (key reader : String) (count : Nat) (sent : List Bytes)
    (stored : Nat → Option Bytes) (open' : b.upload = some (key, reader, stored))
    (few : count + sent.length ≤ 2 ^ 16 - 1) :
    ∃ after, b.landAll (partCalls count sent) = ⟨b.objects, some (key, reader, after)⟩ ∧
      (∀ number ≤ count, after number = stored number) ∧
      (List.range sent.length).flatMap (fun i => (after (count + i + 1)).getD []) = sent.flatten := by
  induction sent generalizing b count stored with
  | nil =>
    refine ⟨stored, ?_, fun number _ => rfl, rfl⟩
    rw [← open']
    rfl
  | cons bytes rest ih =>
    rw [List.length_cons] at few
    have number := @partNumber_few count (by omega)
    have next : (b.land (.uploadPart (partNumber count) bytes)).upload =
        some (key, reader, Function.update stored (count + 1) (some bytes)) := by
      simp only [R2Bucket.land, open', number, Option.map_some]
    obtain ⟨after, landed, earlier, whole⟩ := ih _ (count + 1) _ next (by omega)
    refine ⟨after, landed, fun n le => ?_, ?_⟩
    · rw [earlier n (by omega), Function.update_of_ne (by omega)]
    · have first : after (count + 1) = some bytes := by
        rw [earlier (count + 1) le_rfl, Function.update_self]
      have shift : (fun i => (after (count + (i + 1) + 1)).getD []) = fun i => (after (count + 1 + i + 1)).getD [] := by
        funext i
        rw [Nat.add_right_comm count 1 i, Nat.add_assoc count i 1]
      rw [List.length_cons, List.range_succ_eq_map, List.flatMap_cons, List.flatMap_map, Nat.add_zero, first,
        List.flatten_cons, ← whole, ← shift]
      rfl

/-- The upload of a whole payment: nothing is there until it is completed, and then all of it is. -/
theorem landAll_upload (b : R2Bucket) (key reader : String) (whole : Bytes)
    (few : (allParts spoolPartBytes whole).length ≤ 2 ^ 16 - 1) (outcome : Outcome) :
    (b.landAll ((.createMultipartUpload key reader, .ok) :: partCalls 0 (allParts spoolPartBytes whole) ++
      [(.complete ((List.range (allParts spoolPartBytes whole).length).map partNumber), outcome)])).objects =
        if outcome.landed then Function.update b.objects key (some (whole, reader)) else b.objects := by
  obtain ⟨after, landed, -, gathered⟩ := landAll_partCalls (b.land (.createMultipartUpload key reader)) key reader 0
    (allParts spoolPartBytes whole) (fun _ => none) rfl (by omega)
  have numbered : ((List.range (allParts spoolPartBytes whole).length).map partNumber).flatMap
      (fun n => (after n).getD []) = whole := by
    rw [allParts_flatten partBytes_positive whole] at gathered
    refine Eq.trans ?_ gathered
    rw [List.flatMap_map]
    refine List.flatMap_congr fun i member => ?_
    have bound := List.mem_range.mp member
    rw [partNumber_few (by omega), Nat.zero_add]
  have opened : b.landAll ((.createMultipartUpload key reader, .ok) :: partCalls 0 (allParts spoolPartBytes whole)) =
      ⟨b.objects, some (key, reader, after)⟩ := landed
  rw [landAll_append, opened]
  cases outcome <;> simp [R2Bucket.landAll, R2Bucket.land, Outcome.landed, numbered]

theorem parts_few {whole : Bytes} (few : whole.length ≤ (2 ^ 16 - 1) * spoolPartBytes) :
    (allParts spoolPartBytes whole).length ≤ 2 ^ 16 - 1 := allParts_few few

theorem landAll_put (b : R2Bucket) (key reader : String) (whole : Bytes) (outcome : Outcome) :
    (b.landAll [(.put key whole reader, outcome)]).objects =
      if outcome.landed then Function.update b.objects key (some (whole, reader)) else b.objects := by
  cases outcome <;> rfl

/-- The part that a call sends. -/
def R2Call.part : R2Call → Option Bytes
  | .uploadPart _ bytes => some bytes
  | _ => none

theorem partCalls_parts (count : Nat) (sent : List Bytes) :
    (partCalls count sent).filterMap (fun call => call.1.part) = sent := by
  induction sent generalizing count with
  | nil => rfl
  | cons bytes rest ih =>
    rw [partCalls, List.filterMap_cons]
    exact congrArg (bytes :: ·) (ih (count + 1))

/-- Calls of which only the last can write an object, with what they leave if they are all made. -/
theorem prefix_whole {calls : List (R2Call × Outcome)} {last : R2Call × Outcome} (quiet : Quiet calls) (b : R2Bucket)
    {done : List (R2Call × Outcome)} (part : done <+: calls ++ [last]) :
    (b.landAll done).objects = b.objects ∨ done = calls ++ [last] := by
  rcases List.prefix_concat_iff.mp part with all | before
  · exact .inr all
  · exact .inl (quiet_objects (fun call member => quiet call (before.subset member)) b)

/-- Wherever the spool stops and whatever the bucket answers, the key holds what it held or the whole payment, and no
other key is touched. A spool that succeeds leaves the whole payment, and its parts are full but for the last. -/
theorem spool_whole (weather : SpoolWeather) (key : String) (chunks : List (Except String Bytes)) (size : Nat)
    (reader : String) (b : R2Bucket)
    (few : ∀ whole, gather chunks = .ok whole → whole.length ≤ (2 ^ 16 - 1) * spoolPartBytes) :
    (∀ done, done <+: (spool weather key chunks size reader).1 → (b.landAll done).objects = b.objects ∨
      ∃ whole, gather chunks = .ok whole ∧
        (b.landAll done).objects = Function.update b.objects key (some (whole, reader))) ∧
    ((spool weather key chunks size reader).2 = .ok () →
      (∃ whole, gather chunks = .ok whole ∧ (b.landAll (spool weather key chunks size reader).1).objects =
        Function.update b.objects key (some (whole, reader))) ∧
      ∀ part ∈ ((spool weather key chunks size reader).1.filterMap (fun call => call.1.part)).dropLast,
        part.length = spoolPartBytes) := by
  rcases spool_cases weather key chunks size reader with
    ⟨calls, e, refused, quiet⟩ | ⟨whole, result, gathered, put, told⟩ | ⟨whole, result, gathered, sent, told⟩
  · rw [refused]
    constructor
    · intro done part
      left
      exact quiet_objects (fun call member => quiet call (part.subset member)) b
    · intro wrong
      cases wrong
  · rw [put]
    have noCalls : Quiet [] := fun call member => absurd member List.not_mem_nil
    have landed := landAll_put b key reader whole weather.put
    constructor
    · intro done part
      rcases prefix_whole noCalls b part with same | all
      · exact .inl same
      · rw [all, List.nil_append, landed]
        split
        · exact .inr ⟨whole, gathered, rfl⟩
        · exact .inl rfl
    · intro succeeded
      rw [told succeeded] at landed
      rw [told succeeded]
      exact ⟨⟨whole, gathered, landed⟩, fun part member => absurd member List.not_mem_nil⟩
  · rw [sent]
    have landed := landAll_upload b key reader whole (parts_few (few whole gathered)) weather.complete
    have quiet : Quiet ((.createMultipartUpload key reader, .ok) :: partCalls 0 (allParts spoolPartBytes whole)) := by
      intro call member
      rcases List.mem_cons.mp member with rfl | later
      · rfl
      · exact quiet_partCalls 0 _ call later
    constructor
    · intro done part
      rcases prefix_whole quiet b part with same | all
      · exact .inl same
      · rw [all, landed]
        split
        · exact .inr ⟨whole, gathered, rfl⟩
        · exact .inl rfl
    · intro succeeded
      rw [told succeeded] at landed
      rw [told succeeded]
      refine ⟨⟨whole, gathered, landed⟩, ?_⟩
      have parts : ((R2Call.createMultipartUpload key reader, Outcome.ok) ::
          partCalls 0 (allParts spoolPartBytes whole) ++ [(R2Call.complete
            ((List.range (allParts spoolPartBytes whole).length).map partNumber), Outcome.ok)]).filterMap
              (fun call => call.1.part) = allParts spoolPartBytes whole := by
        rw [List.filterMap_append, List.filterMap_cons_none rfl, partCalls_parts]
        exact List.append_nil _
      rw [parts]
      exact allParts_full partBytes_positive whole

/-- A payment said to be longer than a part, in two chunks, of which the second completes the upload. -/
def calmWeather : SpoolWeather := ⟨.ok, true, .ok, fun _ => .ok, .ok, .ok, ""⟩

theorem calmWeather_whole :
    (R2Bucket.landAll ⟨fun _ => none, none⟩ (spool calmWeather "k" [.ok [1, 2], .ok [3]] 9000000 "r").1).objects "k" =
      some ([1, 2, 3], "r") := by
  have few : ∀ whole, gather [.ok [1, 2], .ok [3]] = .ok whole → whole.length ≤ (2 ^ 16 - 1) * spoolPartBytes := by
    intro whole gathered
    cases gathered
    decide
  obtain ⟨⟨whole, gathered, landed⟩, -⟩ :=
    (spool_whole calmWeather "k" [.ok [1, 2], .ok [3]] 9000000 "r" ⟨fun _ => none, none⟩ few).2 (by decide +kernel)
  cases gathered
  rw [landed]
  rfl

end MessageRelay.Upload
