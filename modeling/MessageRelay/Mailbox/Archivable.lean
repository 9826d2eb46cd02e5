import MessageRelay.Archive.Json
import MessageRelay.Mailbox.Machine

/-! Whether the queue takes every version of a stored row. A body too long for it stays in the hub, so what decides is
the length of the names beside the body, which are as long as a sender writes them. -/

namespace MessageRelay.Mailbox
open MessageRelay.Library MessageRelay.Library.Json MessageRelay.Archive MessageRelay.Session

/-- What the queue takes in one message. -/
def queueMessageBytes : Nat := 128000

/-- The queue takes the row's message, and the consumer reads the same message from its text. -/
def Archivable (range : Range) (recipient : String) (r : Row) : Prop :=
  let m := archiveMessage (archiveRow r) recipient
  m.text.utf8ByteSize ≤ queueMessageBytes ∧ (Value.fromSlice range (utf8Bytes m.text)).map parseValue = some (.ok m)

/-- The bytes of the names in a row's message, as they are escaped. -/
def namesLength (recipient : String) (row : NewRow) : Nat :=
  jsonString recipient + jsonString row.messageId + jsonString row.messageBox + jsonString row.sender

/-- The message of the row's acknowledgment fits without its body: 149 bytes stand beside the names. -/
def NamesFit (recipient : String) (row : NewRow) : Prop := namesLength recipient row + 149 ≤ queueMessageBytes

/-- A version of the row a send stored: live as it was, or acknowledged with its body or, once archived, without. -/
structure VersionOf (row : NewRow) (nowMs : Nat) (r : Row) : Prop where
  named : r.messageId = row.messageId
  boxed : r.messageBox = row.messageBox
  sent : r.sender = row.sender
  created : r.createdAt = sqliteTime nowMs
  version : (r.state = .live ∧ r.version = 1 ∧ r.body = some row.body) ∨
    (r.state = .acknowledged ∧ r.version = 2 ∧ (r.body = some row.body ∨ r.body = none))

section Versions
variable {row : NewRow} {nowMs : Nat} {r : Row}

theorem versionOf_freshRow (mb : Store) (row : NewRow) (nowMs : Nat) : VersionOf row nowMs (freshRow mb row nowMs) :=
  ⟨rfl, rfl, rfl, rfl, .inl ⟨rfl, rfl, rfl⟩⟩

theorem VersionOf.ackRow (of : VersionOf row nowMs r) (ids : List String) (now : Nat) :
    VersionOf row nowMs (ackRow ids now r) := by
  unfold Mailbox.ackRow
  split
  · next live =>
    rcases of.version with ⟨-, first, body⟩ | ⟨dead, -⟩
    · refine ⟨of.named, of.boxed, of.sent, of.created, .inr ⟨rfl, congrArg (· + 1) first, ?_⟩⟩
      simp only [Row.acknowledge, body]
      split <;> simp
    · rw [dead] at live
      cases live.2
  · exact of

theorem VersionOf.doneRow (of : VersionOf row nowMs r) {d : Done} {r' : Row} (kept : doneRow d r = some r') :
    VersionOf row nowMs r' := by
  unfold Mailbox.doneRow at kept
  split at kept
  · cases kept
  · split at kept
    · cases kept
      exact ⟨of.named, of.boxed, of.sent, of.created, of.version⟩
    · split at kept
      · cases kept
        exact ⟨of.named, of.boxed, of.sent, of.created, of.version⟩
      · cases kept
        refine ⟨of.named, of.boxed, of.sent, of.created, ?_⟩
        rcases of.version with ⟨live, first, body⟩ | ⟨dead, second, -⟩
        · exact .inl ⟨live, first, by simp [live, body]⟩
        · exact .inr ⟨dead, second, .inr (if_pos dead)⟩

theorem doneRow_seq {d : Done} {r' : Row} (kept : doneRow d r = some r') : r'.seq = r.seq := by
  unfold doneRow at kept
  split at kept
  · cases kept
  · split at kept
    · cases kept
      rfl
    · split at kept <;> cases kept <;> rfl

theorem ackRow_seq (ids : List String) (now : Nat) (r : Row) : (ackRow ids now r).seq = r.seq := by
  unfold ackRow
  split <;> rfl

end Versions

/-- The row at the place is a version of the one stored there. -/
structure Stands (row : NewRow) (nowMs place : Nat) (mb : Store) : Prop where
  placed : place < mb.nextSeq
  version : ∀ id r, mb.find? id = some r → r.seq = place → VersionOf row nowMs r

section Run
variable {row : NewRow} {nowMs place : Nat} {mb : Store}

theorem Stands.append (stands : Stands row nowMs place mb) {new : NewRow} (free : mb.find? new.messageId = none)
    (now : Nat) : Stands row nowMs place (mb.append new now) := by
  refine ⟨Nat.lt_succ_of_lt stands.placed, ?_⟩
  intro id r found here
  rw [Store.find?_append free] at found
  split at found
  · cases found
    exact absurd here stands.placed.ne'
  · exact stands.version id r found here

theorem Stands.archiveDone (stands : Stands row nowMs place mb) (done : List Done) :
    Stands row nowMs place (archiveDone mb done) := by
  unfold Mailbox.archiveDone
  induction done generalizing mb with
  | nil => exact stands
  | cons d rest ih =>
    apply ih
    refine ⟨archiveDoneOne_nextSeq mb d ▸ stands.placed, ?_⟩
    intro id r found here
    rw [archiveDoneOne_find?] at found
    split at found
    · obtain ⟨before, there, kept⟩ := Option.bind_eq_some_iff.mp found
      exact (stands.version id before there ((doneRow_seq kept).symm.trans here)).doneRow kept
    · exact stands.version id r found here

theorem Stands.step (bounds : Bounds) (stands : Stands row nowMs place mb) (input : MailboxInput) :
    Stands row nowMs place (mailboxStep bounds mb input).1 := by
  cases input with
  | insert new retry now =>
    rcases insert_cases mb new retry now bounds with ⟨outcome, -, same⟩ | ⟨same, free, -⟩
    · simpa only [mailboxStep, same] using stands
    · simpa only [mailboxStep, same] using stands.append free now
  | acknowledge ids retry now =>
    refine ⟨(acknowledge_nextSeq mb ids retry now).symm ▸ stands.placed, ?_⟩
    intro id r found here
    obtain ⟨before, there, rfl⟩ := Option.map_eq_some_iff.mp ((acknowledge_find? mb ids retry now id).symm.trans found)
    exact (stands.version id before there ((ackRow_seq ids now before).symm.trans here)).ackRow ids now
  | takeOwedDue now =>
    refine ⟨(takeOwedDue_nextSeq mb now).symm ▸ stands.placed, ?_⟩
    intro id r found here
    obtain ⟨before, there, rfl⟩ := Option.map_eq_some_iff.mp ((takeOwedDue_find? mb now id).symm.trans found)
    split at here <;> split
    all_goals
      have of := stands.version id before there here
      exact ⟨of.named, of.boxed, of.sent, of.created, of.version⟩
  | archiveDone done => exact stands.archiveDone done

theorem Stands.run (bounds : Bounds) (stands : Stands row nowMs place mb) (inputs : List MailboxInput) :
    Stands row nowMs place (after bounds mb inputs) := by
  induction inputs generalizing mb with
  | nil => exact stands
  | cons input rest ih =>
    rw [after_cons]
    exact ih (stands.step bounds input)

end Run

/-- A time is 19 characters, none of them escaped. -/
theorem jsonString_sqliteTime (ms : Nat) : jsonString (sqliteTime ms) = 21 := by
  have digit : ∀ k < 10, escapedLength (Char.ofNat (48 + k)) = 1 := by decide
  have written : ∃ year month day hour minute second : Nat, sqliteTime ms = String.ofList
      ([3, 2, 1, 0].map (fun p => Char.ofNat (48 + year / 10 ^ p % 10)) ++ ['-'] ++
        [1, 0].map (fun p => Char.ofNat (48 + month / 10 ^ p % 10)) ++ ['-'] ++
        [1, 0].map (fun p => Char.ofNat (48 + day / 10 ^ p % 10)) ++ [' '] ++
        [1, 0].map (fun p => Char.ofNat (48 + hour / 10 ^ p % 10)) ++ [':'] ++
        [1, 0].map (fun p => Char.ofNat (48 + minute / 10 ^ p % 10)) ++ [':'] ++
        [1, 0].map (fun p => Char.ofNat (48 + second / 10 ^ p % 10))) := ⟨_, _, _, _, _, _, rfl⟩
  obtain ⟨year, month, day, hour, minute, second, written⟩ := written
  have mark : escapedLength '-' = 1 ∧ escapedLength ' ' = 1 ∧ escapedLength ':' = 1 := by decide
  rw [written, jsonString, String.toList_ofList]
  simp [digit _ (Nat.mod_lt _ (by decide)), mark]

section Lengths
variable {recipient : String} {row : NewRow} {nowMs : Nat} {r : Row}

theorem VersionOf.version_length (of : VersionOf row nowMs r) : (toString r.version).length = 1 := by
  rcases of.version with ⟨-, version, -⟩ | ⟨-, version, -⟩ <;> rw [version] <;> rfl

theorem VersionOf.version_small (of : VersionOf row nowMs r) : 1 ≤ r.version ∧ r.version ≤ 2 := by
  rcases of.version with ⟨-, version, -⟩ | ⟨-, version, -⟩ <;> simp [version]

theorem fieldNames_length : ArchiveMessage.fieldNames.map String.length = [9, 9, 7, 6, 10, 6, 4, 9, 9] := rfl

theorem jsonLength_counted {m : ArchiveMessage} (counted : (toString m.version).length = 1)
    (created : jsonOption m.createdAt = 21) : m.jsonLength =
      jsonString m.recipient + jsonString m.messageId + jsonString m.messageBox + jsonString m.sender + jsonOption m.body +
        (match m.change with | .insert => 123 | .acknowledge => 128) + (if m.bodyInHub then 17 else 0) := by
  have names := fieldNames_length
  simp only [ArchiveMessage.fieldNames, List.map_cons, List.map_nil, List.cons.injEq, and_true] at names
  cases change : m.change <;> cases hub : m.bodyInHub <;>
  · simp only [ArchiveMessage.jsonLength, jsonField, change, hub, created, counted, names, List.cons_append,
      List.nil_append, List.append_nil, List.sum_cons, List.sum_nil, List.length_cons, List.length_nil, if_true, if_false,
      Bool.false_eq_true]
    omega

variable (recipient) in
/-- The message of a row's version with a body, or with the flag in its place. -/
theorem length_version (of : VersionOf row nowMs r) (body : Option String) (hub : Bool) :
    ({ inlineMessage (archiveRow r) recipient with body := body, bodyInHub := hub } : ArchiveMessage).jsonLength =
      namesLength recipient row + jsonOption body + (if r.state = .live then 123 else 128) + (if hub then 17 else 0) := by
  have created : jsonOption (some r.createdAt) = 21 := by
    rw [of.created, jsonOption, Option.elim_some, jsonString_sqliteTime]
  rw [jsonLength_counted (m := { inlineMessage (archiveRow r) recipient with body := body, bodyInHub := hub })
    of.version_length created]
  simp only [inlineMessage, archiveRow, namesLength, of.named, of.boxed, of.sent]
  by_cases live : r.state = .live
  · rw [if_pos live, if_pos live]
  · rw [if_neg live, if_neg live]

/-- Where the names fit, so does the message, with the body inside or without. -/
theorem length_archiveMessage (of : VersionOf row nowMs r) (fit : NamesFit recipient row) :
    (archiveMessage (archiveRow r) recipient).jsonLength ≤ queueMessageBytes := by
  have inline := length_version recipient of r.body false
  have left := length_version recipient of none true
  unfold NamesFit at fit
  by_cases long : archiveInlineMax < (inlineMessage (archiveRow r) recipient).jsonLength ∧ (archiveRow r).body.isSome
  · rw [archiveMessage, if_pos long, left]
    simp only [jsonOption, Option.elim_none, if_true]
    split <;> omega
  · rw [archiveMessage, if_neg long]
    by_cases body : (archiveRow r).body.isSome
    · have short := Nat.le_of_not_lt (fun more => long ⟨more, body⟩)
      exact short.trans (by decide)
    · have none' : r.body = none := Option.not_isSome_iff_eq_none.mp body
      have same : inlineMessage (archiveRow r) recipient =
          { inlineMessage (archiveRow r) recipient with body := r.body, bodyInHub := false } := rfl
      rw [same, inline, none']
      simp only [jsonOption, Option.elim_none, Bool.false_eq_true, if_false]
      split <;> omega

/-- The acknowledgment of a row whose names do not fit is too long, whatever its body. -/
theorem namesFit_of_length (of : VersionOf row nowMs r) (dead : r.state = .acknowledged) (body : r.body.isSome)
    (fits : (archiveMessage (archiveRow r) recipient).jsonLength ≤ queueMessageBytes) : NamesFit recipient row := by
  have inline := length_version recipient of r.body false
  have left := length_version recipient of none true
  have same : inlineMessage (archiveRow r) recipient =
      { inlineMessage (archiveRow r) recipient with body := r.body, bodyInHub := false } := rfl
  unfold NamesFit
  by_cases long : archiveInlineMax < (inlineMessage (archiveRow r) recipient).jsonLength ∧ (archiveRow r).body.isSome
  · rw [archiveMessage, if_pos long, left] at fits
    simp only [jsonOption, Option.elim_none, dead, reduceCtorEq, if_false, if_true] at fits
    exact fits
  · have short := Nat.le_of_not_lt (fun more => long ⟨more, body⟩)
    rw [same, inline, if_neg (by simp [dead])] at short
    have room : archiveInlineMax + 149 ≤ queueMessageBytes := by decide
    simp only [Bool.false_eq_true, if_false] at short
    omega

variable (recipient) in
/-- No message is shorter than its names. -/
theorem namesLength_le (of : VersionOf row nowMs r) :
    namesLength recipient row ≤ (archiveMessage (archiveRow r) recipient).jsonLength := by
  have same : inlineMessage (archiveRow r) recipient =
      { inlineMessage (archiveRow r) recipient with body := r.body, bodyInHub := false } := rfl
  rcases archiveMessage_cases (archiveRow r) recipient with inside | ⟨-, left⟩
  · rw [inside, same, length_version _ of]
    omega
  · rw [left, length_version _ of]
    omega

theorem not_archivable_of_long {range : Range} (of : VersionOf row nowMs r)
    (long : queueMessageBytes < jsonString row.messageId) : ¬ Archivable range recipient r := by
  intro archivable
  have names := namesLength_le recipient of
  have fits := archivable.1
  rw [ArchiveMessage.length_text] at fits
  unfold namesLength at names
  omega

end Lengths

/-- The consumer takes the message of every version for the message it is. -/
theorem parse_archiveMessage {recipient : String} {row : NewRow} {nowMs : Nat} {r : Row} (of : VersionOf row nowMs r)
    (named : recipient ≠ "" ∧ row.messageId ≠ "" ∧ row.messageBox ≠ "" ∧ row.sender ≠ "") :
    Archive.parse (archiveMessage (archiveRow r) recipient) = .ok (archiveMessage (archiveRow r) recipient) := by
  have counted : r.version ≠ 0 := Nat.one_le_iff_ne_zero.mp of.version_small.1
  have bodied : (if r.state = .live then Change.insert else .acknowledge) = .insert → r.body ≠ none := by
    intro inserts
    rcases of.version with ⟨-, -, body⟩ | ⟨dead, -⟩
    · simp [body]
    · simp [dead] at inserts
  rcases archiveMessage_cases (archiveRow r) recipient with inside | ⟨-, left⟩
  · rw [inside]
    simp only [Archive.parse, inlineMessage, archiveRow, of.named, of.boxed, of.sent, counted, named.1, named.2.1,
      named.2.2.1, named.2.2.2, if_false]
    rw [if_neg (fun both => bodied both.1 both.2.1)]
  · rw [left]
    simp [Archive.parse, inlineMessage, archiveRow, of.named, of.boxed, of.sent, counted, named]

/-- A message that fits and parses is one the archive can take. -/
theorem archivable_iff {range : Range} {recipient : String} {row : NewRow} {nowMs : Nat} {r : Row}
    (of : VersionOf row nowMs r)
    (named : recipient ≠ "" ∧ row.messageId ≠ "" ∧ row.messageBox ≠ "" ∧ row.sender ≠ "") :
    Archivable range recipient r ↔ (archiveMessage (archiveRow r) recipient).jsonLength ≤ queueMessageBytes := by
  have small : (archiveMessage (archiveRow r) recipient).version < 2 ^ 64 := by
    rw [(archiveMessage_named (archiveRow r) recipient).2.2]
    exact Nat.lt_of_le_of_lt of.version_small.2 (by decide)
  have whole : (Value.fromSlice range (utf8Bytes (archiveMessage (archiveRow r) recipient).text)).map parseValue =
      some (.ok (archiveMessage (archiveRow r) recipient)) := by
    rw [ArchiveMessage.fromSlice_text small, Option.map_some, parseValue, ArchiveMessage.fromValue_fields small]
    exact congrArg some (parse_archiveMessage of named)
  rw [Archivable, ArchiveMessage.length_text]
  exact and_iff_left whole

/-- Every version of a stored row can be archived exactly when its names leave room for its acknowledgment. -/
theorem stored_archivable_iff (range : Range) (bounds : Bounds) (mb : Store) (row : NewRow) (retry : Bool) (nowMs : Nat)
    (recipient : String) (stored : (insert mb row retry nowMs bounds).1 = .stored)
    (named : recipient ≠ "" ∧ row.messageId ≠ "" ∧ row.messageBox ≠ "" ∧ row.sender ≠ "") :
    (∀ inputs, ∀ r ∈ (after bounds (insert mb row retry nowMs bounds).2 inputs).rows.rows, r.seq = mb.nextSeq →
      Archivable range recipient r) ↔ NamesFit recipient row := by
  obtain ⟨free, same⟩ := insert_of_stored stored
  rw [same]
  have found := Store.find?_append free nowMs row.messageId
  rw [if_pos rfl] at found
  have start : Stands row nowMs mb.nextSeq (mb.append row nowMs) := by
    refine ⟨Nat.lt_succ_self _, ?_⟩
    intro id r there here
    rw [Store.find?_append free] at there
    split at there
    · cases there
      exact versionOf_freshRow mb row nowMs
    · have member := (mb.mem_rows_iff r).mpr ((Store.messageId_of_find? there).symm ▸ there)
      have below := (List.pairwise_append.mp mb.ordered).2.2 r.seq (List.mem_map_of_mem member) mb.nextSeq
        (List.mem_singleton.mpr rfl)
      exact absurd here below.ne
  constructor
  · intro all
    have of : VersionOf row nowMs ((freshRow mb row nowMs).acknowledge nowMs) :=
      ⟨rfl, rfl, rfl, rfl, .inr ⟨rfl, rfl, .inl rfl⟩⟩
    have moved : (after bounds (mb.append row nowMs) [.acknowledge [row.messageId] false nowMs]).find? row.messageId =
        some ((freshRow mb row nowMs).acknowledge nowMs) := by
      rw [after_cons, after_nil]
      refine (acknowledge_find? (mb.append row nowMs) [row.messageId] false nowMs row.messageId).trans ?_
      rw [found, Option.map_some, ackRow, if_pos ⟨List.mem_singleton.mpr rfl, rfl⟩]
    have held := (Store.mem_rows_iff _ ((freshRow mb row nowMs).acknowledge nowMs)).mpr moved
    have fits := (archivable_iff of named).mp (all _ _ held rfl)
    exact namesFit_of_length of rfl rfl fits
  · intro fit inputs r member here
    have of := (start.run bounds inputs).version r.messageId r ((Store.mem_rows_iff _ r).mp member) here
    exact (archivable_iff of named).mpr (length_archiveMessage of fit)

def shortLetter : NewRow := ⟨"m", "inbox", "carol", "hi"⟩

theorem shortLetter_archivable : NamesFit "alice" shortLetter ∧
    ∀ inputs, ∀ r ∈ (after .ruled (insert Store.empty shortLetter false 0 .ruled).2 inputs).rows.rows,
      r.seq = Store.empty.nextSeq → Archivable everyNumber "alice" r := by
  have fit : NamesFit "alice" shortLetter := by
    unfold NamesFit
    decide +kernel
  exact ⟨fit, (stored_archivable_iff everyNumber .ruled Store.empty shortLetter false 0 "alice" (by decide) (by decide)).mpr fit⟩

def longName (n : Nat) : String := String.ofList (List.replicate n 'a')

theorem jsonString_longName (n : Nat) : jsonString (longName n) = n + 2 := by
  have one : escapedLength 'a' = 1 := rfl
  rw [jsonString, longName, String.toList_ofList, List.map_replicate, List.sum_replicate, one, smul_eq_mul, mul_one,
    Nat.add_comm]

/-- A letter whose id is longer than a queue message. -/
def longLetter : NewRow := ⟨longName 130000, "inbox", "carol", "hi"⟩

/-- The letter is stored, and not even its first version fits the queue. -/
theorem longLetter_not_archivable : (insert Store.empty longLetter false 0 .ruled).1 = .stored ∧
    longLetter.messageId ≠ "" ∧ ¬ Archivable everyNumber "alice" (freshRow Store.empty longLetter 0) := by
  have long : jsonString longLetter.messageId = 130002 := jsonString_longName 130000
  have room : ¬ Bounds.ruled.rows ≤ (counters Store.empty).1 ∧
      ¬ Bounds.ruled.bytes < (counters Store.empty).2 + longLetter.body.utf8ByteSize := by decide
  refine ⟨?_, ?_, not_archivable_of_long (versionOf_freshRow Store.empty longLetter 0) ?_⟩
  · simp only [insert, Store.find?_empty]
    rw [if_neg room.1, if_neg room.2]
  · intro empty
    have short : jsonString "" = 2 := rfl
    rw [empty, short] at long
    omega
  · rw [long]
    decide

end MessageRelay.Mailbox
