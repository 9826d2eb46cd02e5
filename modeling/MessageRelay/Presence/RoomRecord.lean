import Mathlib

/-! A session's record of its rooms: those it holds, and those it left by `leaveRoom` and has not rejoined, which its
close still walks. The record is bounded by the bytes of its JSON, at the cost of the oldest left rooms. -/

namespace MessageRelay.Presence

/-- The first dash parts the owner from the suffix. -/
def splitOnce (room : String) : Option (List Char × List Char) :=
  match room.toList.span (fun c => c ≠ '-') with
  | (_, []) => none
  | (owner, _ :: suffix) => some (owner, suffix)

def isAsciiHexdigit (c : Char) : Bool :=
  ('0' ≤ c && c ≤ '9') || ('a' ≤ c && c ≤ 'f') || ('A' ≤ c && c ≤ 'F')

def isIdentity (owner : List Char) : Bool :=
  owner.length = 66 && owner.all isAsciiHexdigit

def roomIdentity (room : String) : Option String :=
  match splitOnce room with
  | some (owner, _) => if isIdentity owner then some (String.ofList owner) else none
  | none => none

def splitOwnerRoom (room : String) : Option (List Char × List Char) :=
  match splitOnce room with
  | some (owner, suffix) => if isIdentity owner && !suffix.isEmpty then some (owner, suffix) else none
  | none => none

def lobbyRoomPrefix : List Char := "low_lobby_".toList

/-- The room of a waiting host: exactly `low_lobby_` and a game id of 64 hex digits. -/
def isLobbyRoom (room : String) : Bool :=
  match splitOwnerRoom room with
  | some (_, suffix) =>
    match lobbyRoomPrefix.isPrefixOf? suffix with
    | some gid => gid.length = 64 && gid.all isAsciiHexdigit
    | none => false
  | none => false

/-- The bytes of a character, a string and a list of strings in JSON. -/
def jsonCharBytes (c : Char) : Nat :=
  if c.val = 34 || c.val = 92 then 2
  else if c.val < 32 then (if c.val ∈ [8, 9, 10, 12, 13] then 2 else 6)
  else c.utf8Size

def jsonStringBytes (s : String) : Nat := 2 + (s.toList.map jsonCharBytes).sum

def jsonListBytes (items : List String) : Nat :=
  2 + (items.map jsonStringBytes).sum + (items.length - 1)

def roomRecordMaxBytes : Nat := 2048

/-- What the two kinds of record have in common. `base` is the bytes of the record's JSON outside its two lists. -/
structure RoomRecord where
  joined : List String
  left : List String
  deriving DecidableEq, Repr

def roomRecordBytes (base : Nat) (record : RoomRecord) : Nat :=
  base + jsonListBytes record.joined + jsonListBytes record.left

/-- The oldest left rooms go first, until the record fits; the held rooms are never dropped. -/
def boundLeftRooms (base : Nat) (joined : List String) : List String → List String
  | [] => []
  | oldest :: rest =>
    if roomRecordMaxBytes < roomRecordBytes base ⟨joined, oldest :: rest⟩ then boundLeftRooms base joined rest
    else oldest :: rest

def RoomRecord.bound (base : Nat) (record : RoomRecord) : RoomRecord :=
  { record with left := boundLeftRooms base record.joined record.left }

/-- A join. The record as it was is `none`. -/
def recordJoin (base : Nat) (record : RoomRecord) (room : String) : Option RoomRecord :=
  let left := record.left.filter (fun l => l ≠ room)
  let held := record.joined.any (fun r => r = room)
  let joined := if held then record.joined else record.joined ++ [room]
  if left.length ≠ record.left.length || !held then some (RoomRecord.bound base ⟨joined, left⟩) else none

/-- A leave. A lobby room is never kept among the left ones. -/
def recordLeave (base : Nat) (record : RoomRecord) (room : String) : Option RoomRecord :=
  let joined := record.joined.filter (fun r => r ≠ room)
  if joined.length = record.joined.length then none
  else if isLobbyRoom room then some (RoomRecord.bound base ⟨joined, record.left⟩)
  else some (RoomRecord.bound base ⟨joined, record.left.filter (fun l => l ≠ room) ++ [room]⟩)

/-- The attachment of a raw socket. -/
structure SocketAttachment where
  identityKey : String
  connectedAtMs : Nat
  joinedRooms : List String
  leftRooms : List String
  deriving DecidableEq, Repr

/-- The bytes of an attachment's JSON outside its two lists of rooms. -/
def SocketAttachment.base (a : SocketAttachment) : Nat :=
  66 + jsonStringBytes a.identityKey + (Nat.toDigits 10 a.connectedAtMs).length

def SocketAttachment.change (a : SocketAttachment) (mutate : Nat → RoomRecord → Option RoomRecord) : SocketAttachment :=
  match mutate a.base ⟨a.joinedRooms, a.leftRooms⟩ with
  | some record => { a with joinedRooms := record.joined, leftRooms := record.left }
  | none => a

def SocketAttachment.join (a : SocketAttachment) (room : String) : SocketAttachment :=
  a.change (fun base record => recordJoin base record room)

def SocketAttachment.leave (a : SocketAttachment) (room : String) : SocketAttachment :=
  a.change (fun base record => recordLeave base record room)

/-- The rooms a close walks. -/
def closeWalk (joined left : List String) : List String :=
  left.foldl (fun rooms l => if l ∈ rooms then rooms else rooms ++ [l]) joined

theorem mem_recordJoin (base : Nat) (record : RoomRecord) (room held : String) :
    held ∈ ((recordJoin base record room).getD record).joined ↔ held = room ∨ held ∈ record.joined := by
  have anyIff : record.joined.any (fun r => r = room) = true ↔ room ∈ record.joined := by simp
  unfold recordJoin
  by_cases present : room ∈ record.joined
  · rw [anyIff.mpr present]
    simp only
    split
    · simp only [Option.getD_some, RoomRecord.bound, if_true]
      exact ⟨.inr, fun either => either.elim (fun same => same ▸ present) id⟩
    · simp only [Option.getD_none]
      exact ⟨.inr, fun either => either.elim (fun same => same ▸ present) id⟩
  · have absent : record.joined.any (fun r => r = room) = false := by
      rw [Bool.eq_false_iff]
      exact fun found => present (anyIff.mp found)
    rw [absent]
    simp [RoomRecord.bound, or_comm]

theorem mem_recordLeave (base : Nat) (record : RoomRecord) (room held : String) :
    held ∈ ((recordLeave base record room).getD record).joined ↔ held ∈ record.joined ∧ held ≠ room := by
  unfold recordLeave
  simp only
  split
  · rename_i whole
    have all := List.length_filter_eq_length_iff.mp whole
    simp only [Option.getD_none]
    exact ⟨fun member => ⟨member, by simpa using all held member⟩, fun both => both.1⟩
  · split <;> simp [RoomRecord.bound]

theorem mem_closeWalk (joined left : List String) (room : String) :
    room ∈ closeWalk joined left ↔ room ∈ joined ∨ room ∈ left := by
  unfold closeWalk
  induction left generalizing joined with
  | nil => simp
  | cons first rest ih =>
    rw [List.foldl_cons, ih]
    by_cases held : first ∈ joined
    · rw [if_pos held, List.mem_cons]
      constructor
      · rintro (inside | later)
        · exact .inl inside
        · exact .inr (.inr later)
      · rintro (inside | rfl | later)
        · exact .inl inside
        · exact .inl held
        · exact .inr later
    · rw [if_neg held]
      simp [or_assoc]

end MessageRelay.Presence
