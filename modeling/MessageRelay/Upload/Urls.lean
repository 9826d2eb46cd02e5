import MessageRelay.Handoff.Serve
import MessageRelay.Presence.RoomRecord
import MessageRelay.Upload.Presign

/-! The URLs of uploads and downloads: whose object each names, and what it is good for. -/

namespace MessageRelay.Upload
open MessageRelay.Library MessageRelay.Lane MessageRelay.Handoff MessageRelay.Send
open MessageRelay.Session (Value)

def urlExpiresSecs : Nat := 600

def readerHeader : String := "x-amz-meta-recipient-identity-key"

/-- An authenticated caller: 66 hexadecimal digits. -/
structure Caller where
  key : String
  identity : Presence.isIdentity key.toList = true

/-- A fresh identifier as an upload's key has it: 32 hexadecimal digits. -/
structure UploadId where
  text : String
  simple : text.toList.length = 32 ∧ text.toList.all Presence.isAsciiHexdigit = true

def buildUploadKey (identityKey uuid : String) : String := identityKey ++ "/" ++ uuid ++ ".beef"

section
variable (formatAmzDate : Nat → String) (s : Signer)

def uploadInput (cfg : UploadConfig) (identityKey : String) (nowSecs : Nat) (uuid : String) : PresignInput where
  toUploadConfig := cfg
  key := buildUploadKey identityKey uuid
  amzDate := formatAmzDate nowSecs
  expiresSecs := urlExpiresSecs

/-- The answer of an upload, its members in the order of their names. -/
def buildUploadResponse (cfg : UploadConfig) (identityKey : String) (nowSecs : Nat) (uuid reader : String) : Value :=
  let presigned := (uploadInput formatAmzDate cfg identityKey nowSecs uuid).presignR2 s "PUT" [(readerHeader, reader)]
  .object [("expiresAt", .number (toString (nowSecs + urlExpiresSecs))),
    ("headers", .object [(readerHeader, .string reader)]), ("key", .string presigned.key),
    ("status", .string "success"), ("url", .string presigned.url)]

def downloadInput (cfg : UploadConfig) (key : String) (nowSecs : Nat) : PresignInput where
  toUploadConfig := cfg
  key := key
  amzDate := formatAmzDate nowSecs
  expiresSecs := urlExpiresSecs

/-- The answer of a download, of the row's own object. A row that names no bytes at rest has none. -/
def buildDownloadResponse (cfg : UploadConfig) (row : Value) (nowSecs : Nat) : Option Value := do
  let payment ← row.get "payment"
  let (key, stamp, _) ← restOf payment
  let presigned := (downloadInput formatAmzDate cfg key nowSecs).presignR2 s "GET" []
  return .object [("etag", .string stamp.etag), ("expiresAt", .number (toString (nowSecs + urlExpiresSecs))),
    ("key", .string presigned.key), ("size", .number (toString stamp.size)), ("status", .string "success"),
    ("txid", (payment.get "txid").getD .null), ("url", .string presigned.url),
    ("verdict", (payment.get "verdict").getD .null)]

end

/-! Whose object it is. -/

theorem caller_free (c : Caller) : '/' ∉ c.key.toList := by
  intro member
  have digits := c.identity
  rw [Presence.isIdentity, Bool.and_eq_true, List.all_eq_true] at digits
  exact absurd (digits.2 '/' member) (by decide)

theorem caller_written (c : Caller) : c.key.toList ≠ [] := by
  intro empty
  have digits := c.identity
  rw [Presence.isIdentity, empty] at digits
  cases digits

theorem toList_uploadKey (c : Caller) (u : UploadId) :
    (buildUploadKey c.key u.text).toList = c.key.toList ++ '/' :: (u.text ++ ".beef").toList := by
  simp [buildUploadKey, String.toList_append]

theorem uploadName_free (u : UploadId) : '/' ∉ (u.text ++ ".beef").toList := by
  rw [String.toList_append, List.mem_append, not_or]
  refine ⟨fun member => ?_, by decide⟩
  exact absurd (List.all_eq_true.mp u.simple.2 '/' member) (by decide)

/-- The key is what the URL names, as it stands. -/
theorem normalizeKey_uploadKey (c : Caller) (u : UploadId) :
    normalizeKey (buildUploadKey c.key u.text) = buildUploadKey c.key u.text := by
  have front : (buildUploadKey c.key u.text).toList.dropWhile (fun ch => ch = '/') =
      ['/'].intercalate [c.key.toList, (u.text ++ ".beef").toList] := by
    rw [toList_uploadKey]
    cases key : c.key.toList with
    | nil => exact absurd key (caller_written c)
    | cons first rest =>
      have other : first ≠ '/' := fun here => caller_free c (by rw [key, here]; exact List.mem_cons_self)
      simp [other, List.intercalate_cons_cons]
  rw [normalizeKey, front, List.splitOn_intercalate]
  · rw [List.filter_cons_of_pos (by simpa using caller_written c), List.filter_cons_of_pos (by simp),
      List.filter_nil, List.intercalate_cons_cons, List.intercalate_singleton, ← String.toList_inj,
      String.toList_ofList, toList_uploadKey]
    simp
  · simp only [List.forall_mem_cons, List.not_mem_nil, false_imp_iff, implies_true, and_true]
    exact ⟨caller_free c, uploadName_free u⟩
  · simp

/-- An upload is its caller's and no other's. -/
theorem keyIsOwnedBy_uploadKey (c c' : Caller) (u : UploadId) :
    keyIsOwnedBy c'.key (buildUploadKey c.key u.text) = true ↔ c'.key = c.key := by
  rw [keyIsOwnedBy, Bool.and_eq_true, List.isPrefixOf_iff_prefix, String.toList_append, toList_uploadKey]
  constructor
  · rintro ⟨⟨rest, parts⟩, -⟩
    have key (c : Caller) (behind : List Char) : (c.key.toList ++ '/' :: behind).takeWhile (fun ch => ch ≠ '/') =
        c.key.toList := by
      refine takeWhile_stop (fun ch member => ?_) (by simp)
      simpa using ne_of_mem_of_not_mem member (caller_free c)
    have same := congrArg (List.takeWhile (fun ch => ch ≠ '/')) parts
    rw [List.append_assoc] at same
    exact String.toList_inj.mp ((key c' _).symm.trans (same.trans (key c _)))
  · intro same
    rw [same]
    refine ⟨⟨(u.text ++ ".beef").toList, by simp⟩, ?_⟩
    have beef : (".beef" : String).length = 5 := rfl
    simp only [buildUploadKey, String.length_append, decide_eq_true_eq, beef]
    omega

theorem uploadKey_injective {c c' : Caller} {u u' : UploadId}
    (same : buildUploadKey c.key u.text = buildUploadKey c'.key u'.text) : c.key = c'.key ∧ u.text = u'.text := by
  have owner : c'.key = c.key := (keyIsOwnedBy_uploadKey c c' u).mp (same ▸ (keyIsOwnedBy_uploadKey c' c' u').mpr rfl)
  have text := congrArg String.toList same
  rw [toList_uploadKey, toList_uploadKey, owner] at text
  have names := (List.cons.inj (List.append_cancel_left text)).2
  rw [String.toList_append, String.toList_append] at names
  exact ⟨owner.symm, String.toList_inj.mp (List.append_cancel_right names)⟩

/-! What a URL is for. -/

/-- A URL the relay hands out: of an upload, with its reader, or of a row's object. -/
inductive Url where
  | upload (caller : Caller) (uuid : UploadId) (nowSecs : Nat) (reader : Caller)
  | download (key : String) (nowSecs : Nat)

namespace Url

def method : Url → String
  | upload .. => "PUT"
  | download .. => "GET"

def headers : Url → List (String × String)
  | upload _ _ _ reader => [(readerHeader, reader.key)]
  | download .. => []

section
variable (formatAmzDate : Nat → String) (s : Signer) (cfg : UploadConfig)

def input : Url → PresignInput
  | upload caller uuid nowSecs _ => uploadInput formatAmzDate cfg caller.key nowSecs uuid.text
  | download key nowSecs => downloadInput formatAmzDate cfg key nowSecs

def signedText (url : Url) : List Char := (url.input formatAmzDate cfg).stringToSign s url.method url.headers

def request (url : Url) : List Char := (url.input formatAmzDate cfg).canonicalRequest url.method url.headers

/-- Two URLs grant the same: an upload of one object by one caller for one reader, or the reading of one object, from
the same second on. -/
def SameGrant : Url → Url → Prop
  | upload caller uuid nowSecs reader, upload caller' uuid' nowSecs' reader' =>
    caller.key = caller'.key ∧ uuid.text = uuid'.text ∧ formatAmzDate nowSecs = formatAmzDate nowSecs' ∧
      reader.key = reader'.key
  | download key nowSecs, download key' nowSecs' =>
    normalizeKey key = normalizeKey key' ∧ formatAmzDate nowSecs = formatAmzDate nowSecs'
  | _, _ => False

variable {formatAmzDate s cfg}

theorem whiteSpace_hexdigit {c : Char} (digit : Presence.isAsciiHexdigit c = true) : whiteSpace c = false := by
  have few : c.toNat < 128 := by
    simp only [Presence.isAsciiHexdigit, Bool.or_eq_true, Bool.and_eq_true, decide_eq_true_eq, Char.le_def,
      UInt32.le_iff_toNat_le] at digit
    have at' : c.toNat = c.val.toNat := rfl
    have nine : ('9' : Char).val.toNat = 57 := rfl
    have low : ('f' : Char).val.toNat = 102 := rfl
    have high : ('F' : Char).val.toNat = 70 := rfl
    omega
  have all : ∀ n < 128, Presence.isAsciiHexdigit (Char.ofNat n) = true → whiteSpace (Char.ofNat n) = false := by
    decide
  have found := all c.toNat few
  rw [Char.ofNat_toNat] at found
  exact found digit

theorem trim_caller (c : Caller) : String.ofList (trim c.key.toList) = c.key := by
  have solid : ∀ ch ∈ c.key.toList, whiteSpace ch = false := by
    intro ch member
    have digits := c.identity
    rw [Presence.isIdentity, Bool.and_eq_true, List.all_eq_true] at digits
    exact whiteSpace_hexdigit (digits.2 ch member)
  rw [trim_of_solid solid, String.ofList_toList]

theorem mem_signed (url : Url) (h : String × String) : h ∈ (url.input formatAmzDate cfg).signed url.headers ↔
    h = ("host", cfg.accountId ++ ".r2.cloudflarestorage.com") ∨
      ∃ caller uuid nowSecs reader, url = upload caller uuid nowSecs reader ∧ h = (readerHeader, reader.key) := by
  rw [PresignInput.signed, (List.mergeSort_perm _ _).mem_iff]
  have lower : toAsciiLowercase readerHeader = readerHeader := by decide
  cases url with
  | upload caller uuid nowSecs reader =>
    simp only [headers, List.map_cons, List.map_nil, List.mem_cons, List.not_mem_nil, or_false, lower, trim_caller]
    constructor
    · rintro (rfl | rfl)
      · exact .inl rfl
      · exact .inr ⟨_, _, _, _, rfl, rfl⟩
    · rintro (rfl | ⟨_, _, _, _, same, rfl⟩)
      · exact .inl rfl
      · cases same
        exact .inr rfl
  | download key nowSecs =>
    simp only [headers, List.map_nil, List.mem_singleton, reduceCtorEq, false_and, exists_false, or_false]
    exact Iff.rfl

theorem plain_url (account : '\n' ∉ cfg.accountId.toList) (bucket : '\n' ∉ cfg.bucket.toList) (url : Url) :
    PresignInput.Plain (url.input formatAmzDate cfg) url.method url.headers where
  method := by
    cases url with
    | upload => exact (by decide : '\n' ∉ ("PUT" : String).toList)
    | download => exact (by decide : '\n' ∉ ("GET" : String).toList)
  bucket := by cases url <;> exact bucket
  names := by
    intro h member
    rcases (mem_signed url h).mp member with rfl | ⟨_, _, _, reader, -, rfl⟩
    · exact (by decide : '\n' ∉ ("host" : String).toList ∧ ':' ∉ ("host" : String).toList)
    · exact (by decide : '\n' ∉ readerHeader.toList ∧ ':' ∉ readerHeader.toList)
  values := by
    intro h member
    rcases (mem_signed url h).mp member with rfl | ⟨_, _, _, reader, -, rfl⟩
    · rw [String.toList_append, List.mem_append, not_or]
      exact ⟨account, by decide⟩
    · intro broken
      have digits := reader.identity
      rw [Presence.isIdentity, Bool.and_eq_true, List.all_eq_true] at digits
      exact absurd (digits.2 _ broken) (by decide)

/-- Two URLs of a deployment that carry the same signed text grant the same, or the hash has collided on the texts of
their two requests. -/
theorem same_grant_or_collision (account : '\n' ∉ cfg.accountId.toList) (bucket : '\n' ∉ cfg.bucket.toList)
    {url url' : Url} (same : url.signedText formatAmzDate s cfg = url'.signedText formatAmzDate s cfg) :
    SameGrant formatAmzDate url url' ∨ (url.request formatAmzDate cfg ≠ url'.request formatAmzDate cfg ∧
      s.sha256 (utf8 (String.ofList (url.request formatAmzDate cfg))) =
        s.sha256 (utf8 (String.ofList (url'.request formatAmzDate cfg)))) := by
  by_cases request : url.request formatAmzDate cfg = url'.request formatAmzDate cfg
  · left
    have one : (url.input formatAmzDate cfg).bucket = (url'.input formatAmzDate cfg).bucket := by
      cases url <;> cases url' <;> rfl
    obtain ⟨way, key, date, -, signed⟩ := PresignInput.canonicalRequest_injective
      (plain_url account bucket url) (plain_url account bucket url') one request
    cases url with
    | upload caller uuid nowSecs reader =>
      cases url' with
      | upload caller' uuid' nowSecs' reader' =>
        have named : buildUploadKey caller.key uuid.text = buildUploadKey caller'.key uuid'.text :=
          (normalizeKey_uploadKey caller uuid).symm.trans (key.trans (normalizeKey_uploadKey caller' uuid'))
        obtain ⟨owner, id⟩ := uploadKey_injective named
        refine ⟨owner, id, date, ?_⟩
        have member := (@mem_signed formatAmzDate cfg (upload caller uuid nowSecs reader)
          (readerHeader, reader.key)).mpr (.inr ⟨_, _, _, _, rfl, rfl⟩)
        rw [signed] at member
        rcases (mem_signed (upload caller' uuid' nowSecs' reader') _).mp member with host | ⟨_, _, _, _, same, read⟩
        · exact absurd (congrArg Prod.fst host) (by decide : readerHeader ≠ "host")
        · cases same
          exact congrArg Prod.snd read
      | download => exact absurd way (by decide : ("PUT" : String) ≠ "GET")
    | download key nowSecs =>
      cases url' with
      | upload => exact absurd way (by decide : ("GET" : String) ≠ "PUT")
      | download key' nowSecs' => exact ⟨key, date⟩
  · exact .inr ⟨request, PresignInput.stringToSign_hash same⟩

end

end Url

def firstCaller : Caller := ⟨String.ofList ('0' :: '2' :: List.replicate 64 'a'), by decide⟩

def firstUuid : UploadId := ⟨String.ofList (List.replicate 32 '7'), by decide⟩

def plainConfig : UploadConfig := ⟨"abc123", "AKIA", "secret", "beef-blobs"⟩

/-- Each byte added to the sum before it. -/
def sumSigner : Signer where
  sha256 := fun bytes => List.Vector.replicate 32 bytes.sum
  hmacSha256 := fun key bytes => List.Vector.replicate 32 (key.sum + bytes.sum)

def twoDigits (n : Nat) : String := String.ofList [Char.ofNat (48 + n / 10), Char.ofNat (48 + n % 10)]

/-- The calendar's text of a second of its first day. -/
def firstDay (secs : Nat) : String :=
  "19700101T" ++ twoDigits (secs / 3600) ++ twoDigits (secs / 60 % 60) ++ twoDigits (secs % 60) ++ "Z"

example : firstDay 1000 = "19700101T001640Z" := by decide

/-- The same object, its key with a slash in front and without. -/
theorem same_second_grants :
    Url.SameGrant firstDay (.download "/beef/a" 1000) (.download "beef//a" 1000) := by
  have one : normalizeKey "/beef/a" = normalizeKey "beef//a" := by decide
  have request : Url.request firstDay plainConfig (.download "/beef/a" 1000) =
      Url.request firstDay plainConfig (.download "beef//a" 1000) := by
    simp only [Url.request, Url.input, downloadInput, PresignInput.canonicalRequest, PresignInput.canonicalPath,
      PresignInput.canonicalKey, one]
    rfl
  have signed : Url.signedText firstDay sumSigner plainConfig (.download "/beef/a" 1000) =
      Url.signedText firstDay sumSigner plainConfig (.download "beef//a" 1000) := by
    simp only [Url.request] at request
    simp only [Url.signedText, PresignInput.stringToSign, PresignInput.hashedCanonical, request]
    rfl
  have granted := @Url.same_grant_or_collision firstDay sumSigner plainConfig (by decide) (by decide) _ _ signed
  exact granted.resolve_right (fun collided => collided.1 request)

end MessageRelay.Upload
