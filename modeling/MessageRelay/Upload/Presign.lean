import MessageRelay.Lane.Separation
import MessageRelay.Library.Percent
import MessageRelay.Library.Joined
import MessageRelay.Library.JsonPrint
import MessageRelay.Send.StoreRows

/-! The presigned URLs of uploads and downloads: the request a URL is for, as the text that is signed. The key library's
SHA-256 and HMAC are parameters, and so is the calendar. -/

namespace MessageRelay.Upload
open MessageRelay.Library MessageRelay.Lane MessageRelay.Session

structure UploadConfig where
  accountId : String
  accessKeyId : String
  secretAccessKey : String
  bucket : String

structure PresignInput extends UploadConfig where
  key : String
  amzDate : String
  expiresSecs : Nat

structure PresignedUpload where
  url : String
  key : String
  deriving DecidableEq, Repr

/-- The two hashes, of bytes of any length. -/
structure Signer where
  sha256 : Bytes → Bytes32
  hmacSha256 : Bytes → Bytes → Bytes32

def algorithm : String := "AWS4-HMAC-SHA256"

def service : String := "s3"

def region : String := "auto"

def uriEncode (s : String) (encodeSlash : Bool) : List Char :=
  (utf8 s).flatMap (fun b => if b = 0x2f ∧ encodeSlash = false then ['/'] else percentByte b)

/-- A key without its leading slash, its slashes single. -/
def normalizeKey (k : String) : String :=
  let trimmed := k.toList.dropWhile (fun c => c = '/')
  String.ofList (['/'].intercalate ((trimmed.splitOn '/').filter (fun part => part ≠ [])))

def encodeKeyPath (k : String) : List Char :=
  ['/'].intercalate ((k.toList.splitOn '/').map (fun seg => uriEncode (String.ofList seg) true))

namespace PresignInput

def host (i : PresignInput) : String := i.accountId ++ ".r2.cloudflarestorage.com"

def canonicalKey (i : PresignInput) : String := normalizeKey i.key

def canonicalPath (i : PresignInput) : List Char :=
  '/' :: i.bucket.toList ++ '/' :: encodeKeyPath i.canonicalKey

def dateStamp (i : PresignInput) : String := String.ofList (i.amzDate.toList.take 8)

def credentialScope (i : PresignInput) : String := i.dateStamp ++ "/" ++ region ++ "/" ++ service ++ "/aws4_request"

def headerLe (a b : String × String) : Bool := decide (a.1 < b.1) || (a.1 = b.1 && decide (a.2 ≤ b.2))

/-- The signed headers, `host` among them, in the order of their names. -/
def signed (i : PresignInput) (headers : List (String × String)) : List (String × String) :=
  (("host", i.host) :: headers.map (fun h => (toAsciiLowercase h.1, String.ofList (trim h.2.toList)))).mergeSort headerLe

def signedHeaders (i : PresignInput) (headers : List (String × String)) : List Char :=
  [';'].intercalate ((i.signed headers).map (fun h => h.1.toList))

/-- The parameters, in the order of their names. -/
def queryPairs (i : PresignInput) (headers : List (String × String)) : List (String × String) :=
  [("X-Amz-Algorithm", algorithm), ("X-Amz-Credential", i.accessKeyId ++ "/" ++ i.credentialScope),
    ("X-Amz-Date", i.amzDate), ("X-Amz-Expires", toString i.expiresSecs),
    ("X-Amz-SignedHeaders", String.ofList (i.signedHeaders headers))]

def queryPart (pair : String × String) : List Char := uriEncode pair.1 true ++ '=' :: uriEncode pair.2 true

def canonicalQuery (i : PresignInput) (headers : List (String × String)) : List Char :=
  ['&'].intercalate ((i.queryPairs headers).map queryPart)

def canonicalHeaders (i : PresignInput) (headers : List (String × String)) : List Char :=
  (i.signed headers).flatMap (fun h => h.1.toList ++ ':' :: h.2.toList ++ ['\n'])

def canonicalRequest (i : PresignInput) (method : String) (headers : List (String × String)) : List Char :=
  ['\n'].intercalate [method.toList, i.canonicalPath, i.canonicalQuery headers, i.canonicalHeaders headers,
    i.signedHeaders headers, "UNSIGNED-PAYLOAD".toList]

def hashedCanonical (s : Signer) (i : PresignInput) (method : String) (headers : List (String × String)) : String :=
  hexEncode (s.sha256 (utf8 (String.ofList (i.canonicalRequest method headers)))).toList

def stringToSign (s : Signer) (i : PresignInput) (method : String) (headers : List (String × String)) : List Char :=
  ['\n'].intercalate [algorithm.toList, i.amzDate.toList, i.credentialScope.toList,
    (i.hashedCanonical s method headers).toList]

def deriveSigningKey (s : Signer) (i : PresignInput) : Bytes :=
  let date := s.hmacSha256 (utf8 ("AWS4" ++ i.secretAccessKey)) (utf8 i.dateStamp)
  let region := s.hmacSha256 date.toList (utf8 region)
  let service := s.hmacSha256 region.toList (utf8 service)
  (s.hmacSha256 service.toList (utf8 "aws4_request")).toList

def presignR2 (s : Signer) (i : PresignInput) (method : String) (headers : List (String × String)) : PresignedUpload :=
  let signature := hexEncode (s.hmacSha256 (i.deriveSigningKey s)
    (utf8 (String.ofList (i.stringToSign s method headers)))).toList
  { url := "https://" ++ i.host ++ String.ofList i.canonicalPath ++ "?" ++ String.ofList (i.canonicalQuery headers) ++
      "&X-Amz-Signature=" ++ signature
    key := i.canonicalKey }

end PresignInput

/-! What is signed says what it is for. -/

theorem uriEncode_slash (s : String) : uriEncode s true = percentEncode (utf8 s) := by
  rw [uriEncode, percentEncode]
  simp

theorem uriEncode_injective {s t : String} (same : uriEncode s true = uriEncode t true) : s = t := by
  rw [uriEncode_slash, uriEncode_slash] at same
  exact utf8_injective (percentEncode_injective same)

theorem not_mem_uriEncode {c : Char} (separates : unreserved c = false) (plain : c ≠ '%') (s : String) :
    c ∉ uriEncode s true := by
  rw [uriEncode_slash]
  exact not_mem_percentEncode separates plain _

/-- Joined texts that do not hold the separator are the same texts. -/
theorem intercalate_injective {sep : Char} {parts parts' : List (List Char)} (free : ∀ part ∈ parts, sep ∉ part)
    (free' : ∀ part ∈ parts', sep ∉ part) (written : parts ≠ []) (written' : parts' ≠ [])
    (same : [sep].intercalate parts = [sep].intercalate parts') : parts = parts' := by
  have cut := congrArg (List.splitOn sep) same
  rwa [List.splitOn_intercalate sep free written, List.splitOn_intercalate sep free' written'] at cut

theorem encodeKeyPath_injective {k k' : String} (same : encodeKeyPath k = encodeKeyPath k') : k = k' := by
  have free (k : String) : ∀ part ∈ (k.toList.splitOn '/').map (fun seg => uriEncode (String.ofList seg) true),
      '/' ∉ part := by
    intro part member
    obtain ⟨seg, -, rfl⟩ := List.mem_map.mp member
    exact not_mem_uriEncode (by decide) (by decide) _
  have some' (k : String) : (k.toList.splitOn '/').map (fun seg => uriEncode (String.ofList seg) true) ≠ [] := by
    simp [List.splitOn_ne_nil]
  have parts := intercalate_injective (free k) (free k') (some' k) (some' k') same
  have segs : k.toList.splitOn '/' = k'.toList.splitOn '/' := by
    refine List.map_injective_iff.mpr (fun a b same => ?_) parts
    exact String.ofList_injective (uriEncode_injective same)
  have whole := congrArg ['/'].intercalate segs
  rw [List.intercalate_splitOn, List.intercalate_splitOn] at whole
  exact String.toList_inj.mp whole

theorem toString_nat_injective {n m : Nat} (same : toString n = toString m) : n = m := by
  have digits := congrArg (fun text : String => Nat.ofDigitChars 10 text.toList 0) same
  simpa only [Json.toList_toString, Nat.ofDigitChars_ten_toDigits] using digits

theorem mem_intercalate {sep c : Char} {parts : List (List Char)} (member : c ∈ [sep].intercalate parts) :
    c = sep ∨ ∃ part ∈ parts, c ∈ part := by
  cases parts with
  | nil => cases member
  | cons first rest =>
    rw [intercalate_cons, List.mem_append, List.mem_flatMap] at member
    rcases member with inside | ⟨part, later, inside⟩
    · exact .inr ⟨first, List.mem_cons_self, inside⟩
    · rcases List.mem_cons.mp inside with here | inside
      · exact .inl here
      · exact .inr ⟨part, List.mem_cons_of_mem _ later, inside⟩

theorem not_mem_encodeKeyPath {c : Char} (separates : unreserved c = false) (plain : c ≠ '%') (slash : c ≠ '/')
    (k : String) : c ∉ encodeKeyPath k := by
  intro member
  rcases mem_intercalate member with here | ⟨part, inside, held⟩
  · exact slash here
  · obtain ⟨seg, -, rfl⟩ := List.mem_map.mp inside
    exact not_mem_uriEncode separates plain _ held

namespace PresignInput

theorem not_mem_queryPart {c : Char} (separates : unreserved c = false) (plain : c ≠ '%') (equals : c ≠ '=')
    (pair : String × String) : c ∉ queryPart pair := by
  rw [queryPart, List.mem_append, List.mem_cons, not_or, not_or]
  exact ⟨not_mem_uriEncode separates plain _, equals, not_mem_uriEncode separates plain _⟩

theorem queryPart_value {name value value' : String} (same : queryPart (name, value) = queryPart (name, value')) :
    value = value' := by
  have behind := List.append_cancel_left same
  exact uriEncode_injective (List.cons.inj behind).2

/-- A signed header's line. -/
def headerLine (h : String × String) : List Char := h.1.toList ++ ':' :: h.2.toList

/-- The names a deployment is given and the headers a request must carry are single lines. -/
structure Plain (i : PresignInput) (method : String) (headers : List (String × String)) : Prop where
  method : '\n' ∉ method.toList
  bucket : '\n' ∉ i.bucket.toList
  names : ∀ h ∈ i.signed headers, '\n' ∉ h.1.toList ∧ ':' ∉ h.1.toList
  values : ∀ h ∈ i.signed headers, '\n' ∉ h.2.toList

/-- The lines of the request. -/
def requestLines (i : PresignInput) (method : String) (headers : List (String × String)) : List (List Char) :=
  [method.toList, i.canonicalPath, i.canonicalQuery headers] ++ ((i.signed headers).map headerLine ++
    [[], i.signedHeaders headers, "UNSIGNED-PAYLOAD".toList])

theorem intercalate_lines (lines : List (List Char)) {rest : List (List Char)} (more : rest ≠ []) :
    ['\n'].intercalate (lines ++ rest) = lines.flatMap (fun line => line ++ ['\n']) ++ ['\n'].intercalate rest := by
  induction lines with
  | nil => rfl
  | cons line lines ih =>
    rw [List.cons_append, List.intercalate_cons_of_ne_nil (by simp [more]), ih, List.flatMap_cons]
    simp only [List.append_assoc]

theorem canonicalRequest_lines (i : PresignInput) (method : String) (headers : List (String × String)) :
    i.canonicalRequest method headers = ['\n'].intercalate (i.requestLines method headers) := by
  rw [requestLines, intercalate_lines _ (by simp), intercalate_lines _ (by simp), canonicalRequest, canonicalHeaders]
  simp [List.intercalate_cons_cons, List.flatMap_map, headerLine]

theorem requestLines_free {i : PresignInput} {method : String} {headers : List (String × String)}
    (plain : Plain i method headers) : ∀ line ∈ i.requestLines method headers, '\n' ∉ line := by
  have path : '\n' ∉ i.canonicalPath := by
    rw [canonicalPath, List.cons_append, List.mem_cons, List.mem_append, List.mem_cons]
    simp only [not_or]
    exact ⟨by decide, plain.bucket, by decide, not_mem_encodeKeyPath (by decide) (by decide) (by decide) _⟩
  have query : '\n' ∉ i.canonicalQuery headers := by
    intro member
    rcases mem_intercalate member with here | ⟨part, inside, held⟩
    · cases here
    · obtain ⟨pair, -, rfl⟩ := List.mem_map.mp inside
      exact not_mem_queryPart (by decide) (by decide) (by decide) pair held
  have names : '\n' ∉ i.signedHeaders headers := by
    intro member
    rcases mem_intercalate member with here | ⟨part, inside, held⟩
    · cases here
    · obtain ⟨h, listed, rfl⟩ := List.mem_map.mp inside
      exact (plain.names h listed).1 held
  intro line member
  simp only [requestLines, List.mem_append, List.mem_cons, List.not_mem_nil, or_false] at member
  rcases member with (rfl | rfl | rfl) | listed | rfl | rfl | rfl
  · exact plain.method
  · exact path
  · exact query
  · obtain ⟨h, inside, rfl⟩ := List.mem_map.mp listed
    rw [headerLine, List.mem_append, List.mem_cons]
    simp only [not_or]
    exact ⟨(plain.names h inside).1, by decide, plain.values h inside⟩
  · exact List.not_mem_nil
  · exact names
  · decide

theorem headerLines_injective {l l' : List (String × String)} (named : ∀ h ∈ l, ':' ∉ h.1.toList)
    (named' : ∀ h ∈ l', ':' ∉ h.1.toList) (same : l.map headerLine = l'.map headerLine) : l = l' := by
  induction l generalizing l' with
  | nil => exact (List.map_eq_nil_iff.mp same.symm).symm
  | cons h rest ih =>
    cases l' with
    | nil => cases same
    | cons h' rest' =>
      rw [List.map_cons, List.map_cons] at same
      obtain ⟨first, later⟩ := List.cons.inj same
      have tail := ih (fun h member => named h (List.mem_cons_of_mem _ member))
        (fun h member => named' h (List.mem_cons_of_mem _ member)) later
      have front (h : String × String) (free : ':' ∉ h.1.toList) :
          (headerLine h).takeWhile (fun c => c ≠ ':') = h.1.toList := by
        refine takeWhile_stop (fun c member => ?_) (by simp)
        simpa using ne_of_mem_of_not_mem member free
      have name : h.1.toList = h'.1.toList := by
        rw [← front h (named h List.mem_cons_self), ← front h' (named' h' List.mem_cons_self), first]
      rw [headerLine, headerLine, name] at first
      have value := (List.cons.inj (List.append_cancel_left first)).2
      have whole : h = h' := Prod.ext (String.toList_inj.mp name) (String.toList_inj.mp value)
      rw [whole, tail]

/-- The request a URL is for can be read off what is signed. -/
theorem canonicalRequest_injective {i i' : PresignInput} {method method' : String}
    {headers headers' : List (String × String)} (plain : Plain i method headers) (plain' : Plain i' method' headers')
    (bucket : i.bucket = i'.bucket)
    (same : i.canonicalRequest method headers = i'.canonicalRequest method' headers') :
    method = method' ∧ i.canonicalKey = i'.canonicalKey ∧ i.amzDate = i'.amzDate ∧ i.expiresSecs = i'.expiresSecs ∧
      i.signed headers = i'.signed headers' := by
  rw [canonicalRequest_lines, canonicalRequest_lines] at same
  have lines := intercalate_injective (requestLines_free plain) (requestLines_free plain') (by simp [requestLines])
    (by simp [requestLines]) same
  simp only [requestLines, List.cons_append, List.nil_append, List.cons.injEq] at lines
  obtain ⟨way, path, query, block⟩ := lines
  have listed := (List.append_inj' block rfl).1
  refine ⟨String.toList_inj.mp way, ?_, ?_⟩
  · rw [canonicalPath, canonicalPath, bucket] at path
    have key := (List.cons.inj (List.append_cancel_left path)).2
    exact encodeKeyPath_injective key
  · have free (i : PresignInput) (headers : List (String × String)) :
        ∀ part ∈ (i.queryPairs headers).map queryPart, '&' ∉ part := by
      intro part member
      obtain ⟨pair, -, rfl⟩ := List.mem_map.mp member
      exact not_mem_queryPart (by decide) (by decide) (by decide) pair
    have parts := intercalate_injective (free i headers) (free i' headers') (by simp [queryPairs]) (by simp [queryPairs])
      query
    simp only [queryPairs, List.map_cons, List.map_nil, List.cons.injEq] at parts
    obtain ⟨-, -, date, expires, -⟩ := parts
    exact ⟨queryPart_value date, toString_nat_injective (queryPart_value expires),
      headerLines_injective (fun h member => (plain.names h member).2) (fun h member => (plain'.names h member).2)
        listed⟩

theorem hexEncode_bytes_injective {a b : Bytes32} (same : hexEncode a.toList = hexEncode b.toList) : a = b := by
  have read := congrArg hex32 same
  rw [hex32_hexEncode, hex32_hexEncode] at read
  exact Option.some.inj read

/-- The last line of what is signed is the request's digest. -/
theorem stringToSign_hash {s : Signer} {i i' : PresignInput} {method method' : String}
    {headers headers' : List (String × String)}
    (same : i.stringToSign s method headers = i'.stringToSign s method' headers') :
    s.sha256 (utf8 (String.ofList (i.canonicalRequest method headers))) =
      s.sha256 (utf8 (String.ofList (i'.canonicalRequest method' headers'))) := by
  have whole (i : PresignInput) (method : String) (headers : List (String × String)) :
      i.stringToSign s method headers = (['\n'].intercalate [algorithm.toList, i.amzDate.toList,
        i.credentialScope.toList] ++ ['\n']) ++ (i.hashedCanonical s method headers).toList := by
    simp [stringToSign, List.intercalate_cons_cons]
  have sized (bytes : Bytes32) : (hexEncode bytes.toList).toList.length = 64 := by
    rw [hexEncode, String.toList_ofList, List.length_flatMap]
    simp [List.map_const']
  rw [whole, whole] at same
  have last := (List.append_inj' same ((sized _).trans (sized _).symm)).2
  exact hexEncode_bytes_injective (String.toList_inj.mp last)

end PresignInput

end MessageRelay.Upload
