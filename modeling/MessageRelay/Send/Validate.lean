import MessageRelay.Send.Live

/-! The checks of a `/sendMessage` body, in their order. Recipients and ids are each a string or an array, of which the
strings are taken, and are paired once both counts agree. -/

namespace MessageRelay.Send
open MessageRelay.Session

def messageRequired : Answer := errorAnswer "ERR_MESSAGE_REQUIRED" "Please provide a valid message to send!" 400

def invalidMessageBox : Answer := errorAnswer "ERR_INVALID_MESSAGEBOX" "Invalid message box." 400

def invalidMessageBody : Answer := errorAnswer "ERR_INVALID_MESSAGE_BODY" "Invalid message body." 400

def recipientRequired : Answer :=
  errorAnswer "ERR_RECIPIENT_REQUIRED" "Missing recipient(s). Provide \"recipient\" or \"recipients\"." 400

def invalidRecipientKey (key : String) : Answer :=
  errorAnswer "ERR_INVALID_RECIPIENT_KEY" ("Invalid recipient key: " ++ key) 400

def messageIdRequired : Answer := errorAnswer "ERR_MESSAGEID_REQUIRED" "Missing messageId." 400

def oneMessageId (recipients : Nat) : Answer :=
  errorAnswer "ERR_MESSAGEID_COUNT_MISMATCH" ("Provided 1 messageId for " ++ toString recipients ++
    " recipients. Provide one messageId per recipient (same order).") 400

def countMismatch (recipients ids : Nat) : Answer :=
  errorAnswer "ERR_MESSAGEID_COUNT_MISMATCH" ("Recipients (" ++ toString recipients ++ ") and messageId count (" ++
    toString ids ++ ") must match.") 400

def invalidMessageId : Answer := errorAnswer "ERR_INVALID_MESSAGEID" "Each messageId must be a non-empty string." 400

def isObject : Value → Bool
  | .object _ => true
  | _ => false

/-- The strings of a string or an array. Any other element is passed over. -/
def strings : Value → Option (List String)
  | .string s => some [s]
  | .array items => some (items.filterMap Value.asStr)
  | _ => none

/-- A number or a boolean as an error shows it. -/
def shownKey : Value → String
  | .number text => text
  | .bool b => if b then "true" else "false"
  | _ => ""

def messageBoxOf (message : Value) : Except Answer String :=
  if !isObject message then .error invalidMessageBox
  else
    match ((message.get "messageBox").bind Value.asStr).filter (· ≠ "") with
    | none => .error invalidMessageBox
    | some messageBox => .ok messageBox

def messageBodyOf (message : Value) : Except Answer Value :=
  match message.get "body" with
  | none => .error invalidMessageBody
  | some body => if hasBody body then .ok body else .error invalidMessageBody

def recipientsValue (message : Value) : Option Value := (message.get "recipients").or (message.get "recipient")

def recipientsOf (message : Value) : Except Answer (List String) :=
  match recipientsValue message with
  | none => .error recipientRequired
  | some v =>
    match strings v with
    | none => .error (invalidRecipientKey (shownKey v))
    | some recipients => if recipients.isEmpty then .error recipientRequired else .ok recipients

def messageIdsOf (message : Value) : Except Answer (List String) :=
  match (message.get "messageId").bind strings with
  | none => .error messageIdRequired
  | some ids => .ok ids

/-- The counts, then every id, then every key. -/
def paired (recipients ids : List String) : Except Answer (List (String × String)) :=
  if 1 < recipients.length ∧ ids.length = 1 then .error (oneMessageId recipients.length)
  else if recipients.length ≠ ids.length then .error (countMismatch recipients.length ids.length)
  else if ids.any (· = "") then .error invalidMessageId
  else
    match recipients.find? (fun r => !isValidPubkey r) with
    | some r => .error (invalidRecipientKey r)
    | none => .ok (recipients.zip ids)

def validateSendValue (body : Value) : Except Answer ValidatedSendMessage :=
  match body.get "message" with
  | none => .error messageRequired
  | some message => do
    let messageBox ← messageBoxOf message
    let content ← messageBodyOf message
    let recipients ← recipientsOf message
    let ids ← messageIdsOf message
    let pairs ← paired recipients ids
    return { recipients := pairs, messageBox, body := content, payment := body.get "payment" }

/-- What a request holds under a name: the elements of its array, or its one value. -/
def elements : Option Value → List Value
  | none => []
  | some (.array items) => items
  | some v => [v]

def recipientsSent (body : Value) : List Value := elements ((body.get "message").bind recipientsValue)

def messageIdsSent (body : Value) : List Value :=
  elements ((body.get "message").bind (fun message => message.get "messageId"))

/-- An element that is no string. -/
def Stray (v : Value) : Prop := v.asStr = none

/-- Each recipient is paired with the id sent for it, one pair for each element, and a request whose arrays differ in
length or hold anything but strings is refused. -/
structure PairedAsSent (body : Value) : Prop where
  recipients : ∀ validated, validateSendValue body = .ok validated →
    recipientsSent body = validated.recipients.map (fun pair => .string pair.1)
  ids : ∀ validated, validateSendValue body = .ok validated →
    messageIdsSent body = validated.recipients.map (fun pair => .string pair.2)
  refused : ((recipientsSent body).length ≠ (messageIdsSent body).length ∨
    ∃ v ∈ recipientsSent body ++ messageIdsSent body, Stray v) → ∃ answer, validateSendValue body = .error answer

/-- The request passes every check once the elements that are no strings are left out. -/
structure SoundApart (body : Value) : Prop where
  box : ∃ box, ((body.get "message").bind (fun message => message.get "messageBox")) = some (.string box) ∧ box ≠ ""
  content : ∃ content, ((body.get "message").bind (fun message => message.get "body")) = some content ∧
    hasBody content = true
  recipients : (recipientsSent body).filterMap Value.asStr ≠ []
  counted : ((recipientsSent body).filterMap Value.asStr).length = ((messageIdsSent body).filterMap Value.asStr).length
  named : ∀ id ∈ (messageIdsSent body).filterMap Value.asStr, id ≠ ""
  keyed : ∀ r ∈ (recipientsSent body).filterMap Value.asStr, isValidPubkey r = true

theorem paired_eq_ok {recipients ids : List String} {pairs : List (String × String)} :
    paired recipients ids = .ok pairs ↔ recipients.length = ids.length ∧ (∀ id ∈ ids, id ≠ "") ∧
      (∀ r ∈ recipients, isValidPubkey r = true) ∧ pairs = recipients.zip ids := by
  unfold paired
  split
  · next one => simp; omega
  · split
    · next differ => simp [differ]
    · next counted =>
      split
      · next blank =>
        simp only [reduceCtorEq, List.any_eq_true, decide_eq_true_eq, false_iff, not_and] at blank ⊢
        obtain ⟨id, member, empty⟩ := blank
        exact fun _ named => absurd empty (named id member)
      · next named =>
        split
        · next r invalid =>
          have member := List.mem_of_find?_eq_some invalid
          have keyless := List.find?_some invalid
          simp only [reduceCtorEq, false_iff, not_and]
          intro _ _ keyed
          simp [keyed r member] at keyless
        · next keyed =>
          simp only [List.find?_eq_none, Bool.not_eq_true', Bool.not_eq_false] at keyed
          simp only [List.any_eq_true, decide_eq_true_eq, not_exists, not_and] at named
          simp only [Except.ok.injEq, ne_eq, not_not] at counted ⊢
          exact ⟨fun same => ⟨counted, named, keyed, same.symm⟩, fun all => all.2.2.2.symm⟩

/-- The strings of a string or an array are the strings among its elements. -/
theorem strings_eq_some {v : Value} {taken : List String} (named : strings v = some taken) :
    taken = (elements (some v)).filterMap Value.asStr := by
  cases v <;> simp_all [strings, elements, Value.asStr]

theorem strings_of_some {v : Option Value} (some' : (elements v).filterMap Value.asStr ≠ []) :
    v.bind strings = some ((elements v).filterMap Value.asStr) := by
  cases v with
  | none => exact absurd rfl some'
  | some v =>
    cases v with
    | string | array => rfl
    | null | bool | number | object => exact absurd rfl some'

theorem messageBoxOf_eq_ok {message : Value} {box : String} :
    messageBoxOf message = .ok box ↔ message.get "messageBox" = some (.string box) ∧ box ≠ "" := by
  cases message with
  | object fields =>
    simp only [messageBoxOf, isObject, Bool.not_true, Bool.false_eq_true, if_false]
    cases found : (Value.object fields).get "messageBox" with
    | none => simp
    | some v =>
      cases v with
      | string s =>
        by_cases empty : s = ""
        · simp [Value.asStr, Option.filter, empty]
        · simp [Value.asStr, Option.filter, empty]
          rintro rfl
          exact empty
      | null | bool | number | array | object => simp [Value.asStr]
  | null | bool | number | string | array => simp [messageBoxOf, isObject, Value.get]

theorem messageBodyOf_eq_ok {message content : Value} :
    messageBodyOf message = .ok content ↔ message.get "body" = some content ∧ hasBody content = true := by
  unfold messageBodyOf
  cases message.get "body" with
  | none => simp
  | some body =>
    simp only [Option.some.injEq]
    constructor
    · intro taken
      split at taken
      · next held =>
        cases taken
        exact ⟨rfl, held⟩
      · cases taken
    · rintro ⟨rfl, held⟩
      exact if_pos held

theorem recipientsOf_eq_ok {message : Value} {recipients : List String} : recipientsOf message = .ok recipients ↔
    (elements (recipientsValue message)).filterMap Value.asStr = recipients ∧ recipients ≠ [] := by
  constructor
  · intro taken
    unfold recipientsOf at taken
    split at taken
    · cases taken
    · next v found =>
      split at taken
      · cases taken
      · next all named =>
        split at taken
        · cases taken
        · next some' =>
          cases taken
          rw [found, ← strings_eq_some named]
          exact ⟨rfl, by simpa using some'⟩
  · rintro ⟨rfl, some'⟩
    have named := strings_of_some some'
    obtain ⟨v, found, named⟩ := Option.bind_eq_some_iff.mp named
    rw [recipientsOf, found]
    simp only
    rw [found] at some' named
    rw [named]
    simp [some']

theorem messageIdsOf_eq_ok {message : Value} {ids : List String} (taken : messageIdsOf message = .ok ids) :
    ids = (elements (message.get "messageId")).filterMap Value.asStr := by
  unfold messageIdsOf at taken
  split at taken
  · cases taken
  · next all named =>
    cases taken
    obtain ⟨v, found, named⟩ := Option.bind_eq_some_iff.mp named
    rw [found]
    exact strings_eq_some named

theorem validateSendValue_eq_ok {body : Value} {validated : ValidatedSendMessage}
    (accepted : validateSendValue body = .ok validated) : SoundApart body ∧ validated.recipients =
      ((recipientsSent body).filterMap Value.asStr).zip ((messageIdsSent body).filterMap Value.asStr) := by
  unfold validateSendValue at accepted
  cases held : body.get "message" with
  | none => simp [held] at accepted
  | some message =>
    simp only [held, bind, Except.bind, pure, Except.pure] at accepted
    cases boxed : messageBoxOf message with
    | error answer => simp [boxed] at accepted
    | ok box =>
      cases content : messageBodyOf message with
      | error answer => simp [boxed, content] at accepted
      | ok text =>
        cases keys : recipientsOf message with
        | error answer => simp [boxed, content, keys] at accepted
        | ok recipients =>
          cases named : messageIdsOf message with
          | error answer => simp [boxed, content, keys, named] at accepted
          | ok ids =>
            cases both : paired recipients ids with
            | error answer => simp [boxed, content, keys, named, both] at accepted
            | ok pairs =>
              simp only [boxed, content, keys, named, both, Except.ok.injEq] at accepted
              obtain ⟨counted, ids', keyed, rfl⟩ := paired_eq_ok.mp both
              obtain ⟨rfl, some'⟩ := recipientsOf_eq_ok.mp keys
              have listed := messageIdsOf_eq_ok named
              subst listed accepted
              exact ⟨⟨⟨box, by simpa [held] using messageBoxOf_eq_ok.mp boxed⟩,
                ⟨text, by simpa [held] using messageBodyOf_eq_ok.mp content⟩, by simpa [recipientsSent, held] using some',
                by simpa [recipientsSent, messageIdsSent, held] using counted,
                by simpa [messageIdsSent, held] using ids', by simpa [recipientsSent, held] using keyed⟩,
                by simp [recipientsSent, messageIdsSent, held]⟩

theorem validateSendValue_of_soundApart {body : Value} (sound : SoundApart body) :
    ∃ validated, validateSendValue body = .ok validated := by
  obtain ⟨⟨box, boxed, box'⟩, ⟨content, text, held⟩, some', counted, named, keyed⟩ := sound
  obtain ⟨message, found, inside⟩ := Option.bind_eq_some_iff.mp boxed
  simp only [recipientsSent, messageIdsSent, found, Option.bind_some] at text some' counted named keyed
  have keys := recipientsOf_eq_ok.mpr ⟨rfl, some'⟩
  have ids : (elements (message.get "messageId")).filterMap Value.asStr ≠ [] := by
    intro empty
    rw [empty, List.length_nil] at counted
    exact some' (List.eq_nil_of_length_eq_zero counted)
  have listed : messageIdsOf message = .ok ((elements (message.get "messageId")).filterMap Value.asStr) := by
    rw [messageIdsOf, strings_of_some ids]
  have both := paired_eq_ok.mpr ⟨counted, named, keyed, rfl⟩
  have inBox : messageBoxOf message = .ok box := messageBoxOf_eq_ok.mpr ⟨inside, box'⟩
  have inBody : messageBodyOf message = .ok content := messageBodyOf_eq_ok.mpr ⟨text, held⟩
  simp [validateSendValue, found, bind, Except.bind, pure, Except.pure, inBox, inBody, keys, listed, both]

/-- Where no element is passed over, the elements are their strings. -/
theorem elements_eq_strings {vs : List Value} (clean : ∀ v ∈ vs, ¬ Stray v) :
    vs = (vs.filterMap Value.asStr).map Value.string := by
  induction vs with
  | nil => rfl
  | cons v rest ih =>
    have tail := ih (fun w member => clean w (List.mem_cons_of_mem _ member))
    cases v with
    | string s =>
      rw [List.filterMap_cons_some (f := Value.asStr) (a := .string s) (b := s) rfl, List.map_cons, ← tail]
    | null | bool | number | array | object => exact absurd rfl (clean _ List.mem_cons_self)

theorem not_stray_of_strings {α : Type} {vs : List Value} {items : List α} {f : α → String}
    (same : vs = items.map (fun item => .string (f item))) : ∀ v ∈ vs, ¬ Stray v := by
  subst same
  simp [Stray, Value.asStr]

/-- The ids are paired as sent exactly where a request sound but for its strays has none. -/
theorem pairedAsSent_iff (body : Value) : PairedAsSent body ↔
    (SoundApart body → ∀ v ∈ recipientsSent body ++ messageIdsSent body, ¬ Stray v) := by
  constructor
  · intro sent sound
    obtain ⟨validated, accepted⟩ := validateSendValue_of_soundApart sound
    rw [List.forall_mem_append]
    exact ⟨not_stray_of_strings (sent.recipients validated accepted),
      not_stray_of_strings (sent.ids validated accepted)⟩
  · intro clean
    have pairs {validated : ValidatedSendMessage} (accepted : validateSendValue body = .ok validated) :
        recipientsSent body = validated.recipients.map (fun pair => .string pair.1) ∧
          messageIdsSent body = validated.recipients.map (fun pair => .string pair.2) := by
      obtain ⟨sound, zipped⟩ := validateSendValue_eq_ok accepted
      obtain ⟨recipients, ids⟩ := List.forall_mem_append.mp (clean sound)
      have first := elements_eq_strings recipients
      have second := elements_eq_strings ids
      have left := List.map_fst_zip sound.counted.le
      have right := List.map_snd_zip sound.counted.ge
      rw [← zipped] at left right
      constructor
      · rw [first, ← left, List.map_map]
        rfl
      · rw [second, ← right, List.map_map]
        rfl
    refine ⟨fun _ accepted => (pairs accepted).1, fun _ accepted => (pairs accepted).2, ?_⟩
    intro wrong
    cases answered : validateSendValue body with
    | error answer => exact ⟨answer, rfl⟩
    | ok validated =>
      obtain ⟨first, second⟩ := pairs answered
      rcases wrong with differ | ⟨v, member, stray⟩
      · exact absurd (by rw [first, second, List.length_map, List.length_map]) differ
      · exact absurd stray (clean (validateSendValue_eq_ok answered).1 v member)

def firstKey : String := "02aaaaaaaaaaaaaaaaaaaaaaaaaaaaaaaaaaaaaaaaaaaaaaaaaaaaaaaaaaaaaaaa"

def secondKey : String := "03bbbbbbbbbbbbbbbbbbbbbbbbbbbbbbbbbbbbbbbbbbbbbbbbbbbbbbbbbbbbbbbb"

/-- Two recipients about a null, and three ids of which the last is no string. -/
def strayRequest : Value :=
  .object [("message", .object [("body", .string "hi"), ("messageBox", .string "inbox"),
    ("messageId", .array [.string "for-alice", .string "for-nobody", .number "7"]),
    ("recipients", .array [.string firstKey, .null, .string secondKey])])]

/-- The id sent at the null's place goes to the recipient after it. -/
theorem strayRequest_misaligned : ¬ PairedAsSent strayRequest ∧
    ∃ validated, validateSendValue strayRequest = .ok validated ∧
      validated.recipients = [(firstKey, "for-alice"), (secondKey, "for-nobody")] := by
  have keyed : isValidPubkey firstKey = true ∧ isValidPubkey secondKey = true := by decide +kernel
  have sound : SoundApart strayRequest :=
    { box := ⟨"inbox", rfl, by decide⟩
      content := ⟨.string "hi", rfl, rfl⟩
      recipients := List.cons_ne_nil firstKey [secondKey]
      counted := rfl
      named := fun id member => by
        have ids : id ∈ ["for-alice", "for-nobody"] := member
        revert id
        decide
      keyed := fun r member => by
        have keys : r ∈ [firstKey, secondKey] := member
        rcases List.mem_pair.mp keys with rfl | rfl
        · exact keyed.1
        · exact keyed.2 }
  obtain ⟨validated, accepted⟩ := validateSendValue_of_soundApart sound
  have zipped := (validateSendValue_eq_ok accepted).2
  refine ⟨fun sent => ?_, validated, accepted, zipped⟩
  have sizes := congrArg List.length (sent.recipients validated accepted)
  rw [List.length_map, zipped] at sizes
  exact absurd sizes (by decide)

end MessageRelay.Send
