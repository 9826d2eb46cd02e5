import MessageRelay.Archive.Json
import MessageRelay.Presence.Answer

/-! The public read of a room's presence. The owner's hub is asked over six hops; the one that fails is named in the
answer, in the log and in the isolate's counters, and what the hub says is handed on as it is. -/

namespace MessageRelay.Presence
open Library Library.Json Payments
open MessageRelay.Session (Value)

inductive PresenceHop where
  | hubNamespace
  | stub
  | fetch
  | status
  | body
  | present
  deriving DecidableEq, Repr

namespace PresenceHop

def all : List PresenceHop := [.hubNamespace, .stub, .fetch, .status, .body, .present]

def asStr : PresenceHop → String
  | hubNamespace => "namespace"
  | stub => "stub"
  | fetch => "fetch"
  | status => "status"
  | body => "body"
  | present => "present"

theorem mem_all (hop : PresenceHop) : hop ∈ all := by
  cases hop <;> decide

theorem asStr_injective {hop hop' : PresenceHop} (same : hop.asStr = hop'.asStr) : hop = hop' := by
  have apart : ∀ hop ∈ all, ∀ hop' ∈ all, hop.asStr = hop'.asStr → hop = hop' := by decide
  exact apart hop hop.mem_all hop' hop'.mem_all same

end PresenceHop

def presenceRetryAfterSecs : String := "5"

def presenceUnavailableCode : String := "ERR_PRESENCE_UNAVAILABLE"

def isUnavailable (body : Value) (status : Nat) : Bool :=
  status = 503 && (body.get "code").bind Value.asStr = some presenceUnavailableCode

def presenceRetryAfter (body : Value) (status : Nat) : Option String :=
  if isUnavailable body status then some presenceRetryAfterSecs else none

/-- What asking the hub hands back: the status and the body, or why it is no JSON, or the hop that failed before. -/
abbrev HubAnswer := Except (PresenceHop × String) (Nat × Except String Value)

inductive HubVerdict where
  | answered (present : Option Bool) (lastSeenMs rejoinDeadlineMs : Option Nat)
  | fault (hop : PresenceHop) (hubStatus : Option Nat) (err : String)

/-- The status is read before the body. -/
def classifyHubAnswer : HubAnswer → HubVerdict
  | .error (hop, err) => .fault hop none err
  | .ok (status, body) =>
    if status ≠ 200 then .fault .status (some status) s!"hub status {status}"
    else
      match body with
      | .error err => .fault .body none err
      | .ok body =>
        let answered (present : Option Bool) : HubVerdict :=
          .answered present ((body.get "lastSeenMs").bind asU64) ((body.get "rejoinDeadlineMs").bind asU64)
        match body.get "present" with
        | some (.bool b) => answered (some b)
        | some .null => answered none
        | some other => .fault .present none ("present is " ++ other.text)
        | none => .fault .present none "present missing"

def isNull : Option Value → Bool
  | some .null => true
  | _ => false

/-- The hop of a fault, or `null` where the hub could not tell. -/
def presenceTraceReason (body : Value) (status : Nat) : Option String :=
  if isUnavailable body status then (body.get "hop").bind Value.asStr
  else if status = 200 && isNull (body.get "present") then some "null"
  else none

def oneLine (text : String) : String :=
  String.ofList (text.toList.map (fun c => if c = '\n' ∨ c = '\r' then ' ' else c))

def tracePrefix (hop : PresenceHop) : String := "TRACE_PRESENCE hop=" ++ hop.asStr ++ " err="

def logPresenceVerdict (verdict : HubVerdict) (room : String) : List String :=
  match verdict with
  | .answered .. => []
  | .fault hop _ err => [tracePrefix hop ++ oneLine err ++ " room=" ++ room]

inductive PresenceRead where
  | answered (present : Option Bool) (lastSeenMs rejoinDeadlineMs : Option Nat)
  | hubFault (hop : PresenceHop) (hubStatus : Option Nat)

def PresenceRead.of : HubVerdict → PresenceRead
  | .answered present lastSeenMs rejoinDeadlineMs => .answered present lastSeenMs rejoinDeadlineMs
  | .fault hop hubStatus _ => .hubFault hop hubStatus

def presenceWireVersion : Nat := 2

/-- A member that is left out where there is nothing to say. -/
def optional (name : String) (value : Option Nat) : List (String × Value) :=
  value.toList.map (fun n => (name, .number (toString n)))

def presenceInvalidRoomResponse : Value × Nat :=
  (.object (Value.collect [("status", .string "error"), ("code", .string "ERR_INVALID_ROOM"),
    ("description", .string "presence requires ?room=<identity>-<box>")]), 400)

def faultFields (room : String) (hop : PresenceHop) (hubStatus : Option Nat) : List (String × Value) :=
  [("status", .string "error"), ("code", .string presenceUnavailableCode), ("hop", .string hop.asStr),
    ("room", .string room),
    ("description", .string ("presence could not be read (the owner hub's " ++ hop.asStr ++
      " hop failed); this is NOT an absence"))] ++ optional "hubStatus" hubStatus

def answerFields (room : String) (present : Option Bool) (lastSeenMs rejoinDeadlineMs : Option Nat) :
    List (String × Value) :=
  [("status", .string "success"), ("room", .string room), ("present", present.elim .null .bool),
    ("presenceWire", .number (toString presenceWireVersion))] ++ optional "lastSeenMs" lastSeenMs ++
    optional "rejoinDeadlineMs" rejoinDeadlineMs

def presenceRouteResponse (room : String) : PresenceRead → Value × Nat
  | .hubFault hop hubStatus => (.object (Value.collect (faultFields room hop hubStatus)), 503)
  | .answered present lastSeenMs rejoinDeadlineMs =>
    (.object (Value.collect (answerFields room present lastSeenMs rejoinDeadlineMs)), 200)

inductive PresenceReason where
  | hop (hop : PresenceHop)
  | null
  | hubUnavailable
  deriving DecidableEq, Repr

/-- The counters of an isolate, each an unsigned 64-bit number. -/
abbrev PresenceCounters := PresenceReason → UInt64

def PresenceCounters.count (counters : PresenceCounters) (reason : PresenceReason) : PresenceCounters :=
  Function.update counters reason (counters reason + 1)

def countPresenceVerdict (counters : PresenceCounters) : HubVerdict → PresenceCounters
  | .fault hop _ _ => counters.count (.hop hop)
  | .answered none _ _ => counters.count .null
  | .answered (some _) _ _ => counters

namespace PresenceReason

def all : List PresenceReason := PresenceHop.all.map .hop ++ [.null, .hubUnavailable]

def name : PresenceReason → String
  | hop failed => failed.asStr
  | null => "null"
  | hubUnavailable => "hubUnavailable"

end PresenceReason

def healthCounts (counters : PresenceCounters) : List (String × Value) :=
  PresenceReason.all.map (fun reason => (reason.name, .number (toString (counters reason).toNat)))

def healthJson (sinceMs : Nat) (counters : PresenceCounters) : Value :=
  .object (Value.collect [("scope", .string "isolate"), ("sinceMs", .number (toString sinceMs)),
    ("counts", .object (Value.collect (healthCounts counters)))])

/-- What an isolate serves: a presence read and what asking the hub hands back, or a request whose lane could not be
asked. -/
inductive RouteInput where
  | presence (room : String) (answer : HubAnswer)
  | laneUnavailable

inductive RouteEvent where
  | traced (line : String)
  | answered (body : Value) (status : Nat)
  | unavailable

def handlePresenceRoute (counters : PresenceCounters) (room : String) (answer : HubAnswer) :
    PresenceCounters × List RouteEvent :=
  if isIdentity (((splitOnce room).map Prod.fst).getD []) then
    let verdict := classifyHubAnswer answer
    let response := presenceRouteResponse room (.of verdict)
    (countPresenceVerdict counters verdict,
      (logPresenceVerdict verdict room).map .traced ++ [.answered response.1 response.2])
  else (counters, [.answered presenceInvalidRoomResponse.1 presenceInvalidRoomResponse.2])

def routeStep (counters : PresenceCounters) : RouteInput → PresenceCounters × List RouteEvent
  | .presence room answer => handlePresenceRoute counters room answer
  | .laneUnavailable => (counters.count .hubUnavailable, [.unavailable])

def routeMachine : Machine PresenceCounters RouteInput RouteEvent := ⟨routeStep⟩

def routeStart : Config PresenceCounters RouteEvent := ⟨fun _ => 0, []⟩

def presenceBodyJson (room : String) (present : Option Bool) (lastSeenMs rejoinDeadlineMs : Option Nat) : Value :=
  .object (Value.collect ([("room", .string room), ("present", present.elim .null .bool)] ++
    optional "lastSeenMs" lastSeenMs ++ optional "rejoinDeadlineMs" rejoinDeadlineMs))

/-- The hub's answer on its way: written as text, and read again. -/
def hubLeg (range : Range) (unread : String) (body : Value) : HubAnswer :=
  .ok (200, match Value.fromSlice range (utf8Bytes body.text) with
    | some parsed => .ok parsed
    | none => .error unread)

/-! What the public answer has of the hub's. -/

/-- The hub's own word on the room: `true`, `false`, or `null` where it cannot tell. -/
def Said (answer : HubAnswer) (word : Value) : Prop :=
  ∃ body, answer = .ok (200, .ok body) ∧ body.get "present" = some word ∧ (word = .null ∨ ∃ b, word = .bool b)

/-- Where an answer failed: the hop that did not come through, else the first of its status, its body and its word that is
not as it must be. -/
inductive FailedAt : HubAnswer → PresenceHop → Prop
  | hop (hop : PresenceHop) (err : String) : FailedAt (.error (hop, err)) hop
  | status {status : Nat} (body : Except String Value) (other : status ≠ 200) : FailedAt (.ok (status, body)) .status
  | body (err : String) : FailedAt (.ok (200, .error err)) .body
  | present {body : Value} (wordless : ∀ word, body.get "present" = some word → word ≠ .null ∧ ∀ b, word ≠ .bool b) :
      FailedAt (.ok (200, .ok body)) .present

theorem FailedAt.unsaid {answer : HubAnswer} {hop : PresenceHop} (failed : FailedAt answer hop) (word : Value) :
    ¬ Said answer word := by
  rintro ⟨body, heard, held, said⟩
  cases failed with
  | hop | body => cases heard
  | status _ other =>
    cases heard
    exact other rfl
  | present wordless =>
    cases heard
    rcases said with null | ⟨b, bool⟩
    · exact (wordless word held).1 null
    · exact (wordless word held).2 b bool

theorem FailedAt.unique {answer : HubAnswer} {hop hop' : PresenceHop} (failed : FailedAt answer hop)
    (failed' : FailedAt answer hop') : hop = hop' := by
  cases failed with
  | hop hop err =>
    cases failed'
    rfl
  | status body other =>
    cases failed' with
    | status => rfl
    | body | present => exact absurd rfl other
  | body =>
    cases failed' with
    | body => rfl
    | status _ other => exact absurd rfl other
  | present =>
    cases failed' with
    | present => rfl
    | status _ other => exact absurd rfl other

theorem get_optional (fields : List (String × Value)) (name : String) (value : Option Nat) {k : String}
    (other : name ≠ k) : (Value.object (Value.collect (fields ++ optional name value))).get k =
      (Value.object (Value.collect fields)).get k := by
  rw [Value.get_collect, Value.get_collect, List.reverse_append, List.find?_append]
  have absent : (optional name value).reverse.find? (fun f => f.1 == k) = none := by
    cases value <;> simp [optional, other]
  rw [absent, Option.none_or]

theorem get_optional_self (fields : List (String × Value)) (name : String) (value : Option Nat)
    (fresh : ∀ f ∈ fields, f.1 ≠ name) : (Value.object (Value.collect (fields ++ optional name value))).get name =
      value.map (fun n => .number (toString n)) := by
  rw [Value.get_collect, List.reverse_append, List.find?_append]
  cases value with
  | none =>
    have absent : fields.reverse.find? (fun f => f.1 == name) = none := by
      rw [List.find?_eq_none]
      intro f member
      simpa using fresh f (List.mem_reverse.mp member)
    simp [optional, absent]
  | some n => simp [optional]

theorem get_faultFields (room : String) (hop : PresenceHop) (hubStatus : Option Nat) (k : String)
    (other : "hubStatus" ≠ k) :
    (Value.object (Value.collect (faultFields room hop hubStatus))).get k =
      (Value.object (Value.collect (faultFields room hop none))).get k :=
  (get_optional _ "hubStatus" hubStatus other).trans (get_optional _ "hubStatus" none other).symm

theorem get_answerFields (room : String) (present : Option Bool) (lastSeenMs rejoinDeadlineMs : Option Nat)
    (k : String) (other : "lastSeenMs" ≠ k) (other' : "rejoinDeadlineMs" ≠ k) :
    (Value.object (Value.collect (answerFields room present lastSeenMs rejoinDeadlineMs))).get k =
      (Value.object (Value.collect (answerFields room present none none))).get k := by
  unfold answerFields
  rw [get_optional _ _ _ other', get_optional _ _ _ other, get_optional _ _ _ other', get_optional _ _ _ other]

theorem fault_unavailable (room : String) (hop : PresenceHop) (hubStatus : Option Nat) :
    isUnavailable (presenceRouteResponse room (.hubFault hop hubStatus)).1 503 = true := by
  rw [isUnavailable, presenceRouteResponse, get_faultFields _ _ _ _ (by decide), Value.get_collect]
  rfl

theorem fault_hop (room : String) (hop : PresenceHop) (hubStatus : Option Nat) :
    (presenceRouteResponse room (.hubFault hop hubStatus)).1.get "hop" = some (.string hop.asStr) := by
  rw [presenceRouteResponse, get_faultFields _ _ _ _ (by decide), Value.get_collect]
  rfl

theorem fault_present (room : String) (hop : PresenceHop) (hubStatus : Option Nat) :
    (presenceRouteResponse room (.hubFault hop hubStatus)).1.get "present" = none := by
  rw [presenceRouteResponse, get_faultFields _ _ _ _ (by decide), Value.get_collect]
  rfl

theorem answered_present (room : String) (present : Option Bool) (lastSeenMs rejoinDeadlineMs : Option Nat) :
    (presenceRouteResponse room (.answered present lastSeenMs rejoinDeadlineMs)).1.get "present" =
      some (present.elim .null .bool) := by
  rw [presenceRouteResponse, get_answerFields _ _ _ _ _ (by decide) (by decide), Value.get_collect]
  rfl

theorem answered_hop (room : String) (present : Option Bool) (lastSeenMs rejoinDeadlineMs : Option Nat) :
    (presenceRouteResponse room (.answered present lastSeenMs rejoinDeadlineMs)).1.get "hop" = none := by
  rw [presenceRouteResponse, get_answerFields _ _ _ _ _ (by decide) (by decide), Value.get_collect]
  rfl

theorem not_unavailable (body : Value) : isUnavailable body 200 = false := rfl

/-- The verdict is an answer exactly where the hub has said something, and else tells where the answer failed. -/
theorem classifyHubAnswer_cases (answer : HubAnswer) :
    (∃ present seen deadline, classifyHubAnswer answer = .answered present seen deadline ∧
      Said answer (present.elim .null .bool)) ∨
    ∃ hop hubStatus err, classifyHubAnswer answer = .fault hop hubStatus err ∧ FailedAt answer hop := by
  rcases answer with ⟨hop, err⟩ | ⟨status, body⟩
  · exact .inr ⟨hop, none, err, rfl, .hop hop err⟩
  · by_cases reached : status = 200
    · subst reached
      cases body with
      | error err => exact .inr ⟨.body, none, err, rfl, .body err⟩
      | ok body =>
        simp only [classifyHubAnswer, ne_eq, not_true_eq_false, if_false]
        cases held : body.get "present" with
        | none => exact .inr ⟨_, _, _, rfl, .present (by simp [held])⟩
        | some word =>
          cases word with
          | null => exact .inl ⟨none, _, _, rfl, body, rfl, held, .inl rfl⟩
          | bool b => exact .inl ⟨some b, _, _, rfl, body, rfl, held, .inr ⟨b, rfl⟩⟩
          | number | string | array | object => exact .inr ⟨_, _, _, rfl, .present (by simp [held])⟩
    · exact .inr ⟨.status, some status, _, if_pos reached, .status body reached⟩

/-- Whatever asking the hub comes to, the public answer is the hub's own word under a 200, or a 503 that has no word on
the room, names the hop that failed and says when to ask again. -/
theorem presence_from_hub (room : String) (answer : HubAnswer) :
    let response := presenceRouteResponse room (.of (classifyHubAnswer answer))
    (∀ word, response.1.get "present" = some word ↔ Said answer word) ∧
      (∀ hop, response.1.get "hop" = some (.string hop.asStr) ↔ FailedAt answer hop) ∧
      ((response.2 = 200 ∧ presenceRetryAfter response.1 response.2 = none ∧ ∃ word, Said answer word) ∨
        (response.2 = 503 ∧ presenceRetryAfter response.1 response.2 = some "5" ∧ ∃ hop, FailedAt answer hop)) := by
  rcases classifyHubAnswer_cases answer with
    ⟨present, seen, deadline, verdict, said⟩ | ⟨hop, hubStatus, err, verdict, failed⟩
  · rw [verdict]
    refine ⟨fun word => ?_, fun hop => ?_, .inl ⟨rfl, rfl, _, said⟩⟩
    · rw [PresenceRead.of, answered_present]
      constructor
      · rintro ⟨⟩
        exact said
      · rintro ⟨body, heard, held, -⟩
        obtain ⟨body', heard', held', -⟩ := said
        cases heard.symm.trans heard'
        rw [← held, held']
    · rw [PresenceRead.of, answered_hop]
      exact iff_of_false nofun (fun failed => failed.unsaid _ said)
  · rw [verdict]
    refine ⟨fun word => ?_, fun other => ?_, .inr ⟨rfl, ?_, hop, failed⟩⟩
    · rw [PresenceRead.of, fault_present]
      exact iff_of_false nofun (failed.unsaid word)
    · rw [PresenceRead.of, fault_hop, Option.some.injEq, Value.string.injEq]
      constructor
      · intro same
        exact PresenceHop.asStr_injective same ▸ failed
      · exact fun failed' => congrArg PresenceHop.asStr (failed.unique failed')
    · rw [PresenceRead.of, presenceRetryAfter]
      exact if_pos (fault_unavailable room hop hubStatus)

/-! The hub's word comes through as it was said. -/

theorem writable_optional (range : Range) {n : Nat} (name : String) {value : Option Nat}
    (small : ∀ ms ∈ value, ms < 2 ^ 64) : ∀ f ∈ optional name value, Value.Writable range n f.2 := by
  intro f member
  obtain ⟨ms, held, rfl⟩ := List.mem_map.mp member
  exact .natural range (small ms (Option.mem_toList.mp held))

theorem writable_presenceBody (range : Range) (room : String) (present : Option Bool) {seen deadline : Option Nat}
    (smallSeen : ∀ ms ∈ seen, ms < 2 ^ 64) (smallDeadline : ∀ ms ∈ deadline, ms < 2 ^ 64) :
    Value.Writable range 127 (presenceBodyJson room present seen deadline) := by
  refine .object (Value.ordered_collect _) (fun f member => ?_)
  rcases List.mem_append.mp (Value.mem_collect member) with early | last
  · rcases List.mem_append.mp early with fixed | middle
    · rcases List.mem_cons.mp fixed with rfl | told
      · exact .string
      · rw [List.mem_singleton.mp told]
        cases present <;> constructor
    · exact writable_optional range "lastSeenMs" smallSeen f middle
  · exact writable_optional range "rejoinDeadlineMs" smallDeadline f last

theorem asU64_optional {value : Option Nat} (small : ∀ ms ∈ value, ms < 2 ^ 64) :
    (value.map (fun ms => Value.number (toString ms))).bind asU64 = value := by
  cases value with
  | none => rfl
  | some ms => exact asU64_toString (small ms rfl)

/-- What the hub writes is classified as what it answered. -/
theorem classify_hubLeg (range : Range) (unread room : String) (present : Option Bool) {seen deadline : Option Nat}
    (smallSeen : ∀ ms ∈ seen, ms < 2 ^ 64) (smallDeadline : ∀ ms ∈ deadline, ms < 2 ^ 64) :
    classifyHubAnswer (hubLeg range unread (presenceBodyJson room present seen deadline)) =
      .answered present seen deadline := by
  have told : (presenceBodyJson room present seen deadline).get "present" = some (present.elim .null .bool) := by
    rw [presenceBodyJson, get_optional _ _ _ (by decide), get_optional _ _ _ (by decide), Value.get_collect]
    rfl
  have stamp : (presenceBodyJson room present seen deadline).get "lastSeenMs" =
      seen.map (fun ms => .number (toString ms)) := by
    rw [presenceBodyJson, get_optional _ _ _ (by decide), get_optional_self _ _ _ (by simp)]
  have due : (presenceBodyJson room present seen deadline).get "rejoinDeadlineMs" =
      deadline.map (fun ms => .number (toString ms)) := by
    refine get_optional_self _ _ _ (fun f member => ?_)
    rcases List.mem_append.mp member with fixed | middle
    · rcases List.mem_cons.mp fixed with rfl | last
      · simp
      · rw [List.mem_singleton.mp last]
        simp
    · obtain ⟨ms, -, rfl⟩ := List.mem_map.mp middle
      simp
  rw [hubLeg, Value.fromSlice_text (writable_presenceBody range room present smallSeen smallDeadline)]
  simp only [classifyHubAnswer, ne_eq, not_true_eq_false, if_false, told, stamp, due, asU64_optional smallSeen,
    asU64_optional smallDeadline]
  cases present <;> rfl

theorem recorded_run (owner : Owner) (inputs : List PresenceInput) :
    Recorded ((presenceMachine owner).run presenceStart inputs) := by
  have start : Recorded presenceStart := ⟨rfl, rfl⟩
  exact @Machine.run_kept _ _ _ (presenceMachine owner) Recorded (fun _ input kept => recorded_step owner kept input) _
    start inputs

/-- The public answer to a read of a hub's room. -/
def publicAnswer (range : Range) (unread : String) (r : Reading) : Value × Nat :=
  presenceRouteResponse r.room (.of (classifyHubAnswer (hubLeg range unread
    (presenceBodyJson r.room r.present r.lastSeenMs r.rejoinDeadlineMs))))

/-- In every run of a hub, the public answer to a read of a room is a 200 that has `true` exactly of the rooms that are
held, and `false` exactly of those confirmed gone since they were joined last, or idle for a window; it has the time the
room was seen last, and its deadline, where the hub has them. -/
theorem publicAnswer_of_run (owner : Owner) (inputs : List PresenceInput) (room : String) (nowMs answeredMs : Nat)
    (range : Range) (unread : String) :
    let c := (presenceMachine owner).run presenceStart inputs
    let r := readingOf c.state room nowMs answeredMs
    (∀ ms ∈ r.lastSeenMs, ms < 2 ^ 64) → (∀ ms ∈ r.rejoinDeadlineMs, ms < 2 ^ 64) →
    let answer := publicAnswer range unread r
    answer.2 = 200 ∧
      (answer.1.get "present" = some (.bool true) ↔ r.holders ≠ []) ∧
      (answer.1.get "present" = some (.bool false) ↔ r.holders = [] ∧ ¬ r.Undecided ∧
        (lastWord (heardBy c room nowMs) room = some .absent ∨ r.Idle (heardBy c room nowMs))) ∧
      answer.1.get "lastSeenMs" = r.lastSeenMs.map (fun ms => .number (toString ms)) ∧
      answer.1.get "rejoinDeadlineMs" = r.rejoinDeadlineMs.map (fun ms => .number (toString ms)) := by
  intro c r smallSeen smallDeadline
  have told := readingOf_told (recorded_run owner inputs) room nowMs answeredMs
  have answer : publicAnswer range unread r =
      presenceRouteResponse r.room (.answered r.present r.lastSeenMs r.rejoinDeadlineMs) := by
    rw [publicAnswer, classify_hubLeg range unread r.room r.present smallSeen smallDeadline, PresenceRead.of]
  have word (b : Bool) : (some (r.present.elim Value.null Value.bool) = some (.bool b)) ↔ r.present = some b := by
    cases r.present <;> simp
  simp only [answer]
  refine ⟨rfl, ?_, ?_, ?_, ?_⟩
  · rw [answered_present, word]
    exact told.1
  · rw [answered_present, word]
    exact told.2
  · rw [presenceRouteResponse, answerFields, get_optional _ _ _ (by decide), get_optional_self _ _ _ (by simp)]
  · refine get_optional_self _ _ _ (fun f member => ?_)
    rcases List.mem_append.mp member with fixed | middle
    · simp only [List.mem_cons, List.not_mem_nil, or_false] at fixed
      rcases fixed with rfl | rfl | rfl | rfl <;> simp
    · obtain ⟨ms, -, rfl⟩ := List.mem_map.mp middle
      simp

def touchedRun : List PresenceInput := [.touch (ownRoom "one") 5, .deadline (ownRoom "one") 9]

def touchedReading : Reading :=
  readingOf ((presenceMachine owner0).run presenceStart touchedRun).state (ownRoom "one") 5 6

theorem touchedReading_answer : (publicAnswer everyNumber "" touchedReading).2 = 200 ∧
    (publicAnswer everyNumber "" touchedReading).1.get "lastSeenMs" = some (.number (toString 5)) ∧
    (publicAnswer everyNumber "" touchedReading).1.get "rejoinDeadlineMs" = some (.number (toString 9)) := by
  have seen : touchedReading.lastSeenMs = some 5 := by decide +kernel
  have due : touchedReading.rejoinDeadlineMs = some 9 := by decide +kernel
  have answer := publicAnswer_of_run owner0 touchedRun (ownRoom "one") 5 6 everyNumber ""
    (fun ms held => by cases seen.symm.trans held; decide) (fun ms held => by cases due.symm.trans held; decide)
  refine ⟨answer.1, answer.2.2.2.1.trans ?_, answer.2.2.2.2.trans ?_⟩
  · exact congrArg (Option.map (fun ms => Value.number (toString ms))) seen
  · exact congrArg (Option.map (fun ms => Value.number (toString ms))) due

/-! The counters and the log account for the answers. -/

/-- An answer that names the reason, or a request whose lane could not be asked. -/
def RouteEvent.names (reason : PresenceReason) : RouteEvent → Bool
  | .answered body status => presenceTraceReason body status = some reason.name
  | .unavailable => reason = .hubUnavailable
  | .traced _ => false

def RouteEvent.traces (hop : PresenceHop) : RouteEvent → Bool
  | .traced line => (tracePrefix hop).toList.isPrefixOf line.toList
  | _ => false

def HubVerdict.reason : HubVerdict → Option PresenceReason
  | .fault hop _ _ => some (.hop hop)
  | .answered none _ _ => some .null
  | .answered (some _) _ _ => none

theorem name_injective {reason reason' : PresenceReason} (same : reason.name = reason'.name) : reason = reason' := by
  have listed (reason : PresenceReason) : reason ∈ PresenceReason.all := by
    rcases reason with hop | _ | _
    · exact List.mem_append_left _ (List.mem_map_of_mem hop.mem_all)
    · decide
    · decide
  have apart : ∀ reason ∈ PresenceReason.all, ∀ reason' ∈ PresenceReason.all,
      reason.name = reason'.name → reason = reason' := by decide
  exact apart reason (listed reason) reason' (listed reason') same

theorem traceReason_response (room : String) (verdict : HubVerdict) :
    presenceTraceReason (presenceRouteResponse room (.of verdict)).1 (presenceRouteResponse room (.of verdict)).2 =
      verdict.reason.map PresenceReason.name := by
  cases verdict with
  | fault hop hubStatus err =>
    rw [presenceTraceReason, PresenceRead.of]
    exact (if_pos (fault_unavailable room hop hubStatus)).trans (by rw [fault_hop, Option.bind_some]; rfl)
  | answered present seen deadline =>
    have found : presenceTraceReason (presenceRouteResponse room (.answered present seen deadline)).1 200 =
        if isNull (some (present.elim .null .bool)) then some "null" else none := by
      rw [presenceTraceReason, not_unavailable, answered_present]
      simp
    refine found.trans ?_
    cases present <;> rfl

theorem countPresenceVerdict_eq (counters : PresenceCounters) (verdict : HubVerdict) :
    countPresenceVerdict counters verdict = verdict.reason.elim counters counters.count := by
  cases verdict with
  | fault => rfl
  | answered present => cases present <;> rfl

/-- The line of a fault is that of its hop alone. -/
theorem traced_iff (hop : PresenceHop) (verdict : HubVerdict) (room : String) :
    ((logPresenceVerdict verdict room).map RouteEvent.traced).countP (RouteEvent.traces hop) =
      if verdict.reason = some (.hop hop) then 1 else 0 := by
  cases verdict with
  | answered present => cases present <;> rfl
  | fault failed hubStatus err =>
    have line : RouteEvent.traces hop (.traced (tracePrefix failed ++ oneLine err ++ " room=" ++ room)) = true ↔
        failed = hop := by
      rw [RouteEvent.traces, List.isPrefixOf_iff_prefix, String.append_assoc, String.append_assoc, String.toList_append]
      constructor
      · intro front
        have apart : ∀ hop ∈ PresenceHop.all, ∀ hop' ∈ PresenceHop.all,
            (tracePrefix hop).toList <+: (tracePrefix hop').toList → hop' = hop := by decide
        rcases List.prefix_or_prefix_of_prefix front (List.prefix_append _ _) with before | after
        · exact apart hop hop.mem_all failed failed.mem_all before
        · exact (apart failed failed.mem_all hop hop.mem_all after).symm
      · rintro rfl
        exact List.prefix_append _ _
    simp only [logPresenceVerdict, List.map_cons, List.map_nil, List.countP_cons, List.countP_nil, line,
      HubVerdict.reason, Option.some.injEq, PresenceReason.hop.injEq, Nat.zero_add]

/-- What a request adds to a counter is what its answer names, and to the log what it names of the hops. -/
theorem routeStep_account (counters : PresenceCounters) (input : RouteInput) :
    (∀ reason, (routeStep counters input).1 reason =
      counters reason + UInt64.ofNat ((routeStep counters input).2.countP (RouteEvent.names reason))) ∧
    ∀ hop, (routeStep counters input).2.countP (RouteEvent.traces hop) =
      (routeStep counters input).2.countP (RouteEvent.names (.hop hop)) := by
  have bump (reason which : PresenceReason) :
      counters.count which reason = counters reason + UInt64.ofNat (if which = reason then 1 else 0) := by
    rw [PresenceCounters.count, Function.update_apply]
    by_cases same : reason = which
    · rw [if_pos same, if_pos same.symm, same]
      rfl
    · rw [if_neg same, if_neg (Ne.symm same)]
      exact (UInt64.add_zero _).symm
  cases input with
  | laneUnavailable =>
    constructor
    · intro reason
      refine (bump reason .hubUnavailable).trans ?_
      simp [routeStep, RouteEvent.names, List.countP_cons, eq_comm]
    · intro hop
      simp [routeStep, RouteEvent.traces, RouteEvent.names]
  | presence room answer =>
    rw [routeStep, handlePresenceRoute]
    split
    · have named (reason : PresenceReason) (verdict : HubVerdict) :
          RouteEvent.names reason (.answered (presenceRouteResponse room (.of verdict)).1
            (presenceRouteResponse room (.of verdict)).2) = decide (verdict.reason = some reason) := by
        rw [RouteEvent.names, traceReason_response]
        congr 1
        rw [eq_iff_iff, Option.map_eq_some_iff]
        constructor
        · rintro ⟨which, held, same⟩
          rw [held, name_injective same]
        · exact fun held => ⟨reason, held, rfl⟩
      have silent (reason : PresenceReason) (lines : List String) :
          (lines.map RouteEvent.traced).countP (RouteEvent.names reason) = 0 := by
        rw [List.countP_map, List.countP_eq_zero]
        intro line _
        exact Bool.false_ne_true
      constructor
      · intro reason
        simp only [List.countP_append, silent, List.countP_singleton, named, countPresenceVerdict_eq, decide_eq_true_eq,
          Nat.zero_add]
        cases (classifyHubAnswer answer).reason with
        | none => exact (UInt64.add_zero _).symm
        | some which => simpa using bump reason which
      · intro hop
        simp only [List.countP_append, silent, List.countP_singleton, named, traced_iff, decide_eq_true_eq,
          Nat.zero_add]
        exact Nat.add_zero _
    · constructor
      · intro reason
        exact (UInt64.add_zero _).symm
      · exact fun hop => rfl

theorem get_healthCounts (counters : PresenceCounters) (reason : PresenceReason) :
    (Value.object (Value.collect (healthCounts counters))).get reason.name =
      some (.number (toString (counters reason).toNat)) := by
  rw [Value.get_collect]
  rcases reason with hop | _ | _
  · cases hop <;> rfl
  · rfl
  · rfl

/-- In every run of an isolate each figure of the health answer is, up to the counter's width, the number of answers
that named its reason, and the log has as many lines of a hop as answers named it. -/
theorem counters_account (sinceMs : Nat) (inputs : List RouteInput) :
    let c := routeMachine.run routeStart inputs
    (∀ reason : PresenceReason,
      ((healthJson sinceMs c.state).get "counts").bind (fun counts => counts.get reason.name) =
        some (.number (toString (c.log.countP (RouteEvent.names reason) % 2 ^ 64)))) ∧
    ∀ hop, c.log.countP (RouteEvent.traces hop) = c.log.countP (RouteEvent.names (.hop hop)) := by
  have kept := @Machine.run_kept _ _ _ routeMachine
    (fun c => (∀ reason, c.state reason = UInt64.ofNat (c.log.countP (RouteEvent.names reason))) ∧
      ∀ hop, c.log.countP (RouteEvent.traces hop) = c.log.countP (RouteEvent.names (.hop hop)))
    (fun c input before => ⟨fun reason => by
        rw [Machine.advance, List.countP_append, UInt64.ofNat_add, ← before.1]
        exact (routeStep_account c.state input).1 reason,
      fun hop => by
        rw [Machine.advance, List.countP_append, List.countP_append, before.2]
        exact congrArg _ ((routeStep_account c.state input).2 hop)⟩)
    routeStart ⟨fun _ => rfl, fun _ => rfl⟩ inputs
  refine ⟨fun reason => ?_, kept.2⟩
  have counts (counters : PresenceCounters) : (healthJson sinceMs counters).get "counts" =
      some (.object (Value.collect (healthCounts counters))) := by
    rw [healthJson, Value.get_collect]
    rfl
  rw [counts, Option.bind_some, get_healthCounts, kept.1, UInt64.toNat_ofNat']

end MessageRelay.Presence
