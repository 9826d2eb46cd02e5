import MessageRelay.Send.Validate
import MessageRelay.Send.JsonValue
import MessageRelay.Send.Stores

/-! The devices a notification goes to. A token is registered by one identity at a time, a notification reads the
recipient's active devices and pushes to them one after another, and a token the service disowns is deactivated. -/

namespace MessageRelay.Devices
open MessageRelay.Lane MessageRelay.Library MessageRelay.Library.Json MessageRelay.Session MessageRelay.Send

structure DeviceDbRow where
  id : Nat
  identityKey : String
  fcmToken : String
  deviceId : Option String
  platform : Option String
  active : Bool
  lastUsedMs : Option Nat
  deriving DecidableEq, Repr

/-- The registrations, a token once among them, and the next row's id. -/
structure Registrations where
  devices : Table DeviceDbRow.fcmToken
  nextId : Nat

namespace Registrations

def empty : Registrations := ⟨Table.empty, 1⟩

/-- A registration replaces the token's row, whoever's it was. -/
def upsertDevice (identityKey fcmToken : String) (deviceId platform : Option String) (s : Registrations) :
    Nat × Registrations :=
  (s.nextId, ⟨s.devices.upsert ⟨s.nextId, identityKey, fcmToken, deviceId, platform, true, none⟩, s.nextId + 1⟩)

def listDevices (s : Registrations) (identityKey : String) : List DeviceDbRow :=
  s.devices.rows.filter (fun r => r.identityKey = identityKey)

def getActiveDevices (s : Registrations) (identityKey : String) : List DeviceDbRow :=
  s.devices.rows.filter (fun r => r.identityKey = identityKey && r.active)

def deactivateDevice (fcmToken : String) (s : Registrations) : Unit × Registrations :=
  ((), { s with devices := s.devices.modify fcmToken (fun r => { r with active := false }) (fun _ => rfl) })

def updateDeviceLastUsed (nowMs : Nat) (fcmToken : String) (s : Registrations) : Unit × Registrations :=
  ((), { s with devices := s.devices.modify fcmToken (fun r => { r with lastUsedMs := some nowMs }) (fun _ => rfl) })

/-- Who a token's pushes are for. -/
def standing (s : Registrations) (fcmToken : String) : Option String :=
  ((s.devices.find? fcmToken).filter DeviceDbRow.active).map DeviceDbRow.identityKey

end Registrations

def invalidFcmToken : Answer := errorAnswer "ERR_INVALID_FCM_TOKEN" "fcmToken must be a non-empty string." 400

def invalidPlatform : Answer := errorAnswer "ERR_INVALID_PLATFORM" "platform must be one of: ios, android, web" 400

def platforms : List String := ["ios", "android", "web"]

def platformOf (body : Value) : Except Answer (Option String) :=
  match body.get "platform" with
  | none => .ok none
  | some .null => .ok none
  | some v =>
    match v.asStr with
    | none => .error invalidPlatform
    | some p => if p = "" then .ok none else if p ∈ platforms then .ok (some p) else .error invalidPlatform

def validateRegisterDevice (range : Range) (raw : Text) : Except Answer (String × Option String × Option String) :=
  match Value.fromSlice range raw with
  | none => .error invalidFcmToken
  | some body =>
    match ((body.get "fcmToken").bind Value.asStr).filter (· ≠ "") with
    | none => .error invalidFcmToken
    | some fcmToken =>
      match platformOf body with
      | .error refused => .error refused
      | .ok platform => .ok (fcmToken, ((body.get "deviceId").bind Value.asStr).filter (· ≠ ""), platform)

def handleRegisterDevice (range : Range) (raw : Text) (identityKey : String) (fate : WriteFate) (s : Registrations) :
    Answer × Registrations :=
  match validateRegisterDevice range raw with
  | .error refused => (refused, s)
  | .ok (fcmToken, deviceId, platform) =>
    match withD1WriteRetry (Registrations.upsertDevice identityKey fcmToken deviceId platform) fate s with
    | (.error _, s) => (errorAnswer "ERR_DATABASE_ERROR" "Failed to register device." 500, s)
    | (.ok (rowId, _), s) =>
      (⟨.object [("deviceId", number rowId),
        ("message", .string "Device registered successfully for push notifications"),
        ("status", .string "success")], 200⟩, s)

/-! A notification, cut where another request may run: where it has read the devices, where it awaits the answer to a
push, and after the write that follows it. -/

/-- The devices that are left to push to, and the token of the push whose answer is awaited. -/
structure Job where
  recipient : String
  messageId : String
  left : List DeviceDbRow
  awaited : Option String

/-- Whether a notification gets as far as its devices. -/
structure FcmGate where
  enabled : Bool
  authorized : Bool
  devicesRead : Bool

/-- The service says that it does not know the token. -/
def disowned (responseText : String) : Bool :=
  ["registration-token-not-registered", "UNREGISTERED"].any
    (fun word => responseText.toList.tails.any word.toList.isPrefixOf)

def lands (fate : WriteFate) : Bool :=
  fate.early.any id || match fate.ends with
    | .answered => true
    | .failed _ landed => landed

structure FcmWorld where
  registrations : Registrations
  jobs : List Job

inductive FcmInput where
  | register (identityKey : String) (raw : Text) (fate : WriteFate)
  | notify (recipient messageId : String) (gate : FcmGate)
  | push (job : Nat)
  /-- The service's answer to the push a job awaits, and the write that follows it. -/
  | answered (job : Nat) (answer : Option String) (fate : WriteFate) (nowMs : Nat)
  /-- A job is given up at its timeout. -/
  | cut (job : Nat)

inductive FcmEvent where
  | registered (identityKey fcmToken : String)
  | began (recipient messageId : String)
  | pushed (recipient fcmToken messageId : String)
  | deactivated (fcmToken : String)
  deriving DecidableEq, Repr

/-- What follows the answer to a push. -/
def afterPush (fcmToken : String) (answer : Option String) (fate : WriteFate) (nowMs : Nat) (s : Registrations) :
    Registrations × List FcmEvent :=
  match answer with
  | none => (s, [])
  | some text =>
    if disowned text then
      ((withD1WriteRetry (Registrations.deactivateDevice fcmToken) fate s).2,
        if lands fate then [.deactivated fcmToken] else [])
    else ((withD1WriteRetry (Registrations.updateDeviceLastUsed nowMs fcmToken) fate s).2, [])

def fcmStep (range : Range) (w : FcmWorld) : FcmInput → FcmWorld × List FcmEvent
  | .register identityKey raw fate =>
    ({ w with registrations := (handleRegisterDevice range raw identityKey fate w.registrations).2 },
      match validateRegisterDevice range raw with
      | .error _ => []
      | .ok (fcmToken, _, _) => if lands fate then [.registered identityKey fcmToken] else [])
  | .notify recipient messageId gate =>
    if gate.enabled && gate.authorized && gate.devicesRead then
      ({ w with jobs := w.jobs ++ [⟨recipient, messageId, w.registrations.getActiveDevices recipient, none⟩] },
        [.began recipient messageId])
    else (w, [])
  | .push i =>
    match w.jobs[i]? with
    | some ⟨_, _, [], none⟩ => ({ w with jobs := w.jobs.eraseIdx i }, [])
    | some ⟨recipient, messageId, device :: left, none⟩ =>
      if device.fcmToken = "" then ({ w with jobs := w.jobs.set i ⟨recipient, messageId, left, none⟩ }, [])
      else
        ({ w with jobs := w.jobs.set i ⟨recipient, messageId, left, some device.fcmToken⟩ },
          [.pushed recipient device.fcmToken messageId])
    | _ => (w, [])
  | .answered i answer fate nowMs =>
    match w.jobs[i]? with
    | some ⟨recipient, messageId, left, some fcmToken⟩ =>
      let (registrations, events) := afterPush fcmToken answer fate nowMs w.registrations
      (⟨registrations, w.jobs.set i ⟨recipient, messageId, left, none⟩⟩, events)
    | _ => (w, [])
  | .cut i => ({ w with jobs := w.jobs.eraseIdx i }, [])

def fcmMachine (range : Range) : Machine FcmWorld FcmInput FcmEvent := ⟨fcmStep range⟩

/-! What a device list shows of a token. -/

/-- The end of a text that has so many bytes, where a character begins there. -/
def tailOfSize (size : Nat) : List Char → Option (List Char)
  | [] => if size = 0 then some [] else none
  | c :: rest => if ((c :: rest).map Char.utf8Size).sum = size then some (c :: rest) else tailOfSize size rest

/-- A cut inside a character has no answer. -/
def truncateFcmToken (token : String) : Option String :=
  if token.utf8ByteSize ≤ 10 then some token
  else (tailOfSize 10 token.toList).map (fun tail => "..." ++ String.ofList tail)

/-! Who holds a token. -/

/-- What an event says of who holds which token. -/
def hold (held : String → Option String) : FcmEvent → String → Option String
  | .registered identityKey fcmToken => Function.update held fcmToken (some identityKey)
  | .deactivated fcmToken => Function.update held fcmToken none
  | .began .. => held
  | .pushed .. => held

/-- The last to register a token, unless it was deactivated since. -/
def holder (log : List FcmEvent) : String → Option String := log.foldl hold (fun _ => none)

theorem holder_append (log events : List FcmEvent) : holder (log ++ events) = events.foldl hold (holder log) :=
  List.foldl_append

section Standing
variable {s : Registrations}

theorem standing_upsertDevice (identityKey fcmToken : String) (deviceId platform : Option String) :
    (s.upsertDevice identityKey fcmToken deviceId platform).2.standing =
      Function.update s.standing fcmToken (some identityKey) := by
  funext other
  by_cases same : other = fcmToken
  · subst same
    simp [Registrations.standing, Registrations.upsertDevice, Table.find?_upsert]
  · simp [Registrations.standing, Registrations.upsertDevice, Table.find?_upsert, same, Ne.symm same]

theorem standing_deactivateDevice (fcmToken : String) :
    (s.deactivateDevice fcmToken).2.standing = Function.update s.standing fcmToken none := by
  funext other
  by_cases same : other = fcmToken
  · subst same
    cases found : s.devices.find? other <;>
      simp [Registrations.standing, Registrations.deactivateDevice, Table.find?_modify, found]
  · simp [Registrations.standing, Registrations.deactivateDevice, Table.find?_modify, same]

theorem standing_updateDeviceLastUsed (nowMs : Nat) (fcmToken : String) :
    (s.updateDeviceLastUsed nowMs fcmToken).2.standing = s.standing := by
  funext other
  by_cases same : other = fcmToken
  · subst same
    cases found : s.devices.find? other with
    | none => simp [Registrations.standing, Registrations.updateDeviceLastUsed, Table.find?_modify, found]
    | some r =>
      cases active : r.active <;>
        simp [Registrations.standing, Registrations.updateDeviceLastUsed, Table.find?_modify, Option.filter, found,
          active]
  · simp [Registrations.standing, Registrations.updateDeviceLastUsed, Table.find?_modify, same]

/-- A retried write is seen as one that landed, or as none. -/
theorem seen_withD1WriteRetry {σ α β : Type} {op : σ → α × σ} {view : σ → β} {change : β → β}
    (seen : ∀ s, view (op s).2 = change (view s)) (again : ∀ b, change (change b) = change b) (fate : WriteFate)
    (s : σ) :
    view (withD1WriteRetry op fate s).2 = if lands fate then change (view s) else view s := by
  have tries (lost : List Bool) (s : σ) :
      view (lost.foldl (fun s landed => if landed then (op s).2 else s) s) =
        if lost.any id then change (view s) else view s := by
    induction lost generalizing s with
    | nil => rfl
    | cons landed rest ih =>
      cases landed with
      | false => exact ih s
      | true =>
        rw [List.foldl_cons, ih]
        simp [seen, again]
  have early := tries fate.early s
  unfold withD1WriteRetry lands
  cases fate.ends with
  | answered =>
    simp only [Bool.or_true, if_true, seen, early]
    split
    · exact again _
    · rfl
  | failed e landed =>
    cases landed with
    | false =>
      simp only [Bool.or_false]
      exact early
    | true =>
      simp only [Bool.or_true, if_true, seen, early]
      split
      · exact again _
      · rfl

end Standing

theorem standing_afterPush (fcmToken : String) (answer : Option String) (fate : WriteFate) (nowMs : Nat)
    (s : Registrations) :
    (afterPush fcmToken answer fate nowMs s).1.standing =
      (afterPush fcmToken answer fate nowMs s).2.foldl hold s.standing := by
  unfold afterPush
  cases answer with
  | none => rfl
  | some text =>
    simp only
    split
    · have wrote := @seen_withD1WriteRetry _ _ _ (Registrations.deactivateDevice fcmToken) Registrations.standing
        (fun held => Function.update held fcmToken none) (fun _ => standing_deactivateDevice fcmToken)
        (fun held => Function.update_idem ..) fate s
      simp only [wrote]
      split <;> rfl
    · have wrote := @seen_withD1WriteRetry _ _ _ (Registrations.updateDeviceLastUsed nowMs fcmToken)
        Registrations.standing id (fun _ => standing_updateDeviceLastUsed nowMs fcmToken) (fun _ => rfl) fate s
      simp only [wrote, id, ite_self]
      rfl

theorem standing_handleRegisterDevice (range : Range) (raw : Text) (identityKey : String) (fate : WriteFate)
    (w : FcmWorld) :
    let out := fcmStep range w (.register identityKey raw fate)
    out.1.registrations.standing = out.2.foldl hold w.registrations.standing := by
  simp only [fcmStep, handleRegisterDevice]
  cases validateRegisterDevice range raw with
  | error refused => rfl
  | ok read =>
    obtain ⟨fcmToken, deviceId, platform⟩ := read
    have wrote := @seen_withD1WriteRetry _ _ _ (Registrations.upsertDevice identityKey fcmToken deviceId platform)
      Registrations.standing (fun held => Function.update held fcmToken (some identityKey))
      (fun _ => standing_upsertDevice identityKey fcmToken deviceId platform) (fun held => Function.update_idem ..) fate
      w.registrations
    simp only
    generalize withD1WriteRetry (Registrations.upsertDevice identityKey fcmToken deviceId platform) fate
      w.registrations = out at wrote ⊢
    obtain ⟨answer, s⟩ := out
    have landed : s.standing = List.foldl hold w.registrations.standing
        (if lands fate = true then [.registered identityKey fcmToken] else []) := by
      refine wrote.trans ?_
      split <;> rfl
    cases answer <;> exact landed

theorem holds_of_active {s : Registrations} {recipient : String} {d : DeviceDbRow}
    (active : d ∈ s.getActiveDevices recipient) : s.standing d.fcmToken = some recipient := by
  obtain ⟨there, fits⟩ := List.mem_filter.mp active
  obtain ⟨owned, on⟩ := Bool.and_eq_true_iff.mp fits
  rw [Registrations.standing, (s.devices.find?_eq_some d.fcmToken d).mpr ⟨there, rfl⟩]
  simp [Option.filter, on, of_decide_eq_true owned]

theorem mem_afterPush {fcmToken : String} {answer : Option String} {fate : WriteFate} {nowMs : Nat}
    {s : Registrations} {event : FcmEvent} (told : event ∈ (afterPush fcmToken answer fate nowMs s).2) :
    event = .deactivated fcmToken := by
  unfold afterPush at told
  split at told
  · cases told
  · split at told
    · split at told
      · exact List.mem_singleton.mp told
      · cases told
    · cases told

theorem mem_register {range : Range} {w : FcmWorld} {identityKey : String} {raw : Text} {fate : WriteFate}
    {event : FcmEvent} (told : event ∈ (fcmStep range w (.register identityKey raw fate)).2) :
    ∃ fcmToken, event = .registered identityKey fcmToken := by
  simp only [fcmStep] at told
  split at told
  · cases told
  · split at told
    · exact ⟨_, List.mem_singleton.mp told⟩
    · cases told

/-- The job's notification began in the log, and its tokens were the recipient's then. -/
def Began (log : List FcmEvent) (recipient messageId : String) (tokens : List String) (later : List FcmEvent) : Prop :=
  ∃ early rest, log = early ++ .began recipient messageId :: rest ∧ (∀ event ∈ later, event ∈ rest) ∧
    ∀ t ∈ tokens, holder early t = some recipient

theorem Began.append {log : List FcmEvent} {recipient messageId : String} {tokens : List String}
    {later : List FcmEvent} (began : Began log recipient messageId tokens later) (events : List FcmEvent) :
    Began (log ++ events) recipient messageId tokens (later ++ events) := by
  obtain ⟨early, rest, same, inside, held⟩ := began
  refine ⟨early, rest ++ events, by rw [same, List.append_assoc, List.cons_append], ?_, held⟩
  intro event member
  rcases List.mem_append.mp member with old | new
  · exact List.mem_append_left _ (inside event old)
  · exact List.mem_append_right _ new

structure Kept (c : Config FcmWorld FcmEvent) : Prop where
  standing : c.state.registrations.standing = holder c.log
  jobs : ∀ j ∈ c.state.jobs, Began c.log j.recipient j.messageId (j.left.map DeviceDbRow.fcmToken) []
  pushed : ∀ recipient fcmToken messageId, .pushed recipient fcmToken messageId ∈ c.log →
    Began c.log recipient messageId [fcmToken] [.pushed recipient fcmToken messageId]

theorem Kept.step {range : Range} {c : Config FcmWorld FcmEvent} (kept : Kept c) (input : FcmInput) :
    Kept ((fcmMachine range).advance c input) := by
  have pushedBefore (events : List FcmEvent) (recipient fcmToken messageId : String)
      (before : .pushed recipient fcmToken messageId ∈ c.log) :
      Began (c.log ++ events) recipient messageId [fcmToken] [.pushed recipient fcmToken messageId] := by
    obtain ⟨early, rest, same, inside, held⟩ := (kept.pushed recipient fcmToken messageId before).append events
    exact ⟨early, rest, same, fun event member => inside event (List.mem_append_left _ member), held⟩
  have jobBefore (events : List FcmEvent) (j : Job) (before : j ∈ c.state.jobs) :
      Began (c.log ++ events) j.recipient j.messageId (j.left.map DeviceDbRow.fcmToken) [] := by
    obtain ⟨early, rest, same, -, held⟩ := (kept.jobs j before).append events
    exact ⟨early, rest, same, fun _ none => (by cases none), held⟩
  -- What changes no registration, keeps jobs that were there and tells nothing.
  have quiet (jobs : List Job) (fewer : ∀ j ∈ jobs, Began c.log j.recipient j.messageId
      (j.left.map DeviceDbRow.fcmToken) []) : Kept ⟨⟨c.state.registrations, jobs⟩, c.log ++ []⟩ := by
    rw [List.append_nil]
    exact ⟨kept.standing, fewer, kept.pushed⟩
  cases input with
  | register identityKey raw fate =>
    have wrote := standing_handleRegisterDevice range raw identityKey fate c.state
    refine ⟨?_, jobBefore _, ?_⟩
    · rw [Machine.advance, holder_append, ← kept.standing]
      exact wrote
    · intro recipient fcmToken messageId pushed
      rcases List.mem_append.mp pushed with before | now
      · exact pushedBefore _ recipient fcmToken messageId before
      · obtain ⟨_, no⟩ := mem_register now
        cases no
  | notify recipient messageId gate =>
    simp only [Machine.advance, fcmMachine, fcmStep]
    split
    · refine ⟨?_, ?_, ?_⟩
      · rw [holder_append, ← kept.standing]
        rfl
      · intro j member
        rcases List.mem_append.mp member with before | now
        · exact jobBefore _ j before
        · cases List.mem_singleton.mp now
          refine ⟨c.log, [], rfl, fun _ none => (by cases none), ?_⟩
          intro t member
          obtain ⟨d, active, rfl⟩ := List.mem_map.mp member
          rw [← kept.standing]
          exact holds_of_active active
      · intro recipient' fcmToken messageId' pushed
        rcases List.mem_append.mp pushed with before | now
        · exact pushedBefore _ recipient' fcmToken messageId' before
        · simp at now
    · exact quiet c.state.jobs kept.jobs
  | push i =>
    simp only [Machine.advance, fcmMachine, fcmStep]
    split
    · exact quiet _ (fun j member => kept.jobs j (List.mem_of_mem_eraseIdx member))
    · rename_i recipient messageId device left found
      have began := kept.jobs _ (List.mem_of_getElem? found)
      have shorter (events : List FcmEvent) (awaited : Option String) (j : Job)
          (member : j ∈ c.state.jobs.set i ⟨recipient, messageId, left, awaited⟩) :
          Began (c.log ++ events) j.recipient j.messageId (j.left.map DeviceDbRow.fcmToken) [] := by
        rcases List.mem_or_eq_of_mem_set member with old | rfl
        · exact jobBefore events j old
        · obtain ⟨early, rest, same, -, held⟩ := began.append events
          exact ⟨early, rest, same, fun _ none => (by cases none),
            fun t member => held t (List.mem_cons_of_mem _ member)⟩
      split
      · exact quiet _ (fun j member => by simpa using shorter [] none j member)
      · refine ⟨?_, shorter _ _, ?_⟩
        · rw [holder_append, ← kept.standing]
          rfl
        · intro recipient' fcmToken messageId' pushed
          rcases List.mem_append.mp pushed with before | now
          · exact pushedBefore _ recipient' fcmToken messageId' before
          · cases List.mem_singleton.mp now
            obtain ⟨early, rest, same, inside, held⟩ := began.append [.pushed recipient device.fcmToken messageId]
            refine ⟨early, rest, same, inside, fun t member => held t ?_⟩
            rw [List.mem_singleton.mp member]
            exact List.mem_cons_self ..
    · exact quiet c.state.jobs kept.jobs
  | answered i answer fate nowMs =>
    simp only [Machine.advance, fcmMachine, fcmStep]
    split
    · rename_i recipient messageId left fcmToken found
      have began := kept.jobs _ (List.mem_of_getElem? found)
      have wrote := standing_afterPush fcmToken answer fate nowMs c.state.registrations
      refine ⟨?_, fun j member => ?_, ?_⟩
      · rw [holder_append, ← kept.standing]
        exact wrote
      · rcases List.mem_or_eq_of_mem_set member with old | rfl
        · exact jobBefore _ j old
        · obtain ⟨early, rest, same, -, held⟩ := began.append
            (afterPush fcmToken answer fate nowMs c.state.registrations).2
          exact ⟨early, rest, same, fun _ none => (by cases none), held⟩
      · intro recipient' fcmToken' messageId' pushed
        rcases List.mem_append.mp pushed with before | now
        · exact pushedBefore _ recipient' fcmToken' messageId' before
        · cases mem_afterPush now
    · exact quiet c.state.jobs kept.jobs
  | cut i => exact quiet _ (fun j member => kept.jobs j (List.mem_of_mem_eraseIdx member))

/-- A push goes to a token that was its recipient's when the notification read the devices: the last to register it, and
not deactivated since. -/
theorem pushed_to_holder (range : Range) (inputs : List FcmInput) (recipient fcmToken messageId : String) :
    let c := (fcmMachine range).run ⟨⟨Registrations.empty, []⟩, []⟩ inputs
    .pushed recipient fcmToken messageId ∈ c.log →
      ∃ early rest, c.log = early ++ .began recipient messageId :: rest ∧
        .pushed recipient fcmToken messageId ∈ rest ∧ holder early fcmToken = some recipient := by
  intro c pushed
  have kept : Kept c := (fcmMachine range).run_kept (fun _ input kept => kept.step input)
    ⟨rfl, fun _ none => (by cases none), fun _ _ _ none => (by cases none)⟩ inputs
  obtain ⟨early, rest, same, inside, held⟩ := kept.pushed recipient fcmToken messageId pushed
  exact ⟨early, rest, same, inside _ (List.mem_singleton.mpr rfl), held _ (List.mem_singleton.mpr rfl)⟩

/-- A device registered and notified. -/
def registeredRaw : Text := utf8Bytes (Value.object [("fcmToken", .string "token")]).text

def notifiedOnce : List FcmInput :=
  [.register "alice" registeredRaw ⟨[], .answered⟩, .notify "alice" "m1" ⟨true, true, true⟩,
    .push 0, .answered 0 none ⟨[], .answered⟩ 5]

theorem notifiedOnce_log : ((fcmMachine everyNumber).run ⟨⟨Registrations.empty, []⟩, []⟩ notifiedOnce).log =
    [.registered "alice" "token", .began "alice" "m1", .pushed "alice" "token" "m1"] := by
  have read : validateRegisterDevice everyNumber registeredRaw = .ok ("token", none, none) := by
    have whole : Value.Writable everyNumber 127 (.object [("fcmToken", .string "token")]) :=
      .object (List.pairwise_singleton ..) (List.forall_mem_singleton.mpr .string)
    rw [validateRegisterDevice, registeredRaw, Value.fromSlice_text whole]
    rfl
  have registers : fcmStep everyNumber ⟨Registrations.empty, []⟩ (.register "alice" registeredRaw ⟨[], .answered⟩) =
      (⟨(Registrations.upsertDevice "alice" "token" none none Registrations.empty).2, []⟩,
        [.registered "alice" "token"]) := by
    simp only [fcmStep, handleRegisterDevice, read]
    rfl
  simp only [notifiedOnce, Machine.run_cons, Machine.run_nil, Machine.advance, fcmMachine, registers]
  rfl

theorem notifiedOnce_held : ∃ early rest,
    [FcmEvent.registered "alice" "token", .began "alice" "m1", .pushed "alice" "token" "m1"] =
      early ++ .began "alice" "m1" :: rest ∧
      .pushed "alice" "token" "m1" ∈ rest ∧ holder early "token" = some "alice" := by
  have held := pushed_to_holder everyNumber notifiedOnce "alice" "token" "m1"
  simp only [notifiedOnce_log] at held
  exact held (by decide)

/-! No token is pushed to twice for one notification. -/

def Job.owes (recipient fcmToken messageId : String) (j : Job) : Bool :=
  j.recipient = recipient && j.messageId = messageId && (j.left.map DeviceDbRow.fcmToken).contains fcmToken

/-- The pushes made and the pushes owed are no more than the notifications. -/
structure Once (c : Config FcmWorld FcmEvent) : Prop where
  distinct : ∀ j ∈ c.state.jobs, (j.left.map DeviceDbRow.fcmToken).Nodup
  few : ∀ recipient fcmToken messageId, c.log.count (.pushed recipient fcmToken messageId) +
    c.state.jobs.countP (Job.owes recipient fcmToken messageId) ≤ c.log.count (.began recipient messageId)

theorem countP_set_of_getElem? {α : Type} {l : List α} {i : Nat} {a : α} (there : l[i]? = some a) (p : α → Bool)
    (b : α) : (l.set i b).countP p + (if p a then 1 else 0) = l.countP p + (if p b then 1 else 0) := by
  obtain ⟨inside, rfl⟩ := List.getElem?_eq_some_iff.mp there
  have held : (if p l[i] then 1 else 0) ≤ l.countP p := by
    split
    · exact List.countP_pos_iff.mpr ⟨_, List.getElem_mem inside, ‹_›⟩
    · exact Nat.zero_le _
  rw [List.countP_set inside]
  omega

theorem Once.fewer {c : Config FcmWorld FcmEvent} (once : Once c) {jobs : List Job}
    (sub : jobs.Sublist c.state.jobs) : Once ⟨⟨c.state.registrations, jobs⟩, c.log ++ []⟩ := by
  rw [List.append_nil]
  refine ⟨fun j member => once.distinct j (sub.subset member), fun recipient fcmToken messageId => ?_⟩
  exact (Nat.add_le_add_left (sub.countP_le) _).trans (once.few recipient fcmToken messageId)

/-- A push takes its token off what the job owes. -/
theorem owes_next {recipient messageId : String} {device : DeviceDbRow} {left : List DeviceDbRow}
    (distinct : ((device :: left).map DeviceDbRow.fcmToken).Nodup) (awaited : Option String) (r t m : String) :
    (if FcmEvent.pushed recipient device.fcmToken messageId == .pushed r t m then 1 else 0) +
        (if Job.owes r t m ⟨recipient, messageId, left, awaited⟩ then 1 else 0) ≤
      if Job.owes r t m ⟨recipient, messageId, device :: left, none⟩ then 1 else 0 := by
  by_cases this : FcmEvent.pushed recipient device.fcmToken messageId = .pushed r t m
  · cases this
    have gone : device.fcmToken ∉ left.map DeviceDbRow.fcmToken := (List.nodup_cons.mp distinct).1
    simp only [List.mem_map, not_exists, not_and] at gone
    simp only [Job.owes, List.map_cons, List.contains_cons, beq_self_eq_true, Bool.true_or, decide_true, Bool.and_self,
      if_true, Bool.true_and, List.contains_iff_mem, List.mem_map]
    rw [if_neg]
    rintro ⟨d, inside, same⟩
    exact gone d inside same
  · rw [if_neg (by simpa using this), Nat.zero_add]
    split
    · rename_i owed
      have still : Job.owes r t m ⟨recipient, messageId, device :: left, none⟩ = true := by
        simp only [Job.owes, Bool.and_eq_true, List.contains_iff_mem] at owed ⊢
        exact ⟨owed.1, List.mem_cons_of_mem _ owed.2⟩
      rw [if_pos still]
    · exact Nat.zero_le _

theorem Once.step {range : Range} {c : Config FcmWorld FcmEvent} (once : Once c) (input : FcmInput) :
    Once ((fcmMachine range).advance c input) := by
  cases input with
  | register identityKey raw fate =>
    refine ⟨once.distinct, fun recipient fcmToken messageId => ?_⟩
    have quiet (event : FcmEvent) (other : ∀ t, event ≠ .registered identityKey t) :
        (fcmStep range c.state (.register identityKey raw fate)).2.count event = 0 := by
      rw [List.count_eq_zero]
      intro told
      obtain ⟨t, same⟩ := mem_register told
      exact other t same
    have few := once.few recipient fcmToken messageId
    simp only [Machine.advance, fcmMachine, List.count_append]
    rw [quiet _ (fun _ => by simp), quiet _ (fun _ => by simp)]
    exact few
  | notify recipient messageId gate =>
    simp only [Machine.advance, fcmMachine, fcmStep]
    split
    · refine ⟨fun j member => ?_, fun r t m => ?_⟩
      · rcases List.mem_append.mp member with before | now
        · exact once.distinct j before
        · cases List.mem_singleton.mp now
          exact (List.filter_sublist.map _).nodup c.state.registrations.devices.unique
      · have few := once.few r t m
        have owed : Job.owes r t m
            ⟨recipient, messageId, c.state.registrations.getActiveDevices recipient, none⟩ = true →
            FcmEvent.began recipient messageId = .began r m := by
          simp only [Job.owes, Bool.and_eq_true, decide_eq_true_eq]
          rintro ⟨⟨rfl, rfl⟩, -⟩
          rfl
        have unpushed : [FcmEvent.began recipient messageId].count (.pushed r t m) = 0 := by simp
        have fits : [(⟨recipient, messageId, c.state.registrations.getActiveDevices recipient, none⟩ : Job)].countP
            (Job.owes r t m) ≤ [FcmEvent.began recipient messageId].count (.began r m) := by
          rw [List.countP_singleton]
          split
          · rename_i owes
            rw [owed owes, List.count_singleton_self]
          · exact Nat.zero_le _
        simp only [List.count_append, List.countP_append, unpushed]
        omega
    · exact once.fewer (List.Sublist.refl _)
  | push i =>
    simp only [Machine.advance, fcmMachine, fcmStep]
    split
    · exact once.fewer (List.eraseIdx_sublist ..)
    · rename_i recipient messageId device left found
      have distinct := once.distinct _ (List.mem_of_getElem? found)
      have shorter (awaited : Option String) (j : Job)
          (member : j ∈ c.state.jobs.set i ⟨recipient, messageId, left, awaited⟩) :
          (j.left.map DeviceDbRow.fcmToken).Nodup := by
        rcases List.mem_or_eq_of_mem_set member with old | rfl
        · exact once.distinct j old
        · exact (List.nodup_cons.mp distinct).2
      -- The job's next push, counted or not, pays for what it no longer owes.
      have paid (awaited : Option String) (r t m : String) : c.log.count (.pushed r t m) +
          (if FcmEvent.pushed recipient device.fcmToken messageId == .pushed r t m then 1 else 0) +
          (c.state.jobs.set i ⟨recipient, messageId, left, awaited⟩).countP (Job.owes r t m) ≤
            c.log.count (.began r m) := by
        have few := once.few r t m
        have next := @owes_next recipient messageId device left distinct awaited r t m
        have moved := countP_set_of_getElem? found (Job.owes r t m) ⟨recipient, messageId, left, awaited⟩
        omega
      split
      · rw [List.append_nil]
        exact ⟨shorter none, fun r t m => (Nat.add_le_add_right (Nat.le_add_right _ _) _).trans (paid none r t m)⟩
      · refine ⟨shorter _, fun r t m => ?_⟩
        simp only [List.count_append, List.count_singleton]
        simpa using paid (some device.fcmToken) r t m
    · exact once.fewer (List.Sublist.refl _)
  | answered i answer fate nowMs =>
    simp only [Machine.advance, fcmMachine, fcmStep]
    split
    · rename_i recipient messageId left fcmToken found
      refine ⟨fun j member => ?_, fun r t m => ?_⟩
      · rcases List.mem_or_eq_of_mem_set member with old | rfl
        · exact once.distinct j old
        · exact once.distinct ⟨recipient, messageId, left, some fcmToken⟩ (List.mem_of_getElem? found)
      · have silent (event : FcmEvent) (other : event ≠ .deactivated fcmToken) :
            (afterPush fcmToken answer fate nowMs c.state.registrations).2.count event = 0 :=
          List.count_eq_zero.mpr (fun told => other (mem_afterPush told))
        have few := once.few r t m
        have moved := countP_set_of_getElem? found (Job.owes r t m) ⟨recipient, messageId, left, none⟩
        have same : Job.owes r t m ⟨recipient, messageId, left, none⟩ =
            Job.owes r t m ⟨recipient, messageId, left, some fcmToken⟩ := rfl
        rw [same] at moved
        simp only [List.count_append]
        rw [silent _ (by simp), silent _ (by simp)]
        omega
    · exact once.fewer (List.Sublist.refl _)
  | cut i => exact once.fewer (List.eraseIdx_sublist ..)

/-- No token is pushed to twice for one notification. -/
theorem pushed_once (range : Range) (inputs : List FcmInput) (recipient fcmToken messageId : String) :
    let c := (fcmMachine range).run ⟨⟨Registrations.empty, []⟩, []⟩ inputs
    c.log.count (.pushed recipient fcmToken messageId) ≤ c.log.count (.began recipient messageId) := by
  intro c
  have once : Once c := (fcmMachine range).run_kept (fun _ input once => once.step input)
    ⟨fun _ none => (by cases none), fun _ _ _ => Nat.zero_le _⟩ inputs
  exact (Nat.le_add_right _ _).trans (once.few recipient fcmToken messageId)

/-! The device list. -/

structure ListedDevice where
  id : Nat
  deviceId : Option String
  platform : Option String
  fcmToken : String
  active : Bool
  deriving DecidableEq, Repr

def listed (row : DeviceDbRow) : Option ListedDevice :=
  (truncateFcmToken row.fcmToken).map (fun token => ⟨row.id, row.deviceId, row.platform, token, row.active⟩)

/-- The devices of a caller, or nothing where a token cannot be cut. -/
def handleListDevices (s : Registrations) (identityKey : String) : Option (List ListedDevice) :=
  (s.listDevices identityKey).mapM listed

theorem tailOfSize_eq_none {size : Nat} {text : List Char} :
    tailOfSize size text = none ↔ ∀ front tail, text = front ++ tail → (tail.map Char.utf8Size).sum ≠ size := by
  induction text with
  | nil =>
    constructor
    · intro none front tail whole
      obtain ⟨-, rfl⟩ := List.append_eq_nil_iff.mp whole.symm
      unfold tailOfSize at none
      split at none
      · cases none
      · rename_i other
        exact fun same => other same.symm
    · intro never
      rw [tailOfSize, if_neg]
      exact fun same => never [] [] rfl same.symm
  | cons c rest ih =>
    rw [tailOfSize]
    split
    · rename_i same
      exact ⟨fun none => (by cases none), fun never => absurd same (never [] (c :: rest) rfl)⟩
    · rename_i other
      rw [ih]
      constructor
      · intro never front tail whole
        cases front with
        | nil =>
          rw [List.nil_append] at whole
          exact whole ▸ other
        | cons head front => exact never front tail (List.cons.inj whole).2
      · exact fun never front tail whole => never (c :: front) tail (by rw [whole, List.cons_append])

/-- A caller's list fails exactly where it holds a token of more than ten bytes no end of which has ten. -/
theorem listDevices_fails_iff (s : Registrations) (identityKey : String) :
    handleListDevices s identityKey = none ↔ ∃ row ∈ s.devices.rows, row.identityKey = identityKey ∧
      10 < row.fcmToken.utf8ByteSize ∧
      ∀ front tail, row.fcmToken.toList = front ++ tail → (tail.map Char.utf8Size).sum ≠ 10 := by
  have one (row : DeviceDbRow) : listed row = none ↔ 10 < row.fcmToken.utf8ByteSize ∧
      ∀ front tail, row.fcmToken.toList = front ++ tail → (tail.map Char.utf8Size).sum ≠ 10 := by
    rw [listed, Option.map_eq_none_iff, truncateFcmToken]
    split
    · rename_i short
      exact ⟨fun none => (by cases none), fun both => absurd both.1 (not_lt.mpr short)⟩
    · rename_i long
      rw [Option.map_eq_none_iff, tailOfSize_eq_none]
      exact ⟨fun never => ⟨not_le.mp long, never⟩, fun both => both.2⟩
  have all (rows : List DeviceDbRow) : rows.mapM listed = none ↔ ∃ row ∈ rows, listed row = none := by
    induction rows with
    | nil => simp
    | cons row rest ih =>
      rw [List.mapM_cons]
      cases shown : listed row with
      | none => exact ⟨fun _ => ⟨row, List.mem_cons_self .., shown⟩, fun _ => rfl⟩
      | some device =>
        rw [List.exists_mem_cons_iff, shown, ← ih]
        cases rest.mapM listed <;> simp
  rw [handleListDevices, all]
  constructor
  · rintro ⟨row, member, fails⟩
    obtain ⟨there, owned⟩ := List.mem_filter.mp member
    exact ⟨row, there, of_decide_eq_true owned, (one row).mp fails⟩
  · rintro ⟨row, there, owned, fails⟩
    exact ⟨row, List.mem_filter.mpr ⟨there, decide_eq_true owned⟩, (one row).mpr fails⟩

example : truncateFcmToken "aéaaaaaaaaa" = none := by decide

end MessageRelay.Devices
