import MessageRelay.Library.Machine
import MessageRelay.Upload.Urls

/-! The record of uploads. A key is recorded before its URL is handed out, and the passes over the keys that are due put it
off or forget it. -/

namespace MessageRelay.Upload
open MessageRelay.Library MessageRelay.Lane MessageRelay.Handoff MessageRelay.Send
open MessageRelay.Session (Value)

def mintedMarginSecs : Nat := 86400

def mintedPendingSecs : Nat := 3600

/-- The minted keys with their deadlines, and the passes over those that are due: when each looked, and what it has
still to come to. -/
structure UploadWorld where
  minted : String → Option Nat
  passes : Nat → Nat × List String

/-- What happens to the record. A pass reads keys that are due; one whose reading is pending, or that the store could
not answer for, it puts off, and any other it forgets. -/
inductive UploadInput where
  | upload (caller : Caller) (uuid : UploadId) (nowSecs : Nat) (mint : Outcome) (reader : Except String String)
  | due (pass nowSecs : Nat) (keys : List String)
  | postpone (pass : Nat) (outcome : Outcome)
  | forget (pass : Nat) (outcome : Outcome)

inductive UploadEvent where
  | asked (key : String) (deadline : Nat)
  | handed (caller : Caller) (uuid : UploadId) (nowSecs : Nat) (body : Value)
  | refused (answer : Answer)
  | forgot (key : String) (nowSecs : Nat)

def uploadUnrecorded : Answer :=
  errorAnswer "ERR_UPLOAD_UNAVAILABLE"
    "The upload could not be recorded; ask again: the record could not be written" 503

def relayUnknown (e : String) : Answer :=
  errorAnswer "ERR_SERVER_MISCONFIGURED" ("The relay's identity: " ++ e) 500

/-- `INSERT OR IGNORE`. -/
def mint (minted : String → Option Nat) (key : String) (deadline : Nat) : String → Option Nat :=
  if (minted key).isSome then minted else Function.update minted key (some deadline)

section
variable (formatAmzDate : Nat → String) (s : Signer) (cfg : UploadConfig)

/-- The key is recorded before its URL is handed out. -/
def handleUploadUrl (w : UploadWorld) (caller : Caller) (uuid : UploadId) (nowSecs : Nat) (outcome : Outcome)
    (reader : Except String String) : UploadWorld × List UploadEvent :=
  let key := buildUploadKey caller.key uuid.text
  let deadline := nowSecs + urlExpiresSecs + mintedMarginSecs
  let minted := if outcome.landed then { w with minted := mint w.minted key deadline } else w
  (minted, .asked key deadline ::
    match outcome, reader with
    | .ok, .ok reader => [.handed caller uuid nowSecs (buildUploadResponse formatAmzDate s cfg caller.key nowSecs
        uuid.text reader)]
    | .ok, .error e => [.refused (relayUnknown e)]
    | _, _ => [.refused uploadUnrecorded])

/-- A pass that fails at a key ends. -/
def afterKey (outcome : Outcome) (nowSecs : Nat) (rest : List String) : Nat × List String :=
  (nowSecs, if outcome = .ok then rest else [])

def uploadStep (w : UploadWorld) : UploadInput → UploadWorld × List UploadEvent
  | .upload caller uuid nowSecs outcome reader =>
    handleUploadUrl formatAmzDate s cfg w caller uuid nowSecs outcome reader
  | .due pass nowSecs keys =>
    let due := keys.filter (fun key => (w.minted key).any (fun deadline => deadline ≤ nowSecs))
    ({ w with passes := Function.update w.passes pass (nowSecs, due) }, [])
  | .postpone pass outcome =>
    match w.passes pass with
    | (_, []) => (w, [])
    | (nowSecs, key :: rest) =>
      let later := if outcome.landed then Function.update w.minted key
        ((w.minted key).map (fun _ => nowSecs + mintedPendingSecs)) else w.minted
      (⟨later, Function.update w.passes pass (afterKey outcome nowSecs rest)⟩, [])
  | .forget pass outcome =>
    match w.passes pass with
    | (_, []) => (w, [])
    | (nowSecs, key :: rest) =>
      (⟨if outcome.landed then Function.update w.minted key none else w.minted,
        Function.update w.passes pass (afterKey outcome nowSecs rest)⟩,
        if outcome.landed then [.forgot key nowSecs] else [])

def uploadMachine : Machine UploadWorld UploadInput UploadEvent := ⟨uploadStep formatAmzDate s cfg⟩

abbrev UploadConfigRun := Config UploadWorld UploadEvent

def uploadStart : UploadConfigRun := ⟨⟨fun _ => none, fun _ => (0, [])⟩, []⟩

/-- An upload's identifier is fresh. -/
def FreshId (c : UploadConfigRun) : UploadInput → Prop
  | .upload caller uuid _ _ _ => ∀ deadline, .asked (buildUploadKey caller.key uuid.text) deadline ∉ c.log
  | _ => True

/-- What is on record was asked for, and a pass has it only once its first deadline is past. -/
structure OnRecord (c : UploadConfigRun) : Prop where
  minted : ∀ key deadline, c.state.minted key = some deadline → ∃ first ≤ deadline, .asked key first ∈ c.log
  passes : ∀ pass, ∀ key ∈ (c.state.passes pass).2, ∃ first ≤ (c.state.passes pass).1, .asked key first ∈ c.log
  once : ∀ key first second, .asked key first ∈ c.log → .asked key second ∈ c.log → first = second
  handed : ∀ caller uuid nowSecs body, .handed caller uuid nowSecs body ∈ c.log →
    let key := buildUploadKey caller.key uuid.text
    let deadline := nowSecs + urlExpiresSecs + mintedMarginSecs
    UploadEvent.asked key deadline ∈ c.log ∧
      ((c.state.minted key).isSome = true ∨ ∃ gone, deadline ≤ gone ∧ .forgot key gone ∈ c.log) ∧
      body.get "key" = some (.string key)

variable {formatAmzDate : Nat → String} {s : Signer} {cfg : UploadConfig}

theorem mint_cases {minted : String → Option Nat} {key key' : String} {deadline deadline' : Nat}
    (found : mint minted key deadline key' = some deadline') :
    minted key' = some deadline' ∨ (key' = key ∧ deadline' = deadline) := by
  rw [mint] at found
  split at found
  · exact .inl found
  · by_cases same : key' = key
    · rw [same, Function.update_self] at found
      exact .inr ⟨same, (Option.some.inj found).symm⟩
    · rw [Function.update_of_ne same] at found
      exact .inl found

theorem mint_kept {minted : String → Option Nat} {key' : String} (held : (minted key').isSome = true) (key : String)
    (deadline : Nat) : (mint minted key deadline key').isSome = true := by
  rw [mint]
  split
  · exact held
  · by_cases same : key' = key
    · rw [same, Function.update_self]
      rfl
    · rwa [Function.update_of_ne same]

theorem mint_recorded (minted : String → Option Nat) (key : String) (deadline : Nat) :
    (mint minted key deadline key).isSome = true := by
  rw [mint]
  split
  · assumption
  · rw [Function.update_self]
    rfl

theorem uploadResponse_key (c : Caller) (nowSecs : Nat) (u : UploadId) (reader : String) :
    (buildUploadResponse formatAmzDate s cfg c.key nowSecs u.text reader).get "key" =
      some (.string (buildUploadKey c.key u.text)) :=
  congrArg (fun key => some (Value.string key)) (normalizeKey_uploadKey c u)

/-- A step that leaves the log alone keeps the record where no key is lost and none has an earlier deadline than it was
asked for with. -/
theorem OnRecord.moved {c : UploadConfigRun} (kept : OnRecord c) {w : UploadWorld}
    (minted : ∀ key deadline, w.minted key = some deadline → ∃ first ≤ deadline, .asked key first ∈ c.log)
    (passes : ∀ pass, ∀ key ∈ (w.passes pass).2, ∃ first ≤ (w.passes pass).1, .asked key first ∈ c.log)
    (held : ∀ key, (c.state.minted key).isSome = true → (w.minted key).isSome = true) : OnRecord ⟨w, c.log ++ []⟩ := by
  rw [List.append_nil]
  refine ⟨minted, passes, kept.once, fun caller uuid nowSecs body member => ?_⟩
  obtain ⟨asked, found, named⟩ := kept.handed caller uuid nowSecs body member
  exact ⟨asked, found.imp_left (held _), named⟩

theorem passes_afterKey {c : UploadConfigRun} (kept : OnRecord c) {pass nowSecs : Nat} {key : String}
    {rest : List String} (at' : c.state.passes pass = (nowSecs, key :: rest)) (outcome : Outcome) (pass' : Nat) :
    ∀ key ∈ (Function.update c.state.passes pass (afterKey outcome nowSecs rest) pass').2,
      ∃ first ≤ (Function.update c.state.passes pass (afterKey outcome nowSecs rest) pass').1,
        .asked key first ∈ c.log := by
  intro key' member
  by_cases same : pass' = pass
  · subst same
    rw [Function.update_self] at member ⊢
    have inside : key' ∈ rest := by
      rw [afterKey] at member
      split at member
      · exact member
      · cases member
    have before := kept.passes pass' key' (by rw [at']; exact List.mem_cons_of_mem _ inside)
    rwa [at'] at before
  · rw [Function.update_of_ne same] at member ⊢
    exact kept.passes pass' key' member

theorem onRecord_upload {c : UploadConfigRun} (kept : OnRecord c) (caller : Caller) (uuid : UploadId) (nowSecs : Nat)
    (outcome : Outcome) (reader : Except String String)
    (fresh : ∀ deadline, .asked (buildUploadKey caller.key uuid.text) deadline ∉ c.log) :
    OnRecord ((uploadMachine formatAmzDate s cfg).advance c (.upload caller uuid nowSecs outcome reader)) := by
  set key := buildUploadKey caller.key uuid.text with named
  set deadline := nowSecs + urlExpiresSecs + mintedMarginSecs with late
  obtain ⟨events, answer, silent⟩ : ∃ events : List UploadEvent,
      ((uploadMachine formatAmzDate s cfg).advance c (.upload caller uuid nowSecs outcome reader)).log =
        c.log ++ .asked key deadline :: events ∧
      ∀ event ∈ events, (∀ key deadline, event ≠ .asked key deadline) ∧ ∀ caller' uuid' nowSecs' body,
        event = .handed caller' uuid' nowSecs' body → outcome = .ok ∧ caller' = caller ∧ uuid' = uuid ∧
          nowSecs' = nowSecs ∧ body.get "key" = some (.string key) := by
    refine ⟨_, rfl, fun event member => ?_⟩
    cases outcome with
    | ok =>
      cases reader with
      | ok reader =>
        rw [List.mem_singleton.mp member]
        refine ⟨by simp, fun _ _ _ _ same => ?_⟩
        cases same
        exact ⟨rfl, rfl, rfl, rfl, uploadResponse_key caller nowSecs uuid reader⟩
      | error e =>
        rw [List.mem_singleton.mp member]
        simp
    | failed | failedLanded =>
      rw [List.mem_singleton.mp member]
      simp
  have grown {event : UploadEvent} (member : event ∈ c.log) :
      event ∈ ((uploadMachine formatAmzDate s cfg).advance c (.upload caller uuid nowSecs outcome reader)).log :=
    List.mem_append_left _ member
  have asks {key' : String} {first : Nat}
      (member : .asked key' first ∈
        ((uploadMachine formatAmzDate s cfg).advance c (.upload caller uuid nowSecs outcome reader)).log) :
      .asked key' first ∈ c.log ∨ (key' = key ∧ first = deadline) := by
    rw [answer, List.mem_append, List.mem_cons] at member
    rcases member with old | here | later
    · exact .inl old
    · cases here
      exact .inr ⟨rfl, rfl⟩
    · exact absurd rfl ((silent _ later).1 key' first)
  have minted : ((uploadMachine formatAmzDate s cfg).advance c
      (.upload caller uuid nowSecs outcome reader)).state.minted =
        if outcome.landed then mint c.state.minted key deadline else c.state.minted := by
    cases outcome <;> rfl
  have passes : ((uploadMachine formatAmzDate s cfg).advance c
      (.upload caller uuid nowSecs outcome reader)).state.passes = c.state.passes := by
    cases outcome <;> rfl
  refine ⟨fun key' deadline' found => ?_, fun pass key' member => ?_, fun key' first second one two => ?_,
    fun caller' uuid' nowSecs' body member => ?_⟩
  · rw [minted] at found
    have old (found : c.state.minted key' = some deadline') : ∃ first ≤ deadline', UploadEvent.asked key' first ∈
        ((uploadMachine formatAmzDate s cfg).advance c (.upload caller uuid nowSecs outcome reader)).log := by
      obtain ⟨first, before, asked⟩ := kept.minted key' deadline' found
      exact ⟨first, before, grown asked⟩
    split at found
    · rcases mint_cases found with stays | ⟨rfl, rfl⟩
      · exact old stays
      · refine ⟨deadline, le_refl _, ?_⟩
        rw [answer]
        simp
    · exact old found
  · rw [passes] at member ⊢
    obtain ⟨first, before, asked⟩ := kept.passes pass key' member
    exact ⟨first, before, grown asked⟩
  · rcases asks one with old | ⟨rfl, rfl⟩
    · rcases asks two with old' | ⟨rfl, rfl⟩
      · exact kept.once key' first second old old'
      · exact absurd old (fresh first)
    · rcases asks two with old' | ⟨-, rfl⟩
      · exact absurd old' (fresh second)
      · rfl
  · rw [answer, List.mem_append, List.mem_cons] at member
    rcases member with old | here | later
    · obtain ⟨asked, found, same⟩ := kept.handed caller' uuid' nowSecs' body old
      refine ⟨grown asked, ?_, same⟩
      rcases found with held | ⟨gone, past, forgot⟩
      · left
        rw [minted]
        split
        · exact mint_kept held _ _
        · exact held
      · exact .inr ⟨gone, past, grown forgot⟩
    · cases here
    · obtain ⟨rfl, rfl, rfl, rfl, same⟩ := (silent _ later).2 _ _ _ _ rfl
      refine ⟨?_, .inl ?_, same⟩
      · rw [answer]
        exact List.mem_append_right _ List.mem_cons_self
      · rw [minted]
        exact mint_recorded _ _ _

theorem onRecord_step {c : UploadConfigRun} (kept : OnRecord c) (input : UploadInput) (fresh : FreshId c input) :
    OnRecord ((uploadMachine formatAmzDate s cfg).advance c input) := by
  cases input with
  | upload caller uuid nowSecs outcome reader => exact onRecord_upload kept caller uuid nowSecs outcome reader fresh
  | due pass nowSecs keys =>
    refine kept.moved kept.minted (fun pass' key member => ?_) (fun key held => held)
    simp only [uploadMachine, uploadStep] at member ⊢
    by_cases same : pass' = pass
    · subst same
      rw [Function.update_self] at member ⊢
      have late := (List.mem_filter.mp member).2
      obtain ⟨deadline, found, past⟩ := (Option.any_eq_true _ _).mp late
      obtain ⟨first, before, asked⟩ := kept.minted key deadline found
      exact ⟨first, before.trans (by simpa using past), asked⟩
    · rw [Function.update_of_ne same] at member ⊢
      exact kept.passes pass' key member
  | postpone pass outcome =>
    rcases at' : c.state.passes pass with ⟨nowSecs, _ | ⟨key, rest⟩⟩
    · simpa [Machine.advance, uploadMachine, uploadStep, at'] using kept
    · simp only [Machine.advance, uploadMachine, uploadStep, at']
      refine kept.moved (fun key' deadline found => ?_) (passes_afterKey kept at' outcome) (fun key' held => ?_)
      · dsimp only at found
        split at found
        · by_cases same : key' = key
          · subst same
            rw [Function.update_self, Option.map_eq_some_iff] at found
            obtain ⟨before, -, rfl⟩ := found
            obtain ⟨first, past, asked⟩ := kept.passes pass key' (by rw [at']; exact List.mem_cons_self)
            rw [at'] at past
            exact ⟨first, le_trans past (Nat.le_add_right _ _), asked⟩
          · rw [Function.update_of_ne same] at found
            exact kept.minted key' deadline found
        · exact kept.minted key' deadline found
      · dsimp only
        split
        · by_cases same : key' = key
          · subst same
            rwa [Function.update_self, Option.isSome_map]
          · rwa [Function.update_of_ne same]
        · exact held
  | forget pass outcome =>
    rcases at' : c.state.passes pass with ⟨nowSecs, _ | ⟨key, rest⟩⟩
    · simpa [Machine.advance, uploadMachine, uploadStep, at'] using kept
    · cases landed : outcome.landed with
      | false =>
        simp only [Machine.advance, uploadMachine, uploadStep, at', landed, Bool.false_eq_true, if_false]
        exact kept.moved kept.minted (passes_afterKey kept at' outcome) (fun _ held => held)
      | true =>
        simp only [Machine.advance, uploadMachine, uploadStep, at', landed, if_true]
        have grown {event : UploadEvent} (member : event ∈ c.log) : event ∈ c.log ++ [.forgot key nowSecs] :=
          List.mem_append_left _ member
        have asks {key' : String} {first : Nat} (member : .asked key' first ∈ c.log ++ [.forgot key nowSecs]) :
            .asked key' first ∈ c.log := by
          simpa using member
        refine ⟨fun key' deadline found => ?_, fun pass' key' member => ?_, fun key' first second one two =>
          kept.once key' first second (asks one) (asks two), fun caller uuid nowSecs' body member => ?_⟩
        · dsimp only at found
          by_cases same : key' = key
          · subst same
            simp at found
          · rw [Function.update_of_ne same] at found
            obtain ⟨first, before, asked⟩ := kept.minted key' deadline found
            exact ⟨first, before, grown asked⟩
        · obtain ⟨first, before, asked⟩ := passes_afterKey kept at' outcome pass' key' member
          exact ⟨first, before, grown asked⟩
        · have old : .handed caller uuid nowSecs' body ∈ c.log := by simpa using member
          obtain ⟨asked, found, named⟩ := kept.handed caller uuid nowSecs' body old
          refine ⟨grown asked, ?_, named⟩
          by_cases same : buildUploadKey caller.key uuid.text = key
          · obtain ⟨first, past, asked'⟩ := kept.passes pass key (by rw [at']; exact List.mem_cons_self)
            rw [at'] at past
            have due := kept.once key _ first (same ▸ asked) asked'
            refine .inr ⟨nowSecs, due.le.trans past, ?_⟩
            rw [same]
            simp
          · rcases found with held | ⟨gone, past, forgot⟩
            · left
              dsimp only
              rwa [Function.update_of_ne same]
            · exact .inr ⟨gone, past, grown forgot⟩

/-- In every run in which identifiers are fresh, an upload that was handed out is its caller's and no other's, its
answer names the key that is on record, and the record stands until a day after the URL has ended: while it stands its
deadline is no earlier, and what forgets it looked no earlier. -/
theorem upload_kept {inputs : List UploadInput}
    (fresh : (uploadMachine formatAmzDate s cfg).Guarded FreshId uploadStart inputs) :
    let c := (uploadMachine formatAmzDate s cfg).run uploadStart inputs
    ∀ caller uuid nowSecs body, .handed caller uuid nowSecs body ∈ c.log →
      let key := buildUploadKey caller.key uuid.text
      let deadline := nowSecs + urlExpiresSecs + mintedMarginSecs
      body.get "key" = some (.string key) ∧
        (∀ other : Caller, keyIsOwnedBy other.key key = true ↔ other.key = caller.key) ∧
        ((∃ later, c.state.minted key = some later ∧ deadline ≤ later) ∨
          ∃ gone, deadline ≤ gone ∧ .forgot key gone ∈ c.log) := by
  intro c caller uuid nowSecs body member key deadline
  have start : OnRecord uploadStart :=
    ⟨by simp [uploadStart], by simp [uploadStart], by simp [uploadStart], by simp [uploadStart]⟩
  have step (c : UploadConfigRun) (input : UploadInput) (kept : OnRecord c) (fresh : FreshId c input) :
      OnRecord ((uploadMachine formatAmzDate s cfg).advance c input) := onRecord_step kept input fresh
  have kept : OnRecord c := (uploadMachine formatAmzDate s cfg).run_invariant step start fresh
  obtain ⟨asked, found, named⟩ := kept.handed caller uuid nowSecs body member
  refine ⟨named, fun other => keyIsOwnedBy_uploadKey caller other uuid, ?_⟩
  rcases found with held | gone
  · obtain ⟨later, stored⟩ := Option.isSome_iff_exists.mp held
    obtain ⟨first, before, asked'⟩ := kept.minted _ later stored
    exact .inl ⟨later, stored, (kept.once _ _ first asked asked').le.trans before⟩
  · exact .inr gone

end

/-- An upload, and a pass a day and eleven minutes later that forgets it. -/
def forgottenRun : List UploadInput :=
  [.upload firstCaller firstUuid 1000 .ok (.ok firstCaller.key),
    .due 1 88060 [buildUploadKey firstCaller.key firstUuid.text], .forget 1 .ok]

theorem forgottenRun_kept :
    ∃ gone, 1000 + urlExpiresSecs + mintedMarginSecs ≤ gone ∧ UploadEvent.forgot (buildUploadKey firstCaller.key
      firstUuid.text) gone ∈ ((uploadMachine firstDay sumSigner plainConfig).run uploadStart forgottenRun).log := by
  have fresh : (uploadMachine firstDay sumSigner plainConfig).Guarded FreshId uploadStart forgottenRun :=
    ⟨fun _ => List.not_mem_nil, trivial, trivial, trivial⟩
  have handed : UploadEvent.handed firstCaller firstUuid 1000 (buildUploadResponse firstDay sumSigner plainConfig
      firstCaller.key 1000 firstUuid.text firstCaller.key) ∈
      ((uploadMachine firstDay sumSigner plainConfig).run uploadStart forgottenRun).log :=
    List.mem_append_left _ (List.mem_append_left _ (List.mem_append_right _
      (List.mem_cons_of_mem _ List.mem_cons_self)))
  have absent : ((uploadMachine firstDay sumSigner plainConfig).run uploadStart forgottenRun).state.minted
      (buildUploadKey firstCaller.key firstUuid.text) = none := by
    decide +kernel
  rcases (upload_kept fresh firstCaller firstUuid 1000 _ handed).2.2 with ⟨later, stored, -⟩ | gone
  · cases absent.symm.trans stored
  · exact gone

end MessageRelay.Upload
