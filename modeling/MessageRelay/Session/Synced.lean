import MessageRelay.Session.Machine

/-! Memory and attachment in step. Each write of a new state puts the same snapshot in both, unless the
platform refuses the attachment. -/

namespace MessageRelay.Session
open MessageRelay.Lane

def SessionEvent.isPersistFailed : SessionEvent → Bool
  | .persistFailed => true
  | _ => false

namespace Engine

/-- No attachment was refused so far. -/
def Unrefused (e : Engine) : Prop :=
  e.log.any SessionEvent.isPersistFailed = false

instance (e : Engine) : Decidable e.Unrefused :=
  inferInstanceAs (Decidable (_ = _))

theorem Unrefused.earlier {e e' : Engine} (unrefused : e'.Unrefused) (grew : e.log <+: e'.log) :
    e.Unrefused := by
  obtain ⟨later, same⟩ := grew
  unfold Unrefused at unrefused ⊢
  rw [← same, List.any_append, Bool.or_eq_false_iff] at unrefused
  exact unrefused.1

/-- The attachment holds what the memory does. -/
structure Synced (e : Engine) (att : WsAttachment) : Prop where
  attached : e.attachment = some att
  named : att.sid ≠ ""
  memory : ∀ s, e.inner = some s → s.toAttachment = att

@[simp] theorem emit_inner (e : Engine) (event : SessionEvent) : (e.emit event).inner = e.inner := rfl

@[simp] theorem emit_attachment (e : Engine) (event : SessionEvent) :
    (e.emit event).attachment = e.attachment := rfl

@[simp] theorem emit_rounds (e : Engine) (event : SessionEvent) : (e.emit event).rounds = e.rounds := rfl

@[simp] theorem emit_log (e : Engine) (event : SessionEvent) : (e.emit event).log = e.log ++ [event] := rfl

@[simp] theorem modify_log (e : Engine) (f : SessionState → SessionState) : (e.modify f).log = e.log := rfl

@[simp] theorem modify_attachment (e : Engine) (f : SessionState → SessionState) :
    (e.modify f).attachment = e.attachment := rfl

@[simp] theorem modify_inner (e : Engine) (f : SessionState → SessionState) :
    (e.modify f).inner = e.inner.map f := rfl

theorem Synced.emit {e : Engine} {att : WsAttachment} (synced : e.Synced att) (event : SessionEvent) :
    (e.emit event).Synced att :=
  ⟨synced.attached, synced.named, synced.memory⟩

theorem serializeAttachment_log (platform : Platform) (e : Engine) (att : WsAttachment) :
    e.log <+: (e.serializeAttachment platform att).log := by
  unfold serializeAttachment
  split
  · exact List.prefix_rfl
  · exact List.prefix_append _ _

theorem serializeAttachment_eq {platform : Platform} {e : Engine} {att : WsAttachment}
    (unrefused : (e.serializeAttachment platform att).Unrefused) :
    e.serializeAttachment platform att = { e with attachment := some att } := by
  unfold serializeAttachment at unrefused ⊢
  split
  · rfl
  next refused =>
    rw [if_neg refused] at unrefused
    simp [Unrefused, SessionEvent.isPersistFailed] at unrefused

theorem persistToWsAttachment_log (platform : Platform) (e : Engine) :
    e.log <+: (e.persistToWsAttachment platform).log := by
  unfold persistToWsAttachment
  split
  · exact serializeAttachment_log platform e _
  · exact List.prefix_rfl

theorem keepState_log (platform : Platform) (e : Engine) (s : SessionState) :
    e.log <+: (e.keepState platform s).log :=
  persistToWsAttachment_log platform { e with inner := some s }

theorem keepState_eq {platform : Platform} {e : Engine} {s : SessionState} {att : WsAttachment}
    (attached : e.attachment = some att) (unrefused : (e.keepState platform s).Unrefused) :
    e.keepState platform s = { e with inner := some s, attachment := some s.toAttachment } := by
  unfold keepState persistToWsAttachment at unrefused ⊢
  simp only [attached] at unrefused ⊢
  rw [serializeAttachment_eq unrefused]

theorem keepState_synced {platform : Platform} {e : Engine} {s : SessionState} {att : WsAttachment}
    (attached : e.attachment = some att) (named : s.sid ≠ "")
    (unrefused : (e.keepState platform s).Unrefused) :
    (e.keepState platform s).Synced s.toAttachment := by
  rw [keepState_eq attached unrefused]
  refine ⟨rfl, named, ?_⟩
  intro s' same
  cases same
  rfl

theorem rehydrateFromWsAttachment_log (e : Engine) : e.rehydrateFromWsAttachment.log = e.log := by
  unfold rehydrateFromWsAttachment
  split
  · split <;> rfl
  · rfl

theorem Synced.rehydrate {e : Engine} {att : WsAttachment} (synced : e.Synced att) :
    ∃ s, e.rehydrateFromWsAttachment = { e with inner := some s } ∧ s.toAttachment = att := by
  cases present : e.inner with
  | none =>
    refine ⟨SessionState.fromAttachment att, ?_, rfl⟩
    simp only [rehydrateFromWsAttachment, present, synced.attached, if_neg synced.named]
  | some s =>
    refine ⟨s, ?_, synced.memory s present⟩
    simp only [rehydrateFromWsAttachment, present]
    rw [← present]

theorem stampPing_log (platform : Platform) (e : Engine) (att : WsAttachment) (nowMs : Nat) :
    e.log <+: (e.stampPing platform att nowMs).log :=
  (List.prefix_append e.log [SessionEvent.pinged]).trans (serializeAttachment_log platform (e.emit .pinged) _)

theorem ensureHeartbeat_cases (platform : Platform) (e : Engine) (a : Ambient) :
    e.ensureHeartbeat platform a = e ∨
      ∃ att, e.attachment = some att ∧ e.ensureHeartbeat platform a = e.stampPing platform att a.nowMs := by
  unfold ensureHeartbeat
  split
  next att alarmAt attached _ =>
    split
    · exact .inl rfl
    split
    · split
      · exact .inr ⟨att, attached, rfl⟩
      · exact .inl rfl
    · exact .inl rfl
    · exact .inl rfl
  next => exact .inl rfl

/-- A ping moves the two stamps on both sides and nothing else. -/
theorem Synced.stampPing {platform : Platform} {e : Engine} {att : WsAttachment} {nowMs : Nat}
    (synced : e.Synced att) (unrefused : (e.stampPing platform att nowMs).Unrefused) :
    (e.stampPing platform att nowMs).Synced
      { att with awaitingPongSinceMs := some nowMs, lastPingAtMs := some nowMs } := by
  have written := serializeAttachment_eq (e := e.emit .pinged) unrefused
  unfold Engine.stampPing
  rw [written]
  refine ⟨rfl, synced.named, ?_⟩
  intro s present
  obtain ⟨before, held, rfl⟩ := Option.map_eq_some_iff.mp present
  rw [← synced.memory before held]
  rfl

end Engine

end MessageRelay.Session
