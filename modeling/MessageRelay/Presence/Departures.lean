import MessageRelay.Library.Machine
import MessageRelay.Library.Table

/-! The departure debounce: a room's `pendingleft:` entry, and the one alarm that all of them share. The alarm is set
with a delay, stamped by the runtime's clock and read back; what each storage call did is an input. -/

namespace MessageRelay.Presence
open Library

def peerLeftDebounceMs : Nat := 4000
def alarmReadBackSlackMs : Nat := 1000
def rearmNetMinIntervalMs : Nat := 2000

structure PendingPeerLeft where
  leaver : String
  departedAtMs : Nat
  dueAtMs : Nat
  deriving DecidableEq, Repr

structure PendingRow where
  room : String
  entry : PendingPeerLeft
  deriving DecidableEq, Repr

abbrev PendingRows := Table PendingRow.room

def armDepartureDebounce (leaver : String) (nowMs : Nat) : PendingPeerLeft :=
  ⟨leaver, nowMs, nowMs + peerLeftDebounceMs⟩

/-- The entries due, those still waiting, and the earliest time of the latter. -/
def splitDuePending (pending : List PendingRow) (nowMs : Nat) : List PendingRow × List PendingRow × Option Nat :=
  pending.foldl (fun (due, rest, next) row =>
    if row.entry.dueAtMs ≤ nowMs then (due ++ [row], rest, next)
    else (due, rest ++ [row], some (next.elim row.entry.dueAtMs (fun n => min n row.entry.dueAtMs)))) ([], [], none)

def departurePushDue (stillOccupied : Bool) : Bool := !stillOccupied

def alarmNeedsReplacing (current : Option Nat) (dueMs nowMs : Nat) : Bool :=
  match current with
  | none => true
  | some t => dueMs < t || t ≤ nowMs

def alarmSetConfirmed (readBack : Option Nat) (dueMs : Nat) : Bool :=
  match readBack with
  | some t => t ≤ dueMs + alarmReadBackSlackMs
  | none => false

def rearmNetDue (lastRunMs nowMs : Nat) : Bool :=
  lastRunMs = 0 || nowMs < lastRunMs || rearmNetMinIntervalMs ≤ nowMs - lastRunMs

/-- What a write did: whether it answered success, and whether it took effect. A write that is silently dropped is
`⟨true, false⟩`. -/
structure Write where
  ok : Bool
  landed : Bool
  deriving DecidableEq, Repr

/-- One attempt of the alarm's set: the write, the clock that stamps it, and whether it can be read back. -/
structure AlarmSet where
  write : Write
  clock : Nat
  readBack : Bool
  deriving DecidableEq, Repr

structure AlarmCalls where
  nowMs : Nat
  read : Bool
  first : AlarmSet
  second : AlarmSet
  deriving DecidableEq, Repr

/-- `get_alarm`. A read that fails reads as no alarm. -/
def readAlarm (alarm : Option Nat) (read : Bool) : Option Nat :=
  if read then alarm else none

/-- One attempt: whether the alarm is confirmed, and the alarm after it. -/
def attempt (alarm : Option Nat) (dueMs delayMs : Nat) (set : AlarmSet) : Bool × Option Nat :=
  let alarm' := if set.write.landed then some (set.clock + delayMs) else alarm
  (set.write.ok && alarmSetConfirmed (readAlarm alarm' set.readBack) dueMs, alarm')

/-- Whether an alarm no later than the due time is confirmed, and the alarm after the call. Times past an `i64` are
refused. -/
def ensureAlarmNoLaterThan (alarm : Option Nat) (dueMs : Nat) (calls : AlarmCalls) : Bool × Option Nat :=
  if 2 ^ 63 ≤ dueMs || 2 ^ 63 ≤ calls.nowMs then (false, alarm)
  else if !alarmNeedsReplacing (readAlarm alarm calls.read) dueMs calls.nowMs then (true, alarm)
  else
    let delayMs := max (dueMs - calls.nowMs) 1
    let once := attempt alarm dueMs delayMs calls.first
    if once.1 then once else attempt once.2 dueMs delayMs calls.second

/-! The set leaves an alarm, and a confirmed one is there. -/

theorem attempt_isSome {alarm : Option Nat} (there : alarm.isSome = true) (dueMs delayMs : Nat) (set : AlarmSet) :
    (attempt alarm dueMs delayMs set).2.isSome = true := by
  unfold attempt
  simp only
  split
  · rfl
  · exact there

theorem attempt_confirmed {alarm : Option Nat} {dueMs delayMs : Nat} {set : AlarmSet}
    (confirmed : (attempt alarm dueMs delayMs set).1 = true) : (attempt alarm dueMs delayMs set).2.isSome = true := by
  unfold attempt at confirmed ⊢
  simp only [Bool.and_eq_true] at confirmed ⊢
  have read := confirmed.2
  unfold alarmSetConfirmed at read
  split at read
  · rename_i t back
    unfold readAlarm at back
    split at back
    · rw [back]
      rfl
    · cases back
  · cases read

/-- No call of it takes an alarm away. -/
theorem ensureAlarm_isSome {alarm : Option Nat} (there : alarm.isSome = true) (dueMs : Nat) (calls : AlarmCalls) :
    (ensureAlarmNoLaterThan alarm dueMs calls).2.isSome = true := by
  unfold ensureAlarmNoLaterThan
  split
  · exact there
  · split
    · exact there
    · simp only
      have once := attempt_isSome there dueMs (max (dueMs - calls.nowMs) 1) calls.first
      split
      · exact once
      · exact attempt_isSome once _ _ _

theorem ensureAlarm_confirmed {alarm : Option Nat} {dueMs : Nat} {calls : AlarmCalls}
    (confirmed : (ensureAlarmNoLaterThan alarm dueMs calls).1 = true) :
    dueMs < 2 ^ 63 ∧ (ensureAlarmNoLaterThan alarm dueMs calls).2.isSome = true := by
  unfold ensureAlarmNoLaterThan at confirmed ⊢
  split at confirmed
  · cases confirmed
  · rename_i bounded
    have small : dueMs < 2 ^ 63 := by
      simp only [Bool.or_eq_true, decide_eq_true_eq, not_or, not_le] at bounded
      exact bounded.1
    rw [if_neg bounded]
    refine ⟨small, ?_⟩
    split at confirmed
    · rename_i covered
      rw [if_pos covered]
      cases alarm with
      | none => cases calls.read <;> simp [readAlarm, alarmNeedsReplacing] at covered
      | some t => rfl
    · rename_i replaced
      rw [if_neg replaced]
      simp only at confirmed ⊢
      split at confirmed
      · rename_i once
        rw [if_pos once]
        exact attempt_confirmed once
      · rename_i again
        rw [if_neg again]
        exact attempt_confirmed confirmed

/-- Where the first set takes effect an alarm is there afterwards. -/
theorem ensureAlarm_landed {alarm : Option Nat} {dueMs : Nat} {calls : AlarmCalls} (due : dueMs < 2 ^ 63)
    (now : calls.nowMs < 2 ^ 63) (landed : calls.first.write.landed = true) :
    (ensureAlarmNoLaterThan alarm dueMs calls).2.isSome = true := by
  unfold ensureAlarmNoLaterThan
  have bounded : ¬((decide (2 ^ 63 ≤ dueMs) || decide (2 ^ 63 ≤ calls.nowMs)) = true) := by
    simp only [Bool.or_eq_true, decide_eq_true_eq, not_or, not_le]
    exact ⟨due, now⟩
  rw [if_neg bounded]
  split
  · rename_i covered
    cases alarm with
    | none => cases calls.read <;> simp [readAlarm, alarmNeedsReplacing] at covered
    | some t => rfl
  · have once : (attempt alarm dueMs (max (dueMs - calls.nowMs) 1) calls.first).2.isSome = true := by
      simp [attempt, landed]
    simp only
    split
    · exact once
    · exact attempt_isSome once _ _ _

theorem splitDuePending_due (pending : List PendingRow) (nowMs : Nat) :
    (splitDuePending pending nowMs).1 = pending.filter (fun row => row.entry.dueAtMs ≤ nowMs) := by
  induction pending using List.reverseRecOn with
  | nil => rfl
  | append_singleton front row ih =>
    unfold splitDuePending at ih ⊢
    rw [List.foldl_append, List.filter_append, ← ih]
    by_cases due : row.entry.dueAtMs ≤ nowMs <;> simp [due]

/-- Every pending entry is due or it waits, and where one waits there is a next time that is one's own. -/
theorem mem_splitDuePending (pending : List PendingRow) (nowMs : Nat) :
    (∀ row, row ∈ (splitDuePending pending nowMs).1 ↔ row ∈ pending ∧ row.entry.dueAtMs ≤ nowMs) ∧
      (∀ row ∈ pending, row.entry.dueAtMs ≤ nowMs ∨ (splitDuePending pending nowMs).2.2.isSome = true) ∧
      ∀ next, (splitDuePending pending nowMs).2.2 = some next → ∃ row ∈ pending, row.entry.dueAtMs = next := by
  refine ⟨fun row => by simp [splitDuePending_due], ?_⟩
  induction pending using List.reverseRecOn with
  | nil => simp [splitDuePending]
  | append_singleton front row ih =>
    obtain ⟨waits, next⟩ := ih
    have step : (splitDuePending (front ++ [row]) nowMs).2.2 =
        if row.entry.dueAtMs ≤ nowMs then (splitDuePending front nowMs).2.2
        else some ((splitDuePending front nowMs).2.2.elim row.entry.dueAtMs (fun n => min n row.entry.dueAtMs)) := by
      unfold splitDuePending
      rw [List.foldl_append]
      by_cases now : row.entry.dueAtMs ≤ nowMs <;> simp [now]
    rw [step]
    by_cases now : row.entry.dueAtMs ≤ nowMs
    · simp only [if_pos now]
      refine ⟨fun other member => ?_, fun at' later => ?_⟩
      · obtain inside | last := List.mem_append.mp member
        · exact waits other inside
        · rw [List.mem_singleton.mp last]
          exact .inl now
      · obtain ⟨found, inside, same⟩ := next at' later
        exact ⟨found, List.mem_append_left _ inside, same⟩
    · simp only [if_neg now]
      refine ⟨fun _ _ => .inr rfl, fun at' later => ?_⟩
      cases before : (splitDuePending front nowMs).2.2 with
      | none =>
        rw [before, Option.elim_none, Option.some.injEq] at later
        exact ⟨row, List.mem_append_right _ (List.mem_singleton_self _), later⟩
      | some n =>
        rw [before, Option.elim_some, Option.some.injEq] at later
        obtain small | small := min_choice n row.entry.dueAtMs
        · obtain ⟨found, inside, same⟩ := next n before
          exact ⟨found, List.mem_append_left _ inside, by rw [same, ← later, small]⟩
        · exact ⟨row, List.mem_append_right _ (List.mem_singleton_self _), by rw [← later, small]⟩

end MessageRelay.Presence
