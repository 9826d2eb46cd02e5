import MessageRelay.Library.History
import MessageRelay.Mailbox.Store

/-! One body pushed to many subscribers: in windows, each window's pushes in flight together, and once more for those
that timed out. The clock and the pushes are the world's, free to depend on all that happened. -/

namespace MessageRelay.Presence.Broadcast
open MessageRelay.Library
open MessageRelay.Mailbox (chunks)

inductive PushOutcome where
  | delivered
  | noSocket
  | timedOut
  | failed
  | skipped
  deriving DecidableEq, Repr

/-- A fan-out's tally, each count of 32 bits. -/
structure FanOut where
  subscribers : Nat
  delivered : UInt32
  noSocket : UInt32
  timedOut : UInt32
  failed : UInt32
  skipped : UInt32
  deriving DecidableEq, Repr

namespace FanOut

def count (t : FanOut) : PushOutcome → FanOut
  | .delivered => { t with delivered := t.delivered + 1 }
  | .noSocket => { t with noSocket := t.noSocket + 1 }
  | .timedOut => { t with timedOut := t.timedOut + 1 }
  | .failed => { t with failed := t.failed + 1 }
  | .skipped => { t with skipped := t.skipped + 1 }

def of (subscribers : Nat) (outcomes : List PushOutcome) : FanOut := outcomes.foldl count ⟨subscribers, 0, 0, 0, 0, 0⟩

def total (t : FanOut) : Nat :=
  t.delivered.toNat + t.noSocket.toNat + t.timedOut.toNat + t.failed.toNat + t.skipped.toNat

def sum (t : FanOut) : UInt32 := t.delivered + t.noSocket + t.timedOut + t.failed + t.skipped

end FanOut

inductive Event where
  | read (now : Nat)
  | started (i attempt : Nat)
  | waiting (i attempt : Nat)
  | ended (i attempt : Nat) (outcome : PushOutcome)
  deriving DecidableEq, Repr

/-- The clock, and what a poll of a push finds, after all that happened. -/
structure World where
  now : List Event → Nat
  poll : List Event → Nat → Nat → Option PushOutcome

/-- The outcomes written so far, and what happened. -/
structure Run where
  out : List PushOutcome
  trace : List Event

def Run.note (run : Run) (event : Event) : Run := { run with trace := run.trace ++ [event] }

/-- A future that is done, or still pending after the polls it was given. -/
inductive Awaited where
  | ready (run : Run)
  | pending (run : Run)

def Awaited.run : Awaited → Run
  | .ready run | .pending run => run

/-- The futures of a window, an answered one dropped, and how many are left. -/
structure Window where
  slots : List (Option Nat)
  remaining : Nat
  run : Run

section Source
variable (world : World)

/-- One poll of a window: each future still there is polled, and one that answers writes its outcome and is dropped. -/
def pollSlots (attempt : Nat) : List (Option Nat) → Nat → Run → Window
  | [], remaining, run => ⟨[], remaining, run⟩
  | none :: slots, remaining, run =>
    let later := pollSlots attempt slots remaining run
    { later with slots := none :: later.slots }
  | some i :: slots, remaining, run =>
    match world.poll run.trace i attempt with
    | some o =>
      let later := pollSlots attempt slots (remaining - 1) ⟨run.out.set i o, run.trace ++ [.ended i attempt o]⟩
      { later with slots := none :: later.slots }
    | none =>
      let later := pollSlots attempt slots remaining (run.note (.waiting i attempt))
      { later with slots := some i :: later.slots }

def joinWindow (attempt : Nat) : Nat → Window → Awaited
  | 0, window => .pending window.run
  | rounds + 1, window =>
    let polled := pollSlots world attempt window.slots window.remaining window.run
    if polled.remaining = 0 then .ready polled.run else joinWindow attempt rounds polled

/-- The pushes of a window, all started. -/
def startWindow (attempt : Nat) (window : List Nat) (run : Run) : Window :=
  ⟨window.map some, window.length, window.foldl (fun run i => run.note (.started i attempt)) run⟩

def driveWindows (attempt deadline rounds : Nat) : List (List Nat) → Run → Awaited
  | [], run => .ready run
  | window :: rest, run =>
    let now := world.now run.trace
    let run := run.note (.read now)
    if deadline ≤ now then .ready run
    else
      match joinWindow world attempt rounds (startWindow attempt window run) with
      | .ready run => driveWindows attempt deadline rounds rest run
      | .pending run => .pending run

/-- The whole fan-out, each window given so many polls. -/
def fanOutWith (count width deadline rounds : Nat) : Awaited :=
  match driveWindows world 0 deadline rounds (chunks (max width 1) (List.range count))
      ⟨List.replicate count .skipped, []⟩ with
  | .pending run => .pending run
  | .ready run =>
    let retry := (List.range count).filter (fun i => run.out[i]? = some .timedOut)
    if retry = [] then .ready run
    else
      let now := world.now run.trace
      let run := run.note (.read now)
      if now < deadline then driveWindows world 1 deadline rounds (chunks (max width 1) retry) run
      else .ready run

end Source

/-! What a trace tells. -/

def readings (trace : List Event) : List Nat :=
  trace.filterMap (fun event => match event with | .read now => some now | _ => none)

def Event.fly (pushes : List (Nat × Nat)) : Event → List (Nat × Nat)
  | .started i attempt => (i, attempt) :: pushes
  | .ended i attempt _ => pushes.erase (i, attempt)
  | .read _ | .waiting _ _ => pushes

/-- The pushes in flight. -/
def flying (trace : List Event) : List (Nat × Nat) := trace.foldl Event.fly []

def Event.report (i : Nat) (last : PushOutcome) : Event → PushOutcome
  | .ended j _ o => if j = i then o else last
  | .read _ | .started _ _ | .waiting _ _ => last

/-- What the last push of an index to end ended as. -/
def reported (i : Nat) (trace : List Event) : PushOutcome := trace.foldl (Event.report i) .skipped

theorem flying_snoc (trace : List Event) (event : Event) : flying (trace ++ [event]) = event.fly (flying trace) := by
  rw [flying, List.foldl_append]
  rfl

theorem reported_snoc (i : Nat) (trace : List Event) (event : Event) :
    reported i (trace ++ [event]) = event.report i (reported i trace) := by
  rw [reported, List.foldl_append]
  rfl

/-- A push that may be started: its first attempt, or its second after the first timed out, with room and in time. -/
structure MayStart (count width deadline i attempt : Nat) (before : List Event) : Prop where
  index : i < count
  fresh : .started i attempt ∉ before
  due : attempt = 0 ∨ attempt = 1 ∧ .ended i 0 .timedOut ∈ before
  room : (flying before).length < max width 1
  inTime : ∃ now < deadline, (readings before).getLast? = some now

def Allowed (count width deadline : Nat) (before : List Event) : Event → Prop
  | .started i attempt => MayStart count width deadline i attempt before
  | .ended i attempt _ => (i, attempt) ∈ flying before
  | .read _ | .waiting _ _ => True

theorem started_of_flying {trace : List Event} {i attempt : Nat} (there : (i, attempt) ∈ flying trace) :
    .started i attempt ∈ trace := by
  induction trace using List.reverseRecOn with
  | nil => cases there
  | append_singleton front event ih =>
    rw [flying_snoc] at there
    rw [List.mem_append]
    cases event with
    | started j b =>
      rcases List.mem_cons.mp there with same | earlier
      · cases same
        exact .inr List.mem_cons_self
      · exact .inl (ih earlier)
    | ended j b o => exact .inl (ih (List.mem_of_mem_erase there))
    | read now | waiting j b => exact .inl (ih there)

/-- A push that was started is in flight or has ended. -/
theorem flying_or_ended {trace : List Event} {i attempt : Nat} (begun : .started i attempt ∈ trace) :
    (i, attempt) ∈ flying trace ∨ ∃ o, .ended i attempt o ∈ trace := by
  induction trace using List.reverseRecOn with
  | nil => cases begun
  | append_singleton front event ih =>
    rw [flying_snoc]
    have step : (i, attempt) ∈ event.fly (flying front) ∨ (∃ o, .ended i attempt o ∈ front) ∨
        ∃ o, event = .ended i attempt o := by
      rcases List.mem_append.mp begun with earlier | last
      · rcases ih earlier with there | done
        · cases event with
          | started j b => exact .inl (List.mem_cons_of_mem _ there)
          | ended j b o =>
            by_cases same : (i, attempt) = (j, b)
            · cases same
              exact .inr (.inr ⟨o, rfl⟩)
            · exact .inl ((List.mem_erase_of_ne same).mpr there)
          | read now | waiting j b => exact .inl there
        · exact .inr (.inl done)
      · cases List.mem_singleton.mp last
        exact .inl List.mem_cons_self
    rcases step with there | ⟨o, earlier⟩ | ⟨o, rfl⟩
    · exact .inl there
    · exact .inr ⟨o, List.mem_append_left _ earlier⟩
    · exact .inr ⟨o, List.mem_append_right _ List.mem_cons_self⟩

section Lawful
variable {count width deadline : Nat} {trace : List Event} (lawful : Preceded (Allowed count width deadline) trace)
include lawful

theorem mayStart_of_mem {i attempt : Nat} (begun : .started i attempt ∈ trace) :
    ∃ before after, trace = before ++ .started i attempt :: after ∧ MayStart count width deadline i attempt before := by
  obtain ⟨before, after, parts⟩ := List.append_of_mem begun
  exact ⟨before, after, parts, lawful before _ after parts⟩

theorem started_of_ended {i attempt : Nat} {o : PushOutcome} (done : .ended i attempt o ∈ trace) :
    .started i attempt ∈ trace := by
  obtain ⟨before, after, rfl⟩ := List.append_of_mem done
  have there : (i, attempt) ∈ flying before := lawful before _ after rfl
  exact List.mem_append_left _ (started_of_flying there)

theorem nodup_flying : (flying trace).Nodup := by
  induction trace using List.reverseRecOn with
  | nil => exact List.nodup_nil
  | append_singleton front event ih =>
    obtain ⟨earlier, allowed⟩ := preceded_snoc_iff.mp lawful
    rw [flying_snoc]
    cases event with
    | started i attempt => exact List.nodup_cons.mpr ⟨fun there => allowed.fresh (started_of_flying there), ih earlier⟩
    | ended i attempt o => exact (ih earlier).erase _
    | read now | waiting i attempt => exact ih earlier

/-- A push that ended is no longer in flight: it is not started again. -/
theorem not_flying_of_ended {i attempt : Nat} {o : PushOutcome} (done : .ended i attempt o ∈ trace) :
    (i, attempt) ∉ flying trace := by
  induction trace using List.reverseRecOn with
  | nil => cases done
  | append_singleton front event ih =>
    obtain ⟨earlier, allowed⟩ := preceded_snoc_iff.mp lawful
    rw [flying_snoc]
    rcases List.mem_append.mp done with before | last
    · cases event with
      | started j b =>
        intro there
        rcases List.mem_cons.mp there with same | older
        · cases same
          exact allowed.fresh (started_of_ended earlier before)
        · exact ih earlier before older
      | ended j b o' => exact fun there => ih earlier before (List.mem_of_mem_erase there)
      | read now | waiting j b => exact ih earlier before
    · cases List.mem_singleton.mp last
      exact (nodup_flying earlier).not_mem_erase

theorem ended_unique {i attempt : Nat} {o o' : PushOutcome} (one : .ended i attempt o ∈ trace)
    (other : .ended i attempt o' ∈ trace) : o = o' := by
  induction trace using List.reverseRecOn with
  | nil => cases one
  | append_singleton front event ih =>
    obtain ⟨earlier, allowed⟩ := preceded_snoc_iff.mp lawful
    rcases List.mem_append.mp one with before | last <;> rcases List.mem_append.mp other with before' | last'
    · exact ih earlier before before'
    · cases List.mem_singleton.mp last'
      exact absurd allowed (not_flying_of_ended earlier before)
    · cases List.mem_singleton.mp last
      exact absurd allowed (not_flying_of_ended earlier before')
    · cases List.mem_singleton.mp last
      cases List.mem_singleton.mp last'
      rfl

theorem count_started_le (i attempt : Nat) : trace.count (.started i attempt) ≤ 1 := by
  induction trace using List.reverseRecOn with
  | nil => exact Nat.zero_le _
  | append_singleton front event ih =>
    obtain ⟨earlier, allowed⟩ := preceded_snoc_iff.mp lawful
    rw [List.count_append, List.count_singleton]
    split
    · next same =>
      rw [beq_iff_eq] at same
      subst same
      rw [List.count_eq_zero_of_not_mem allowed.fresh]
    · exact ih earlier

theorem flying_length_le : (flying trace).length ≤ max width 1 := by
  induction trace using List.reverseRecOn with
  | nil => exact Nat.zero_le _
  | append_singleton front event ih =>
    obtain ⟨earlier, allowed⟩ := preceded_snoc_iff.mp lawful
    rw [flying_snoc]
    cases event with
    | started i attempt => exact allowed.room
    | ended i attempt o => exact (List.length_erase_le).trans (ih earlier)
    | read now | waiting i attempt => exact ih earlier

/-- The outcome of a second attempt is the last word. -/
theorem reported_second {i : Nat} {o : PushOutcome} (done : .ended i 1 o ∈ trace) : reported i trace = o := by
  induction trace using List.reverseRecOn with
  | nil => cases done
  | append_singleton front event ih =>
    obtain ⟨earlier, allowed⟩ := preceded_snoc_iff.mp lawful
    rw [reported_snoc]
    rcases List.mem_append.mp done with before | last
    · rw [ih earlier before]
      cases event with
      | started j b | read now | waiting j b => rfl
      | ended j b o' =>
        refine if_neg ?_
        rintro rfl
        obtain ⟨_, _, parts, second⟩ := mayStart_of_mem earlier (started_of_ended earlier before)
        obtain ⟨_, _, _, own⟩ := mayStart_of_mem earlier (started_of_flying allowed)
        rcases own.due with rfl | ⟨rfl, -⟩
        · rcases second.due with impossible | ⟨-, first⟩
          · cases impossible
          · exact not_flying_of_ended earlier (parts ▸ List.mem_append_left _ first) allowed
        · exact not_flying_of_ended earlier before allowed
    · cases List.mem_singleton.mp last
      exact if_pos rfl

/-- Where there is no second attempt, the outcome of the first is. -/
theorem reported_first {i : Nat} {o : PushOutcome} (done : .ended i 0 o ∈ trace) (only : .started i 1 ∉ trace) :
    reported i trace = o := by
  induction trace using List.reverseRecOn with
  | nil => cases done
  | append_singleton front event ih =>
    obtain ⟨earlier, allowed⟩ := preceded_snoc_iff.mp lawful
    rw [List.mem_append, not_or] at only
    rw [reported_snoc]
    rcases List.mem_append.mp done with before | last
    · rw [ih earlier before only.1]
      cases event with
      | started j b | read now | waiting j b => rfl
      | ended j b o' =>
        refine if_neg ?_
        rintro rfl
        have begun := started_of_flying allowed
        obtain ⟨_, _, _, own⟩ := mayStart_of_mem earlier begun
        rcases own.due with rfl | ⟨rfl, -⟩
        · exact not_flying_of_ended earlier before allowed
        · exact only.1 begun
    · cases List.mem_singleton.mp last
      exact if_pos rfl

end Lawful

/-- An outcome other than the one it begins with was some push's. -/
theorem ended_of_reported {i : Nat} {trace : List Event} {o : PushOutcome} (last : reported i trace = o)
    (written : o ≠ .skipped) : ∃ attempt, .ended i attempt o ∈ trace := by
  induction trace using List.reverseRecOn with
  | nil => exact absurd last.symm written
  | append_singleton front event ih =>
    rw [reported_snoc] at last
    have step : reported i front = o ∨ ∃ attempt, event = .ended i attempt o := by
      cases event with
      | started j b | read now | waiting j b => exact .inl last
      | ended j b o' =>
        simp only [Event.report] at last
        split at last
        · next own => exact .inr ⟨b, by rw [own, last]⟩
        · exact .inl last
    rcases step with earlier | ⟨attempt, rfl⟩
    · obtain ⟨attempt, done⟩ := ih earlier
      exact ⟨attempt, List.mem_append_left _ done⟩
    · exact ⟨attempt, List.mem_append_right _ List.mem_cons_self⟩

theorem reported_unended {i : Nat} {trace : List Event} (never : ∀ attempt o, .ended i attempt o ∉ trace) :
    reported i trace = .skipped := by
  by_contra written
  obtain ⟨attempt, done⟩ := ended_of_reported rfl written
  exact never attempt _ done

end MessageRelay.Presence.Broadcast
