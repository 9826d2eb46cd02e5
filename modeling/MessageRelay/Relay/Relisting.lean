import MessageRelay.Relay.Inbox

/-! When an acknowledged message is listed again. The property is read off the log of a run, and a
monitor that takes the log one event at a time finds every such listing. -/

namespace MessageRelay.Relay
open MessageRelay.Library MessageRelay.Mailbox MessageRelay.Archive MessageRelay.Database

/-- The event stores a row under the id for the recipient, in either store. -/
def WorldEvent.storesId (recipient id : String) : WorldEvent → Bool
  | .hub (.stored r _ row) => r = recipient && row.messageId = id
  | .paid r _ messageId _ _ => r = recipient && messageId = id
  | _ => false

def lists (rows : List MessageDbRow) (id : String) : Bool := rows.any (fun row => row.messageId = some id)

/-- An acknowledgment of the id was answered, a listing began after the answer and returned the id,
and nothing was stored under it since the acknowledgment began. -/
def Relisted (recipient id : String) (log : List WorldEvent) : Prop :=
  ∃ before during between reading after task ids listing rows,
    log = before ++ .ackBegan task recipient ids :: (during ++ .ackAnswered task ::
      (between ++ .listBegan listing :: (reading ++ .listed listing recipient rows :: after))) ∧
    id ∈ ids ∧ lists rows id = true ∧
    (∀ event ∈ during ++ between ++ reading, event.storesId recipient id = false) ∧
    (∀ other otherIds, .ackBegan task other otherIds ∉ during) ∧ .listBegan listing ∉ reading

/-- What the monitor of one id knows: the acknowledgments under way that name it, whether one was
answered, the listings begun since, and whether one of these returned it. -/
structure Watch where
  acking : Nat → Bool
  acked : Bool
  begun : Nat → Bool
  relisted : Bool

def Watch.start : Watch := ⟨fun _ => false, false, fun _ => false, false⟩

def watch (recipient id : String) (s : Watch) (event : WorldEvent) : Watch :=
  if event.storesId recipient id then { Watch.start with relisted := s.relisted }
  else
    match event with
    | .ackBegan t r ids => { s with acking := Function.update s.acking t (r = recipient && id ∈ ids) }
    | .ackAnswered t => { s with acked := s.acked || s.acking t }
    | .listBegan l => { s with begun := Function.update s.begun l s.acked }
    | .listed l r rows => { s with relisted := s.relisted || (s.begun l && r = recipient && lists rows id) }
    | _ => s

section Monitor
variable {recipient id : String}

theorem watch_store {event : WorldEvent} (stores : event.storesId recipient id = true) (s : Watch) :
    watch recipient id s event = { Watch.start with relisted := s.relisted } := by
  unfold watch
  exact if_pos stores

theorem watch_relisted {s : Watch} (found : s.relisted = true) (events : List WorldEvent) :
    (events.foldl (watch recipient id) s).relisted = true := by
  induction events generalizing s with
  | nil => exact found
  | cons event rest ih =>
    apply ih
    unfold watch
    split
    · exact found
    · split <;> simp [found]

/-- An answered acknowledgment stays known while nothing is stored. -/
theorem watch_acked {s : Watch} (known : s.acked = true) {events : List WorldEvent}
    (quiet : ∀ event ∈ events, event.storesId recipient id = false) :
    (events.foldl (watch recipient id) s).acked = true := by
  induction events generalizing s with
  | nil => exact known
  | cons event rest ih =>
    have silent := quiet event (List.mem_cons_self ..)
    apply ih
    · simp only [watch, silent, Bool.false_eq_true, if_false]
      split <;> simp [known]
    · exact fun other inside => quiet other (List.mem_cons_of_mem _ inside)

theorem watch_acking {s : Watch} {t : Nat} (known : s.acking t = true) {events : List WorldEvent}
    (quiet : ∀ event ∈ events, event.storesId recipient id = false)
    (same : ∀ other ids, .ackBegan t other ids ∉ events) :
    (events.foldl (watch recipient id) s).acking t = true := by
  induction events generalizing s with
  | nil => exact known
  | cons event rest ih =>
    have silent := quiet event (List.mem_cons_self ..)
    apply ih
    · simp only [watch, silent, Bool.false_eq_true, if_false]
      split
      · rename_i t' r ids
        have differs : t ≠ t' := fun equal => same r ids (equal ▸ List.mem_cons_self ..)
        simp only [Function.update_of_ne differs, known]
      all_goals exact known
    · exact fun other inside => quiet other (List.mem_cons_of_mem _ inside)
    · exact fun other ids inside => same other ids (List.mem_cons_of_mem _ inside)

theorem watch_begun {s : Watch} {l : Nat} (known : s.begun l = true) {events : List WorldEvent}
    (quiet : ∀ event ∈ events, event.storesId recipient id = false) (same : .listBegan l ∉ events) :
    (events.foldl (watch recipient id) s).begun l = true := by
  induction events generalizing s with
  | nil => exact known
  | cons event rest ih =>
    have silent := quiet event (List.mem_cons_self ..)
    apply ih
    · simp only [watch, silent, Bool.false_eq_true, if_false]
      split
      all_goals try exact known
      rename_i l'
      have differs : l ≠ l' := fun equal => same (equal ▸ List.mem_cons_self ..)
      simp only [Function.update_of_ne differs, known]
    · exact fun other inside => quiet other (List.mem_cons_of_mem _ inside)
    · exact fun inside => same (List.mem_cons_of_mem _ inside)

/-- The monitor finds every listing of an acknowledged id. -/
theorem relisted_watched {log : List WorldEvent} (relisted : Relisted recipient id log) :
    (log.foldl (watch recipient id) Watch.start).relisted = true := by
  obtain ⟨before, during, between, reading, after, task, ids, listing, rows, rfl, named, listed, quiet, task',
    listing'⟩ := relisted
  simp only [List.mem_append, or_imp, forall_and] at quiet
  obtain ⟨⟨quietDuring, quietBetween⟩, quietReading⟩ := quiet
  simp only [List.foldl_append, List.foldl_cons]
  apply watch_relisted
  -- The four stretches between the five events, in the log's order.
  generalize before.foldl (watch recipient id) Watch.start = first
  have acking : (watch recipient id first (.ackBegan task recipient ids)).acking task = true := by
    simp [watch, WorldEvent.storesId, named]
  have waiting := watch_acking acking quietDuring task'
  generalize during.foldl (watch recipient id) _ = second at waiting
  have acked : (watch recipient id second (.ackAnswered task)).acked = true := by
    simp [watch, WorldEvent.storesId, waiting]
  have known := watch_acked acked quietBetween
  generalize between.foldl (watch recipient id) _ = third at known
  have begun : (watch recipient id third (.listBegan listing)).begun listing = true := by
    simp [watch, WorldEvent.storesId, known]
  have open' := watch_begun begun quietReading listing'
  generalize reading.foldl (watch recipient id) _ = fourth at open'
  simp [watch, WorldEvent.storesId, open', listed]

end Monitor

end MessageRelay.Relay
