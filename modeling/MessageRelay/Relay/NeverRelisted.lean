import MessageRelay.Relay.AttendedHub
import MessageRelay.Relay.NoBodyLost

/-! An acknowledged message is not listed again, in every run of one hub whose listings are in time. -/

namespace MessageRelay.Relay
open MessageRelay.Library MessageRelay.Mailbox MessageRelay.Archive MessageRelay.Database

section Watching
variable {recipient id : String} {w : World} {s : Watch} (watched : Watched recipient id w s)
include watched

/-- An acknowledgment that names the id begins once no live row is in the mailbox. -/
theorem Watched.began {t : Nat} (ids : List String) (free : w.acks t = .idle)
    (dead : id ∈ ids → Dead recipient id w.hubs) :
    Watched recipient id w (watch recipient id s (.ackBegan t recipient ids)) := by
  refine ⟨fun t' acking => ?_, watched.acked, watched.begun, watched.relisted⟩
  simp only [watch, WorldEvent.storesId, Bool.false_eq_true, if_false] at acking
  by_cases same : t' = t
  · subst same
    have named : id ∈ ids := by simpa using acking
    refine ⟨dead named, .inr ?_⟩
    rw [free]
    trivial
  · rw [Function.update_of_ne same] at acking
    exact watched.acking t' acking

theorem Watched.answered {t : Nat} (quiet : s.acking t = true → Quiet recipient id w.hubs) :
    Watched recipient id w (watch recipient id s (.ackAnswered t)) := by
  refine ⟨watched.acking, fun acked => ?_, fun l begun => ?_, watched.relisted⟩
  · have either : s.acked = true ∨ s.acking t = true := by
      simpa [watch, WorldEvent.storesId] using acked
    exact either.elim watched.acked quiet
  · obtain ⟨acked, clear⟩ := watched.begun l begun
    exact ⟨by simp [watch, WorldEvent.storesId, acked], clear⟩

theorem Watched.setAck {t : Nat} (task : AckTask)
    (waits : s.acking t = true → Dead recipient id w.hubs ∧ (Quiet recipient id w.hubs ∨ task.Waits id)) :
    Watched recipient id (w.setAck t task) s := by
  refine ⟨fun t' acking => ?_, watched.acked, watched.begun, watched.relisted⟩
  by_cases same : t' = t
  · subst same
    simpa only [World.setAck, Function.update_self] using waits acking
  · simpa only [World.setAck, Function.update_of_ne same] using watched.acking t' acking

theorem Watched.setListing {l : Nat} (listing : Listing)
    (clear : s.begun l = true → listing.Clear recipient id w.hubs) :
    Watched recipient id (w.setListing l listing) s := by
  refine ⟨watched.acking, watched.acked, fun l' begun => ?_, watched.relisted⟩
  obtain ⟨acked, before⟩ := watched.begun l' begun
  refine ⟨acked, ?_⟩
  by_cases same : l' = l
  · subst same
    simpa only [World.setListing, Function.update_self] using clear begun
  · simpa only [World.setListing, Function.update_of_ne same] using before

/-- A listing begins with no live row under a quiet id. -/
theorem Watched.listBegan {l : Nat} (free : w.listings l = .idle) :
    Watched recipient id w (watch recipient id s (.listBegan l)) := by
  refine ⟨watched.acking, watched.acked, fun l' begun => ?_, watched.relisted⟩
  simp only [watch, WorldEvent.storesId, Bool.false_eq_true, if_false] at begun
  by_cases same : l' = l
  · subst same
    rw [Function.update_self] at begun
    refine ⟨begun, ?_⟩
    rw [free]
    trivial
  · rw [Function.update_of_ne same] at begun
    exact watched.begun l' begun

theorem Watched.listed {l : Nat} {rows : List MessageDbRow} (unlisted : s.begun l = true → lists rows id = false) :
    Watched recipient id w (watch recipient id s (.listed l recipient rows)) := by
  refine ⟨watched.acking, watched.acked, watched.begun, ?_⟩
  cases begun : s.begun l with
  | false => simp [watch, WorldEvent.storesId, watched.relisted, begun]
  | true => simp [watch, WorldEvent.storesId, watched.relisted, unlisted begun]

end Watching

section Steps
variable {recipient id : String} {c : WorldConfig} (attended : Attended recipient id c)
include attended

/-- One acknowledgment's slot changes, and the monitor hears it begin or be answered. -/
theorem Attended.setAck {t : Nat} (task : AckTask) (of : task.Of recipient) (more : List WorldEvent)
    (watched : Watched recipient id (c.state.setAck t task)
      (more.foldl (watch recipient id) (c.log.foldl (watch recipient id) Watch.start))) :
    Attended recipient id ⟨c.state.setAck t task, c.log ++ more⟩ := by
  refine ⟨attended.settling, fun t' => ?_, attended.listings, ?_⟩
  · by_cases same : t' = t
    · subst same
      simpa only [World.setAck, Function.update_self] using of
    · simpa only [World.setAck, Function.update_of_ne same] using attended.acks t'
  · rw [List.foldl_append]
    exact watched

theorem Attended.setListing {l : Nat} (listing : Listing) (of : listing.Of recipient) (more : List WorldEvent)
    (watched : Watched recipient id (c.state.setListing l listing)
      (more.foldl (watch recipient id) (c.log.foldl (watch recipient id) Watch.start))) :
    Attended recipient id ⟨c.state.setListing l listing, c.log ++ more⟩ := by
  refine ⟨attended.settling, attended.acks, fun l' => ?_, ?_⟩
  · by_cases same : l' = l
    · subst same
      simpa only [World.setListing, Function.update_self] using of
    · simpa only [World.setListing, Function.update_of_ne same] using attended.listings l'
  · rw [List.foldl_append]
    exact watched

/-- The hub's part of an acknowledgment leaves no live row under an id it names. -/
theorem Attended.ackBegin (t : Nat) (ids : List String) (retry : Bool) (nowMs : Nat) :
    Attended recipient id ⟨(ackBeginStep c.state t recipient ids retry nowMs).1,
      c.log ++ (ackBeginStep c.state t recipient ids retry nowMs).2⟩ := by
  unfold ackBeginStep
  split
  · rename_i free
    let mb := c.state.hubs.mailboxes recipient
    obtain ⟨settling, moves⟩ := attended.settling.acknowledge ids retry nowMs
    have after : ((acknowledgeStep c.state.hubs recipient ids retry nowMs).1.mailboxes recipient).find? id =
        (mb.find? id).map (ackRow ids nowMs) := by
      simp only [acknowledgeStep, Hubs.enqueueAfter, Hubs.setMailbox, Function.update_self]
      exact acknowledge_find? mb ids retry nowMs id
    have dead : id ∈ ids → Dead recipient id (acknowledgeStep c.state.hubs recipient ids retry nowMs).1 := by
      intro named r found live
      rw [after] at found
      obtain ⟨r', before, rfl⟩ := Option.map_eq_some_iff.mp found
      have same := Store.messageId_of_find? before
      unfold ackRow at live
      split at live
      · cases live
      · rename_i unmoved
        exact unmoved ⟨same ▸ named, live⟩
    have held : id ∈ ids → id ∉ (Mailbox.acknowledge mb ids retry nowMs).1.missing →
        Quiet recipient id (acknowledgeStep c.state.hubs recipient ids retry nowMs).1 := by
      intro named unmissed
      refine ⟨dead named, .inl ?_⟩
      cases there : mb.find? id with
      | none => exact absurd (mem_missing named there retry nowMs) unmissed
      | some r => simp [after, there]
    have began := (attended.watched.move (moves id)).began ids free dead
    have silent : ∀ event ∈ (hubWorldStep c.state (.acknowledge recipient ids retry nowMs)).2,
        event.silent recipient id := by
      simp only [hubWorldStep, acknowledgingOf, List.singleton_append, List.mem_cons, forall_eq_or_imp]
      exact ⟨fun s => rfl, changes_silent⟩
    have named (acking : (watch recipient id (c.log.foldl (watch recipient id) Watch.start)
        (.ackBegan t recipient ids)).acking t = true) : id ∈ ids := by
      simpa [watch, WorldEvent.storesId] using acking
    simp only
    split
    · rename_i none'
      refine ⟨settling, attended.acks, attended.listings, ?_⟩
      simp only [List.foldl_append, List.cons_append, List.foldl_cons, foldl_silent silent, List.foldl_nil]
      refine began.answered (fun acking => held (named acking) ?_)
      rw [none']
      exact List.not_mem_nil
    · have base : Attended recipient id ⟨(hubWorldStep c.state (.acknowledge recipient ids retry nowMs)).1, c.log⟩ :=
        ⟨settling, attended.acks, attended.listings, attended.watched.move (moves id)⟩
      refine base.setAck (.missing recipient _) rfl _ ?_
      simp only [List.foldl_cons, foldl_silent silent]
      refine began.setAck _ (fun acking => ⟨dead (named acking), ?_⟩)
      by_cases missed : id ∈ (Mailbox.acknowledge mb ids retry nowMs).1.missing
      · exact .inr missed
      · exact .inl (held (named acking) missed)
  · simpa using attended

/-- D1's answer settles every id it does not hold live. -/
theorem Attended.ackLive (t : Nat) :
    Attended recipient id ⟨(ackLiveStep c.state t).1, c.log ++ (ackLiveStep c.state t).2⟩ := by
  have acks := attended.acks t
  have watched := attended.watched.acking t
  unfold ackLiveStep
  split
  · rename_i r ids here
    rw [here] at acks watched
    cases acks
    have settled (acking : (c.log.foldl (watch recipient id) Watch.start).acking t = true)
        (dark : id ∉ liveMessageIds c.state.hubs.db recipient ids) : Quiet recipient id c.state.hubs := by
      obtain ⟨dead, quiet | waits⟩ := watched acking
      · exact quiet
      · refine attended.settling.quiet dead (fun row found own live => dark ?_)
        exact mem_liveMessageIds.mpr ⟨waits, row, found, own, live⟩
    simp only
    split
    · rename_i none'
      refine attended.setAck .idle trivial _ ?_
      simp only [List.foldl_cons, List.foldl_nil]
      have idle := attended.watched.setAck .idle (fun acking => ⟨(watched acking).1, .inr trivial⟩)
      refine idle.answered (fun acking => settled acking ?_)
      rw [none']
      exact List.not_mem_nil
    · refine attended.setAck (.live recipient _) rfl [] (attended.watched.setAck _ (fun acking => ⟨(watched acking).1, ?_⟩))
      by_cases live : id ∈ liveMessageIds c.state.hubs.db recipient ids
      · exact .inr live
      · exact .inl (settled acking live)
  · simpa using attended

/-- The D1 part of an acknowledgment leaves no live row under an id it names. -/
theorem Attended.ackWrite (prefixes : List String) {t : Nat} (nowMs : Nat) (answered : Bool)
    (current : (c.state.acks t).Current c.state.hubs.db) :
    Attended recipient id ⟨(ackWriteStep prefixes c.state t nowMs answered).1,
      c.log ++ (ackWriteStep prefixes c.state t nowMs answered).2⟩ := by
  have acks := attended.acks t
  have watched := attended.watched.acking t
  unfold ackWriteStep
  split
  · rename_i r ids here
    rw [here] at acks watched current
    cases acks
    obtain ⟨settling, moves⟩ := attended.settling.acknowledgeMessages current prefixes nowMs
    have base : Attended recipient id ⟨c.state.setDb (acknowledgeMessages prefixes c.state.hubs.db recipient ids nowMs), c.log⟩ :=
      ⟨settling, attended.acks, attended.listings, attended.watched.move (moves id)⟩
    have settled (acking : (c.log.foldl (watch recipient id) Watch.start).acking t = true) :
        Quiet recipient id { c.state.hubs with db := acknowledgeMessages prefixes c.state.hubs.db recipient ids nowMs } := by
      obtain ⟨dead, quiet | waits⟩ := watched acking
      · exact quiet.move (moves id)
      · refine settling.quiet (dead.move (moves id)) (fun row found own => ?_)
        obtain ⟨before, -, same, -, kept⟩ := acknowledgeMessages_marks found
        exact kept (.inr ⟨same.symm.trans own, waits⟩)
    have idle := base.watched.setAck .idle (fun acking => ⟨(settled acking).dead, .inr trivial⟩)
    refine base.setAck .idle trivial _ ?_
    cases answered with
    | false => exact idle
    | true => exact idle.answered settled
  · simpa using attended

theorem Attended.listBegin (l : Nat) (messageBox : String) :
    Attended recipient id ⟨(listBeginStep c.state l recipient messageBox).1,
      c.log ++ (listBeginStep c.state l recipient messageBox).2⟩ := by
  unfold listBeginStep
  split
  · rename_i free
    refine attended.setListing (.mailboxRead recipient messageBox _) rfl _ ?_
    simp only [List.foldl_cons, List.foldl_nil]
    refine (attended.watched.listBegan free).setListing _ (fun begun => ?_)
    -- The listing was begun with the acknowledgment answered, so no live row is in the mailbox.
    have acked : (c.log.foldl (watch recipient id) Watch.start).acked = true := by
      simpa [watch, WorldEvent.storesId] using begun
    exact Dead.unlisted (attended.watched.acked acked).dead messageBox listLimit listInlineBytes
  · simpa using attended

theorem Attended.listBox (l : Nat) : Attended recipient id ⟨listBoxStep c.state l, c.log⟩ := by
  have of := attended.listings l
  have clear := attended.watched.begun l
  unfold listBoxStep
  split
  · rename_i r messageBox rows here
    rw [here] at of clear
    split
    · rename_i boxId _
      have moved := attended.setListing (.boxFound r boxId rows) of []
        (attended.watched.setListing _ (fun begun => (clear begun).2))
      simpa using moved
    · have moved := attended.setListing (.d1Read r [] rows) of []
        (attended.watched.setListing _ (fun begun => ⟨(clear begun).2, fun no => by cases no⟩))
      simpa using moved
  · exact attended

/-- An acknowledged id the listing still reads from D1 was handed over. -/
theorem Attended.listD1 (l : Nat) : Attended recipient id ⟨listD1Step c.state l, c.log⟩ := by
  have of := attended.listings l
  have clear := attended.watched.begun l
  unfold listD1Step
  split
  · rename_i r boxId rows here
    rw [here] at of clear
    cases of
    have moved := attended.setListing (.d1Read recipient (listRows c.state.hubs.db recipient boxId) rows) rfl []
      (attended.watched.setListing _ (fun begun => ⟨(clear begun).2, fun read => ?_⟩))
    · simpa using moved
    · obtain ⟨r, found, own, live⟩ := of_lists_listRows read
      refine ⟨(attended.watched.acked (clear begun).1).handed attended.settling found own live, ?_⟩
      intro foreign
      obtain ⟨r', found', other⟩ := foreign
      rw [found] at found'
      cases found'
      exact other own
  · exact attended

/-- A listing in time returns no acknowledged id. -/
theorem Attended.listFinish {l : Nat} (inTime : (c.state.listings l).InTime c.state.hubs) :
    Attended recipient id ⟨(listFinishStep c.state l).1, c.log ++ (listFinishStep c.state l).2⟩ := by
  have of := attended.listings l
  have clear := attended.watched.begun l
  unfold listFinishStep
  split
  · rename_i r d1 rows here
    rw [here] at of clear inTime
    cases of
    refine attended.setListing .idle trivial _ ?_
    simp only [List.foldl_cons, List.foldl_nil]
    refine (attended.watched.setListing .idle (fun _ => trivial)).listed (fun begun => ?_)
    obtain ⟨acked, unlisted, fromD1⟩ := clear begun
    cases listed : lists (mergeListing (c.state.hubs.mailboxes recipient) d1 rows) id with
    | false => rfl
    | true =>
      rcases of_lists_mergeListing listed with mailbox | ⟨read, absent⟩
      · rw [unlisted] at mailbox
        cases mailbox
      · obtain ⟨handed, own⟩ := fromD1 read
        have named : id ∈ d1.filterMap MessageDbRow.messageId := by
          obtain ⟨row, member, same⟩ := List.any_eq_true.mp read
          exact List.mem_filterMap.mpr ⟨row, member, by simpa using same⟩
        rcases (attended.watched.acked acked).covered with there | last | foreign | ⟨unhanded, -⟩
        · exact absurd absent there
        · exact absurd absent (inTime id named last)
        · exact absurd foreign own
        · exact absurd handed unhanded
  · simpa using attended

theorem Attended.step {prefixes : List String} {input : WorldInput} (inTime : InTime recipient c input) :
    Attended recipient id ((worldMachine prefixes).advance c input) := by
  obtain ⟨concerns, timely⟩ := inTime
  cases input with
  | hub input => exact attended.hubStep concerns
  | paid r messageBox messageId sender body beefKey nowMs =>
    cases concerns
    exact attended.paid messageBox messageId sender body beefKey nowMs
  | ackBegin t r ids retry nowMs =>
    cases concerns
    exact attended.ackBegin t ids retry nowMs
  | ackLive t => exact attended.ackLive t
  | ackWrite t nowMs answered => exact attended.ackWrite prefixes nowMs answered timely
  | listBegin l r messageBox =>
    cases concerns
    exact attended.listBegin l messageBox
  | listBox l =>
    simp only [Machine.advance, worldMachine, worldStep, List.append_nil]
    exact attended.listBox l
  | listD1 l =>
    simp only [Machine.advance, worldMachine, worldStep, List.append_nil]
    exact attended.listD1 l
  | listFinish l => exact attended.listFinish timely
  | ackFail t =>
    refine attended.setAck .idle trivial [] (attended.watched.setAck _ (fun acking => ?_))
    exact ⟨(attended.watched.acking t acking).1, .inr trivial⟩
  | listFail l => exact attended.setListing .idle trivial [] (attended.watched.setListing _ (fun _ => trivial))

end Steps

theorem attended_start {db : Database.Store} (marked : Marked db) (recipient id : String) :
    Attended recipient id ⟨World.start db, []⟩ := by
  refine ⟨⟨?_, ?_, fun _ => trivial, ?_, marked⟩, fun _ => trivial, fun _ => trivial, ?_⟩
  · simp [World.start, Hubs.start]
  · simp [World.start, Hubs.start]
  · simp [World.start, Hubs.start, Enqueued]
  · exact ⟨fun t acking => (by cases acking), fun acked => (by cases acked), fun l begun => (by cases begun), rfl⟩

/-- In every run of one hub whose steps meet the condition, no listing begun after the answer to an
acknowledgment returns the message it acknowledged. -/
theorem never_relisted (prefixes : List String) (db : Database.Store) (marked : Marked db) (recipient : String)
    (inputs : List WorldInput)
    (inTime : (worldMachine prefixes).Guarded (InTime recipient) ⟨World.start db, []⟩ inputs) (id : String) :
    ¬ Relisted recipient id ((worldMachine prefixes).run ⟨World.start db, []⟩ inputs).log := by
  intro relisted
  have attended : Attended recipient id ((worldMachine prefixes).run ⟨World.start db, []⟩ inputs) :=
    (worldMachine prefixes).run_invariant (fun _ _ attended ok => attended.step ok) (attended_start marked recipient id)
      inTime
  have found := relisted_watched relisted
  rw [attended.watched.relisted] at found
  cases found

/-- A message archived, acknowledged and listed while the archive takes the acknowledgment, the
listing's last read made before the marker goes. -/
def timelyListing : List WorldInput :=
  [.hub (.insert "alice" greeting false 0), .hub (.deliver 0 [firstMessage "alice" greeting]), .hub (.plan 0),
    .hub (.write 0 1 true), .hub (.tell 0 true), .ackBegin 0 "alice" ["m"] false 2, .listBegin 0 "alice" "inbox",
    .listBox 0, .listD1 0, .hub (.deliver 1 [ackMessage "alice" greeting]), .hub (.plan 1), .hub (.write 1 3 true),
    .listFinish 0, .hub (.tell 1 true)]

theorem never_relisted_timelyListing :
    WorldEvent.listed 0 "alice" [] ∈
        ((worldMachine []).run ⟨World.start Database.Store.empty, []⟩ timelyListing).log ∧
      ¬ Relisted "alice" "m" ((worldMachine []).run ⟨World.start Database.Store.empty, []⟩ timelyListing).log :=
  ⟨by decide +kernel, never_relisted [] Database.Store.empty (fun _ _ found => by cases found) "alice" timelyListing
    (by decide +kernel) "m"⟩

/-- The same run with the marker gone before the listing's last read: the row read from D1 while it
was still live there is returned. -/
def lateListing : List WorldInput :=
  [.hub (.insert "alice" greeting false 0), .hub (.deliver 0 [firstMessage "alice" greeting]), .hub (.plan 0),
    .hub (.write 0 1 true), .hub (.tell 0 true), .ackBegin 0 "alice" ["m"] false 2, .listBegin 0 "alice" "inbox",
    .listBox 0, .listD1 0, .hub (.deliver 1 [ackMessage "alice" greeting]), .hub (.plan 1), .hub (.write 1 3 true),
    .hub (.tell 1 true), .listFinish 0]

theorem lateListing_relists :
    ¬ ∀ (prefixes : List String) (db : Database.Store) (recipient : String) (inputs : List WorldInput), Marked db →
      (∀ input ∈ inputs, input.concerns recipient) → ∀ id,
        ¬ Relisted recipient id ((worldMachine prefixes).run ⟨World.start db, []⟩ inputs).log := by
  intro always
  apply always [] Database.Store.empty "alice" lateListing (fun _ _ found => by cases found) (by decide +kernel) "m"
  refine ⟨[.hub (.stored "alice" 1 greeting)], [.acknowledging "alice" ["m"], .hub (.bodyDropped "alice" 1)], [],
    [.hub (.deleted "alice" 1 false)], [], 0, ["m"], 0, [⟨some "m", some "hello", some "carol", some (sqliteTime 0),
      some (sqliteTime 1)⟩], by decide +kernel, by decide, by decide, by decide, ?_, by decide⟩
  simp

end MessageRelay.Relay
