import MessageRelay.Relay.Attended

/-! What a listing's reads return under an id, and the steps of the hub, of its paid sends and of the
archive's passes beside the monitor. -/

namespace MessageRelay.Relay
open MessageRelay.Library MessageRelay.Mailbox MessageRelay.Archive MessageRelay.Database

/-! What the listings read. -/

theorem lists_eq_false {rows : List MessageDbRow} {id : String} :
    lists rows id = false ↔ ∀ row ∈ rows, row.messageId ≠ some id := by
  simp [lists]

/-- A dead id is not in the mailbox's part of a listing. -/
theorem Dead.unlisted {recipient id : String} {w : Hubs} (dead : Dead recipient id w) (messageBox : String)
    (limit inlineBytes : Nat) :
    lists (Mailbox.list (w.mailboxes recipient) messageBox limit inlineBytes) id = false := by
  rw [lists_eq_false]
  intro row member named
  obtain ⟨r, inside, rfl⟩ := List.mem_map.mp ((list_sublist ..).mem member)
  obtain ⟨held, -, live⟩ : r ∈ (w.mailboxes recipient).rows.rows ∧ r.messageBox = messageBox ∧ r.state = .live := by
    simpa [Mailbox.liveRows] using inside
  have same : r.messageId = id := Option.some.inj named
  exact dead r (same ▸ ((w.mailboxes recipient).mem_rows_iff r).mp held) live

/-- An id in D1's part of a listing is a live row of the recipient's. -/
theorem of_lists_listRows {db : Database.Store} {recipient id : String} {boxId : Nat}
    (listed : lists (listRows db recipient boxId) id = true) :
    ∃ r, db.row? id = some r ∧ r.recipient = recipient ∧ r.acknowledgedAt = none := by
  obtain ⟨row, member, named⟩ := List.any_eq_true.mp listed
  obtain ⟨r, inside, rfl⟩ := List.mem_map.mp ((listRows_sublist ..).mem member)
  obtain ⟨there, own, -, live⟩ : r ∈ db.messages.rows ∧ r.recipient = recipient ∧ r.messageBoxId = boxId ∧
      r.acknowledgedAt = none := by simpa [Database.liveRows] using inside
  have same : r.messageId = id := by simpa [MessageRow.listed] using named
  exact ⟨r, (db.messages.find?_eq_some id r).mpr ⟨there, same⟩, own, live⟩

/-- What the merge returns it has from the mailbox's part, or from D1's and the mailbox does not
hold it. -/
theorem of_lists_mergeListing {mb : Mailbox.Store} {d1 rows : List MessageDbRow} {id : String}
    (listed : lists (mergeListing mb d1 rows) id = true) :
    lists rows id = true ∨ lists d1 id = true ∧ mb.find? id = none := by
  obtain ⟨row, member, named⟩ := List.any_eq_true.mp listed
  rw [mergeListing_eq] at member
  rcases of_mem_mergeLoop member with none' | given
  · cases none'
  · rcases List.mem_append.mp given with d1Row | mailboxRow
    · obtain ⟨inside, hidden⟩ := List.mem_filter.mp d1Row
      have same : row.messageId = some id := by simpa using named
      refine .inr ⟨List.any_eq_true.mpr ⟨row, inside, named⟩, ?_⟩
      simpa [unheld, same] using hidden
    · exact .inl (List.any_eq_true.mpr ⟨row, mailboxRow, named⟩)

section Steps
variable {recipient id : String} {c : WorldConfig} (attended : Attended recipient id c)
include attended

/-! The passes of the archive. -/

theorem Attended.deliver (p : Nat) (batch : List ArchiveMessage) :
    Attended recipient id ⟨{ c.state with hubs := deliverStep c.state.hubs p batch }, c.log⟩ := by
  unfold deliverStep
  split
  · split
    · rename_i handed
      refine attended.setPass p _ (fun m member => ?_)
      have inside : m ∈ c.state.hubs.queue := by
        simpa using List.all_eq_true.mp handed m (List.mem_of_mem_filter member)
      have ours := attended.settling.queue m inside
      exact ⟨ours, m, inside, ours.1, rfl⟩
    · exact attended
  · exact attended

theorem Attended.readBodies (p : Nat) (other : String) (answered : Bool) :
    Attended recipient id ⟨{ c.state with hubs := readBodiesStep c.state.hubs p other answered }, c.log⟩ := by
  unfold readBodiesStep
  split
  · rename_i batch here
    have ok := attended.settling.passes p
    rw [here] at ok
    split
    · refine attended.setPass p _ (fun m member => ?_)
      obtain ⟨before, inside, filled⟩ := List.mem_filterMap.mp member
      split at filled
      · obtain ⟨body, -, rfl⟩ := Option.map_eq_some_iff.mp filled
        exact ok before inside
      · obtain rfl := Option.some.inj filled
        exact ok _ inside
    · exact attended.setPass p _ (fun m member => ok m (List.mem_of_mem_filter member))
  · exact attended

theorem Attended.plan (p : Nat) :
    Attended recipient id ⟨{ c.state with hubs := planStep c.state.hubs p }, c.log⟩ := by
  unfold planStep
  split
  · rename_i batch here
    have ok := attended.settling.passes p
    rw [here] at ok
    split
    · exact attended
    · exact attended.setPass p _
        ⟨ok, plan_promised attended.settling.marked (fun m member => (ok m member).1)⟩
  · exact attended

theorem Attended.write (p nowMs : Nat) (answered : Bool) :
    Attended recipient id ⟨{ c.state with hubs := writeStep c.state.hubs p nowMs answered }, c.log⟩ := by
  unfold writeStep
  split
  · rename_i batch verdicts here
    obtain ⟨settling, moves, holds⟩ := attended.settling.write here nowMs
    have written := attended.hubs [] settling (moves id) (by simp)
    rw [List.append_nil] at written
    apply written.setPass p _
    split
    · exact holds
    · trivial
  · exact attended

theorem Attended.tell (p : Nat) (delivered : Bool) :
    Attended recipient id ⟨{ c.state with hubs := (tellStep c.state.hubs p delivered).1 },
      c.log ++ (tellStep c.state.hubs p delivered).2.map .hub⟩ := by
  unfold tellStep
  split
  · rename_i other done rest here
    have ok := attended.settling.passes p
    rw [here] at ok
    have restOk : SettlingPass recipient c.state.hubs (.telling rest) :=
      fun entry member => ok entry (List.mem_cons_of_mem _ member)
    split
    · cases done with
      | nil =>
        have same : c.state.hubs.setMailbox other (c.state.hubs.mailboxes other) = c.state.hubs := by
          simp only [Hubs.setMailbox, Function.update_eq_self]
        simpa [takeDones, same] using attended.setPass p _ restOk
      | cons d later =>
        have addressed : other = recipient :=
          (ok (other, d :: later) (List.mem_cons_self ..) d (List.mem_cons_self ..)).1
        subst addressed
        have holds : ∀ d' ∈ d :: later, DoneHolds c.state.hubs.db other d' :=
          fun d' inside => (ok (other, d :: later) (List.mem_cons_self ..) d' inside).2
        obtain ⟨settling, moves⟩ := attended.settling.takeDones holds
        have told := attended.hubs _ settling (moves id)
          (takeDones_silent other (d :: later) (c.state.hubs.mailboxes other))
        exact told.setPass p _ (restOk.move (fun id => (moves id).handed.mpr) (fun id => (moves id).last)
          (fun id => (moves id).foreign))
    · simpa using attended.setPass p _ restOk
  · simpa using attended.setPass p .idle trivial
  · simpa using attended

theorem Attended.hubStep {input : HubInput} (concerns : (WorldInput.hub input).concerns recipient) :
    Attended recipient id ⟨(hubWorldStep c.state input).1, c.log ++ (hubWorldStep c.state input).2⟩ := by
  cases input with
  | insert r row retry nowMs =>
    cases concerns
    exact attended.insert
  | acknowledge r ids retry nowMs =>
    cases concerns
    exact attended.acknowledge
  | replay r nowMs =>
    cases concerns
    exact attended.replay
  | tell p delivered => exact attended.tell p delivered
  | deliver p batch =>
    simp only [hubWorldStep, acknowledgingOf, Relay.hubStep, List.map_nil, List.append_nil]
    exact attended.deliver p batch
  | readBodies p other answered =>
    simp only [hubWorldStep, acknowledgingOf, Relay.hubStep, List.map_nil, List.append_nil]
    exact attended.readBodies p other answered
  | plan p =>
    simp only [hubWorldStep, acknowledgingOf, Relay.hubStep, List.map_nil, List.append_nil]
    exact attended.plan p
  | write p nowMs answered =>
    simp only [hubWorldStep, acknowledgingOf, Relay.hubStep, List.map_nil, List.append_nil]
    exact attended.write p nowMs answered
  | abandon p =>
    simp only [hubWorldStep, acknowledgingOf, Relay.hubStep, List.map_nil, List.append_nil]
    exact attended.setPass p .idle trivial

theorem Attended.paid (messageBox messageId sender body : String) (beefKey : Option String) (nowMs : Nat) :
    Attended recipient id ⟨(paidStep c.state recipient messageBox messageId sender body beefKey nowMs).1,
      c.log ++ (paidStep c.state recipient messageBox messageId sender body beefKey nowMs).2⟩ := by
  obtain ⟨settling, moves⟩ := attended.settling.paid messageBox messageId sender body beefKey nowMs
  unfold paidStep
  cases done : insertMessage c.state.hubs.db messageId messageBox sender recipient body beefKey nowMs with
  | mk stored db =>
    simp only [done] at settling moves
    cases stored with
    | false =>
      simp only [Bool.false_eq_true, if_false]
      exact attended.hubs [] settling (moves id (fun no => by cases no)) (by simp)
    | true =>
      simp only [if_true]
      refine attended.store settling (fun other => moves id (fun _ => other)) (by simp [WorldEvent.storesId])
        (fun other s => ?_)
      simp [watch, WorldEvent.storesId, Ne.symm other]

end Steps

end MessageRelay.Relay
