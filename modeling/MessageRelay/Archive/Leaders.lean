import MessageRelay.Archive.Batch

/-! The leading message of each id in a batch, and that the plan's scan finds it. -/

namespace MessageRelay.Archive
open MessageRelay.Library MessageRelay.Mailbox MessageRelay.Database

/-- The message at `i` has the highest version under its id, and is the earliest of equals. -/
def Leads (batch : List ArchiveMessage) (i : Nat) (m : ArchiveMessage) : Prop :=
  batch[i]? = some m ∧ ∀ j other, batch[j]? = some other → other.messageId = m.messageId →
    other.version < m.version ∨ other.version = m.version ∧ i ≤ j

instance (batch : List ArchiveMessage) (i : Nat) (m : ArchiveMessage) : Decidable (Leads batch i m) :=
  decidable_of_iff (batch[i]? = some m ∧ ∀ entry ∈ batch.zipIdx, entry.1.messageId = m.messageId →
    entry.1.version < m.version ∨ entry.1.version = m.version ∧ i ≤ entry.2) (by
      refine and_congr_right' ⟨fun all j other found => ?_, fun all entry member => ?_⟩
      · exact all (other, j) (List.mem_zipIdx_iff_getElem?.mpr found)
      · exact all entry.2 entry.1 (List.mem_zipIdx_iff_getElem?.mp member))

theorem Leads.unique {batch : List ArchiveMessage} {i j : Nat} {m other : ArchiveMessage}
    (first : Leads batch i m) (second : Leads batch j other) (same : m.messageId = other.messageId) :
    i = j ∧ m = other := by
  have one := first.2 j other second.1 same.symm
  have two := second.2 i m first.1 same
  have index : i = j := by omega
  subst index
  exact ⟨rfl, Option.some.inj (first.1.symm.trans second.1)⟩

private theorem getElem?_snoc {front : List ArchiveMessage} {m other : ArchiveMessage} {j : Nat}
    (found : (front ++ [m])[j]? = some other) :
    front[j]? = some other ∨ j = front.length ∧ other = m := by
  rw [List.getElem?_append] at found
  split at found
  · exact .inl found
  · rename_i outside
    obtain ⟨position, value⟩ := List.getElem?_eq_some_iff.mp found
    simp only [List.length_singleton, Nat.lt_one_iff] at position
    exact .inr ⟨by omega, by simpa [position] using value.symm⟩

/-- A leader stays one when the next message has another id or no higher version. -/
theorem Leads.snoc {front : List ArchiveMessage} {b : Nat} {lead : ArchiveMessage} (leads : Leads front b lead)
    {m : ArchiveMessage} (below : m.messageId = lead.messageId → m.version ≤ lead.version) :
    Leads (front ++ [m]) b lead := by
  have inside := (List.getElem?_eq_some_iff.mp leads.1).1
  refine ⟨by rw [List.getElem?_append_left inside]; exact leads.1, fun j other found named => ?_⟩
  rcases getElem?_snoc found with earlier | ⟨rfl, rfl⟩
  · exact leads.2 j other earlier named
  · have bound := below named
    omega

/-- The next message leads when every earlier one under its id has a lower version. -/
theorem leads_last {front : List ArchiveMessage} {m : ArchiveMessage}
    (above : ∀ (j : Nat) (other : ArchiveMessage), front[j]? = some other →
      other.messageId = m.messageId → other.version < m.version) :
    Leads (front ++ [m]) front.length m := by
  refine ⟨by simp, fun j other found named => ?_⟩
  rcases getElem?_snoc found with earlier | ⟨rfl, rfl⟩
  · exact .inl (above j other earlier named)
  · exact .inr ⟨rfl, le_rfl⟩

/-- What the scan of a prefix has noted under an id. -/
def Noted (front : List ArchiveMessage) (id : String) : Option Nat → Prop
  | none => ∀ m ∈ front, m.messageId ≠ id
  | some b => ∃ m, m.messageId = id ∧ Leads front b m

theorem Noted.other {front : List ArchiveMessage} {id : String} {entry : Option Nat}
    (noted : Noted front id entry) {m : ArchiveMessage} (different : m.messageId ≠ id) :
    Noted (front ++ [m]) id entry := by
  cases entry with
  | none =>
    intro other member
    rcases List.mem_append.mp member with earlier | last
    · exact noted other earlier
    · exact List.mem_singleton.mp last ▸ different
  | some b =>
    obtain ⟨lead, named, leads⟩ := noted
    exact ⟨lead, named, leads.snoc (fun same => absurd (same.trans named) different)⟩

theorem noteBest_noted {front : List ArchiveMessage} (rest : List ArchiveMessage) (m : ArchiveMessage)
    {best : String → Option Nat} (noted : ∀ id, Noted front id (best id)) (id : String) :
    Noted (front ++ [m]) id (noteBest (front ++ m :: rest) best (m, front.length) id) := by
  have own := noted m.messageId
  unfold noteBest
  cases known : best m.messageId with
  | none =>
    rw [known] at own
    by_cases same : id = m.messageId
    · subst same
      simp only [Function.update_self]
      exact ⟨m, rfl, leads_last (fun j other found named =>
        absurd named (own other (List.mem_of_getElem? found)))⟩
    · simp only [Function.update_of_ne same]
      exact (noted id).other (Ne.symm same)
  | some b =>
    rw [known] at own
    obtain ⟨lead, named, leads⟩ := own
    have inside := (List.getElem?_eq_some_iff.mp leads.1).1
    have read : (front ++ m :: rest)[b]? = some lead := by
      rw [List.getElem?_append_left inside]
      exact leads.1
    simp only [read, Option.elim_some]
    by_cases newer : lead.version < m.version
    · rw [if_pos newer]
      by_cases same : id = m.messageId
      · subst same
        rw [Function.update_self]
        refine ⟨m, rfl, leads_last (fun j other found shared => ?_)⟩
        have rank := leads.2 j other found (shared.trans named.symm)
        omega
      · rw [Function.update_of_ne same]
        exact (noted id).other (Ne.symm same)
    · rw [if_neg newer]
      by_cases same : id = m.messageId
      · subst same
        rw [known]
        exact ⟨lead, named, leads.snoc (fun _ => Nat.le_of_not_lt newer)⟩
      · exact (noted id).other (Ne.symm same)

theorem best_noted (batch : List ArchiveMessage) (id : String) : Noted batch id (best batch id) := by
  have scan : ∀ front rest, front ++ rest = batch → ∀ id,
      Noted front id (front.zipIdx.foldl (noteBest batch) (fun _ => none) id) := by
    intro front
    induction front using List.reverseRecOn with
    | nil => simp [Noted]
    | append_singleton front m ih =>
      intro rest whole id
      rw [List.append_assoc, List.singleton_append] at whole
      have earlier := ih (m :: rest) whole
      rw [List.zipIdx_append, List.foldl_append]
      subst whole
      simpa using noteBest_noted rest m earlier id
  exact scan batch [] (List.append_nil batch) id

/-- The batch's leader under a message's id. -/
theorem best_leads {batch : List ArchiveMessage} {m : ArchiveMessage} (member : m ∈ batch) :
    ∃ b lead, best batch m.messageId = some b ∧ lead.messageId = m.messageId ∧ Leads batch b lead := by
  have noted := best_noted batch m.messageId
  cases found : best batch m.messageId with
  | none =>
    rw [found] at noted
    exact absurd rfl (noted m member)
  | some b =>
    rw [found] at noted
    obtain ⟨lead, named, leads⟩ := noted
    exact ⟨b, lead, rfl, named, leads⟩

end MessageRelay.Archive
