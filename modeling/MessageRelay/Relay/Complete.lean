import MessageRelay.Library.Cut
import MessageRelay.Mailbox.Quota
import MessageRelay.Relay.Merged

/-! Whether a merged listing is the longest prefix of what it should list. Each side is cut at the
limit and the byte budget before the D1 rows the mailbox holds are dropped, so a D1 row behind enough
held ones is left out even where there is room for it. -/

namespace MessageRelay.Relay
open MessageRelay.Library MessageRelay.Mailbox MessageRelay.Archive MessageRelay.Database

/-- The drain's listing: the hub's remaining rows lead the D1 rows stored since. -/
def drainList (w : Hubs) (recipient messageBox : String) : List MessageDbRow :=
  let d1 := listMessages w.db recipient messageBox
  let mb := w.mailboxes recipient
  merge d1 (Mailbox.list mb messageBox listLimit listInlineBytes) (heldIds mb (d1.filterMap MessageDbRow.messageId))
    .mailboxFirst listLimit listInlineBytes

abbrev FitsListing : List MessageDbRow → Prop := Fits bodyLength listLimit listInlineBytes

/-- The answer is the longest prefix of the rows that a listing holds, and lists no id twice. -/
def CompleteListing (rows answer : List MessageDbRow) : Prop :=
  LongestPrefix bodyLength listLimit listInlineBytes rows answer ∧ (answer.filterMap MessageDbRow.messageId).Nodup

section Listing
variable (w : Hubs) (recipient messageBox : String)

/-- The D1 rows of D1's own listing that the mailbox does not hold. -/
def insideCut : List MessageDbRow :=
  (listMessages w.db recipient messageBox).filter (unheld (w.mailboxes recipient))

def behindCut : List MessageDbRow :=
  ((d1Live w recipient messageBox).drop (listMessages w.db recipient messageBox).length).filter
    (unheld (w.mailboxes recipient))

/-- Every D1 row the mailbox does not hold is inside D1's own cut, or those inside it leave no room for
the next one and none for the mailbox's first row. -/
def D1Reached : Prop :=
  ∀ x ∈ (behindCut w recipient messageBox).head?, ¬ FitsListing (insideCut w recipient messageBox ++ [x]) ∧
    ∀ y ∈ (mailboxLive w recipient messageBox).head?, ¬ FitsListing (insideCut w recipient messageBox ++ [y])

/-- The same where the mailbox leads: its rows fit and every D1 row the mailbox does not hold is inside D1's
own cut or has no room, or its rows do not fit and leave no room for the first of those. -/
def DrainReached : Prop :=
  if FitsListing (mailboxLive w recipient messageBox) then
    ∀ x ∈ (behindCut w recipient messageBox).head?,
      ¬ FitsListing (mailboxLive w recipient messageBox ++ insideCut w recipient messageBox ++ [x])
  else
    ∀ x ∈ (insideCut w recipient messageBox).head?,
      ¬ FitsListing (Mailbox.list (w.mailboxes recipient) messageBox listLimit listInlineBytes ++ [x])

end Listing

theorem withinBudget_take {α : Type} (size : α → Nat) (limit budget upto : Nat) (inside : upto ≤ budget) (rows : List α) :
    withinBudget size budget upto (rows.take limit) = cut size limit (budget - upto) rows := by
  have spent (upto : Nat) (past : budget < upto) (rows : List α) : withinBudget size budget upto rows = [] := by
    induction rows generalizing upto with
    | nil => rfl
    | cons r rest ih =>
      rw [withinBudget, if_neg (by omega)]
      exact ih _ (by omega)
  induction rows generalizing limit upto with
  | nil => simp [withinBudget, cut]
  | cons r rest ih =>
    cases limit with
    | zero => simp [withinBudget, cut]
    | succ limit =>
      rw [List.take_succ_cons, withinBudget, cut]
      by_cases fits : upto + size r ≤ budget
      · rw [if_pos fits, if_pos (by omega), ih limit _ fits, Nat.sub_sub]
      · rw [if_neg fits, if_neg (by omega)]
        exact spent _ (by omega) _

theorem mergeLoop_cut {limit inlineBytes : Nat} {rows out : List MessageDbRow} {ids : List String} {upto : Nat}
    (once : (rows.filterMap MessageDbRow.messageId).Nodup)
    (new : ∀ id ∈ rows.filterMap MessageDbRow.messageId, id ∉ ids) (few : out.length ≤ limit)
    (inside : upto ≤ inlineBytes) :
    mergeLoop limit inlineBytes rows ids upto out =
      out ++ cut bodyLength (limit - out.length) (inlineBytes - upto) rows := by
  induction rows generalizing ids upto out with
  | nil => simp [mergeLoop, cut]
  | cons r rest ih =>
    unfold mergeLoop
    by_cases full : limit ≤ out.length
    · have none : limit - out.length = 0 := by omega
      rw [if_pos full, none, cut, List.append_nil]
    · obtain ⟨left, more⟩ : ∃ left, limit - out.length = left + 1 := ⟨limit - out.length - 1, by omega⟩
      have less : limit - (out ++ [r]).length = left := by
        simp only [List.length_append, List.length_singleton]
        omega
      have shorter : (out ++ [r]).length ≤ limit := by
        simp only [List.length_append, List.length_singleton]
        omega
      -- The next row is taken where it fits, with or without an id of its own.
      have next (ids : List String) (once : (rest.filterMap MessageDbRow.messageId).Nodup)
          (new : ∀ id ∈ rest.filterMap MessageDbRow.messageId, id ∉ ids) :
          (if inlineBytes < upto + bodyLength r then out
            else mergeLoop limit inlineBytes rest ids (upto + bodyLength r) (out ++ [r])) =
          out ++ cut bodyLength (left + 1) (inlineBytes - upto) (r :: rest) := by
        by_cases big : inlineBytes < upto + bodyLength r
        · rw [if_pos big, cut, if_neg (by omega), List.append_nil]
        · rw [if_neg big, cut, if_pos (by omega), ih once new shorter (by omega), less, Nat.sub_sub]
          simp
      rw [if_neg full, more]
      cases named : r.messageId with
      | none =>
        simp only [List.filterMap_cons, named] at once new
        exact next ids once new
      | some id =>
        simp only [List.filterMap_cons, named, List.nodup_cons, List.mem_cons, forall_eq_or_imp] at once new
        simp only [if_neg new.1]
        refine next (id :: ids) once.2 (fun other later => ?_)
        simp only [List.mem_cons, not_or]
        exact ⟨fun same => once.1 (same ▸ later), new.2 other later⟩

theorem listMessages_cut (w : Hubs) (recipient messageBox : String) :
    listMessages w.db recipient messageBox =
      cut bodyLength listLimit listInlineBytes (d1Live w recipient messageBox) := by
  unfold listMessages d1Live
  cases findMessageBox w.db recipient messageBox with
  | none => simp [cut]
  | some boxId =>
    simp only [listRows]
    rw [withinBudget_take _ _ _ 0 (Nat.zero_le _), cut_map]
    rfl

theorem list_cut {w : Hubs} {recipient : String} (measured : MeasuredRows (w.mailboxes recipient))
    (messageBox : String) :
    Mailbox.list (w.mailboxes recipient) messageBox listLimit listInlineBytes =
      cut bodyLength listLimit listInlineBytes (mailboxLive w recipient messageBox) := by
  rw [Mailbox.list, withinBudget_take _ _ _ 0 (Nat.zero_le _), mailboxLive, cut_map]
  congr 1
  exact cut_congr (fun r member => (bodyLength_listed measured member).symm)

theorem measuredRows_after (bounds : Bounds) (inputs : List MailboxInput) :
    MeasuredRows (after bounds Store.empty inputs) := by
  intro r member live
  have found := (Store.mem_rows_iff _ r).mp member
  obtain ⟨body, has, size⟩ := Option.map_eq_some_iff.mp ((exact_after bounds inputs).weighed _ r found live)
  refine ⟨by simp [has], fun other same => ?_⟩
  rw [has] at same
  cases same
  exact size.symm

theorem drained_nodup (w : Hubs) (recipient messageBox : String) :
    ((mailboxLive w recipient messageBox ++ visible w recipient messageBox).filterMap
      MessageDbRow.messageId).Nodup := by
  have both := merged_nodup w recipient messageBox
  rw [List.filterMap_append] at both ⊢
  exact List.nodup_append_comm.mp both

section Listing
variable {w : Hubs} {recipient : String} (messageBox : String)

theorem visible_split : visible w recipient messageBox =
    insideCut w recipient messageBox ++ behindCut w recipient messageBox := by
  obtain ⟨rest, whole⟩ : listMessages w.db recipient messageBox <+: d1Live w recipient messageBox :=
    listMessages_cut w recipient messageBox ▸ cut_front _
  simp only [visible, insideCut, behindCut, ← whole, List.drop_left, List.filter_append]

/-- A D1 row the mailbox does not hold is no row of the mailbox's. -/
theorem visible_ne_mailboxLive {x y : MessageDbRow} (shown : x ∈ visible w recipient messageBox)
    (own : y ∈ mailboxLive w recipient messageBox) : x ≠ y := by
  intro same
  subst same
  obtain ⟨r, member, rfl⟩ := List.mem_map.mp own
  have held := ((w.mailboxes recipient).mem_rows_iff r).mp (List.mem_of_mem_filter member)
  have hidden := (List.mem_filter.mp shown).2
  simp [unheld, Row.listed, held] at hidden

section Measured
variable (measured : MeasuredRows (w.mailboxes recipient))
include measured

theorem handleList_cut : handleList w recipient messageBox = cut bodyLength listLimit listInlineBytes
    (insideCut w recipient messageBox ++ mailboxLive w recipient messageBox) := by
  have part : (insideCut w recipient messageBox ++
      Mailbox.list (w.mailboxes recipient) messageBox listLimit listInlineBytes).Sublist
        (visible w recipient messageBox ++ mailboxLive w recipient messageBox) :=
    ((listMessages_sublist w recipient messageBox).filter _).append (list_sublist ..)
  have once := (part.filterMap MessageDbRow.messageId).nodup (merged_nodup w recipient messageBox)
  calc handleList w recipient messageBox
      = cut bodyLength listLimit listInlineBytes (insideCut w recipient messageBox ++
          Mailbox.list (w.mailboxes recipient) messageBox listLimit listInlineBytes) := by
        rw [handleList, mergeListing_eq]
        exact mergeLoop_cut once (by simp) (Nat.zero_le _) (Nat.zero_le _)
    _ = _ := by rw [list_cut measured, cut_append_cut]

theorem drainList_cut : drainList w recipient messageBox = cut bodyLength listLimit listInlineBytes
    (cut bodyLength listLimit listInlineBytes (mailboxLive w recipient messageBox) ++
      insideCut w recipient messageBox) := by
  have part : (Mailbox.list (w.mailboxes recipient) messageBox listLimit listInlineBytes ++
      insideCut w recipient messageBox).Sublist
        (mailboxLive w recipient messageBox ++ visible w recipient messageBox) :=
    (list_sublist ..).append ((listMessages_sublist w recipient messageBox).filter _)
  have once := (part.filterMap MessageDbRow.messageId).nodup (drained_nodup w recipient messageBox)
  rw [← list_cut measured]
  simp only [drainList, merge, filter_heldIds]
  exact mergeLoop_cut once (by simp) (Nat.zero_le _) (Nat.zero_le _)

/-- The merged listing is complete exactly where the D1 rows it should list are reached. -/
theorem handleList_complete :
    CompleteListing (visible w recipient messageBox ++ mailboxLive w recipient messageBox)
      (handleList w recipient messageBox) ↔ D1Reached w recipient messageBox := by
  have once : ((handleList w recipient messageBox).filterMap MessageDbRow.messageId).Nodup := by
    rw [handleList_cut messageBox measured]
    refine ((cut_front _).sublist.trans ?_ |>.filterMap _).nodup (merged_nodup w recipient messageBox)
    exact ((listMessages_sublist w recipient messageBox).filter _).append (List.Sublist.refl _)
  rw [CompleteListing, and_iff_left once, longestPrefix_iff, handleList_cut messageBox measured, visible_split,
    List.append_assoc, D1Reached]
  have shown (x : MessageDbRow) (inside : x ∈ behindCut w recipient messageBox) :
      x ∈ visible w recipient messageBox := by
    rw [visible_split]
    exact List.mem_append_right _ inside
  cases behind : behindCut w recipient messageBox with
  | nil => simp
  | cons x rest =>
    rw [cut_agree_iff]
    · simp only [List.cons_append, List.head?_cons, Option.mem_some_iff, forall_eq']
      exact and_comm
    · intro y first z second
      simp only [List.cons_append, List.head?_cons, Option.mem_some_iff] at second
      subst second
      apply Ne.symm
      apply visible_ne_mailboxLive messageBox (shown x (by rw [behind]; exact List.mem_cons_self ..))
      exact List.mem_of_mem_head? first

theorem drainList_complete :
    CompleteListing (mailboxLive w recipient messageBox ++ visible w recipient messageBox)
      (drainList w recipient messageBox) ↔ DrainReached w recipient messageBox := by
  have once : ((drainList w recipient messageBox).filterMap MessageDbRow.messageId).Nodup := by
    rw [drainList_cut messageBox measured]
    refine ((cut_front _).sublist.trans ?_ |>.filterMap _).nodup (drained_nodup w recipient messageBox)
    exact (cut_front _).sublist.append ((listMessages_sublist w recipient messageBox).filter _)
  rw [CompleteListing, and_iff_left once, longestPrefix_iff, drainList_cut messageBox measured, DrainReached]
  by_cases fits : FitsListing (mailboxLive w recipient messageBox)
  · rw [if_pos fits, cut_eq_self fits, visible_split, ← List.append_assoc]
    exact cut_append_same_iff _ _
  · rw [if_neg fits, list_cut measured]
    obtain ⟨m, rest, whole, tooMuch⟩ := cut_next fits
    have spec : mailboxLive w recipient messageBox ++ visible w recipient messageBox =
        cut bodyLength listLimit listInlineBytes (mailboxLive w recipient messageBox) ++
          m :: (rest ++ visible w recipient messageBox) := by
      conv_lhs => rw [whole]
      simp
    rw [spec, cut_agree_iff]
    · simp only [List.head?_cons, Option.mem_some_iff, forall_eq', and_iff_left_iff_imp]
      exact fun _ => tooMuch
    · intro x first y second
      simp only [List.head?_cons, Option.mem_some_iff] at second
      subst second
      refine visible_ne_mailboxLive (w := w) messageBox ?_ (by rw [whole]; simp)
      rw [visible_split]
      exact List.mem_append_left _ (List.mem_of_mem_head? first)

end Measured

end Listing

/-- Under every mailbox its hub can reach and over any D1, each listing is complete exactly where the rows it
should list are reached. -/
theorem listing_complete_iff (w : Hubs) (recipient messageBox : String) (bounds : Bounds)
    (inputs : List MailboxInput) (reached : w.mailboxes recipient = after bounds Store.empty inputs) :
    (CompleteListing (visible w recipient messageBox ++ mailboxLive w recipient messageBox)
        (handleList w recipient messageBox) ↔ D1Reached w recipient messageBox) ∧
      (CompleteListing (mailboxLive w recipient messageBox ++ visible w recipient messageBox)
        (drainList w recipient messageBox) ↔ DrainReached w recipient messageBox) := by
  have measured : MeasuredRows (w.mailboxes recipient) := reached ▸ measuredRows_after bounds inputs
  exact ⟨handleList_complete messageBox measured, drainList_complete messageBox measured⟩

def quietHub : Hubs :=
  { Hubs.start (insertMessage Database.Store.empty "paid" "inbox" "dave" "alice" "hello" none 3000).2 with
    mailboxes := fun _ => after Bounds.ruled Store.empty [.insert ⟨"m", "inbox", "carol", "x"⟩ false 1000] }

theorem listing_complete_quietHub :
    CompleteListing (visible quietHub "alice" "inbox" ++ mailboxLive quietHub "alice" "inbox")
        (handleList quietHub "alice" "inbox") ∧
      CompleteListing (mailboxLive quietHub "alice" "inbox" ++ visible quietHub "alice" "inbox")
        (drainList quietHub "alice" "inbox") ∧ (handleList quietHub "alice" "inbox").length = 2 := by
  have all : behindCut quietHub "alice" "inbox" = [] := by decide +kernel
  obtain ⟨merged, drained⟩ := listing_complete_iff quietHub "alice" "inbox" Bounds.ruled
    [.insert ⟨"m", "inbox", "carol", "x"⟩ false 1000] rfl
  refine ⟨merged.mpr (fun x none => ?_), drained.mpr ?_, by decide +kernel⟩
  · rw [all] at none
    cases none
  · rw [DrainReached, if_pos (by decide +kernel)]
    intro x none
    rw [all] at none
    cases none

def crowdId (n : Nat) : String := String.singleton (Char.ofNat (20 + n))

/-- A hundred rows stored and acknowledged, none of them confirmed by the archive. -/
def crowd : List MailboxInput :=
  (List.range 100).map (fun n => .insert ⟨crowdId n, "inbox", "carol", "x"⟩ false 1000) ++
    [.acknowledge ((List.range 100).map crowdId) false 2000]

/-- The archive's copies of the crowd, and a paid row behind them. -/
def crowdedDatabase : Database.Store :=
  let copies := (List.range 100).map (fun n => (⟨"alice", crowdId n, 1, .insert, "inbox", "carol", some "x",
    some "2025-10-23 12:00:00", false⟩ : ArchiveMessage))
  (insertMessage (writeBatch 1000 Database.Store.empty copies) "paid" "inbox" "dave" "alice" "hello" none 3000).2

def crowdedHub : Hubs :=
  { Hubs.start crowdedDatabase with mailboxes := fun _ => after Bounds.ruled Store.empty crowd }

def paidListed : MessageDbRow :=
  ⟨some "paid", some "hello", some "dave", some "1970-01-01 00:00:03", some "1970-01-01 00:00:03"⟩

/-- The crowded box is listed empty, while D1 holds the paid row live and the mailbox does not hold its id. -/
theorem crowdedHub_withholds :
    handleList crowdedHub "alice" "inbox" = [] ∧ paidListed ∈ visible crowdedHub "alice" "inbox" ∧
      ¬ CompleteListing (visible crowdedHub "alice" "inbox" ++ mailboxLive crowdedHub "alice" "inbox")
        (handleList crowdedHub "alice" "inbox") := by
  have sides : insideCut crowdedHub "alice" "inbox" = [] ∧ mailboxLive crowdedHub "alice" "inbox" = [] ∧
      behindCut crowdedHub "alice" "inbox" = [paidListed] := by decide +kernel
  obtain ⟨inside, own, behind⟩ := sides
  have measured : MeasuredRows (crowdedHub.mailboxes "alice") := by
    simp only [crowdedHub]
    exact measuredRows_after Bounds.ruled crowd
  refine ⟨?_, ?_, ?_⟩
  · rw [handleList_cut "inbox" measured, inside, own]
    simp [cut]
  · rw [visible_split, inside, behind]
    simp
  · rw [handleList_complete "inbox" measured]
    intro all
    have room := (all paidListed (by rw [behind]; rfl)).1
    rw [inside] at room
    exact room (by decide)

end MessageRelay.Relay
