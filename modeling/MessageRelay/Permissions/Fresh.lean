import MessageRelay.Permissions.World

/-! Whether a context answered after a change is ever older than it. The hub's copy is cleared by the
change's forget, but a context that read D1 before the change may keep what it read after the forget. -/

namespace MessageRelay.Permissions
open MessageRelay.Library

abbrev PermissionConfig := Config World Event

/-- What happened since a context's D1 read. -/
def sinceRead (t : Nat) (log : List Event) : List Event := (log.reverse.takeWhile (· ≠ .read t)).reverse

/-- Among some events a set wrote D1 and then had its forget taken. -/
def overtaken : List Event → Bool
  | [] => false
  | .wrote s _ _ _ :: rest => rest.contains (.forgot s) || overtaken rest
  | _ :: rest => overtaken rest

/-- The condition on one step. A context keeps what D1 answered only while no set has been written and
forgotten since it read. -/
def KeepsFresh (c : PermissionConfig) : Input → Prop
  | .contextKeep t true => overtaken (sinceRead t c.log) = false
  | _ => True

instance (c : PermissionConfig) (input : Input) : Decidable (KeepsFresh c input) := by
  unfold KeepsFresh
  split
  · infer_instance
  · exact .isTrue trivial

theorem overtaken_of_mem (front : List Event) {s : Nat} {sender : Option String} {messageBox : String} {fee : Int}
    {back : List Event} (forgot : .forgot s ∈ back) :
    overtaken (front ++ .wrote s sender messageBox fee :: back) = true := by
  induction front with
  | nil => simp [overtaken, forgot]
  | cons event rest ih =>
    rw [List.cons_append]
    cases event with
    | wrote => simp [overtaken, ih]
    | read | answered | forgot => exact ih

/-- Unless the context read since, all that came since is behind its read. -/
theorem sinceRead_append (t : Nat) (front : List Event) {back : List Event} (unread : .read t ∉ back) :
    ∃ earlier, sinceRead t (front ++ back) = earlier ++ back := by
  refine ⟨sinceRead t front, ?_⟩
  have all : ∀ event ∈ back.reverse, decide (event ≠ .read t) = true := by
    intro event inside
    apply decide_eq_true
    intro same
    exact unread (same ▸ List.mem_reverse.mp inside)
  unfold sinceRead
  rw [List.reverse_append, List.takeWhile_append_of_pos all, List.reverse_append, List.reverse_reverse]

section Seen
variable (serverFees : String → Int) (c : PermissionConfig)

/-- D1 would have answered the fee at some moment of a run. -/
def Seen (path : List Input) (sender messageBox : String) (fee : Int) : Prop :=
  ∃ front, front <+: path ∧
    recipientFee ((permissionMachine serverFees).run c front).state.db sender messageBox = fee

variable {serverFees c}

theorem Seen.longer {path : List Input} {sender messageBox : String} {fee : Int}
    (seen : Seen serverFees c path sender messageBox fee) (more : List Input) :
    Seen serverFees c (path ++ more) sender messageBox fee := by
  obtain ⟨front, part, same⟩ := seen
  exact ⟨front, part.trans (List.prefix_append _ _), same⟩

theorem seen_now (path : List Input) (sender messageBox : String) :
    Seen serverFees c path sender messageBox
      (recipientFee ((permissionMachine serverFees).run c path).state.db sender messageBox) :=
  ⟨path, List.prefix_rfl, rfl⟩

end Seen

/-- The copy a context is answered from is one of the copies. -/
theorem mem_of_permissionsCopy {copies : List CopyRow} {sender box : String} {now : Nat} {fee serverFee : Int}
    (copied : permissionsCopy copies sender box now = some (fee, serverFee)) :
    ∃ r ∈ copies, r.sender = sender ∧ r.messageBox = box ∧ r.recipientFee = fee := by
  obtain ⟨r, found, young⟩ := Option.bind_eq_some_iff.mp copied
  have named := List.find?_some found
  simp only [Bool.and_eq_true, decide_eq_true_eq] at named
  split at young
  · cases Option.some.inj young
    exact ⟨r, List.mem_of_find?_eq_some found, named.1, named.2, rfl⟩
  · cases young

/-! What one step can do to a context, to the copies and to the answers. -/

/-- A context that holds D1's answer held it before, or D1 was read just now. -/
theorem read_cases {serverFees : String → Int} {w : World} {input : Input} {t : Nat} {sender box : String} {now : Nat}
    {fee serverFee : Int}
    (task : (step serverFees w input).1.contexts t = .read sender box now fee serverFee) :
    (w.contexts t = .read sender box now fee serverFee ∧ .read t ∉ (step serverFees w input).2) ∨
      fee = recipientFee w.db sender box := by
  -- A step that sets another context's task, or no task, leaves this one as it was.
  have other {u : Nat} {held : ContextTask} {w' : World} (same : w'.contexts = w.contexts)
      (not : ∀ a b c d e, held ≠ .read a b c d e) (is : (w'.setContext u held).contexts t = .read sender box now fee serverFee) :
      w.contexts t = .read sender box now fee serverFee := by
    by_cases own : t = u
    · subst own
      simp only [World.setContext, Function.update_self] at is
      exact absurd is (not _ _ _ _ _)
    · simpa only [World.setContext, Function.update_of_ne own, same] using is
  cases input with
  | contextBegin u sender' box' now' =>
    left
    simp only [step, contextBeginStep] at task ⊢
    split at task
    · split at task
      · exact ⟨task, by simp⟩
      · exact ⟨other rfl (by simp) task, by simp⟩
    · exact ⟨task, by simp⟩
  | contextRead u =>
    simp only [step, contextReadStep] at task ⊢
    split at task
    · by_cases own : t = u
      · subst own
        simp only [World.setContext, Function.update_self] at task
        cases task
        exact .inr rfl
      · simp only [World.setContext, Function.update_of_ne own] at task
        exact .inl ⟨task, by simpa using own⟩
    · exact .inl ⟨task, by simp⟩
  | contextKeep u kept =>
    left
    simp only [step, contextKeepStep] at task ⊢
    split at task
    · exact ⟨other rfl (by simp) task, by simp⟩
    · exact ⟨task, by simp⟩
  | contextFail u => exact .inl ⟨other rfl (by simp) task, by simp [step]⟩
  | setWrite s who box' fee' =>
    left
    by_cases written : w.sets s = true
    · simp only [step, setWriteStep, if_pos written] at task ⊢
      exact ⟨task, by simp⟩
    · simp only [step, setWriteStep, if_neg written] at task ⊢
      exact ⟨task, by simp⟩
  | setForget s =>
    left
    by_cases written : w.sets s = true
    · simp only [step, setForgetStep, if_pos written] at task ⊢
      exact ⟨task, by simp⟩
    · simp only [step, setForgetStep, if_neg written] at task ⊢
      exact ⟨task, by simp⟩
  | setFail s => exact .inl ⟨task, by simp [step]⟩

/-- A copy was there before and nothing was forgotten, or a context keeps what it read just now. -/
theorem copies_cases {serverFees : String → Int} {w : World} {input : Input} {r : CopyRow}
    (member : r ∈ (step serverFees w input).1.copies) :
    (∀ s, .forgot s ∉ (step serverFees w input).2) ∧
      (r ∈ w.copies ∨ ∃ t, input = .contextKeep t true ∧
        w.contexts t = .read r.sender r.messageBox r.copiedAt r.recipientFee r.serverFee) := by
  cases input with
  | contextBegin u sender' box' now' =>
    simp only [step, contextBeginStep] at member ⊢
    split at member
    · split at member <;> exact ⟨by simp, .inl member⟩
    · exact ⟨by simp, .inl member⟩
  | contextRead u =>
    simp only [step, contextReadStep] at member ⊢
    split at member <;> exact ⟨by simp, .inl member⟩
  | contextKeep u kept =>
    simp only [step, contextKeepStep] at member ⊢
    split at member
    · rename_i sender box now fee serverFee task
      refine ⟨by simp, ?_⟩
      cases kept with
      | false => exact .inl member
      | true =>
        rcases List.mem_append.mp member with old | new
        · exact .inl (List.mem_of_mem_filter old)
        · rw [List.mem_singleton.mp new]
          exact .inr ⟨u, rfl, task⟩
    · exact ⟨by simp, .inl member⟩
  | contextFail u => exact ⟨by simp [step], .inl member⟩
  | setWrite s who box' fee' =>
    by_cases written : w.sets s = true
    · simp only [step, setWriteStep, if_pos written] at member ⊢
      exact ⟨by simp, .inl member⟩
    · simp only [step, setWriteStep, if_neg written] at member ⊢
      exact ⟨by simp, .inl member⟩
  | setForget s =>
    by_cases written : w.sets s = true
    · simp only [step, setForgetStep, if_pos written] at member
      cases member
    · simp only [step, setForgetStep, if_neg written] at member ⊢
      exact ⟨by simp, .inl member⟩
  | setFail s => exact ⟨by simp [step], .inl member⟩

/-- A context answers what it read, or what a copy says. -/
theorem answered_cases {serverFees : String → Int} {w : World} {input : Input} {t : Nat} {sender box : String}
    {fee serverFee : Int} (answered : .answered t sender box fee serverFee ∈ (step serverFees w input).2) :
    (∃ now, w.contexts t = .read sender box now fee serverFee) ∨
      ∃ r ∈ w.copies, r.sender = sender ∧ r.messageBox = box ∧ r.recipientFee = fee := by
  cases input with
  | contextBegin u sender' box' now' =>
    right
    simp only [step, contextBeginStep] at answered
    split at answered
    · split at answered
      · rename_i copied
        cases List.mem_singleton.mp answered
        exact mem_of_permissionsCopy copied
      · cases answered
    · cases answered
  | contextRead u =>
    simp only [step, contextReadStep] at answered
    split at answered
    · cases List.mem_singleton.mp answered
    · cases answered
  | contextKeep u kept =>
    simp only [step, contextKeepStep] at answered
    split at answered
    · rename_i task
      cases List.mem_singleton.mp answered
      exact .inl ⟨_, task⟩
    · cases answered
  | contextFail u => cases answered
  | setWrite s who box' fee' =>
    simp only [step, setWriteStep] at answered
    split at answered
    · cases answered
    · cases List.mem_singleton.mp answered
  | setForget s =>
    simp only [step, setForgetStep] at answered
    split at answered
    · cases List.mem_singleton.mp answered
    · cases answered
  | setFail s => cases answered

section Track
variable {serverFees : String → Int} {origin : PermissionConfig} {s : Nat}

/-- What is known since a set wrote D1. A fee read since is one D1 held since, and once the set's forget was
taken so is every copy. -/
structure Tracks (serverFees : String → Int) (origin : PermissionConfig) (s : Nat) (path : List Input)
    (more : List Event) : Prop where
  log : ((permissionMachine serverFees).run origin path).log = origin.log ++ more
  reads : ∀ t sender box now fee serverFee,
    ((permissionMachine serverFees).run origin path).state.contexts t = .read sender box now fee serverFee →
      .read t ∈ more → Seen serverFees origin path sender box fee
  copies : .forgot s ∈ more → ∀ r ∈ ((permissionMachine serverFees).run origin path).state.copies,
    Seen serverFees origin path r.sender r.messageBox r.recipientFee

theorem tracks_nil : Tracks serverFees origin s [] [] :=
  ⟨(List.append_nil _).symm, fun _ _ _ _ _ _ _ none => absurd none List.not_mem_nil,
    fun none => absurd none List.not_mem_nil⟩

/-- A context that keeps what it read after the forget of the set read it since the set. -/
theorem read_since {path : List Input} {more : List Event} (tracks : Tracks serverFees origin s path more)
    {front : List Event} {who : Option String} {box : String} {fee : Int}
    (wrote : origin.log = front ++ [.wrote s who box fee]) (forgot : .forgot s ∈ more) {t : Nat}
    (fresh : overtaken (sinceRead t ((permissionMachine serverFees).run origin path).log) = false) :
    .read t ∈ more := by
  by_contra unread
  have unread' : .read t ∉ Event.wrote s who box fee :: more := by
    intro inside
    rcases List.mem_cons.mp inside with no | later
    · cases no
    · exact unread later
  obtain ⟨earlier, since⟩ := sinceRead_append t front unread'
  have log : ((permissionMachine serverFees).run origin path).log = front ++ .wrote s who box fee :: more := by
    rw [tracks.log, wrote]
    simp
  rw [log, since, overtaken_of_mem earlier forgot] at fresh
  cases fresh

theorem run_snoc (path : List Input) (input : Input) :
    (permissionMachine serverFees).run origin (path ++ [input]) =
      (permissionMachine serverFees).advance ((permissionMachine serverFees).run origin path) input := by
  rw [Machine.run_append, Machine.run_cons, Machine.run_nil]

theorem Tracks.step {path : List Input} {more : List Event} (tracks : Tracks serverFees origin s path more)
    {front : List Event} {who : Option String} {box : String} {fee : Int}
    (wrote : origin.log = front ++ [.wrote s who box fee]) {input : Input}
    (fresh : KeepsFresh ((permissionMachine serverFees).run origin path) input) :
    Tracks serverFees origin s (path ++ [input])
      (more ++ (Permissions.step serverFees ((permissionMachine serverFees).run origin path).state input).2) := by
  refine ⟨?_, ?_, ?_⟩
  · rw [run_snoc, Machine.advance, tracks.log, ← List.append_assoc]
    rfl
  · intro t sender box now fee serverFee task inside
    rw [run_snoc] at task
    rcases read_cases task with ⟨before, unread⟩ | read
    · have earlier := (List.mem_append.mp inside).resolve_right unread
      exact (tracks.reads t sender box now fee serverFee before earlier).longer [input]
    · rw [read]
      exact (seen_now path sender box).longer [input]
  · intro forgot r member
    rw [run_snoc] at member
    by_cases before : .forgot s ∈ more
    · rcases (copies_cases member).2 with old | ⟨t, is, task⟩
      · exact (tracks.copies before r old).longer [input]
      · subst is
        have since := read_since tracks wrote before fresh
        exact (tracks.reads t _ _ _ _ _ task since).longer _
    · have now := (List.mem_append.mp forgot).resolve_left before
      exact absurd now ((copies_cases member).1 s)

theorem tracks_run {front : List Event} {who : Option String} {box : String} {fee : Int}
    (wrote : origin.log = front ++ [.wrote s who box fee]) (path : List Input)
    (guarded : (permissionMachine serverFees).Guarded KeepsFresh origin path) :
    ∃ more, Tracks serverFees origin s path more := by
  induction path using List.reverseRecOn with
  | nil => exact ⟨[], tracks_nil⟩
  | append_singleton path input ih =>
    obtain ⟨early, last⟩ := (Machine.guarded_append _ _ _ _).mp guarded
    obtain ⟨more, tracks⟩ := ih early
    exact ⟨_, tracks.step wrote last.1⟩

/-- A context idle once the set's forget was taken holds and answers only fees D1 held since the set. -/
theorem answers_seen {front : List Event} {who : Option String} {box : String} {fee : Int}
    (wrote : origin.log = front ++ [.wrote s who box fee]) (path during : List Input)
    (guarded : (permissionMachine serverFees).Guarded KeepsFresh origin (path ++ during))
    (forgot : ∃ more, Tracks serverFees origin s path more ∧ .forgot s ∈ more) {t : Nat}
    (idle : ((permissionMachine serverFees).run origin path).state.contexts t = .idle) :
    (∀ sender box now fee serverFee,
      ((permissionMachine serverFees).run origin (path ++ during)).state.contexts t =
        .read sender box now fee serverFee → Seen serverFees origin (path ++ during) sender box fee) ∧
    ∃ since, ((permissionMachine serverFees).run origin (path ++ during)).log =
        ((permissionMachine serverFees).run origin path).log ++ since ∧
      ∀ sender box fee serverFee, .answered t sender box fee serverFee ∈ since →
        Seen serverFees origin (path ++ during) sender box fee := by
  induction during using List.reverseRecOn with
  | nil =>
    rw [List.append_nil]
    refine ⟨fun _ _ _ _ _ task => ?_, [], (List.append_nil _).symm, fun _ _ _ _ none => absurd none List.not_mem_nil⟩
    rw [idle] at task
    cases task
  | append_singleton during input ih =>
    rw [← List.append_assoc] at guarded ⊢
    have early := ((Machine.guarded_append _ _ _ _).mp guarded).1
    obtain ⟨own, since, log, answers⟩ := ih early
    -- The copies are of fees D1 held since, the forget having been taken.
    obtain ⟨more, tracks⟩ := tracks_run wrote (path ++ during) early
    have forgotten : .forgot s ∈ more := by
      obtain ⟨sofar, before, inside⟩ := forgot
      have same : sofar ++ since = more := by
        have whole := tracks.log
        rw [log, before.log, List.append_assoc] at whole
        exact List.append_cancel_left whole
      rw [← same]
      exact List.mem_append_left _ inside
    refine ⟨?_, since ++ (Permissions.step serverFees
      ((permissionMachine serverFees).run origin (path ++ during)).state input).2, ?_, ?_⟩
    · intro sender box now fee serverFee task
      rw [run_snoc] at task
      rcases read_cases task with ⟨before, -⟩ | read
      · exact (own sender box now fee serverFee before).longer [input]
      · rw [read]
        exact (seen_now _ sender box).longer [input]
    · rw [run_snoc, Machine.advance, log, ← List.append_assoc]
      rfl
    · intro sender box fee serverFee answered
      rcases List.mem_append.mp answered with before | now
      · exact (answers sender box fee serverFee before).longer [input]
      · rcases answered_cases now with ⟨at', task⟩ | ⟨r, member, who, box', same⟩
        · exact (own sender box at' fee serverFee task).longer [input]
        · rw [← who, ← box', ← same]
          exact (tracks.copies forgotten r member).longer [input]

end Track

/-! Which set's fee D1 answers. -/

/-- A set is the rule for a sender: the sender's own, or the box's where D1 has neither an own rule of the
sender nor an older rule of the box. -/
def Governs (rows : List PermissionRow) (who : Option String) (sender messageBox : String) : Prop :=
  who = some sender ∨
    (who = none ∧ ∀ r ∈ rows, r.messageBox = messageBox → r.sender ≠ some sender ∧ r.sender ≠ none)

/-- The first row under a sender, or under none, of a box. -/
def ruleOf (rows : List PermissionRow) (key : Option String) (messageBox : String) : Option PermissionRow :=
  rows.find? (fun r => r.sender = key && r.messageBox = messageBox)

theorem recipientFee_eq (rows : List PermissionRow) (sender messageBox : String) :
    recipientFee rows sender messageBox =
      match ruleOf rows (some sender) messageBox with
      | some r => r.recipientFee
      | none => match ruleOf rows none messageBox with
        | some r => r.recipientFee
        | none => smartDefaultFee messageBox := rfl

theorem ruleOf_none {rows : List PermissionRow} {key : Option String} {messageBox : String} :
    ruleOf rows key messageBox = none ↔ ∀ r ∈ rows, r.messageBox = messageBox → r.sender ≠ key := by
  simp only [ruleOf, List.find?_eq_none, Bool.and_eq_true, decide_eq_true_eq, not_and]
  exact ⟨fun all r member box is => all r member is box, fun all r member is box => all r member box is⟩

/-- A rewrite of rows that keeps their names finds the same row, rewritten. -/
theorem ruleOf_map (rows : List PermissionRow) (f : PermissionRow → PermissionRow)
    (named : ∀ r, (f r).sender = r.sender ∧ (f r).messageBox = r.messageBox) (key : Option String) (messageBox : String) :
    ruleOf (rows.map f) key messageBox = (ruleOf rows key messageBox).map f := by
  unfold ruleOf
  rw [List.find?_map]
  congr 2
  funext r
  simp [named r]

theorem ruleOf_append (rows : List PermissionRow) (r : PermissionRow) (key : Option String) (messageBox : String) :
    ruleOf (rows ++ [r]) key messageBox =
      (ruleOf rows key messageBox).or (if r.sender = key ∧ r.messageBox = messageBox then some r else none) := by
  unfold ruleOf
  rw [List.find?_append]
  congr 1
  by_cases same : r.sender = key ∧ r.messageBox = messageBox
  · simp [same]
  · rw [if_neg same, List.find?_eq_none]
    simpa using same

/-- A set leaves the rules of other names and boxes. -/
theorem ruleOf_setPermission_other (rows : List PermissionRow) {who key : Option String} {box messageBox : String}
    (fee : Int) (other : ¬(who = key ∧ box = messageBox)) :
    ruleOf (setPermission rows who box fee) key messageBox = ruleOf rows key messageBox := by
  unfold setPermission
  simp only
  split
  · rw [ruleOf_map]
    · cases found : ruleOf rows key messageBox with
      | none => rfl
      | some r =>
        have named := List.find?_some found
        simp only [Bool.and_eq_true, decide_eq_true_eq] at named
        rw [Option.map_some, if_neg]
        simp only [Bool.and_eq_true, decide_eq_true_eq]
        rintro ⟨⟨-, sender⟩, box'⟩
        exact other ⟨sender.symm.trans named.1, box'.symm.trans named.2⟩
    · intro r
      split <;> exact ⟨rfl, rfl⟩
  · rw [ruleOf_append, if_neg other, Option.or_none]

/-- A sender's own rule is what was last set. -/
theorem ruleOf_setPermission_own (rows : List PermissionRow) (sender messageBox : String) (fee : Int) :
    ∃ r, ruleOf (setPermission rows (some sender) messageBox fee) (some sender) messageBox = some r ∧
      r.recipientFee = fee := by
  unfold setPermission
  simp only [Option.isSome_some, Bool.true_and]
  split
  · rename_i any
    rw [ruleOf_map]
    · cases found : ruleOf rows (some sender) messageBox with
      | none =>
        obtain ⟨r, member, named⟩ := List.any_eq_true.mp any
        simp only [Bool.and_eq_true, decide_eq_true_eq] at named
        exact absurd named.1 (ruleOf_none.mp found r member named.2)
      | some r =>
        have named := List.find?_some found
        rw [Option.map_some, if_pos named]
        exact ⟨_, rfl, rfl⟩
    · intro r
      split <;> exact ⟨rfl, rfl⟩
  · rename_i none
    have free : ruleOf rows (some sender) messageBox = Option.none := by
      apply ruleOf_none.mpr
      intro r member box is
      apply none
      rw [List.any_eq_true]
      exact ⟨r, member, by simp [is, box]⟩
    rw [ruleOf_append, free, if_pos ⟨rfl, rfl⟩]
    exact ⟨_, rfl, rfl⟩

/-- A box's rule is what was set first. -/
theorem ruleOf_setPermission_box (rows : List PermissionRow) (messageBox : String) (fee : Int) :
    ruleOf (setPermission rows none messageBox fee) none messageBox =
      (ruleOf rows none messageBox).or (some ⟨none, messageBox, fee⟩) := by
  simp [setPermission, ruleOf_append]

example : recipientFee (setPermission [⟨none, "inbox", 10⟩] none "inbox" 5) "bob" "inbox" = 10 := by decide

/-- The rule D1 goes by for a sender carries a fee set among some events. -/
def Ruled (since : List Event) (rows : List PermissionRow) (sender messageBox : String) : Prop :=
  ∃ r s who, Event.wrote s who messageBox r.recipientFee ∈ since ∧
    (ruleOf rows (some sender) messageBox = some r ∨
      (ruleOf rows (some sender) messageBox = none ∧ ruleOf rows none messageBox = some r))

theorem Ruled.fee {since : List Event} {rows : List PermissionRow} {sender messageBox : String}
    (ruled : Ruled since rows sender messageBox) :
    ∃ s who, Event.wrote s who messageBox (recipientFee rows sender messageBox) ∈ since := by
  obtain ⟨r, s, who, wrote, own | ⟨none, box⟩⟩ := ruled
  · refine ⟨s, who, ?_⟩
    rw [recipientFee_eq, own]
    exact wrote
  · refine ⟨s, who, ?_⟩
    rw [recipientFee_eq, none, box]
    exact wrote

theorem Governs.ruled {rows : List PermissionRow} {who : Option String} {sender messageBox : String}
    (governs : Governs rows who sender messageBox) (s : Nat) (fee : Int) :
    Ruled [.wrote s who messageBox fee] (setPermission rows who messageBox fee) sender messageBox := by
  rcases governs with own | ⟨box, free⟩
  · subst own
    obtain ⟨r, found, same⟩ := ruleOf_setPermission_own rows sender messageBox fee
    exact ⟨r, s, some sender, by simp [same], .inl found⟩
  · subst box
    refine ⟨⟨none, messageBox, fee⟩, s, none, by simp, .inr ⟨?_, ?_⟩⟩
    · rw [ruleOf_setPermission_other rows fee (by simp)]
      exact ruleOf_none.mpr (fun r member box => (free r member box).1)
    · rw [ruleOf_setPermission_box, ruleOf_none.mpr (fun r member box => (free r member box).2), Option.none_or]

theorem Ruled.longer {since : List Event} {rows : List PermissionRow} {sender messageBox : String}
    (ruled : Ruled since rows sender messageBox) (more : List Event) : Ruled (since ++ more) rows sender messageBox := by
  obtain ⟨r, s, who, wrote, found⟩ := ruled
  exact ⟨r, s, who, List.mem_append_left _ wrote, found⟩

theorem Ruled.set {since : List Event} {rows : List PermissionRow} {sender messageBox : String}
    (ruled : Ruled since rows sender messageBox) (s : Nat) (who : Option String) (box : String) (fee : Int) :
    Ruled (since ++ [.wrote s who box fee]) (setPermission rows who box fee) sender messageBox := by
  by_cases own : who = some sender ∧ box = messageBox
  · obtain ⟨rfl, rfl⟩ := own
    obtain ⟨r, found, same⟩ := ruleOf_setPermission_own rows sender box fee
    exact ⟨r, s, some sender, by simp [same], .inl found⟩
  obtain ⟨r, s', who', wrote, found⟩ := ruled
  refine ⟨r, s', who', List.mem_append_left _ wrote, ?_⟩
  rw [ruleOf_setPermission_other rows fee own]
  rcases found with found | ⟨none, found⟩
  · exact .inl found
  · refine .inr ⟨none, ?_⟩
    by_cases same : who = Option.none ∧ box = messageBox
    · obtain ⟨rfl, rfl⟩ := same
      rw [ruleOf_setPermission_box, found, Option.some_or]
    · rw [ruleOf_setPermission_other rows fee same, found]

/-- Only a set's write changes D1. -/
theorem db_cases (serverFees : String → Int) (w : World) (input : Input) :
    (step serverFees w input).1.db = w.db ∨ ∃ s who box fee,
      (step serverFees w input).1.db = setPermission w.db who box fee ∧
        (step serverFees w input).2 = [.wrote s who box fee] := by
  cases input with
  | contextBegin u sender box now =>
    left
    simp only [step, contextBeginStep]
    split
    · split <;> rfl
    · rfl
  | contextRead u =>
    left
    simp only [step, contextReadStep]
    split <;> rfl
  | contextKeep u kept =>
    left
    simp only [step, contextKeepStep]
    split <;> rfl
  | contextFail u => exact .inl rfl
  | setWrite s who box fee =>
    by_cases written : w.sets s = true
    · left
      simp only [step, setWriteStep, if_pos written]
    · right
      simp only [step, setWriteStep, if_neg written]
      exact ⟨s, who, box, fee, rfl, rfl⟩
  | setForget s =>
    left
    simp only [step, setForgetStep]
    split <;> rfl
  | setFail s => exact .inl rfl

/-- A rule set by then is the rule, or a later set's is, from then on. -/
theorem ruled_run (serverFees : String → Int) {front : List Event} {sender messageBox : String} (path : List Input)
    (c : PermissionConfig) {since : List Event} (log : c.log = front ++ since)
    (ruled : Ruled since c.state.db sender messageBox) :
    ∃ more, ((permissionMachine serverFees).run c path).log = front ++ more ∧
      Ruled more ((permissionMachine serverFees).run c path).state.db sender messageBox := by
  induction path generalizing c since with
  | nil => exact ⟨since, log, ruled⟩
  | cons input rest ih =>
    have grown : ((permissionMachine serverFees).advance c input).log =
        front ++ (since ++ (step serverFees c.state input).2) := by
      rw [Machine.advance, log, List.append_assoc]
      rfl
    rw [Machine.run_cons]
    apply ih _ grown
    change Ruled _ (step serverFees c.state input).1.db _ _
    rcases db_cases serverFees c.state input with same | ⟨s, who, box, fee, same, events⟩
    · rw [same]
      exact ruled.longer _
    · rw [same, events]
      exact ruled.set s who box fee

/-- A set whose turn it is writes D1. -/
theorem advance_setWrite (serverFees : String → Int) {c : PermissionConfig} {s : Nat} (free : c.state.sets s = false)
    (who : Option String) (box : String) (fee : Int) :
    ((permissionMachine serverFees).advance c (.setWrite s who box fee)).log = c.log ++ [.wrote s who box fee] ∧
      ((permissionMachine serverFees).advance c (.setWrite s who box fee)).state.db =
        setPermission c.state.db who box fee := by
  have stepped : setWriteStep c.state s who box fee =
      ({ c.state with db := setPermission c.state.db who box fee }.setSet s true, [.wrote s who box fee]) := by
    simp [setWriteStep, free]
  change c.log ++ (setWriteStep c.state s who box fee).2 = _ ∧ (setWriteStep c.state s who box fee).1.db = _
  rw [stepped]
  exact ⟨rfl, rfl⟩

/-- A set that wrote D1 has the hub forget. -/
theorem advance_setForget (serverFees : String → Int) {c : PermissionConfig} {s : Nat} (due : c.state.sets s = true) :
    ((permissionMachine serverFees).advance c (.setForget s)).log = c.log ++ [.forgot s] := by
  change c.log ++ (setForgetStep c.state s).2 = _
  simp [setForgetStep, due]

/-- In every run in which no context keeps an answer D1 gave before a set that was written and forgotten since,
a context that starts after a set's forget answers a fee D1 held since that set. Where the set is the rule for the
context's sender, the fee is the set's or a later set's. -/
theorem context_never_stale (serverFees : String → Int) (db : List PermissionRow) (before between later during : List Input)
    (s t : Nat) (who : Option String) (box : String) (fee : Int) :
    let m := permissionMachine serverFees
    let start : PermissionConfig := ⟨World.start db, []⟩
    let written := before ++ [.setWrite s who box fee]
    let forgotten := between ++ .setForget s :: later
    m.Guarded KeepsFresh start (written ++ (forgotten ++ during)) →
    (m.run start before).state.sets s = false → (m.run start (written ++ between)).state.sets s = true →
    (m.run start (written ++ forgotten)).state.contexts t = .idle →
    ∀ sender messageBox answer serverFee,
      .answered t sender messageBox answer serverFee ∈
        (m.run start (written ++ (forgotten ++ during))).log.drop (m.run start (written ++ forgotten)).log.length →
      (∃ front, front <+: forgotten ++ during ∧
        recipientFee (m.run start (written ++ front)).state.db sender messageBox = answer) ∧
      (box = messageBox → Governs (m.run start before).state.db who sender messageBox → ∃ s' who',
        .wrote s' who' messageBox answer ∈
          (m.run start (written ++ (forgotten ++ during))).log.drop (m.run start before).log.length) := by
  intro m start written forgotten guarded unwritten pending idle sender messageBox answer serverFee answered
  -- The moment the set wrote D1.
  have origin : m.run start written = m.advance (m.run start before) (.setWrite s who box fee) := run_snoc _ _
  have wrote : (m.run start written).log = (m.run start before).log ++ [.wrote s who box fee] ∧
      (m.run start written).state.db = setPermission (m.run start before).state.db who box fee := by
    rw [origin]
    exact advance_setWrite serverFees unwritten who box fee
  simp only [Machine.run_append m start written] at pending idle answered ⊢
  have fresh := ((Machine.guarded_append _ _ _ _).mp guarded).2
  -- By the end of the forgetting part its forget was taken.
  have forgot : ∃ more, Tracks serverFees (m.run start written) s forgotten more ∧ .forgot s ∈ more := by
    have early := ((Machine.guarded_append _ _ _ _).mp fresh).1
    obtain ⟨upTo, rest⟩ := (Machine.guarded_append _ _ _ _).mp early
    obtain ⟨sofar, tracked⟩ := tracks_run wrote.1 between upTo
    obtain ⟨more, tracks⟩ := tracks_run wrote.1 forgotten early
    refine ⟨more, tracks, ?_⟩
    have taken : (m.advance (m.run (m.run start written) between) (.setForget s)).log =
        (m.run start written).log ++ (sofar ++ [.forgot s]) := by
      rw [← List.append_assoc, ← tracked.log]
      exact advance_setForget serverFees pending
    have grown := Machine.log_isPrefix_run m (m.advance (m.run (m.run start written) between) (.setForget s)) later
    have path : m.run (m.run start written) forgotten =
        m.run (m.advance (m.run (m.run start written) between) (.setForget s)) later :=
      Machine.run_append m _ between (.setForget s :: later)
    rw [taken, ← path, tracks.log] at grown
    have inside := (List.prefix_append_right_inj _).mp grown
    exact inside.subset (by simp)
  have seen : Seen serverFees (m.run start written) (forgotten ++ during) sender messageBox answer := by
    obtain ⟨-, since, log, answers⟩ := answers_seen wrote.1 forgotten during fresh forgot idle
    apply answers sender messageBox answer serverFee
    rwa [log, List.drop_left] at answered
  refine ⟨seen, fun same governs => ?_⟩
  subst same
  obtain ⟨front, ⟨rest, whole⟩, same⟩ := seen
  have ruled := governs.ruled s fee
  rw [← wrote.2] at ruled
  obtain ⟨more, log, ruled⟩ := ruled_run serverFees front (m.run start written) wrote.1 ruled
  obtain ⟨s', who', inside⟩ := ruled.fee
  rw [same] at inside
  refine ⟨s', who', ?_⟩
  obtain ⟨extra, grown⟩ := Machine.log_isPrefix_run m (m.run (m.run start written) front) rest
  rw [← whole, Machine.run_append m _ front rest, ← grown, log, List.append_assoc, List.drop_left]
  exact List.mem_append_left _ inside

/-- A context for a sender asks D1 and has its answer. -/
def askedBefore : List Input := [.contextBegin 0 "bob" "inbox" 1000, .contextRead 0]

/-- A second context for the sender. -/
def askedAfter : List Input := [.contextBegin 1 "bob" "inbox" 2000, .contextRead 1, .contextKeep 1 true]

def blockBob : Input := .setWrite 7 (some "bob") "inbox" (-1)

/-- The first context keeps its answer before the forget, and the second reads the new rule. -/
theorem context_never_stale_keptInTime :
    .answered 1 "bob" "inbox" (-1) 0 ∈ ((permissionMachine fun _ => 0).run ⟨World.start [], []⟩
      ((askedBefore ++ [blockBob]) ++ (([.contextKeep 0 true] ++ .setForget 7 :: []) ++ askedAfter))).log ∧
    ∃ s' who', .wrote s' who' "inbox" (-1) ∈ ((permissionMachine fun _ => 0).run ⟨World.start [], []⟩
      ((askedBefore ++ [blockBob]) ++ (([.contextKeep 0 true] ++ .setForget 7 :: []) ++ askedAfter))).log := by
  refine ⟨by decide +kernel, ?_⟩
  obtain ⟨s', who', wrote⟩ := (context_never_stale (fun _ => 0) [] askedBefore [.contextKeep 0 true] [] askedAfter
    7 1 (some "bob") "inbox" (-1) (by decide +kernel) (by decide +kernel) (by decide +kernel) (by decide +kernel)
    "bob" "inbox" (-1) 0 (by decide +kernel)).2 rfl (.inl rfl)
  exact ⟨s', who', List.mem_of_mem_drop wrote⟩

/-- The first context keeps its answer after the forget, and the second is answered it: a blocked sender is
let in for free, and no set ever wrote that. -/
theorem straddled_context_answers_stale :
    let m := permissionMachine fun _ => 0
    let start : PermissionConfig := ⟨World.start [], []⟩
    let written := askedBefore ++ [blockBob]
    let forgotten := [] ++ .setForget 7 :: [.contextKeep 0 true]
    (m.run start askedBefore).state.sets 7 = false ∧ (m.run start (written ++ [])).state.sets 7 = true ∧
      (m.run start (written ++ forgotten)).state.contexts 1 = .idle ∧
      Governs (m.run start askedBefore).state.db (some "bob") "bob" "inbox" ∧
      (m.run start (written ++ (forgotten ++ askedAfter))).log.drop (m.run start (written ++ forgotten)).log.length =
        [.answered 1 "bob" "inbox" 0 0] ∧
      ¬ ∃ s' who', .wrote s' who' "inbox" 0 ∈ (m.run start (written ++ (forgotten ++ askedAfter))).log := by
  intro m start written forgotten
  refine ⟨by decide +kernel, by decide +kernel, by decide +kernel, .inl rfl, by decide +kernel, ?_⟩
  rintro ⟨s', who', wrote⟩
  have log : (m.run start (written ++ (forgotten ++ askedAfter))).log =
      [.read 0, .wrote 7 (some "bob") "inbox" (-1), .forgot 7, .answered 0 "bob" "inbox" 0 0,
        .answered 1 "bob" "inbox" 0 0] := by decide +kernel
  rw [log] at wrote
  simp at wrote

end MessageRelay.Permissions
