import MessageRelay.Library.Machine

/-! Jobs run in chains, one chain a lane, the chains joined. Any chain may be polled next, and a job that runs may end
any way: each job still runs once, and the jobs of a lane run one after another in their order. -/

namespace MessageRelay.Library

variable {Job Lane Outcome : Type}

/-- A chain: the job it waits for, and the jobs behind it. -/
structure Chain (Job : Type) where
  running : Option Job
  waiting : List Job
  deriving DecidableEq, Repr

inductive ChainEvent (Job Outcome : Type) where
  | started (job : Job)
  | ended (job : Job) (outcome : Outcome)
  deriving DecidableEq, Repr

namespace Chain

/-- One chain polled, with the way its job ends. -/
def poll (chain : Chain Job) (outcome : Outcome) : Chain Job × List (ChainEvent Job Outcome) :=
  match chain.running, chain.waiting with
  | some job, _ => ({ chain with running := none }, [.ended job outcome])
  | none, job :: rest => (⟨some job, rest⟩, [.started job])
  | none, [] => (chain, [])

/-- The polls a chain still needs. -/
def left (chain : Chain Job) : Nat := 2 * chain.waiting.length + chain.running.toList.length

end Chain

namespace Chains

/-- A job goes to the end of its lane's chain, or starts one. -/
def addJob [DecidableEq Lane] (lane : Job → Lane) (job : Job) : List (List Job) → List (List Job)
  | [] => [[job]]
  | chain :: rest =>
    if chain.head?.map lane = some (lane job) then (chain ++ [job]) :: rest else chain :: addJob lane job rest

def group [DecidableEq Lane] (lane : Job → Lane) (jobs : List Job) : List (List Job) :=
  jobs.foldl (fun chains job => addJob lane job chains) []

def poll (chains : List (Chain Job)) (i : Nat) (outcome : Outcome) :
    List (Chain Job) × List (ChainEvent Job Outcome) :=
  match chains[i]? with
  | none => (chains, [])
  | some chain => (chains.set i (chain.poll outcome).1, (chain.poll outcome).2)

/-- The joined chains. An input names the chain polled next. -/
def machine : Machine (List (Chain Job)) (Nat × Outcome) (ChainEvent Job Outcome) :=
  ⟨fun chains input => poll chains input.1 input.2⟩

def start [DecidableEq Lane] (lane : Job → Lane) (jobs : List Job) :
    Config (List (Chain Job)) (ChainEvent Job Outcome) :=
  ⟨(group lane jobs).map (fun chain => ⟨none, chain⟩), []⟩

def Finished (chains : List (Chain Job)) : Prop := ∀ chain ∈ chains, chain.running = none ∧ chain.waiting = []

def startedJobs (log : List (ChainEvent Job Outcome)) : List Job :=
  log.filterMap (fun | .started job => some job | .ended _ _ => none)

def endedJobs (log : List (ChainEvent Job Outcome)) : List Job :=
  log.filterMap (fun | .started _ => none | .ended job _ => some job)

def left (chains : List (Chain Job)) : Nat := (chains.map Chain.left).sum

section Grouping
variable [DecidableEq Lane] (lane : Job → Lane)

/-- The lanes of the jobs, the first seen leading. -/
def lanes (jobs : List Job) : List Lane :=
  jobs.foldl (fun seen job => if lane job ∈ seen then seen else seen ++ [lane job]) []

theorem lanes_append (jobs : List Job) (job : Job) :
    lanes lane (jobs ++ [job]) =
      if lane job ∈ lanes lane jobs then lanes lane jobs else lanes lane jobs ++ [lane job] := by
  rw [lanes, List.foldl_append]
  rfl

theorem group_append (jobs : List Job) (job : Job) :
    group lane (jobs ++ [job]) = addJob lane job (group lane jobs) := by
  simp only [group, List.foldl_append, List.foldl_cons, List.foldl_nil]

theorem lanes_nodup (jobs : List Job) : (lanes lane jobs).Nodup := by
  induction jobs using List.reverseRecOn with
  | nil => exact List.nodup_nil
  | append_singleton jobs job ih =>
    rw [lanes_append]
    split
    · exact ih
    · next fresh => exact List.nodup_append.mpr ⟨ih, List.nodup_singleton _, fun k member _ same h =>
      fresh (List.mem_singleton.mp same ▸ h ▸ member)⟩

theorem mem_lanes (jobs : List Job) (k : Lane) : k ∈ lanes lane jobs ↔ ∃ job ∈ jobs, lane job = k := by
  induction jobs using List.reverseRecOn with
  | nil => simp [lanes]
  | append_singleton jobs job ih =>
    rw [lanes_append]
    split
    · next seen => grind
    · grind

/-- The jobs of a lane, in their order. -/
def ofLane (k : Lane) (jobs : List Job) : List Job := jobs.filter (fun job => lane job = k)

theorem head_ofLane {k : Lane} {jobs : List Job} (seen : k ∈ lanes lane jobs) :
    (ofLane lane k jobs).head?.map lane = some k := by
  obtain ⟨job, member, same⟩ := (mem_lanes lane jobs k).mp seen
  cases first : (ofLane lane k jobs).head? with
  | none =>
    have empty := List.head?_eq_none_iff.mp first
    exact absurd (List.mem_filter.mpr ⟨member, by simpa using same⟩) (empty ▸ List.not_mem_nil)
  | some job' =>
    have member' := List.mem_of_head? first
    simpa [ofLane] using (List.mem_filter.mp member').2

theorem addJob_map {jobs : List Job} (job : Job) (ks : List Lane) (distinct : ks.Nodup)
    (seen : ∀ k ∈ ks, k ∈ lanes lane jobs) :
    addJob lane job (ks.map (fun k => ofLane lane k jobs)) =
      if lane job ∈ ks then ks.map (fun k => ofLane lane k (jobs ++ [job]))
      else ks.map (fun k => ofLane lane k (jobs ++ [job])) ++ [[job]] := by
  induction ks with
  | nil => rfl
  | cons k rest ih =>
    obtain ⟨fresh, distinct⟩ := List.nodup_cons.mp distinct
    have head := head_ofLane lane (seen k List.mem_cons_self)
    have later := ih distinct (fun k member => seen k (List.mem_cons_of_mem _ member))
    by_cases same : lane job = k
    · subst same
      have others : rest.map (fun k => ofLane lane k (jobs ++ [job])) = rest.map (fun k => ofLane lane k jobs) := by
        apply List.map_congr_left
        intro k member
        have different : lane job ≠ k := fun h => fresh (h ▸ member)
        simp [ofLane, different]
      simp only [List.map_cons, addJob, head, if_true, List.mem_cons_self, others]
      simp [ofLane]
    · have different : ¬ some k = some (lane job) := by simpa [eq_comm] using same
      have alone : ofLane lane k (jobs ++ [job]) = ofLane lane k jobs := by simp [ofLane, same]
      simp only [List.map_cons, addJob, head, different, if_false, later, List.mem_cons, same, false_or, alone]
      split <;> rfl

/-- The chains are the lanes' jobs, the lanes in the order they are first seen. -/
theorem group_eq (jobs : List Job) : group lane jobs = (lanes lane jobs).map (fun k => ofLane lane k jobs) := by
  induction jobs using List.reverseRecOn with
  | nil => rfl
  | append_singleton jobs job ih =>
    rw [group_append, ih, addJob_map lane job _ (lanes_nodup lane jobs) (fun _ member => member), lanes_append]
    split
    · rfl
    · next fresh =>
      have none : ofLane lane (lane job) jobs = [] := by
        rw [ofLane, List.filter_eq_nil_iff]
        intro job' member same
        exact fresh ((mem_lanes lane jobs _).mpr ⟨job', member, by simpa using same⟩)
      simp only [List.map_append, List.map_cons, List.map_nil, ofLane, List.filter_append]
      simp only [ofLane] at none
      simp [none]

end Grouping

/-- How far the chain of one lane has come. What was started and still waits are the lane's jobs in their order, and
what was started ended, all but the job that runs. -/
structure Reached [DecidableEq Lane] (lane : Job → Lane) (jobs : List Job) (k : Lane) (chain : Chain Job)
    (log : List (ChainEvent Job Outcome)) : Prop where
  started : ofLane lane k (startedJobs log) ++ chain.waiting = ofLane lane k jobs
  ended : ofLane lane k (endedJobs log) ++ chain.running.toList = ofLane lane k (startedJobs log)

/-- What a run keeps of the chains: one a lane, and only jobs of the lanes are started. -/
structure Joined [DecidableEq Lane] (lane : Job → Lane) (jobs : List Job)
    (c : Config (List (Chain Job)) (ChainEvent Job Outcome)) : Prop where
  length : c.state.length = (lanes lane jobs).length
  reached : ∀ (i : Nat) k chain, (lanes lane jobs)[i]? = some k → c.state[i]? = some chain →
    Reached lane jobs k chain c.log
  within : ∀ job ∈ startedJobs c.log ++ endedJobs c.log, lane job ∈ lanes lane jobs

@[simp] theorem startedJobs_append (first second : List (ChainEvent Job Outcome)) :
    startedJobs (first ++ second) = startedJobs first ++ startedJobs second := List.filterMap_append

@[simp] theorem endedJobs_append (first second : List (ChainEvent Job Outcome)) :
    endedJobs (first ++ second) = endedJobs first ++ endedJobs second := List.filterMap_append

@[simp] theorem startedJobs_started (job : Job) :
    startedJobs [(.started job : ChainEvent Job Outcome)] = [job] := rfl

@[simp] theorem startedJobs_ended (job : Job) (outcome : Outcome) :
    startedJobs [(.ended job outcome : ChainEvent Job Outcome)] = [] := rfl

@[simp] theorem endedJobs_started (job : Job) : endedJobs [(.started job : ChainEvent Job Outcome)] = [] := rfl

@[simp] theorem endedJobs_ended (job : Job) (outcome : Outcome) :
    endedJobs [(.ended job outcome : ChainEvent Job Outcome)] = [job] := rfl

section Runs
variable [DecidableEq Lane] (lane : Job → Lane) (jobs : List Job)

theorem ofLane_append (k : Lane) (first second : List Job) :
    ofLane lane k (first ++ second) = ofLane lane k first ++ ofLane lane k second := List.filter_append ..

theorem ofLane_single_self (job : Job) : ofLane lane (lane job) [job] = [job] := by simp [ofLane]

theorem lane_of_mem {k : Lane} {job : Job} (jobs : List Job) (member : job ∈ ofLane lane k jobs) : lane job = k := by
  simpa using (List.mem_filter.mp member).2

variable {lane jobs}

/-- A chain that moved keeps what is kept, when its own lane does and the event is of a job of that lane. -/
theorem joined_set {c : Config (List (Chain Job)) (ChainEvent Job Outcome)} (kept : Joined lane jobs c) {i : Nat}
    {k : Lane} (at_k : (lanes lane jobs)[i]? = some k) {chain : Chain Job} {e : ChainEvent Job Outcome}
    (own : Reached lane jobs k chain (c.log ++ [e]))
    (job : ∀ job ∈ startedJobs [e] ++ endedJobs [e], lane job = k) :
    Joined lane jobs ⟨c.state.set i chain, c.log ++ [e]⟩ := by
  have distinct := lanes_nodup lane jobs
  refine ⟨by simpa using kept.length, ?_, ?_⟩
  · intro j k' chain' at_k' at_chain
    by_cases same : i = j
    · subst same
      obtain rfl : k = k' := Option.some.inj (at_k.symm.trans at_k')
      have inside : i < c.state.length := by
        rw [kept.length]
        exact (List.getElem?_eq_some_iff.mp at_k).1
      simp only [List.getElem?_set_self inside, Option.some.injEq] at at_chain
      exact at_chain ▸ own
    · rw [List.getElem?_set_ne same] at at_chain
      have before := kept.reached j k' chain' at_k' at_chain
      have apart : k ≠ k' := by
        intro h
        subst h
        obtain ⟨bound, at_i⟩ := List.getElem?_eq_some_iff.mp at_k
        obtain ⟨bound', at_j⟩ := List.getElem?_eq_some_iff.mp at_k'
        exact same ((List.Nodup.getElem_inj_iff distinct).mp (at_i.trans at_j.symm))
      have started : ofLane lane k' (startedJobs [e]) = [] := by
        rw [ofLane, List.filter_eq_nil_iff]
        intro job' member h
        exact apart ((job job' (List.mem_append_left _ member)).symm.trans (by simpa using h))
      have ended : ofLane lane k' (endedJobs [e]) = [] := by
        rw [ofLane, List.filter_eq_nil_iff]
        intro job' member h
        exact apart ((job job' (List.mem_append_right _ member)).symm.trans (by simpa using h))
      refine ⟨?_, ?_⟩
      · rw [startedJobs_append, ofLane_append, started, List.append_nil]
        exact before.started
      · rw [startedJobs_append, endedJobs_append, ofLane_append, ofLane_append, started, ended, List.append_nil,
          List.append_nil]
        exact before.ended
  · intro job' member
    have inside : k ∈ lanes lane jobs := List.mem_of_getElem? at_k
    simp only [startedJobs_append, endedJobs_append, List.mem_append] at member
    rcases member with (before | now) | (before | now)
    · exact kept.within job' (List.mem_append_left _ before)
    · exact job job' (List.mem_append_left _ now) ▸ inside
    · exact kept.within job' (List.mem_append_right _ before)
    · exact job job' (List.mem_append_right _ now) ▸ inside

theorem joined_advance {c : Config (List (Chain Job)) (ChainEvent Job Outcome)} (kept : Joined lane jobs c)
    (input : Nat × Outcome) : Joined lane jobs (machine.advance c input) := by
  obtain ⟨i, outcome⟩ := input
  unfold Machine.advance machine poll
  cases at_chain : c.state[i]? with
  | none => simpa [at_chain] using kept
  | some chain =>
    obtain ⟨bound, -⟩ := List.getElem?_eq_some_iff.mp at_chain
    obtain ⟨k, at_k⟩ : ∃ k, (lanes lane jobs)[i]? = some k :=
      ⟨_, List.getElem?_eq_getElem (kept.length ▸ bound)⟩
    have before := kept.reached i k chain at_k at_chain
    cases running : chain.running with
    | some job =>
      have ended := before.ended
      rw [running] at ended
      have own : lane job = k := by
        apply lane_of_mem lane (startedJobs c.log)
        rw [← ended]
        simp
      simp only [at_chain, Chain.poll, running]
      apply joined_set kept at_k
      · refine ⟨by simpa using before.started, ?_⟩
        simpa [ofLane_append, ← own, ofLane_single_self] using ended
      · simpa using own
    | none =>
      cases waiting : chain.waiting with
      | nil =>
        have same : c.state.set i chain = c.state := by
          obtain ⟨_, rfl⟩ := List.getElem?_eq_some_iff.mp at_chain
          exact List.set_getElem_self _
        simpa [at_chain, Chain.poll, running, waiting, same] using kept
      | cons job rest =>
        have started := before.started
        rw [waiting] at started
        have own : lane job = k := by
          apply lane_of_mem lane jobs
          rw [← started]
          simp
        simp only [at_chain, Chain.poll, running, waiting]
        apply joined_set kept at_k
        · subst own
          refine ⟨?_, ?_⟩
          · simpa [ofLane_append, ofLane_single_self] using started
          · simpa [ofLane_append, ofLane_single_self, running] using before.ended
        · simpa using own

variable (lane jobs) in
theorem joined_start : Joined lane jobs (start lane jobs : Config _ (ChainEvent Job Outcome)) := by
  refine ⟨by simp [start, group_eq], ?_, by simp [start, startedJobs, endedJobs]⟩
  intro i k chain at_k at_chain
  simp only [start, group_eq, List.map_map, List.getElem?_map, at_k, Option.map_some, Option.some.injEq] at at_chain
  subst at_chain
  exact ⟨by simp [start, startedJobs, ofLane], by simp [start, startedJobs, endedJobs, ofLane]⟩

variable (lane jobs) in
theorem joined_run (inputs : List (Nat × Outcome)) : Joined lane jobs (machine.run (start lane jobs) inputs) := by
  apply Machine.run_kept
  · exact fun _ input kept => joined_advance kept input
  · exact joined_start lane jobs

/-- The chain of a lane at some point of a run, if the lane has jobs. -/
theorem reached_of_lane {c : Config (List (Chain Job)) (ChainEvent Job Outcome)} (kept : Joined lane jobs c)
    {k : Lane} (seen : k ∈ lanes lane jobs) : ∃ chain ∈ c.state, Reached lane jobs k chain c.log := by
  obtain ⟨i, at_k⟩ := List.mem_iff_getElem?.mp seen
  have inside : i < c.state.length := by
    rw [kept.length]
    exact (List.getElem?_eq_some_iff.mp at_k).1
  exact ⟨c.state[i], List.getElem_mem inside, kept.reached i k _ at_k (List.getElem?_eq_getElem inside)⟩

/-- A lane without jobs has none started. -/
theorem ofLane_unseen {c : Config (List (Chain Job)) (ChainEvent Job Outcome)} (kept : Joined lane jobs c) {k : Lane}
    (unseen : k ∉ lanes lane jobs) :
    ofLane lane k jobs = [] ∧ ofLane lane k (startedJobs c.log) = [] ∧ ofLane lane k (endedJobs c.log) = [] := by
  simp only [ofLane, List.filter_eq_nil_iff, decide_eq_true_eq]
  refine ⟨?_, ?_, ?_⟩
  · intro job member same
    exact unseen ((mem_lanes lane jobs k).mpr ⟨job, member, same⟩)
  · intro job member same
    exact unseen (same ▸ kept.within job (List.mem_append_left _ member))
  · intro job member same
    exact unseen (same ▸ kept.within job (List.mem_append_right _ member))

/-- At any point of a run the jobs of a lane were started in their order, the last of them at most still running. -/
theorem started_in_order (inputs : List (Nat × Outcome)) (k : Lane) :
    ofLane lane k (startedJobs (machine.run (start lane jobs) inputs).log) <+: ofLane lane k jobs ∧
      ∃ last : Option Job, ofLane lane k (endedJobs (machine.run (start lane jobs) inputs).log) ++ last.toList =
        ofLane lane k (startedJobs (machine.run (start lane jobs) inputs).log) := by
  have kept := joined_run lane jobs inputs
  by_cases seen : k ∈ lanes lane jobs
  · obtain ⟨chain, -, reached⟩ := reached_of_lane kept seen
    exact ⟨⟨chain.waiting, reached.started⟩, chain.running, reached.ended⟩
  · obtain ⟨none, started, ended⟩ := ofLane_unseen kept seen
    rw [none, started, ended]
    exact ⟨List.prefix_rfl, .none, rfl⟩

/-- Once all the chains are through, every job was started once and ended once, each lane's in their order. -/
theorem finished_once (inputs : List (Nat × Outcome)) (k : Lane)
    (finished : Finished (machine.run (start lane jobs) inputs).state) :
    ofLane lane k (startedJobs (machine.run (start lane jobs) inputs).log) = ofLane lane k jobs ∧
      ofLane lane k (endedJobs (machine.run (start lane jobs) inputs).log) = ofLane lane k jobs := by
  have kept := joined_run lane jobs inputs
  by_cases seen : k ∈ lanes lane jobs
  · obtain ⟨chain, member, started, ended⟩ := reached_of_lane kept seen
    obtain ⟨running, waiting⟩ := finished chain member
    rw [waiting, List.append_nil] at started
    rw [running, Option.toList_none, List.append_nil] at ended
    exact ⟨started, ended.trans started⟩
  · obtain ⟨none, started, ended⟩ := ofLane_unseen kept seen
    rw [none, started, ended]
    exact ⟨rfl, rfl⟩

end Runs

theorem left_poll (chain : Chain Job) (outcome : Outcome) :
    (chain.poll outcome).1.left = chain.left - 1 := by
  obtain ⟨running, waiting⟩ := chain
  cases running with
  | some job => simp [Chain.poll, Chain.left]
  | none =>
    cases waiting with
    | nil => rfl
    | cons job rest =>
      simp only [Chain.poll, Chain.left, List.length_cons, Option.toList_some, Option.toList_none, List.length_nil]
      omega

theorem left_eq_zero {chain : Chain Job} : chain.left = 0 ↔ chain.running = none ∧ chain.waiting = [] := by
  obtain ⟨running, waiting⟩ := chain
  cases running <;> simp [Chain.left]

theorem left_set {chains : List (Chain Job)} {i : Nat} {chain : Chain Job} (at_i : chains[i]? = some chain)
    (moved : Chain Job) : left (chains.set i moved) + chain.left = left chains + moved.left := by
  induction chains generalizing i with
  | nil => simp at at_i
  | cons first rest ih =>
    cases i with
    | zero =>
      obtain rfl : first = chain := by simpa using at_i
      simp only [left, List.set_cons_zero, List.map_cons, List.sum_cons]
      omega
    | succ i =>
      have later := ih (by simpa using at_i)
      simp only [left, List.set_cons_succ, List.map_cons, List.sum_cons] at later ⊢
      omega

/-- While a chain is not through, some poll moves on, whatever its job comes to. -/
theorem exists_poll_lt {chains : List (Chain Job)} (unfinished : ¬ Finished chains) :
    ∃ i, ∀ outcome : Outcome, left (poll chains i outcome).1 < left chains := by
  simp only [Finished, not_forall] at unfinished
  obtain ⟨chain, member, owes⟩ := unfinished
  obtain ⟨i, at_i⟩ := List.mem_iff_getElem?.mp member
  refine ⟨i, fun outcome => ?_⟩
  have some := Nat.pos_of_ne_zero (fun zero => owes (left_eq_zero.mp zero))
  have moved := left_poll chain outcome
  have total := left_set at_i (chain.poll outcome).1
  simp only [poll, at_i]
  omega

/-- No poll makes more to do. -/
theorem left_poll_le (chains : List (Chain Job)) (i : Nat) (outcome : Outcome) :
    left (poll chains i outcome).1 ≤ left chains := by
  unfold poll
  cases at_i : chains[i]? with
  | none => exact le_rfl
  | some chain =>
    have moved := left_poll chain outcome
    have total := left_set at_i (chain.poll outcome).1
    simp only
    omega

/-- A poll that leaves as much to do leaves the chains as they are. -/
theorem poll_eq_self {chains : List (Chain Job)} {i : Nat} {outcome : Outcome}
    (same : left (poll chains i outcome).1 = left chains) : (poll chains i outcome).1 = chains := by
  unfold poll at same ⊢
  cases at_i : chains[i]? with
  | none => rfl
  | some chain =>
    simp only [at_i] at same ⊢
    have moved := left_poll chain outcome
    have total := left_set at_i (chain.poll outcome).1
    obtain ⟨running, waiting⟩ := left_eq_zero.mp (show chain.left = 0 by omega)
    obtain ⟨bound, rfl⟩ := List.getElem?_eq_some_iff.mp at_i
    have stays : (chains[i].poll outcome).1 = chains[i] := by simp [Chain.poll, running, waiting]
    rw [stays, List.set_getElem_self]

/-- Polled fairly, the joined chains are through at some point, whatever the jobs come to. -/
theorem fair_finishes (schedule : Nat → Nat × Outcome) (fair : ∀ i n, ∃ m, n ≤ m ∧ (schedule m).1 = i)
    (c : Config (List (Chain Job)) (ChainEvent Job Outcome)) :
    ∃ n, Finished (machine.run c ((List.range n).map schedule)).state := by
  let at_ (n : Nat) : List (Chain Job) := (machine.run c ((List.range n).map schedule)).state
  have next (n : Nat) : at_ (n + 1) = (poll (at_ n) (schedule n).1 (schedule n).2).1 := by
    simp only [at_, List.range_succ, List.map_append, Machine.run_append]
    rfl
  obtain ⟨n, least⟩ : ∃ n, ∀ m, left (at_ n) ≤ left (at_ m) :=
    ⟨Function.argmin (fun n => left (at_ n)), fun m => Function.argmin_le (fun n => left (at_ n)) m⟩
  have stays (m : Nat) (later : n ≤ m) : at_ m = at_ n := by
    induction m, later using Nat.le_induction with
    | base => rfl
    | succ m later ih =>
      have moved := next m
      have most := left_poll_le (at_ m) (schedule m).1 (schedule m).2
      have same : left (poll (at_ m) (schedule m).1 (schedule m).2).1 = left (at_ m) := by
        apply le_antisymm most
        rw [← moved, ih]
        exact least (m + 1)
      rw [moved, poll_eq_self same, ih]
  refine ⟨n, ?_⟩
  by_contra unfinished
  obtain ⟨i, moves⟩ : ∃ i, ∀ outcome : Outcome, left (poll _ i outcome).1 < _ := exists_poll_lt unfinished
  obtain ⟨m, later, polled⟩ := fair i n
  have less := moves (schedule m).2
  rw [← polled, ← show at_ n = (machine.run c ((List.range n).map schedule)).state from rfl, ← stays m later,
    ← next m, stays m later] at less
  exact absurd (least (m + 1)) (Nat.not_le.mpr less)

end Chains

end MessageRelay.Library
