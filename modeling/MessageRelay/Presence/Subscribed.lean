import MessageRelay.Presence.Subscribers

/-! Whom a broadcast reaches: a session whose heartbeat goes on, and not one whose stamps hold its refresh back. -/

namespace MessageRelay.Presence.Broadcast
open MessageRelay.Library MessageRelay.Session

/-! A session that stays. -/

def joinedAtZero : Watch := (watchStep unjoined ⟨0, .joined tipRoom true⟩).1

/-- A public key begins with a zero, so every identity is in the one shard. -/
theorem shardOf_pubkey {identity : String} (valid : Send.isValidPubkey identity = true) : shardOf identity = '0' := by
  simp only [Send.isValidPubkey, Bool.and_eq_true, Bool.or_eq_true, List.isPrefixOf_iff_prefix] at valid
  obtain ⟨⟨-, ⟨rest, written⟩ | ⟨rest, written⟩⟩, -⟩ := valid <;> rw [shardOf, ← written] <;> rfl

theorem registrable_pubkey {identity : String} (valid : Send.isValidPubkey identity = true) :
    registrable identity = true := by
  simp only [Send.isValidPubkey, Bool.and_eq_true, Bool.or_eq_true, List.isPrefixOf_iff_prefix] at valid
  obtain ⟨⟨size, front⟩, digits⟩ := valid
  rw [registrable, Bool.and_eq_true]
  refine ⟨size, ?_⟩
  rcases front with ⟨rest, written⟩ | ⟨rest, written⟩ <;>
    · rw [← written] at digits ⊢
      rw [List.all_append]
      exact Bool.and_eq_true_iff.mpr ⟨by decide, digits⟩

/-- The identity has an entry, the stamp is as far from it as the missed stamps allow, and the last ping came before
the next stamp was due. -/
structure Subscribed (gapMs : Nat) (identity : String) (entryMs stampMs : Nat) (w : Watch) : Prop where
  own : w.socket.identity = some identity
  stamped : w.socket.refreshedAtMs = some stampMs
  entered : (w.registry (shardOf identity)).find? identity = some ⟨identity, entryMs⟩
  near : stampMs ≤ entryMs + w.missed * (registryRefreshEveryMs + gapMs)
  pinged : w.pingMs < stampMs + registryRefreshEveryMs
  entryPast : entryMs ≤ w.clockMs
  pingPast : w.pingMs ≤ w.clockMs

/-- The clock goes on, pings come within the gap, few stamps in a row miss the registry, and a public room is held. -/
def Alive (gapMs lost : Nat) (c : Config Watch WatchEvent) (input : WatchInput) : Prop :=
  c.state.clockMs ≤ input.nowMs ∧ input.nowMs ≤ c.state.pingMs + gapMs ∧ c.state.missed ≤ lost ∧
    c.state.socket.joinedRooms.any isPublicRoom = true

instance (gapMs lost : Nat) (c : Config Watch WatchEvent) (input : WatchInput) : Decidable (Alive gapMs lost c input) :=
  inferInstanceAs (Decidable (_ ∧ _ ∧ _ ∧ _))

section Stays
variable {gapMs lost : Nat} {identity : String} {entryMs stampMs : Nat} {w : Watch}

theorem Subscribed.later (sub : Subscribed gapMs identity entryMs stampMs w) {nowMs : Nat}
    (forward : w.clockMs ≤ nowMs) : Subscribed gapMs identity entryMs stampMs { w with clockMs := nowMs } :=
  ⟨sub.own, sub.stamped, sub.entered, sub.near, sub.pinged, sub.entryPast.trans forward, sub.pingPast.trans forward⟩

/-- A stamp now starts the entry's time again, or is one more that missed it. -/
theorem subscribed_register (valid : registrable identity = true) (own : w.socket.identity = some identity)
    (stamped : w.socket.refreshedAtMs = some w.clockMs)
    (entered : (w.registry (shardOf identity)).find? identity = some ⟨identity, entryMs⟩)
    (near : w.clockMs ≤ entryMs + (w.missed + 1) * (registryRefreshEveryMs + gapMs)) (entryPast : entryMs ≤ w.clockMs)
    (pingPast : w.pingMs ≤ w.clockMs) {who : Option String} (self : ∀ other ∈ who, other = identity) (landed : Bool) :
    ∃ entryMs', Subscribed gapMs identity entryMs' w.clockMs (w.register who true landed).1 := by
  have soon : w.pingMs < w.clockMs + registryRefreshEveryMs :=
    Nat.lt_of_le_of_lt pingPast (Nat.lt_add_of_pos_right (by decide))
  cases who with
  | none => exact ⟨entryMs, own, stamped, entered, near, soon, entryPast, pingPast⟩
  | some other =>
    cases self other rfl
    cases landed with
    | false => exact ⟨entryMs, own, stamped, entered, near, soon, entryPast, pingPast⟩
    | true =>
      refine ⟨w.clockMs, own, stamped, ?_, Nat.le_add_right _ _, soon, le_rfl, pingPast⟩
      change (registerIdentity w.registry identity w.clockMs (shardOf identity)).find? identity = _
      rw [find?_registerIdentity, if_pos ⟨rfl, valid⟩]

theorem Subscribed.registered (valid : registrable identity = true)
    (sub : Subscribed gapMs identity entryMs stampMs w) (other : String) :
    ∃ entryMs', Subscribed gapMs identity entryMs' stampMs
      { w with registry := registerIdentity w.registry other w.clockMs } := by
  have entered := find?_registerIdentity w.registry other identity w.clockMs
  by_cases same : other = identity
  · rw [if_pos ⟨same, same ▸ valid⟩, same] at entered
    have near := sub.near.trans (Nat.add_le_add_right sub.entryPast _)
    exact ⟨w.clockMs, sub.own, sub.stamped, same ▸ entered, near, sub.pinged, le_rfl, sub.pingPast⟩
  · rw [if_neg (fun both => same both.1), sub.entered] at entered
    exact ⟨entryMs, sub.own, sub.stamped, entered, sub.near, sub.pinged, sub.entryPast, sub.pingPast⟩

/-- While pings come within the gap, the clock is one stamp's time from the last stamp. -/
theorem Subscribed.window (sub : Subscribed gapMs identity entryMs stampMs w) {nowMs : Nat}
    (ontime : nowMs ≤ w.pingMs + gapMs) : nowMs ≤ entryMs + (w.missed + 1) * (registryRefreshEveryMs + gapMs) := by
  have pinged := sub.pinged
  calc
    nowMs ≤ w.pingMs + gapMs := ontime
    _ ≤ stampMs + (registryRefreshEveryMs + gapMs) := by omega
    _ ≤ entryMs + w.missed * (registryRefreshEveryMs + gapMs) + (registryRefreshEveryMs + gapMs) :=
      Nat.add_le_add_right sub.near _
    _ = entryMs + (w.missed + 1) * (registryRefreshEveryMs + gapMs) := by rw [Nat.add_one_mul, Nat.add_assoc]

/-- The entry of a session that is alive is never stale. -/
theorem Subscribed.fresh (sub : Subscribed gapMs identity entryMs stampMs w) {log : List WatchEvent}
    {input : WatchInput} (alive : Alive gapMs lost ⟨w, log⟩ input)
    (fits : (lost + 1) * (registryRefreshEveryMs + gapMs) ≤ freshMs) :
    (⟨identity, entryMs⟩ : Subscriber).isFresh input.nowMs = true := by
  obtain ⟨-, ontime, few, -⟩ := alive
  have age := calc
    input.nowMs ≤ entryMs + (w.missed + 1) * (registryRefreshEveryMs + gapMs) := sub.window ontime
    _ ≤ entryMs + (lost + 1) * (registryRefreshEveryMs + gapMs) :=
      Nat.add_le_add_left (Nat.mul_le_mul_right _ (Nat.add_le_add_right few 1)) _
    _ ≤ entryMs + freshMs := Nat.add_le_add_left fits _
  rw [Subscriber.isFresh, decide_eq_true_iff]
  exact Nat.sub_le_iff_le_add'.mpr age

/-- A step of a session that is alive leaves it subscribed. -/
theorem Subscribed.step (valid : registrable identity = true) (sub : Subscribed gapMs identity entryMs stampMs w)
    {log : List WatchEvent} {input : WatchInput} (alive : Alive gapMs lost ⟨w, log⟩ input)
    (fits : (lost + 1) * (registryRefreshEveryMs + gapMs) ≤ freshMs) :
    ∃ entryMs stampMs, Subscribed gapMs identity entryMs stampMs (watchStep w input).1 := by
  have fresh := sub.fresh alive fits
  obtain ⟨nowMs, happening⟩ := input
  obtain ⟨forward, ontime, few, holds⟩ := alive
  simp only at fresh forward ontime few holds
  have later := sub.later forward
  have soon := sub.window ontime
  have own : ∀ other ∈ w.socket.identity, other = identity := fun other named =>
    (Option.some.inj (sub.own.symm.trans named)).symm
  cases happening with
  | pinged landed =>
    simp only [watchStep]
    have due : w.socket.due nowMs = decide (registryRefreshEveryMs ≤ nowMs - stampMs) := by
      rw [Subscription.due, holds, sub.stamped]
      rfl
    split
    · obtain ⟨entryMs', stays⟩ := @subscribed_register gapMs identity entryMs
        { w with
          clockMs := nowMs, pingMs := nowMs, socket := { w.socket with refreshedAtMs := some nowMs } }
        valid sub.own rfl sub.entered soon later.entryPast le_rfl w.socket.identity own landed
      exact ⟨entryMs', nowMs, stays⟩
    · rename_i waits
      refine ⟨entryMs, stampMs, sub.own, sub.stamped, sub.entered, sub.near, ?_, later.entryPast, le_rfl⟩
      rw [due, decide_eq_true_iff] at waits
      simp only
      omega
  | joined room landed =>
    simp only [watchStep]
    have who : ∀ other ∈ (if isPublicRoom room = true then w.socket.identity else none), other = identity := by
      intro other named
      split at named
      · exact own other named
      · cases named
    cases held : w.socket.joinedRooms.contains room with
    | false =>
      have joined : w.socket.joined room nowMs =
          { w.socket with joinedRooms := w.socket.joinedRooms ++ [room], refreshedAtMs := some nowMs } := by
        rw [Subscription.joined, held, if_neg Bool.false_ne_true]
      rw [joined]
      obtain ⟨entryMs', stays⟩ := @subscribed_register gapMs identity entryMs
        { w with
          clockMs := nowMs
          enteredMs := nowMs
          socket := { w.socket with joinedRooms := w.socket.joinedRooms ++ [room], refreshedAtMs := some nowMs } }
        valid sub.own rfl sub.entered soon later.entryPast later.pingPast _ who landed
      exact ⟨entryMs', nowMs, stays⟩
    | true =>
      rw [show w.socket.joined room nowMs = w.socket by rw [Subscription.joined, held, if_pos rfl]]
      generalize (if isPublicRoom room = true then w.socket.identity else none) = registers at who
      cases registers with
      | none => exact ⟨entryMs, stampMs, later⟩
      | some other =>
        cases who other rfl
        cases landed with
        | false => exact ⟨entryMs, stampMs, later⟩
        | true =>
          obtain ⟨entryMs', stays⟩ := later.registered valid identity
          exact ⟨entryMs', stampMs, stays⟩
  | left room =>
    exact ⟨entryMs, stampMs, sub.own, sub.stamped, sub.entered, sub.near, sub.pinged, later.entryPast, later.pingPast⟩
  | registered other =>
    obtain ⟨entryMs', stays⟩ := later.registered valid other
    exact ⟨entryMs', stampMs, stays⟩
  | broadcast reads pushes =>
    refine ⟨entryMs, stampMs, sub.own, sub.stamped, ?_, sub.near, sub.pinged, later.entryPast, later.pingPast⟩
    change (pruned w.registry reads nowMs (shardOf identity)).find? identity = _
    unfold pruned
    split
    · rw [prune, Table.find?_keep, sub.entered, Option.filter_some_pos]
      rw [fresh, Bool.true_or]
    · exact sub.entered

end Stays

/-- A broadcast that hears the identity's shard and is not cut is for the identity, and pushes to it where it ends in
time. -/
def Reached (identity : String) (reads : ShardReads) (pushes : Pushes) (listed : List String) : Prop :=
  reads.reached (shardOf identity) = true → reads.heard (shardOf identity) = true → listed.length ≤ fanoutCap →
    identity ∈ listed ∧ ∀ last, pushes.namespaced = true → fanOutBroadcast listed pushes = .ready last →
      (∀ now ∈ readings last.trace, now < pushes.startMs + fanoutWallBudgetMs) → (identity, 0) ∈ pushed listed last.trace

/-- An identity that is listed is pushed to by a fan-out that ends in time. -/
theorem pushed_of_listed {identity : String} {listed : List String} (member : identity ∈ listed)
    (whole : listed.length ≤ fanoutCap) {pushes : Pushes} (namespaced : pushes.namespaced = true) {last : Run}
    (done : fanOutBroadcast listed pushes = .ready last)
    (early : ∀ now ∈ readings last.trace, now < pushes.startMs + fanoutWallBudgetMs) :
    (identity, 0) ∈ pushed listed last.trace := by
  rw [fanOutBroadcast, if_pos namespaced, List.take_of_length_le whole] at done
  obtain ⟨i, inside, here⟩ := List.getElem_of_mem member
  exact mem_pushed.mpr ⟨i, List.getElem?_eq_some_iff.mpr ⟨inside, here⟩,
    fanOutWith_started _ _ _ _ _ done early inside⟩

theorem Subscribed.reached {gapMs lost : Nat} {identity : String} {entryMs stampMs : Nat}
    {c : Config Watch WatchEvent} {input : WatchInput} (sub : Subscribed gapMs identity entryMs stampMs c.state)
    (named : shardOf identity ∈ shardNames)
    (before : ∀ reads pushes nowMs listed, .fannedOut reads pushes nowMs listed ∈ c.log →
      Reached identity reads pushes listed)
    (alive : Alive gapMs lost c input) (fits : (lost + 1) * (registryRefreshEveryMs + gapMs) ≤ freshMs) :
    ∀ reads pushes nowMs listed, .fannedOut reads pushes nowMs listed ∈ (watchMachine.advance c input).log →
      Reached identity reads pushes listed := by
  intro reads pushes nowMs listed told
  rcases List.mem_append.mp told with old | now
  · exact before reads pushes nowMs listed old
  · rcases watchStep_cases c.state input with ⟨-, quiet⟩ | ⟨_, -, told'⟩ | ⟨reads', pushes', -, told'⟩
    · simp [watchMachine, quiet] at now
    · simp [watchMachine, told'] at now
    · simp only [watchMachine, told', List.mem_singleton] at now
      cases now
      intro reached heard whole
      have member : identity ∈ gathered c.state.registry reads input.nowMs :=
        mem_gathered.mpr ⟨_, named, reached, heard, _, ((Table.find?_eq_some _ _ _).mp sub.entered).1,
          sub.fresh alive fits, rfl⟩
      exact ⟨member, fun last namespaced done early => pushed_of_listed member whole namespaced done early⟩

/-- From a public room's join on, a session whose heartbeat goes on and whose stamps seldom miss the registry is
addressed by every broadcast that hears its shard and is not cut, and pushed to where the fan-out ends in time. -/
theorem subscriber_reached {gapMs lost : Nat} (fits : (lost + 1) * (registryRefreshEveryMs + gapMs) ≤ freshMs)
    {identity : String} (valid : Send.isValidPubkey identity = true) {w : Watch}
    (own : w.socket.identity = some identity) {room : String} (publicRoom : isPublicRoom room = true)
    (new : room ∉ w.socket.joinedRooms) {nowMs : Nat} (pingPast : w.pingMs ≤ nowMs) (inputs : List WatchInput)
    (alive : watchMachine.Guarded (Alive gapMs lost) ⟨(watchStep w ⟨nowMs, .joined room true⟩).1, []⟩ inputs) :
    ∀ reads pushes now listed,
      .fannedOut reads pushes now listed ∈
        (watchMachine.run ⟨(watchStep w ⟨nowMs, .joined room true⟩).1, []⟩ inputs).log →
      reads.reached '0' = true → reads.heard '0' = true → listed.length ≤ fanoutCap →
      identity ∈ listed ∧ ∀ last, pushes.namespaced = true → fanOutBroadcast listed pushes = .ready last →
        (∀ now ∈ readings last.trace, now < pushes.startMs + fanoutWallBudgetMs) →
        (identity, 0) ∈ pushed listed last.trace := by
  have shard := shardOf_pubkey valid
  have taken := registrable_pubkey valid
  have start : Subscribed gapMs identity nowMs nowMs (watchStep w ⟨nowMs, .joined room true⟩).1 := by
    have held : w.socket.joinedRooms.contains room = false := by simpa using new
    simp only [watchStep, publicRoom, if_true, own, held, Subscription.joined, Bool.not_false, Watch.register]
    refine ⟨rfl, rfl, ?_, Nat.le_add_right _ _, Nat.lt_of_le_of_lt pingPast (Nat.lt_add_of_pos_right (by decide)),
      le_rfl, pingPast⟩
    simp only [find?_registerIdentity, taken, and_self, if_true]
  have kept := @Machine.run_invariant _ _ _ watchMachine (Alive gapMs lost)
    (fun c => (∃ entryMs stampMs, Subscribed gapMs identity entryMs stampMs c.state) ∧
      ∀ reads pushes now listed, .fannedOut reads pushes now listed ∈ c.log → Reached identity reads pushes listed)
    (fun c input before now => by
      obtain ⟨⟨entryMs, stampMs, sub⟩, reached⟩ := before
      exact ⟨sub.step taken now fits, sub.reached (shard ▸ by decide) reached now fits⟩)
    ⟨(watchStep w ⟨nowMs, .joined room true⟩).1, []⟩ ⟨⟨nowMs, nowMs, start⟩, fun _ _ _ _ there => (by cases there)⟩
    inputs alive
  have reached := kept.2
  unfold Reached at reached
  rw [shard] at reached
  exact reached

theorem lostRefresh_reached :
    subscriberKey ∈ gathered (watchMachine.run ⟨joinedAtZero, []⟩ lostRefresh).state.registry everyShard 240000 := by
  have few : (gathered (watchMachine.run ⟨joinedAtZero, []⟩ lostRefresh).state.registry everyShard
      240000).length ≤ fanoutCap := by
    rw [length_gathered]
    decide +kernel
  have valid : Send.isValidPubkey subscriberKey = true := by decide +kernel
  refine (@subscriber_reached 50000 7 (by decide) subscriberKey valid unjoined rfl tipRoom (by decide +kernel)
    List.not_mem_nil 0 le_rfl (lostRefresh ++ [⟨240000, .broadcast everyShard slowHubs⟩]) (by decide +kernel) everyShard
    slowHubs 240000 _ ?_ rfl rfl few).1
  rw [Machine.run_append]
  exact broadcast_told _ everyShard slowHubs 240000

/-! A session that is not renewed. -/

/-- Each ping comes before the refresh is due by the last new room, no public room is joined, and nothing else registers
the identity. -/
def HeldBack (identity : String) (c : Config Watch WatchEvent) (input : WatchInput) : Prop :=
  match input.happening with
  | .pinged _ => input.nowMs < c.state.enteredMs + registryRefreshEveryMs
  | .joined room _ => isPublicRoom room = false
  | .left _ => True
  | .registered other => other ≠ identity
  | .broadcast _ _ => True

instance (identity : String) (c : Config Watch WatchEvent) (input : WatchInput) :
    Decidable (HeldBack identity c input) :=
  match input with
  | ⟨nowMs, .pinged _⟩ => inferInstanceAs (Decidable (nowMs < c.state.enteredMs + registryRefreshEveryMs))
  | ⟨_, .joined room _⟩ => inferInstanceAs (Decidable (isPublicRoom room = false))
  | ⟨_, .left _⟩ => .isTrue trivial
  | ⟨_, .registered other⟩ => inferInstanceAs (Decidable (other ≠ identity))
  | ⟨_, .broadcast _ _⟩ => .isTrue trivial

/-- The stamp is the last new room's, and the identity's entries are no later than the given time. -/
structure Waiting (identity : String) (entryMs : Nat) (w : Watch) : Prop where
  stamped : w.socket.refreshedAtMs = some w.enteredMs
  entered : ∀ shard, ∀ e ∈ (w.registry shard).rows, e.identity = identity → e.seenAtMs ≤ entryMs

/-- The confirmed join of a room new to the session stamps the refresh, whoever else registers and whatever the room. -/
theorem watchStep_entered (w : Watch) {room : String} (new : room ∉ w.socket.joinedRooms) (nowMs : Nat) (landed : Bool) :
    let w' := (watchStep w ⟨nowMs, .joined room landed⟩).1
    w'.socket.refreshedAtMs = some nowMs ∧ w'.enteredMs = nowMs := by
  have held : w.socket.joinedRooms.contains room = false := by simpa using new
  simp only [watchStep, held, Subscription.joined]
  generalize (if isPublicRoom room = true then w.socket.identity else none) = who
  cases who with
  | none => exact ⟨rfl, rfl⟩
  | some identity => cases landed <;> exact ⟨rfl, rfl⟩

theorem Waiting.step {identity : String} {entryMs : Nat} {w : Watch} (waiting : Waiting identity entryMs w)
    {log : List WatchEvent} {input : WatchInput} (held : HeldBack identity ⟨w, log⟩ input) :
    Waiting identity entryMs (watchStep w input).1 := by
  obtain ⟨nowMs, happening⟩ := input
  cases happening with
  | pinged landed =>
    -- The stamp is as late as the last new room, so the ping finds nothing due.
    have early : w.socket.due nowMs = false := by
      have soon : nowMs < w.enteredMs + registryRefreshEveryMs := held
      have positive : 0 < registryRefreshEveryMs := by decide
      rw [Subscription.due, waiting.stamped, registryRefreshDue, Bool.and_eq_false_iff]
      exact .inr (decide_eq_false (by omega))
    simp only [watchStep, early]
    exact ⟨waiting.stamped, waiting.entered⟩
  | joined room landed =>
    have quiet : isPublicRoom room = false := held
    by_cases new : room ∈ w.socket.joinedRooms
    · have there : w.socket.joinedRooms.contains room = true := by simpa using new
      simp only [watchStep, quiet, there, Subscription.joined]
      exact ⟨waiting.stamped, waiting.entered⟩
    · obtain ⟨stamped, entered⟩ := watchStep_entered w new nowMs landed
      refine ⟨stamped.trans (congrArg some entered.symm), ?_⟩
      simp only [watchStep, quiet]
      exact waiting.entered
  | left room => exact ⟨waiting.stamped, waiting.entered⟩
  | registered other =>
    refine ⟨waiting.stamped, fun shard e there self => ?_⟩
    rcases mem_registerIdentity there with old | ⟨rfl, -⟩
    · exact waiting.entered shard e old self
    · exact absurd self held
  | broadcast reads pushes =>
    exact ⟨waiting.stamped, fun shard e there self => waiting.entered shard e (mem_pruned there) self⟩

/-- The confirmed join of every new room stamps the refresh. From a public room's join on, a session that joins a new
private room before each refresh would be due is missed by every broadcast once its entry is stale, whatever pings it
answers. -/
theorem unrenewed_missed {identity : String} {w : Watch} {room : String} (new : room ∉ w.socket.joinedRooms)
    {entryMs : Nat} (landed : Bool)
    (past : ∀ shard, ∀ e ∈ (w.registry shard).rows, e.identity = identity → e.seenAtMs ≤ entryMs)
    (inputs : List WatchInput)
    (held : watchMachine.Guarded (HeldBack identity) ⟨(watchStep w ⟨entryMs, .joined room landed⟩).1, []⟩ inputs) :
    let c := watchMachine.run ⟨(watchStep w ⟨entryMs, .joined room landed⟩).1, []⟩ inputs
    c.state.socket.refreshedAtMs = some c.state.enteredMs ∧
      ∀ reads pushes nowMs listed, .fannedOut reads pushes nowMs listed ∈ c.log → entryMs + freshMs < nowMs →
        identity ∉ listed := by
  have start : Waiting identity entryMs (watchStep w ⟨entryMs, .joined room landed⟩).1 := by
    obtain ⟨stamped, entered⟩ := watchStep_entered w new entryMs landed
    refine ⟨stamped.trans (congrArg some entered.symm), ?_⟩
    intro shard e there self
    rcases watchStep_cases w ⟨entryMs, .joined room landed⟩ with ⟨same, -⟩ | ⟨other, registers, -⟩ | ⟨reads, _, prunes, -⟩
    · exact past shard e (same ▸ there) self
    · rw [registers] at there
      rcases mem_registerIdentity there with old | ⟨rfl, -⟩
      · exact past shard e old self
      · exact le_rfl
    · rw [prunes] at there
      exact past shard e (mem_pruned there) self
  have kept := @Machine.run_invariant _ _ _ watchMachine (HeldBack identity)
    (fun c => Waiting identity entryMs c.state ∧ ∀ reads pushes nowMs listed,
      .fannedOut reads pushes nowMs listed ∈ c.log → entryMs + freshMs < nowMs → identity ∉ listed)
    (fun c input before now => by
      obtain ⟨waiting, missed⟩ := before
      refine ⟨waiting.step now, ?_⟩
      intro reads pushes nowMs listed told late member
      rcases List.mem_append.mp told with old | new
      · exact missed reads pushes nowMs listed old late member
      · rcases watchStep_cases c.state input with ⟨-, quiet⟩ | ⟨_, -, told'⟩ | ⟨reads', pushes', -, told'⟩
        · simp [watchMachine, quiet] at new
        · simp [watchMachine, told'] at new
        · simp only [watchMachine, told', List.mem_singleton] at new
          cases new
          obtain ⟨shard, -, -, -, e, there, fresh, self⟩ := mem_gathered.mp member
          have old := waiting.entered shard e there self
          simp only [Subscriber.isFresh, decide_eq_true_iff] at fresh
          omega)
    ⟨(watchStep w ⟨entryMs, .joined room landed⟩).1, []⟩ ⟨start, fun _ _ _ _ there => (by cases there)⟩ inputs held
  exact ⟨kept.1.stamped, kept.2⟩

/-- A new room each time before a refresh is due. -/
def newRooms : List WatchInput :=
  (List.range 11).flatMap (fun k =>
    [⟨160000 * (k + 1), .pinged true⟩, ⟨160000 * (k + 1) + 1, .joined ("02bb-room-" ++ toString k) true⟩])

theorem newRooms_missed :
    subscriberKey ∉ gathered (watchMachine.run ⟨joinedAtZero, []⟩ newRooms).state.registry everyShard 1800001 := by
  unfold joinedAtZero
  obtain ⟨-, missed⟩ := @unrenewed_missed subscriberKey unjoined tipRoom List.not_mem_nil 0 true
    (fun _ _ there => (by cases there)) (newRooms ++ [⟨1800001, .broadcast everyShard slowHubs⟩]) (by decide +kernel)
  refine missed everyShard slowHubs 1800001 _ ?_ (by decide)
  rw [Machine.run_append]
  exact broadcast_told _ everyShard slowHubs 1800001

end MessageRelay.Presence.Broadcast
