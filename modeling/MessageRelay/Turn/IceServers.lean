import MessageRelay.Send.StoreRows

/-! The ICE servers that are handed out of a provider's answer: one entry with every STUN url, then each TURN entry that
has a username and a credential, the allowance of TURN urls shared among them. -/

namespace MessageRelay.Turn
open MessageRelay.Session

/-- The most TURN urls forwarded. -/
def maxTurnUrls : Nat := 8

/-- `:53` somewhere with the url's end, its query or its path behind it. -/
def port53In : List Char → Bool
  | [] => false
  | c :: rest =>
    ([':', '5', '3'].isPrefixOf (c :: rest) && (rest.drop 2).head?.all (fun next => next = '?' || next = '/')) ||
      port53In rest

def onPort53 (url : String) : Bool := port53In url.toList

def schemeIs (url : String) (schemes : List String) : Bool :=
  schemes.any (fun s => s.toList.isPrefixOf (url.toList.map Char.toLower))

def isStunUrl (url : String) : Bool := schemeIs url ["stun:", "stuns:"]

def isTurnUrl (url : String) : Bool := schemeIs url ["turn:", "turns:"]

def nonEmpty (v : Value) : Option String := v.asStr.filter (fun s => s ≠ "")

def isObject : Value → Bool
  | .object _ => true
  | _ => false

/-- The urls an entry lists, those on port 53 left out. -/
def usableUrls (entry : Value) : List String :=
  let listed := match entry.get "urls" with
    | some (.array list) => list
    | some one => [one]
    | none => []
  (listed.filterMap Value.asStr).filter (fun u => !onPort53 u)

/-- An entry of the answer, its members in the order of their names. -/
def turnEntry (urls : List String) (username credential : String) : Value :=
  .object [("credential", .string credential), ("urls", .array (urls.map .string)), ("username", .string username)]

def stunEntry (urls : List String) : Value := .object [("urls", .array (urls.map .string))]

/-- What the entries gone through have come to. -/
structure Gathered where
  stun : List String
  turn : List Value
  usernames : List String
  turnUrls : Nat

namespace Gathered

def addStun (stun : List String) (url : String) : List String :=
  if isStunUrl url && !stun.contains url then stun ++ [url] else stun

/-- One entry: its STUN urls not yet listed, then its TURN urls as far as there is room, if it has what they need. -/
def add (acc : Gathered) (entry : Value) : Gathered :=
  let urls := usableUrls entry
  let acc := { acc with stun := urls.foldl addStun acc.stun }
  let these := (urls.filter isTurnUrl).take (maxTurnUrls - acc.turnUrls)
  match (entry.get "username").bind nonEmpty, (entry.get "credential").bind nonEmpty with
  | some username, some credential =>
    if these = [] then acc
    else
      { acc with
        turnUrls := acc.turnUrls + these.length
        turn := acc.turn ++ [turnEntry these username credential]
        usernames := if acc.usernames.contains username then acc.usernames else acc.usernames ++ [username] }
  | _, _ => acc

end Gathered

/-- The provider's entries: a list of them, or one. -/
def answerEntries (answer : Value) : List Value :=
  match answer.get "iceServers" with
  | some (.array list) => list
  | some (.object fields) => [.object fields]
  | _ => []

/-- The entries to hand out, and the TURN usernames among them. -/
def iceServers (answer : Value) : Except String (List Value × List String) :=
  let entries := answerEntries answer
  if entries.isEmpty then .error "Cloudflare TURN: the answer lists no ICE servers"
  else
    let gathered := (entries.filter isObject).foldl Gathered.add ⟨[], [], [], 0⟩
    if gathered.turn.isEmpty then .error "Cloudflare TURN: the answer has no TURN server"
    else .ok ((if gathered.stun.isEmpty then [] else [stunEntry gathered.stun]) ++ gathered.turn, gathered.usernames)

/-! What is handed out. -/

/-- The url names port 53, which browsers block. -/
def NamesPort53 (url : String) : Prop :=
  ∃ before after, url.toList = before ++ ':' :: '5' :: '3' :: after ∧ ∀ next ∈ after.head?, next = '?' ∨ next = '/'

theorem port53In_iff (chars : List Char) : port53In chars = true ↔
    ∃ before after, chars = before ++ ':' :: '5' :: '3' :: after ∧ ∀ next ∈ after.head?, next = '?' ∨ next = '/' := by
  induction chars with
  | nil => simp [port53In]
  | cons c rest ih =>
    rw [port53In, Bool.or_eq_true, ih]
    constructor
    · rintro (here | ⟨before, after, rfl, behind⟩)
      · rw [Bool.and_eq_true, List.isPrefixOf_iff_prefix] at here
        obtain ⟨⟨after, parts⟩, behind⟩ := here
        cases parts
        refine ⟨[], after, rfl, fun next first => ?_⟩
        have passed : after.head?.all (fun next => next = '?' || next = '/') = true := behind
        rw [Option.mem_def.mp first] at passed
        simpa using passed
      · exact ⟨c :: before, after, rfl, behind⟩
    · rintro ⟨before, after, parts, behind⟩
      cases before with
      | nil =>
        cases parts
        left
        rw [Bool.and_eq_true, List.isPrefixOf_iff_prefix]
        refine ⟨⟨after, rfl⟩, ?_⟩
        change after.head?.all (fun next => next = '?' || next = '/') = true
        cases first : after.head? with
        | none => rfl
        | some next => simpa using behind next first
      | cons d before =>
        cases parts
        exact .inr ⟨before, after, rfl, behind⟩

theorem onPort53_iff (url : String) : onPort53 url = true ↔ NamesPort53 url := port53In_iff url.toList

/-- The urls of an entry as they are handed out. -/
def entryUrls (entry : Value) : List String :=
  match entry.get "urls" with
  | some (.array items) => items.filterMap Value.asStr
  | _ => []

theorem filterMap_asStr (urls : List String) : (urls.map Value.string).filterMap Value.asStr = urls := by
  rw [List.filterMap_map]
  exact List.filterMap_some

@[simp] theorem entryUrls_turnEntry (urls : List String) (username credential : String) :
    entryUrls (turnEntry urls username credential) = urls := filterMap_asStr urls

@[simp] theorem entryUrls_stunEntry (urls : List String) : entryUrls (stunEntry urls) = urls := filterMap_asStr urls

/-- An entry a peer can use: TURN urls, with a username and a credential. -/
structure TurnServer (entry : Value) (username : String) : Prop where
  urls : ∃ u ∈ entryUrls entry, isTurnUrl u = true
  named : entry.get "username" = some (.string username)
  written : username ≠ ""
  credential : ∃ credential, credential ≠ "" ∧ entry.get "credential" = some (.string credential)

/-- What the accumulators keep from entry to entry. -/
structure Gathered.Fit (acc : Gathered) : Prop where
  stun : ∀ u ∈ acc.stun, onPort53 u = false ∧ isStunUrl u = true
  turn : ∀ entry ∈ acc.turn, (∃ username ∈ acc.usernames, TurnServer entry username) ∧
    ∀ u ∈ entryUrls entry, onPort53 u = false
  named : ∀ username ∈ acc.usernames, ∃ entry ∈ acc.turn, TurnServer entry username
  counted : ((acc.turn.flatMap entryUrls)).length = acc.turnUrls
  bounded : acc.turnUrls ≤ maxTurnUrls

theorem usable_of_mem {entry : Value} {u : String} (member : u ∈ usableUrls entry) : onPort53 u = false := by
  have passed := (List.mem_filter.mp member).2
  simpa using passed

theorem foldl_addStun_fit {urls stun : List String} (usable : ∀ u ∈ urls, onPort53 u = false)
    (fit : ∀ u ∈ stun, onPort53 u = false ∧ isStunUrl u = true) :
    ∀ u ∈ urls.foldl Gathered.addStun stun, onPort53 u = false ∧ isStunUrl u = true := by
  induction urls generalizing stun with
  | nil => exact fit
  | cons url rest ih =>
    refine ih (fun u member => usable u (List.mem_cons_of_mem _ member)) (fun u member => ?_)
    rw [Gathered.addStun] at member
    split at member
    · next fresh =>
      rw [Bool.and_eq_true] at fresh
      rcases List.mem_append.mp member with before | last
      · exact fit u before
      · rw [List.mem_singleton.mp last]
        exact ⟨usable url List.mem_cons_self, fresh.1⟩
    · exact fit u member

theorem of_nonEmpty {v : Option Value} {s : String} (read : v.bind nonEmpty = some s) : v = some (.string s) ∧ s ≠ "" := by
  obtain ⟨w, rfl, kept⟩ := Option.bind_eq_some_iff.mp read
  obtain ⟨text, written⟩ := Option.filter_eq_some_iff.mp kept
  cases w with
  | string t =>
    cases text
    exact ⟨rfl, by simpa using written⟩
  | null | bool | number | array | object => cases text

/-- An entry keeps the accumulators in order. -/
theorem Gathered.Fit.add {acc : Gathered} (fit : acc.Fit) (entry : Value) : (acc.add entry).Fit := by
  have stun := foldl_addStun_fit (fun u (member : u ∈ usableUrls entry) => usable_of_mem member) fit.stun
  have idle : Gathered.Fit { acc with stun := (usableUrls entry).foldl addStun acc.stun } :=
    ⟨stun, fit.turn, fit.named, fit.counted, fit.bounded⟩
  rw [Gathered.add]
  split
  · next username credential named credited =>
    split
    · exact idle
    · next these =>
      obtain ⟨-, written⟩ := of_nonEmpty named
      obtain ⟨-, written'⟩ := of_nonEmpty credited
      obtain ⟨urls, taken⟩ : ∃ urls, urls = ((usableUrls entry).filter isTurnUrl).take (maxTurnUrls - acc.turnUrls) :=
        ⟨_, rfl⟩
      have kept : ∀ u ∈ urls, onPort53 u = false ∧ isTurnUrl u = true := by
        intro u member
        rw [taken] at member
        obtain ⟨inside, turn⟩ := List.mem_filter.mp (List.mem_of_mem_take member)
        exact ⟨usable_of_mem inside, turn⟩
      have server : TurnServer (turnEntry urls username credential) username := by
        obtain ⟨u, member⟩ := List.exists_mem_of_ne_nil urls (taken ▸ these)
        refine ⟨⟨u, ?_, (kept u member).2⟩, rfl, written, credential, written', rfl⟩
        rwa [entryUrls_turnEntry]
      have wider {name : String} (member : name ∈ acc.usernames) :
          name ∈ (if acc.usernames.contains username then acc.usernames else acc.usernames ++ [username]) := by
        split
        · exact member
        · exact List.mem_append_left _ member
      have listed : username ∈ (if acc.usernames.contains username then acc.usernames else acc.usernames ++ [username]) := by
        split
        · next there => exact List.contains_iff_mem.mp there
        · exact List.mem_append_right _ List.mem_cons_self
      rw [← taken]
      refine ⟨stun, ?_, ?_, ?_, ?_⟩
      · intro e member
        rcases List.mem_append.mp member with before | last
        · obtain ⟨⟨name, known, served⟩, usable⟩ := fit.turn e before
          exact ⟨⟨name, wider known, served⟩, usable⟩
        · cases List.mem_singleton.mp last
          refine ⟨⟨username, listed, server⟩, ?_⟩
          rw [entryUrls_turnEntry]
          exact fun u inside => (kept u inside).1
      · intro name member
        have cases' : name ∈ acc.usernames ∨ name = username := by
          dsimp only at member
          split at member
          · exact .inl member
          · exact (List.mem_append.mp member).imp_right List.mem_singleton.mp
        rcases cases' with before | rfl
        · obtain ⟨e, inside, served⟩ := fit.named name before
          exact ⟨e, List.mem_append_left _ inside, served⟩
        · exact ⟨_, List.mem_append_right _ List.mem_cons_self, server⟩
      · rw [List.flatMap_append, List.length_append, fit.counted]
        simp
      · have room : urls.length ≤ maxTurnUrls - acc.turnUrls := taken ▸ List.length_take_le _ _
        have bound := fit.bounded
        change acc.turnUrls + urls.length ≤ maxTurnUrls
        omega
  · exact idle

theorem Gathered.fit_foldl (entries : List Value) {acc : Gathered} (fit : acc.Fit) : (entries.foldl add acc).Fit := by
  induction entries generalizing acc with
  | nil => exact fit
  | cons entry rest ih => exact ih (fit.add entry)

theorem Gathered.fit_start : Gathered.Fit ⟨[], [], [], 0⟩ :=
  ⟨List.forall_mem_nil _, List.forall_mem_nil _, List.forall_mem_nil _, rfl, Nat.zero_le _⟩

theorem stun_not_turn {u : String} (stun : isStunUrl u = true) : isTurnUrl u = false := by
  rw [Bool.eq_false_iff]
  intro turn
  have starts {schemes : List String} {c : Char} (all : ∀ s ∈ schemes, s.toList.head? = some c)
      (held : schemeIs u schemes = true) : (u.toList.map Char.toLower).head? = some c := by
    obtain ⟨s, member, front⟩ := List.any_eq_true.mp held
    obtain ⟨rest, parts⟩ := List.isPrefixOf_iff_prefix.mp front
    rw [← parts, List.head?_append, all s member]
    rfl
  have one := starts (c := 's') (by decide) stun
  have other := starts (c := 't') (by decide) turn
  rw [one] at other
  exact absurd other (by decide)

/-- What is handed out of a provider's answer. -/
structure Handed (ice : List Value) (usernames : List String) : Prop where
  ports : ∀ entry ∈ ice, ∀ u ∈ entryUrls entry, ¬ NamesPort53 u
  few : ((ice.flatMap entryUrls).filter isTurnUrl).length ≤ maxTurnUrls
  served : ∃ entry ∈ ice, ∃ username, TurnServer entry username
  listed : ∀ entry ∈ ice, ∀ name, entry.get "username" = some (.string name) → name ∈ usernames
  named : ∀ name ∈ usernames, ∃ entry ∈ ice, TurnServer entry name

theorem Gathered.Fit.handed {acc : Gathered} (fit : acc.Fit) (some' : acc.turn ≠ []) :
    Handed ((if acc.stun.isEmpty then [] else [stunEntry acc.stun]) ++ acc.turn) acc.usernames := by
  have split' {entry : Value} (member : entry ∈ (if acc.stun.isEmpty then [] else [stunEntry acc.stun]) ++ acc.turn) :
      entry = stunEntry acc.stun ∨ entry ∈ acc.turn := by
    refine (List.mem_append.mp member).imp_left (fun front => ?_)
    split at front
    · cases front
    · exact List.mem_singleton.mp front
  have stunless : ((if acc.stun.isEmpty then [] else [stunEntry acc.stun]).flatMap entryUrls).filter isTurnUrl = [] := by
    split
    · rfl
    · rw [List.flatMap_singleton, entryUrls_stunEntry, List.filter_eq_nil_iff]
      intro u member
      rw [stun_not_turn (fit.stun u member).2]
      decide
  constructor
  · intro entry member u inside port
    rw [← onPort53_iff] at port
    rcases split' member with rfl | turn
    · rw [entryUrls_stunEntry] at inside
      rw [(fit.stun u inside).1] at port
      cases port
    · rw [(fit.turn entry turn).2 u inside] at port
      cases port
  · rw [List.flatMap_append, List.filter_append, stunless, List.nil_append]
    calc ((acc.turn.flatMap entryUrls).filter isTurnUrl).length
        ≤ (acc.turn.flatMap entryUrls).length := List.length_filter_le _ _
      _ = acc.turnUrls := fit.counted
      _ ≤ maxTurnUrls := fit.bounded
  · obtain ⟨entry, member⟩ := List.exists_mem_of_ne_nil _ some'
    obtain ⟨⟨username, -, server⟩, -⟩ := fit.turn entry member
    exact ⟨entry, List.mem_append_right _ member, username, server⟩
  · intro entry member name named
    rcases split' member with rfl | turn
    · cases named
    · obtain ⟨⟨username, known, server⟩, -⟩ := fit.turn entry turn
      rw [server.named, Option.some.injEq, Value.string.injEq] at named
      exact named ▸ known
  · intro name member
    obtain ⟨entry, inside, server⟩ := fit.named name member
    exact ⟨entry, List.mem_append_right _ inside, server⟩

theorem iceServers_handed {answer : Value} {ice : List Value} {usernames : List String}
    (made : iceServers answer = .ok (ice, usernames)) : Handed ice usernames := by
  have fit := Gathered.fit_foldl ((answerEntries answer).filter isObject) Gathered.fit_start
  rw [iceServers] at made
  dsimp only at made
  split at made
  · cases made
  · split at made
    · cases made
    · next some' =>
      rw [List.isEmpty_iff] at some'
      cases made
      exact fit.handed some'

end MessageRelay.Turn
