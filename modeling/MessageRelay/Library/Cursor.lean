import Mathlib

/-! Readers over a byte string with a place in it, as a program with bounded words runs them: a reader goes on, finds the
bytes too short, or stops the program. -/

namespace MessageRelay.Library.Cursor

/-- Why a reader does not go on. A loop is `endless` where it had more rounds than it was allowed. -/
inductive Stop where
  | short
  | panic
  | endless
  deriving DecidableEq, Repr

def Reader (α : Type) := List UInt8 → Nat → Except Stop (α × Nat)

namespace Reader

variable {α β : Type}

instance : Monad Reader where
  pure v := fun _ place => .ok (v, place)
  bind r next := fun bytes place =>
    match r bytes place with
    | .ok (v, place) => next v bytes place
    | .error stop => .error stop

def place : Reader Nat := fun _ place => .ok (place, place)

def fail (stop : Stop) : Reader α := fun _ _ => .error stop

/-- A loop of so many rounds, of which it may run no more than the fuel. -/
def times (body : Reader Unit) : Nat → Nat → Reader Unit
  | _, 0 => pure ()
  | 0, _ + 1 => fail .endless
  | fuel + 1, rounds + 1 => do
    body
    times body fuel rounds

section
variable {r : Reader α} {next : α → Reader β} {bytes : List UInt8} {place : Nat}

theorem bind_of_ok {v : α} {later : Nat} (read : r bytes place = .ok (v, later)) :
    (r >>= next) bytes place = next v bytes later := by
  change (match r bytes place with
    | .ok (v, place) => next v bytes place
    | .error stop => .error stop) = _
  rw [read]

theorem bind_of_error {stop : Stop} (failed : r bytes place = .error stop) : (r >>= next) bytes place = .error stop := by
  change (match r bytes place with
    | .ok (v, place) => next v bytes place
    | .error stop => .error stop) = _
  rw [failed]

theorem bind_ok {out : β × Nat} (whole : (r >>= next) bytes place = .ok out) :
    ∃ v later, r bytes place = .ok (v, later) ∧ next v bytes later = .ok out := by
  cases read : r bytes place with
  | ok read' =>
    rw [bind_of_ok read] at whole
    exact ⟨read'.1, read'.2, rfl, whole⟩
  | error stop =>
    rw [bind_of_error read] at whole
    cases whole

end

/-- A reader of bytes no longer than `most`: it moves on within the bytes and never stops the program. -/
structure Sound (most : Nat) (r : Reader α) : Prop where
  advances : ∀ {bytes place v later}, r bytes place = .ok (v, later) → place ≤ bytes.length → bytes.length ≤ most →
    place ≤ later ∧ later ≤ bytes.length
  stops : ∀ {bytes place stop}, r bytes place = .error stop → place ≤ bytes.length → bytes.length ≤ most → stop = .short

/-- A reader that passes at least one byte. -/
def Moves (most : Nat) (r : Reader α) : Prop :=
  ∀ {bytes place v later}, r bytes place = .ok (v, later) → place ≤ bytes.length → bytes.length ≤ most → place < later

variable {most : Nat} {r : Reader α} {next : α → Reader β}

theorem sound_pure (v : α) : Sound most (pure v) where
  advances := by
    rintro bytes place v later ⟨⟩ inside -
    exact ⟨le_rfl, inside⟩
  stops := by
    rintro bytes place stop ⟨⟩

theorem Sound.bind (first : Sound most r) (second : ∀ v, Sound most (next v)) : Sound most (r >>= next) where
  advances := by
    intro bytes place w last whole inside small
    obtain ⟨v, later, read, ended⟩ := bind_ok whole
    obtain ⟨on, within⟩ := first.advances read inside small
    obtain ⟨on', within'⟩ := (second v).advances ended within small
    exact ⟨on.trans on', within'⟩
  stops := by
    intro bytes place stop failed inside small
    cases read : r bytes place with
    | ok read' =>
      rw [bind_of_ok read] at failed
      exact (second read'.1).stops failed (first.advances read inside small).2 small
    | error stop' =>
      rw [bind_of_error read] at failed
      cases failed
      exact first.stops read inside small

theorem Moves.bind (first : Moves most r) (sound : Sound most r) (second : ∀ v, Sound most (next v)) :
    Moves most (r >>= next) := by
  intro bytes place w last whole inside small
  obtain ⟨v, later, read, ended⟩ := bind_ok whole
  have within := (sound.advances read inside small).2
  exact (first read inside small).trans_le ((second v).advances ended within small).1

section
variable {body : Reader Unit} (sound : Sound most body) (moves : Moves most body)
include sound

theorem Sound.advances_times {fuel rounds : Nat} {bytes : List UInt8} {place later : Nat}
    (read : times body fuel rounds bytes place = .ok ((), later)) (inside : place ≤ bytes.length)
    (small : bytes.length ≤ most) : place ≤ later ∧ later ≤ bytes.length := by
  induction fuel generalizing rounds place with
  | zero =>
    cases rounds with
    | zero => exact (sound_pure ()).advances read inside small
    | succ rounds => cases read
  | succ fuel ih =>
    cases rounds with
    | zero => exact (sound_pure ()).advances read inside small
    | succ rounds =>
      rw [times] at read
      obtain ⟨⟨⟩, next, first, rest⟩ := bind_ok read
      obtain ⟨on, within⟩ := sound.advances first inside small
      obtain ⟨on', within'⟩ := ih rest within
      exact ⟨on.trans on', within'⟩

include moves

/-- Rounds that all move on end before as many as there are bytes left have run. -/
theorem Sound.stops_times {fuel rounds : Nat} {bytes : List UInt8} {place : Nat} {stop : Stop}
    (failed : times body fuel rounds bytes place = .error stop) (inside : place ≤ bytes.length)
    (small : bytes.length ≤ most) (enough : bytes.length - place < fuel) : stop = .short := by
  induction fuel generalizing rounds place with
  | zero => exact absurd enough (Nat.not_lt_zero _)
  | succ fuel ih =>
    cases rounds with
    | zero => cases failed
    | succ rounds =>
      rw [times] at failed
      cases read : body bytes place with
      | ok read' =>
        obtain ⟨⟨⟩, later⟩ := read'
        rw [bind_of_ok read] at failed
        have on := moves read inside small
        have within := (sound.advances read inside small).2
        exact ih failed within (by omega)
      | error stop' =>
        rw [bind_of_error read] at failed
        cases failed
        exact sound.stops read inside small

theorem Sound.times {fuel : Nat} (enough : most < fuel) (rounds : Nat) : Sound most (times body fuel rounds) where
  advances := fun read inside small => sound.advances_times read inside small
  stops := fun failed inside small => sound.stops_times moves failed inside small (by omega)

end

/-- The reader passes exactly this segment, wherever it stands, gives the value, and is short where the segment is cut. -/
structure Measures (most : Nat) (r : Reader α) (segment : List UInt8) (v : α) : Prop where
  reads : ∀ front rest : List UInt8, (front ++ (segment ++ rest)).length ≤ most →
    r (front ++ (segment ++ rest)) front.length = .ok (v, front.length + segment.length)
  cut : ∀ front part : List UInt8, part <+: segment → part ≠ segment → (front ++ part).length ≤ most →
    r (front ++ part) front.length = .error .short

/-- A cut of two segments is in the first or in the second. -/
theorem cut_append {part segment later : List UInt8} (cut : part <+: segment ++ later) (strict : part ≠ segment ++ later) :
    part <+: segment ∧ part ≠ segment ∨ ∃ part', part = segment ++ part' ∧ part' <+: later ∧ part' ≠ later := by
  have second (part' : List UInt8) (whole : part = segment ++ part') : part' <+: later ∧ part' ≠ later :=
    ⟨(List.prefix_append_right_inj segment).mp (whole ▸ cut), fun same => strict (same ▸ whole)⟩
  rcases List.prefix_or_prefix_of_prefix cut (List.prefix_append segment later) with short | ⟨part', whole⟩
  · by_cases same : part = segment
    · exact .inr ⟨[], by simpa using same, second [] (by simpa using same)⟩
    · exact .inl ⟨short, same⟩
  · exact .inr ⟨part', whole.symm, second part' whole.symm⟩

theorem Measures.bind {segment later : List UInt8} {v : α} {w : β} (first : Measures most r segment v)
    (second : Measures most (next v) later w) : Measures most (r >>= next) (segment ++ later) w where
  reads := by
    intro front rest small
    rw [List.append_assoc] at small ⊢
    have whole : front ++ (segment ++ (later ++ rest)) = front ++ segment ++ (later ++ rest) := by simp
    rw [bind_of_ok (first.reads front (later ++ rest) small), whole, ← List.length_append,
      second.reads (front ++ segment) rest (by rwa [← whole]), List.length_append, List.length_append, Nat.add_assoc]
  cut := by
    intro front part cut strict small
    obtain ⟨cut, strict⟩ | ⟨part, rfl, cut, strict⟩ := cut_append cut strict
    · exact bind_of_error (first.cut front part cut strict small)
    · have whole : front ++ (segment ++ part) = front ++ segment ++ part := (List.append_assoc ..).symm
      rw [bind_of_ok (first.reads front part small), whole, ← List.length_append]
      exact second.cut (front ++ segment) part cut strict (whole ▸ small)

section
variable {body : Reader Unit} {segments : List (List UInt8)}
  (each : ∀ segment ∈ segments, segment ≠ [] ∧ Measures most body segment ())
include each

theorem Measures.reads_times {fuel : Nat} {front rest : List UInt8}
    (small : (front ++ (segments.flatten ++ rest)).length ≤ most) (enough : segments.flatten.length < fuel) :
    times body fuel segments.length (front ++ (segments.flatten ++ rest)) front.length =
      .ok ((), front.length + segments.flatten.length) := by
  induction segments generalizing fuel front with
  | nil =>
    obtain ⟨fuel, rfl⟩ := Nat.exists_eq_succ_of_ne_zero (Nat.ne_of_gt enough)
    rfl
  | cons segment segments ih =>
    obtain ⟨fuel, rfl⟩ := Nat.exists_eq_succ_of_ne_zero (Nat.ne_of_gt (Nat.zero_lt_of_lt enough))
    obtain ⟨full, first⟩ := each segment List.mem_cons_self
    have moved := List.length_pos_iff.mpr full
    rw [List.flatten_cons, List.length_append] at enough
    rw [List.flatten_cons, List.append_assoc] at small ⊢
    have whole : front ++ (segment ++ (segments.flatten ++ rest)) = front ++ segment ++ (segments.flatten ++ rest) := by
      simp
    rw [List.length_cons, times, bind_of_ok (first.reads front _ small), whole, ← List.length_append,
      ih (fun later member => each later (List.mem_cons_of_mem _ member)) (whole ▸ small) (by omega),
      List.length_append, List.length_append, Nat.add_assoc]

theorem Measures.cut_times {fuel : Nat} {front part : List UInt8} (cut : part <+: segments.flatten)
    (strict : part ≠ segments.flatten) (small : (front ++ part).length ≤ most) (enough : part.length < fuel) :
    times body fuel segments.length (front ++ part) front.length = .error .short := by
  induction segments generalizing fuel front part with
  | nil => exact absurd (List.prefix_nil.mp cut) strict
  | cons segment segments ih =>
    obtain ⟨fuel, rfl⟩ := Nat.exists_eq_succ_of_ne_zero (Nat.ne_of_gt (Nat.zero_lt_of_lt enough))
    obtain ⟨full, first⟩ := each segment List.mem_cons_self
    have moved := List.length_pos_iff.mpr full
    rw [List.flatten_cons] at cut strict
    rw [List.length_cons, times]
    obtain ⟨cut, strict⟩ | ⟨part, rfl, cut, strict⟩ := cut_append cut strict
    · exact bind_of_error (first.cut front part cut strict small)
    · have whole : front ++ (segment ++ part) = front ++ segment ++ part := (List.append_assoc ..).symm
      rw [List.length_append] at enough
      rw [bind_of_ok (first.reads front part small), whole, ← List.length_append]
      exact ih (fun later member => each later (List.mem_cons_of_mem _ member)) cut strict (whole ▸ small) (by omega)

theorem Measures.times {fuel : Nat} (enough : most < fuel) :
    Measures most (times body fuel segments.length) segments.flatten () where
  reads := by
    intro front rest small
    have lengths := @List.length_append _ front (segments.flatten ++ rest)
    rw [@List.length_append _ segments.flatten] at lengths
    exact reads_times each small (by omega)
  cut := by
    intro front part cut strict small
    have lengths := @List.length_append _ front part
    exact cut_times each cut strict small (by omega)

end

end Reader

end MessageRelay.Library.Cursor
