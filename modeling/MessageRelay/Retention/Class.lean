import MessageRelay.Library.Joined
import MessageRelay.Library.Like
import MessageRelay.Database.Store

/-! The class of the retained boxes: the prefixes of the deployment as the routes test them, and as the patterns of the
statements that mark, delete and sweep. -/

namespace MessageRelay.Retention
open MessageRelay.Library MessageRelay.Database

structure RetentionConfig where
  prefixes : List String

namespace RetentionConfig

/-- The entries of a comma-separated list, trimmed, the empty ones dropped. -/
def parse (raw : Option String) : RetentionConfig :=
  ⟨((((raw.getD "").toList.splitOn ',').map trim).filter (· ≠ [])).map String.ofList⟩

def retains (cfg : RetentionConfig) (boxType : String) : Bool :=
  cfg.prefixes.any (fun p => p.toList.isPrefixOf boxType.toList)

def likePatterns (cfg : RetentionConfig) : List String :=
  cfg.prefixes.map (fun p => String.ofList (escapeLike p.toList ++ ['%']))

end RetentionConfig

/-- `(type LIKE ? ESCAPE '\' OR ...)`. -/
def typeFilter (patterns : List String) (boxType : String) : Bool :=
  patterns.any (fun p => like p.toList boxType.toList)

/-- The row's box is of a type the patterns match. -/
def retainedBoxExists (patterns : List String) (db : Store) (r : MessageRow) : Bool :=
  db.boxes.rows.any (fun b => b.messageBoxId = r.messageBoxId && typeFilter patterns b.boxType)

/-- The rows the two halves of an acknowledgment mark and delete, and those a sweep deletes. -/
def ackMarks (patterns : List String) (db : Store) (recipient : String) (ids : List String) (r : MessageRow) : Bool :=
  r.recipient = recipient && r.acknowledgedAt = none && r.messageId ∈ ids && retainedBoxExists patterns db r

def ackDeletes (patterns : List String) (db : Store) (recipient : String) (ids : List String) (r : MessageRow) : Bool :=
  r.recipient = recipient && r.messageId ∈ ids && (patterns.isEmpty || !retainedBoxExists patterns db r)

def sweepDeletes (patterns : List String) (db : Store) (cutoff : String) (r : MessageRow) : Bool :=
  r.createdAt < cutoff && retainedBoxExists patterns db r

/-- The row's one box is of this type. -/
def InBox (db : Store) (r : MessageRow) (boxType : String) : Prop :=
  (db.boxes.rows.filter (fun b => b.messageBoxId = r.messageBoxId)).map BoxRow.boxType = [boxType]

/-- The statements treat the rows of a box as the routes treat the box. -/
structure OneClass (cfg : RetentionConfig) (boxType : String) : Prop where
  filter : typeFilter cfg.likePatterns boxType = cfg.retains boxType
  marked : ∀ db r, InBox db r boxType → ∀ recipient ids, ackMarks cfg.likePatterns db recipient ids r =
    (r.recipient = recipient && r.acknowledgedAt = none && r.messageId ∈ ids && cfg.retains boxType)
  deleted : ∀ db r, InBox db r boxType → ∀ recipient ids, ackDeletes cfg.likePatterns db recipient ids r =
    (r.recipient = recipient && r.messageId ∈ ids && !cfg.retains boxType)
  swept : ∀ db r, InBox db r boxType → ∀ cutoff, sweepDeletes cfg.likePatterns db cutoff r =
    (r.createdAt < cutoff && cfg.retains boxType)

theorem typeFilter_likePatterns (cfg : RetentionConfig) (boxType : String) :
    typeFilter cfg.likePatterns boxType = cfg.prefixes.any (fun p => begins p.toList boxType.toList) := by
  simp [typeFilter, RetentionConfig.likePatterns, List.any_map, Function.comp_def, like_escapeLike]

/-- The one box of a row decides for it. -/
theorem retainedBoxExists_eq {patterns : List String} {db : Store} {r : MessageRow} {boxType : String}
    (inside : InBox db r boxType) : retainedBoxExists patterns db r = typeFilter patterns boxType := by
  have same : retainedBoxExists patterns db r =
      ((db.boxes.rows.filter (fun b => b.messageBoxId = r.messageBoxId)).map BoxRow.boxType).any
        (typeFilter patterns) := by
    simp [retainedBoxExists, List.any_map, List.any_filter, Function.comp_def]
  rw [same, inside]
  simp

/-- The acknowledgment of the database model asks the same of a row. -/
theorem inRetainedBox_eq (cfg : RetentionConfig) (db : Store) (r : MessageRow) :
    inRetainedBox cfg.prefixes db r = retainedBoxExists cfg.likePatterns db r := by
  simp [inRetainedBox, retainedBoxExists, typeFilter, likePrefix, RetentionConfig.likePatterns, List.any_map,
    Function.comp_def]

theorem retains_iff (cfg : RetentionConfig) (boxType : String) :
    cfg.retains boxType = true ↔ ∃ q ∈ cfg.prefixes, q.toList <+: boxType.toList := by
  simp [RetentionConfig.retains, List.any_eq_true]

/-- The statements follow the filter. -/
theorem oneClass_of_filter {cfg : RetentionConfig} {boxType : String}
    (same : typeFilter cfg.likePatterns boxType = cfg.retains boxType) : OneClass cfg boxType := by
  refine ⟨same, fun db r inside recipient ids => ?_, fun db r inside recipient ids => ?_,
    fun db r inside cutoff => ?_⟩
  · rw [ackMarks, retainedBoxExists_eq inside, same]
  · rw [ackDeletes, retainedBoxExists_eq inside, same]
    cases off : cfg.likePatterns.isEmpty with
    | true =>
      have none : cfg.prefixes = [] := by
        rw [RetentionConfig.likePatterns, List.isEmpty_iff, List.map_eq_nil_iff] at off
        exact off
      simp [RetentionConfig.retains, none]
    | false => rw [Bool.false_or]
  · rw [sweepDeletes, retainedBoxExists_eq inside, same]

/-- The filter is the routes' test exactly when no prefix matches the box in another case (or, where it holds a NUL,
only up to it) unless one begins the box. -/
theorem retained_class_iff (raw : Option String) (boxType : String) :
    OneClass (.parse raw) boxType ↔
      ∀ p ∈ (RetentionConfig.parse raw).prefixes, begins p.toList boxType.toList →
        ∃ q ∈ (RetentionConfig.parse raw).prefixes, q.toList <+: boxType.toList := by
  constructor
  · intro one p member matched
    rw [← retains_iff, ← one.filter, typeFilter_likePatterns, List.any_eq_true]
    exact ⟨p, member, matched⟩
  · intro exact
    apply oneClass_of_filter
    rw [Bool.eq_iff_iff, retains_iff, typeFilter_likePatterns, List.any_eq_true]
    constructor
    · rintro ⟨p, member, matched⟩
      exact exact p member matched
    · rintro ⟨q, member, part⟩
      exact ⟨q, member, begins_of_isPrefix part⟩

/-- The box is swept and marked as a retained one, and refused by the routes. -/
theorem other_case_not_one_class :
    (RetentionConfig.parse (some "low_game_")).prefixes = ["low_game_"] ∧
      typeFilter (RetentionConfig.parse (some "low_game_")).likePatterns "LOW_GAME_1" = true ∧
      (RetentionConfig.parse (some "low_game_")).retains "LOW_GAME_1" = false ∧
      ¬ OneClass (.parse (some "low_game_")) "LOW_GAME_1" := by
  have matched : typeFilter (RetentionConfig.parse (some "low_game_")).likePatterns "LOW_GAME_1" = true := by
    decide +kernel
  have refused : (RetentionConfig.parse (some "low_game_")).retains "LOW_GAME_1" = false := by decide +kernel
  refine ⟨by decide +kernel, matched, refused, fun one => ?_⟩
  have same := one.filter
  rw [matched, refused] at same
  cases same

end MessageRelay.Retention
