import DeclaredOptions.Name
import Mathlib.Tactic.Common

/-!
# The order of names

Within a namespace, names sort segment by segment. A name comes right before all its descendants
(`lt_child`), and the children of a name sort like their last segments (`compare_child_child`).
-/

namespace DeclaredOptions

open Std

/-- Texts sort by their characters. -/
lemma Text.compare_eq_lt_iff {s t : String} : compare s t = .lt ↔ s.toList < t.toList :=
  compareOfLessAndEq_eq_lt

/-- A common beginning of two lists does not matter to their order. -/
lemma Text.compare_append_left {α : Type} [Ord α] [ReflOrd α] (l xs ys : List α) :
    compare (l ++ xs) (l ++ ys) = compare xs ys := by
  induction l with
  | nil => rfl
  | cons a l ih => simp [ih]

/-- A segment is a path of its own. -/
lemma segmentsOf_of_isSegment {s : String} (h : IsSegment s) : segmentsOf s = [s] := by
  have hsplit : Text.split '/' s = [s] := by
    rw [Text.split, List.splitOn_eq_singleton h.2]
    simp
  simp [segmentsOf, hsplit, h.1]

namespace KeyName

/-! ### Children and parents -/

@[simp] lemma space_child (name : KeyName) (path : String) :
    (name.child path).space = name.space := rfl

@[simp] lemma space_inSpace (name : KeyName) (space : Namespace) :
    (name.inSpace space).space = space := rfl

lemma segments_child {s : String} (name : KeyName) (h : IsSegment s) :
    (name.child s).segments = name.segments ++ [s] :=
  congrArg (name.segments ++ ·) (segmentsOf_of_isSegment h)

lemma baseName_child {s : String} (name : KeyName) (h : IsSegment s) :
    (name.child s).baseName = s := by
  simp [baseName, segments_child name h]

lemma child_inj {s t : String} {m n : KeyName} (hs : IsSegment s) (ht : IsSegment t) :
    m.child s = n.child t ↔ m = n ∧ s = t := by
  constructor
  · intro h
    have hsegments := congrArg KeyName.segments h
    rw [segments_child m hs, segments_child n ht] at hsegments
    obtain ⟨hparent, hlast⟩ := List.append_inj' hsegments rfl
    have hspace : (m.child s).space = (n.child t).space := by rw [h]
    exact ⟨KeyName.ext hspace hparent, by simpa using hlast⟩
  · rintro ⟨rfl, rfl⟩
    rfl

lemma parent?_child {s : String} (name : KeyName) (h : IsSegment s) :
    (name.child s).parent? = some name := by
  have hsegments := segments_child name h
  simp only [parent?, hsegments]
  simp

/-- A name with a parent is the child of it that its last segment names. -/
lemma eq_child_of_parent? {name parent : KeyName} (h : name.parent? = some parent) :
    name = parent.child name.baseName := by
  rw [parent?] at h
  split at h
  · cases h
  · rename_i hne
    cases h
    have hbase : name.baseName = name.segments.getLast hne := by
      rw [baseName, List.getLastD_eq_getLast?, List.getLast?_eq_some_getLast hne]
      rfl
    have hsegment : IsSegment name.baseName := by
      rw [hbase]
      exact name.valid _ (List.getLast_mem hne)
    apply KeyName.ext
    · rfl
    · rw [segments_child _ hsegment, hbase]
      exact (List.dropLast_concat_getLast hne).symm

lemma isSegment_wildcard : IsSegment wildcard := by decide

/-- The key of a whole array stands below the name of the array. -/
lemma IsWildcard.exists_parent {name : KeyName} (h : name.IsWildcard) :
    ∃ parent : KeyName, name = parent.child wildcard := by
  cases hparent : name.parent? with
  | none =>
    have hnil : name.segments = [] := by simpa [parent?] using hparent
    have hbase : name.baseName = "" := by simp [baseName, hnil]
    exact absurd (hbase.symm.trans h) (by decide)
  | some parent =>
    refine ⟨parent, ?_⟩
    rw [← (h : name.baseName = wildcard)]
    exact eq_child_of_parent? hparent

/-! ### Order -/

lemma compare_eq_compare_segments {m n : KeyName} (h : m.space = n.space) :
    compare m n = compare m.segments n.segments := by
  have hrank : compare m.space.rank n.space.rank = .eq := by simp [h]
  change (compare m.space.rank n.space.rank).then (compare m.segments n.segments) = _
  rw [hrank]
  rfl

/-- Paths sort alike in every namespace. -/
lemma compare_inSpace {m n : KeyName} (h : m.space = n.space) (space : Namespace) :
    compare (m.inSpace space) (n.inSpace space) = compare m n := by
  rw [compare_eq_compare_segments h]
  exact compare_eq_compare_segments rfl

/-- A name comes before its children. -/
lemma lt_child {s : String} (name : KeyName) (h : IsSegment s) :
    compare name (name.child s) = .lt := by
  have hspace : name.space = (name.child s).space := rfl
  have hlt : compare (name.segments ++ []) (name.segments ++ [s]) = .lt := by
    rw [Text.compare_append_left]
    rfl
  rw [compare_eq_compare_segments hspace, segments_child name h]
  rwa [List.append_nil] at hlt

/-- The children of a name sort like their last segments. -/
lemma compare_child_child {s t : String} (name : KeyName) (hs : IsSegment s) (ht : IsSegment t) :
    compare (name.child s) (name.child t) = compare s t := by
  have hspace : (name.child s).space = (name.child t).space := rfl
  rw [compare_eq_compare_segments hspace, segments_child name hs, segments_child name ht,
    Text.compare_append_left]
  simp

end KeyName

end DeclaredOptions
