import DeclaredOptions.Text.Split

/-!
# Key names

A key name is a namespace and a path of segments. Its text is the namespace's label and the
segments, separated by slashes; in text, empty segments count for nothing. Segments are kept
non-empty and free of slashes, so that a name and its text determine each other.
-/

namespace DeclaredOptions

open Std

/-! ### Namespaces -/

/-- The namespaces a key can live in, in the order in which their keys sort. -/
inductive Namespace
  /-- Names that start with a slash; they stand for the same path in any namespace. -/
  | cascading
  /-- Declarations of a program's interface. -/
  | spec
  /-- Values found for the running program. -/
  | proc
  /-- Configuration of a directory. -/
  | dir
  /-- Configuration of a user. -/
  | user
  /-- Configuration of the whole system. -/
  | system
  deriving DecidableEq, Repr

namespace Namespace

/-- All namespaces, in order. -/
def all : List Namespace := [.cascading, .spec, .proc, .dir, .user, .system]

/-- The place of a namespace in the order. -/
def rank : Namespace → Nat
  | .cascading => 0
  | .spec => 1
  | .proc => 2
  | .dir => 3
  | .user => 4
  | .system => 5

/-- The text before the first slash of a name; nothing for cascading names. -/
def label : Namespace → String
  | .cascading => ""
  | .spec => "spec"
  | .proc => "proc"
  | .dir => "dir"
  | .user => "user"
  | .system => "system"

/-- The namespace with the given label. -/
def ofLabel? (label : String) : Option Namespace := all.find? fun n => n.label == label

theorem rank_injective {m n : Namespace} (h : m.rank = n.rank) : m = n := by
  cases m <;> cases n <;> simp_all [rank]

@[simp] theorem ofLabel?_label (n : Namespace) : ofLabel? n.label = some n := by
  cases n <;> decide

theorem label_of_ofLabel? {text : String} {n : Namespace} (h : ofLabel? text = some n) :
    n.label = text := by
  simpa using List.find?_some h

end Namespace

/-! ### Paths -/

/-- A path segment: non-empty and free of slashes. -/
def IsSegment (s : String) : Prop := s ≠ "" ∧ '/' ∉ s.toList

instance (s : String) : Decidable (IsSegment s) := inferInstanceAs (Decidable (_ ∧ _))

/-- The segments of a path; slashes in a row, at the start or at the end make none. -/
def segmentsOf (path : String) : List String := (Text.split '/' path).filter (· ≠ "")

theorem isSegment_of_mem_segmentsOf {path s : String} (h : s ∈ segmentsOf path) : IsSegment s := by
  rw [segmentsOf, List.mem_filter] at h
  exact ⟨by simpa using h.2, Text.not_mem_of_mem_split h.1⟩

/-! ### Names -/

/-- A namespace and a path in it. -/
@[ext]
structure KeyName where
  space : Namespace
  segments : List String
  valid : ∀ s ∈ segments, IsSegment s := by simp
  deriving DecidableEq

/-- Why a text is no key name. -/
inductive NameFault
  | empty
  | unknownNamespace (label : String)
  deriving DecidableEq, Repr

/-- The sentence that reports a fault. -/
def NameFault.message : NameFault → String
  | .empty => "key name must not be empty"
  | .unknownNamespace label => "unknown namespace '" ++ label ++ "' in key name"

namespace KeyName

/-- The path of a namespace's root is empty. -/
def root (space : Namespace) : KeyName := ⟨space, [], by simp⟩

instance : Inhabited KeyName := ⟨root .cascading⟩

/-- A name below this one; slashes in `path` separate segments. -/
def child (name : KeyName) (path : String) : KeyName where
  space := name.space
  segments := name.segments ++ segmentsOf path
  valid s h := (List.mem_append.1 h).elim (name.valid s) isSegment_of_mem_segmentsOf

/-- Reads a name. The part before the first slash is the namespace's label. -/
def parse (text : String) : Except NameFault KeyName :=
  match Text.cut? '/' text with
  | some (label, path) =>
    match Namespace.ofLabel? label with
    | some space => .ok ((root space).child path)
    | none => .error (.unknownNamespace label)
  | none =>
    if text = "" then .error .empty
    else match Namespace.ofLabel? text with
      | some space => .ok (root space)
      | none => .error (.unknownNamespace text)

/-- The text of a name. -/
def display (name : KeyName) : String :=
  match name.space, name.segments with
  | .cascading, segments => "/" ++ Text.join '/' segments
  | space, [] => space.label
  | space, segments => space.label ++ "/" ++ Text.join '/' segments

/-- The last segment; the empty text at a root. -/
def baseName (name : KeyName) : String := name.segments.getLastD ""

/-- The base name of a key that stands for a whole array. -/
def wildcard : String := "#"

/-- Whether the name stands for a whole array. -/
def IsWildcard (name : KeyName) : Prop := name.baseName = wildcard

instance (name : KeyName) : Decidable name.IsWildcard := inferInstanceAs (Decidable (_ = _))

/-- The same name without its last segment; a root has no parent. -/
def parent? (name : KeyName) : Option KeyName :=
  if name.segments = [] then none
  else some ⟨name.space, name.segments.dropLast,
    fun s h => name.valid s (List.dropLast_subset _ h)⟩

/-- The same path in another namespace. -/
def inSpace (name : KeyName) (space : Namespace) : KeyName := ⟨space, name.segments, name.valid⟩

/-! ### Position -/

/-- Whether `name` lies strictly below `top`. -/
def IsBelow (name top : KeyName) : Prop :=
  name.space = top.space ∧ top.segments <+: name.segments ∧
    top.segments.length < name.segments.length

instance (name top : KeyName) : Decidable (name.IsBelow top) :=
  inferInstanceAs (Decidable (_ ∧ _ ∧ _))

/-- Whether `name` is a child of `top`, not a deeper descendant. -/
def IsDirectlyBelow (name top : KeyName) : Prop :=
  name.IsBelow top ∧ name.segments.length = top.segments.length + 1

instance (name top : KeyName) : Decidable (name.IsDirectlyBelow top) :=
  inferInstanceAs (Decidable (_ ∧ _))

/-! ### Order -/

/-- Names sort by namespace, then segment by segment. -/
instance : Ord KeyName where
  compare := compareLex (compareOn fun n => n.space.rank) (compareOn KeyName.segments)

instance : TransOrd KeyName :=
  inferInstanceAs <| TransCmp <|
    compareLex (compareOn fun n : KeyName => n.space.rank) (compareOn KeyName.segments)

instance : LawfulEqOrd KeyName where
  eq_of_compare {a b} h := by
    obtain ⟨hspace, hsegments⟩ := compareLex_eq_eq.mp h
    exact KeyName.ext (Namespace.rank_injective (LawfulEqOrd.eq_of_compare hspace))
      (LawfulEqOrd.eq_of_compare hsegments)

/-- Names in order, equal ones side by side. -/
def sort (names : List KeyName) : List KeyName := names.mergeSort fun a b => (compare a b).isLE

end KeyName

end DeclaredOptions
