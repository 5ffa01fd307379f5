import DeclaredOptions.Name
import DeclaredOptions.Proofs.Entries
import Mathlib.Tactic.Common

/-!
# Names and their texts

The path of a name joined with slashes splits into the same segments (`segmentsOf_join`), and a path
after another one adds its segments to theirs (`segmentsOf_append`). So a name is read back from its
text (`parse_display`), and appending a slash and a path to the text gives the name of the child.
The text of a name is the normal form of all texts that are read as this name (`agreesWithText`).
-/

namespace DeclaredOptions

/-! ### Paths -/

/-- Paths with a slash between them have the segments of both. -/
lemma segmentsOf_append (path more : String) :
    segmentsOf (path ++ "/" ++ more) = segmentsOf path ++ segmentsOf more := by
  have htext : (path ++ "/" ++ more).toList = path.toList ++ '/' :: more.toList := by simp
  have hsplit : Text.split '/' (path ++ "/" ++ more) =
      Text.split '/' path ++ Text.split '/' more := by
    rw [Text.split, htext, List.splitOn_append_cons_self, List.map_append]
    rfl
  rw [segmentsOf, hsplit, List.filter_append]
  rfl

/-- The segments of a path are read back from it. -/
lemma segmentsOf_join {segments : List String} (h : ∀ s ∈ segments, IsSegment s) :
    segmentsOf (Text.join '/' segments) = segments := by
  by_cases hnil : segments = []
  · subst hnil
    rfl
  · rw [segmentsOf, Text.split_join hnil fun s hs => (h s hs).2, List.filter_eq_self]
    intro s hs
    simpa using (h s hs).1

namespace Namespace

/-- Labels are free of slashes. -/
lemma slash_notMem_label (space : Namespace) : '/' ∉ space.label.toList := by
  cases space <;> decide

lemma label_ne_empty {space : Namespace} (h : space ≠ .cascading) : space.label ≠ "" := by
  cases space
  case cascading => exact absurd rfl h
  all_goals decide

end Namespace

namespace KeyName

variable {name other : KeyName} {space : Namespace}

/-! ### Reading -/

/-- What follows a label and a slash is a path below the root. -/
lemma parse_label_append (space : Namespace) (path : String) :
    parse (space.label ++ "/" ++ path) = .ok ((root space).child path) := by
  have hcut : Text.cut? '/' (space.label ++ "/" ++ path) = some (space.label, path) :=
    Text.cut?_eq_some_iff.mpr ⟨space.slash_notMem_label, rfl⟩
  rw [parse, hcut]
  simp only [Namespace.ofLabel?_label]

/-- A label alone is the root; the empty one needs a slash. -/
lemma parse_label (h : space ≠ .cascading) : parse space.label = .ok (root space) := by
  have hcut : Text.cut? '/' space.label = none :=
    Text.cut?_eq_none_iff.mpr space.slash_notMem_label
  rw [parse, hcut]
  simp only [if_neg (Namespace.label_ne_empty h), Namespace.ofLabel?_label]

/-! ### Displaying -/

/-- Only the text of a root other than the cascading one goes without a slash. -/
lemma display_eq (h : name.space = .cascading ∨ name.segments ≠ []) :
    name.display = name.space.label ++ "/" ++ Text.join '/' name.segments := by
  unfold display
  split
  · rename_i hspace
    rw [hspace]
    rfl
  · rename_i hnil hspace
    exact absurd hnil (h.resolve_left hspace)
  · rfl

lemma display_root (h : space ≠ .cascading) : (root space).display = space.label := by
  cases space
  case cascading => exact absurd rfl h
  all_goals rfl

lemma child_join (name : KeyName) :
    (root name.space).child (Text.join '/' name.segments) = name :=
  KeyName.ext rfl (segmentsOf_join name.valid)

lemma child_append (path more : String) :
    name.child (path ++ "/" ++ more) = (name.child path).child more := by
  apply KeyName.ext
  · rfl
  · show name.segments ++ segmentsOf (path ++ "/" ++ more) =
      name.segments ++ segmentsOf path ++ segmentsOf more
    rw [segmentsOf_append, List.append_assoc]

lemma eq_root (h : name.segments = []) : name = root name.space := KeyName.ext rfl h

/-- A name is read back from its text. -/
lemma parse_display (name : KeyName) : parse name.display = .ok name := by
  by_cases h : name.space = .cascading ∨ name.segments ≠ []
  · rw [display_eq h, parse_label_append, child_join]
  · obtain ⟨hspace, hnil⟩ := not_or.mp h
    rw [eq_root (not_not.mp hnil), display_root hspace, parse_label hspace]

/-- A slash and a path after the text of a name lead to its child. -/
lemma parse_display_append (name : KeyName) (path : String) :
    parse (name.display ++ "/" ++ path) = .ok (name.child path) := by
  by_cases h : name.space = .cascading ∨ name.segments ≠ []
  · have htext : name.display ++ "/" ++ path =
        name.space.label ++ "/" ++ (Text.join '/' name.segments ++ "/" ++ path) := by
      rw [display_eq h]
      simp only [String.append_assoc]
    rw [htext, parse_label_append, child_append, child_join]
  · obtain ⟨hspace, hnil⟩ := not_or.mp h
    rw [eq_root (not_not.mp hnil), display_root hspace, parse_label_append]

/-- Names with the same text are equal. -/
lemma display_injective (h : name.display = other.display) : name = other := by
  have hparse := parse_display name
  rw [h, parse_display other] at hparse
  cases hparse
  rfl

/-! ### Built names -/

/-- Names that are read from text, and their children, parents and namesakes. -/
inductive Built : KeyName → Prop
  | parse {text : String} {name : KeyName} (h : KeyName.parse text = .ok name) : Built name
  | child {name : KeyName} (h : Built name) (path : String) : Built (name.child path)
  | parent {name parent : KeyName} (h : Built name) (hparent : name.parent? = some parent) :
      Built parent
  | inSpace {name : KeyName} (h : Built name) (space : Namespace) : Built (name.inSpace space)

/-- The text that a name is displayed by, instead of one that is read as this name. -/
def normalForm (text : String) : Except NameFault String := (KeyName.parse text).map display

/-- A name and its text determine each other. -/
structure AgreesWithText (name : KeyName) : Prop where
  built : Built name
  segments : ∀ s ∈ name.segments, s ≠ "" ∧ '/' ∉ s.toList
  parse : KeyName.parse name.display = .ok name
  child : ∀ path, KeyName.parse (name.display ++ "/" ++ path) = .ok (name.child path)
  normalForm : ∀ text, normalForm text = .ok name.display ↔ KeyName.parse text = .ok name
  unique : ∀ other, name.display = other.display ↔ name = other

lemma normalForm_eq_ok_iff {text : String} :
    normalForm text = .ok name.display ↔ parse text = .ok name := by
  rw [normalForm]
  cases parse text with
  | error fault => simp [Except.map]
  | ok other =>
    simp only [Except.map, Except.ok.injEq]
    constructor
    · exact display_injective
    · rintro rfl
      rfl

/-- All names can be built, and each agrees with its text. -/
theorem agreesWithText (name : KeyName) : name.AgreesWithText where
  built := .parse (parse_display name)
  segments := name.valid
  parse := parse_display name
  child := parse_display_append name
  normalForm _ := normalForm_eq_ok_iff
  unique _ := by
    constructor
    · exact display_injective
    · rintro rfl
      rfl

end KeyName

end DeclaredOptions
