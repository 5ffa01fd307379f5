import DeclaredOptions.Proofs.ByteOrder
import DeclaredOptions.Proofs.FieldReading
import Mathlib.Logic.Function.Basic

/-!
# Scans of metadata

However the metadata of a key were changed, each name has the text that the last change of it left.
A scan below a path begins at the bytes of the path and a slash and ends at the first name that does
not begin with them. It passes over no entry that does: names with a common beginning stand together
in the order of bytes, and no name with it comes before the beginning itself
(`Key.listsBelow_changeAll`).
-/

namespace DeclaredOptions

open Std

/-! ### Changes of metadata -/

/-- A change of one entry of metadata. -/
inductive EntryChange
  | set (name text : String)
  | erase (name : String)
  deriving DecidableEq

/-- What texts become by a change: the name that is changed has the new text, or none. -/
def EntryChange.update (texts : String → Option String) : EntryChange → String → Option String
  | set name text => Function.update texts name (some text)
  | erase name => Function.update texts name none

namespace Key

/-- A key after a change of its metadata. -/
def change (key : Key) : EntryChange → Key
  | .set name text => key.setMetadata name text
  | .erase name => key.eraseMetadata name

/-- A key after changes of its metadata, made one after the other. -/
def changeAll (key : Key) (changes : List EntryChange) : Key := changes.foldl change key

lemma get?_change (key : Key) (entryChange : EntryChange) :
    (key.change entryChange).metadata.get? = entryChange.update key.metadata.get? := by
  cases entryChange with
  | set name text =>
    refine Function.eq_update_iff.mpr ⟨SortedMap.get?_set_self _ _ _, fun other hother => ?_⟩
    exact SortedMap.get?_set_of_ne _ hother.symm _
  | erase name =>
    refine Function.eq_update_iff.mpr ⟨SortedMap.get?_erase_self _ _, fun other hother => ?_⟩
    exact SortedMap.get?_erase_of_ne _ hother.symm

/-- The metadata have the texts that the changes make of the texts before, one after the other. -/
lemma get?_changeAll (key : Key) (changes : List EntryChange) :
    (key.changeAll changes).metadata.get? =
      changes.foldl EntryChange.update key.metadata.get? := by
  induction changes generalizing key with
  | nil => rfl
  | cons first changes ih =>
    rw [List.foldl_cons, ← get?_change]
    exact ih (key.change first)

end Key

/-! ### Scans in the order of bytes -/

namespace Metadata

/-- Whether the bytes of the name of an entry begin with those of a text. -/
def beginsWith (start : String) (entry : String × String) : Bool :=
  (Utf8.encode start).isPrefixOf (Utf8.encode entry.1)

lemma beginsWith_eq (start : String) (entry : String × String) :
    beginsWith start entry = start.toList.isPrefixOf entry.1.toList := by
  rw [Bool.eq_iff_iff, beginsWith, List.isPrefixOf_iff_prefix, List.isPrefixOf_iff_prefix,
    Utf8.encode_prefix_iff]

lemma beginsWith_iff {start : String} {entry : String × String} :
    beginsWith start entry ↔ ∃ rest, entry.1 = start ++ rest := by
  rw [beginsWith_eq, List.isPrefixOf_iff_prefix]
  constructor
  · rintro ⟨rest, hrest⟩
    exact ⟨.ofList rest, by rw [← String.toList_inj, ← hrest]; simp⟩
  · rintro ⟨rest, hrest⟩
    exact ⟨rest.toList, by rw [hrest, String.toList_append]⟩

/-- The entries of metadata from a name on are those whose names have no lesser bytes. -/
lemma atLeast_eq_filter (m : Metadata) (lower : String) : m.atLeast lower =
    m.toList.filter fun entry => ¬Utf8.encode entry.1 < Utf8.encode lower := by
  have hbefore (entry : String × String) :
      (compare entry.1 lower == .lt) = decide (Utf8.encode entry.1 < Utf8.encode lower) := by
    rw [Bool.eq_iff_iff, beq_iff_eq, decide_eq_true_eq, Utf8.encode_lt_iff]
  simp only [SortedBy.atLeast, hbefore, decide_not]
  apply SortedBy.dropWhile_eq_filter m.increasing
  intro a b hab ha
  rw [decide_eq_false_iff_not] at ha ⊢
  rw [← Utf8.encode_lt_iff] at hab
  exact fun hb => ha (List.lt_trans hab hb)

/-- Scans by characters are scans by bytes. -/
lemma below_eq_takeWhile (m : Metadata) (path : String) : m.below path =
    (m.toList.filter fun entry => ¬Utf8.encode entry.1 < Utf8.encode (path ++ "/")).takeWhile
      (beginsWith (path ++ "/")) := by
  rw [← atLeast_eq_filter, below, funext (beginsWith_eq _)]

lemma below_eq_filter_beginsWith (m : Metadata) (path : String) :
    m.below path = m.toList.filter (beginsWith (path ++ "/")) := by
  rw [below_eq_filter, funext (beginsWith_eq _)]

lemma pairwise_toList (m : Metadata) :
    m.toList.Pairwise fun a b => Utf8.encode a.1 < Utf8.encode b.1 := by
  simpa only [Utf8.encode_lt_iff] using m.increasing

end Metadata

/-! ### After any changes -/

namespace Key

/-- What a key whose metadata have some texts lists: all of them, and below a path those whose
names begin with the path and a slash, each once and in the order of bytes. A scan of the names with
no lesser bytes that ends at the first one that does not begin so yields just these. -/
structure ListsBelow (key : Key) (texts : String → Option String) (path : String) : Prop where
  mem_metadata : ∀ name text, (name, text) ∈ key.metadata.toList ↔ texts name = some text
  increasing_metadata : key.metadata.toList.Pairwise fun a b => Utf8.encode a.1 < Utf8.encode b.1
  scanned : key.metadata.below path =
    (key.metadata.toList.filter fun entry =>
      ¬Utf8.encode entry.1 < Utf8.encode (path ++ "/")).takeWhile
        (Metadata.beginsWith (path ++ "/"))
  filtered : key.metadata.below path =
    key.metadata.toList.filter (Metadata.beginsWith (path ++ "/"))
  mem_below : ∀ name text, (name, text) ∈ key.metadata.below path ↔
    (∃ rest, name = path ++ "/" ++ rest) ∧ texts name = some text
  increasing_below : (key.metadata.below path).Pairwise fun a b =>
    Utf8.encode a.1 < Utf8.encode b.1

/-- After any changes of its metadata, a key lists below any path all entries that are there, and
no others. -/
theorem listsBelow_changeAll (key : Key) (changes : List EntryChange) (path : String) :
    (key.changeAll changes).ListsBelow (changes.foldl EntryChange.update key.metadata.get?)
      path := by
  rw [← get?_changeAll]
  have hfiltered := (key.changeAll changes).metadata.below_eq_filter_beginsWith path
  have hincreasing := (key.changeAll changes).metadata.pairwise_toList
  constructor
  case mem_metadata => exact fun _ _ => SortedMap.mem_toList_iff
  case increasing_metadata => exact hincreasing
  case scanned => exact (key.changeAll changes).metadata.below_eq_takeWhile path
  case filtered => exact hfiltered
  case mem_below =>
    intro name text
    rw [hfiltered, List.mem_filter, SortedMap.mem_toList_iff, Metadata.beginsWith_iff, and_comm]
  case increasing_below =>
    rw [hfiltered]
    exact hincreasing.filter _

/-- Entries below a path among names that go on from it with characters on both sides of a slash. -/
example : ((({ name := .root .user } : Key).changeAll [.set "opt/é" "a", .set "opt0" "b",
    .set "opt" "c", .set "opt/" "d", .set "opt.x" "e", .set "/opt/x" "f", .set "opt/é" "g",
    .set "opt/x" "h", .erase "opt/x"]).metadata.below "opt") =
      [("opt/", "d"), ("opt/é", "g")] := by decide

end Key

end DeclaredOptions
