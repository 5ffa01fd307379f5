import DeclaredOptions.Document
import DeclaredOptions.Proofs.Filing
import DeclaredOptions.Proofs.JsonText
import DeclaredOptions.Proofs.NameText
import Mathlib.Tactic.Common

/-!
# Documents are read back

The value that is written for a key holds its name as a text, its value, and its metadata unless
there is none; each of them is read back from there (`key?_ofKey`). So the document of a key set is
read as the same key set (`read?_write`).
-/

namespace DeclaredOptions.Document

open Json

/-! ### Written values -/

/-- Metadata as an object. -/
def ofMetadata (m : Metadata) : Json :=
  .object (m.toList.map fun entry => (some entry.1, text entry.2))

lemma isSpelled_ofMetadata (m : Metadata) : IsSpelled (ofMetadata m) := by
  apply isSpelled_object
  · rw [List.forall_mem_map]
    exact fun entry _ => rfl
  · rw [List.forall_mem_map]
    exact fun entry _ => isSpelled_text entry.2

lemma ofKey_of_isEmpty {key : Key} (h : key.metadata.isEmpty) : ofKey key =
    .object [(some "name", text key.name.display), (some "value", text key.value)] := by
  rw [ofKey, if_pos h, List.append_nil]

lemma ofKey_of_not_isEmpty {key : Key} (h : ¬key.metadata.isEmpty) : ofKey key =
    .object [(some "name", text key.name.display), (some "value", text key.value),
      (some "meta", ofMetadata key.metadata)] := by
  rw [ofKey, if_neg h]
  rfl

lemma isSpelled_ofKey (key : Key) : IsSpelled (ofKey key) := by
  have hname : IsSpelled (text key.name.display) := isSpelled_text _
  have hvalue : IsSpelled (text key.value) := isSpelled_text _
  by_cases h : key.metadata.isEmpty
  · rw [ofKey_of_isEmpty h]
    apply isSpelled_object <;> simp [hname, hvalue]
  · rw [ofKey_of_not_isEmpty h]
    apply isSpelled_object <;> simp [hname, hvalue, isSpelled_ofMetadata]

/-- A document is read as the values that were written for the keys. -/
lemma parse?_write (keys : KeySet) :
    parse? (write keys) = some (.array (keys.toList.map ofKey)) := by
  apply IsSpelled.parse?_compact
  apply isSpelled_array
  rw [List.forall_mem_map]
  exact fun key _ => isSpelled_ofKey key

/-! ### Keys -/

/-- What is read back item by item is read back as a list. -/
lemma mapM_map {α β : Type} {f : α → β} {g : β → Option α} (h : ∀ a, g (f a) = some a)
    (items : List α) : (items.map f).mapM g = some items := by
  rw [List.mapM_map, show g ∘ f = fun a => pure a from funext h, List.mapM_pure]
  simp

lemma metadata?_ofMetadata (m : Metadata) : metadata? (ofMetadata m) = some m := by
  have hentries := mapM_map (g := entry?) (f := fun entry => (some entry.1, text entry.2))
    (fun _ => rfl) m.toList
  rw [ofMetadata, metadata?, hentries, Option.map_some, SortedBy.ofList_toList]

/-- A key is put together again from its name, its value and, where there is any, its metadata. -/
lemma assemble?_texts (name : KeyName) (value : String) (m : Metadata) (written : Option Json)
    (h : (written.map metadata?).getD (some ∅) = some m) :
    assemble? (text name.display) (some (text value)) written = some ⟨name, value, m⟩ := by
  simp only [assemble?, h]
  simp [text, text?, KeyName.parse_display, Except.toOption]

/-- A key is read back from the value that is written for it. -/
lemma key?_ofKey (key : Key) : key? (ofKey key) = some key := by
  by_cases h : key.metadata.isEmpty
  · have hempty : key.metadata = ∅ := SortedBy.ext (List.isEmpty_iff.mp h)
    have hkey := assemble?_texts key.name key.value ∅ none rfl
    rw [← hempty] at hkey
    rw [ofKey_of_isEmpty h]
    simpa [key?, valuesOf] using hkey
  · have hkey := assemble?_texts key.name key.value key.metadata
      (some (ofMetadata key.metadata)) (metadata?_ofMetadata key.metadata)
    rw [ofKey_of_not_isEmpty h]
    simpa [key?, valuesOf] using hkey

/-! ### Key sets -/

/-- The document of a key set is read, and as the same key set. -/
theorem read?_write (keys : KeySet) : read? (write keys) = some keys := by
  have hkeys := mapM_map key?_ofKey keys.toList
  rw [read?, parse?_write, Option.bind_some, keys?, hkeys, Option.map_some,
    SortedBy.ofList_toList]

end DeclaredOptions.Document
