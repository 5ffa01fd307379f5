import DeclaredOptions.Resolution
import DeclaredOptions.Proofs.Steps
import Mathlib.Tactic.Common

/-!
# What resolution can return

A resolution is one of the offers of some source (`exists_offer_of_resolve`), so its value is a list
just for keys that stand for arrays (`kind_of_resolve`). The only way to fail is a conflict between
two offers (`resolve_eq_error`).
-/

namespace DeclaredOptions

open Steps

/-- The kind of key that a value is for. -/
def Value.kind : Value → Kind
  | .scalar _ => .single
  | .array _ => .array

namespace Inputs

/-! ### Choosing among offers -/

lemma choose_eq_ok {key : KeyName} {found result : Option Resolution}
    {offers : List (Option Resolution)} (h : choose key found offers = .ok result) :
    result = found ∨ result ∈ offers := by
  induction offers generalizing found with
  | nil =>
    cases h
    exact Or.inl rfl
  | cons offer offers ih =>
    match offer, found with
    | none, found =>
      rcases ih h with hfound | hmem
      · exact Or.inl hfound
      · exact Or.inr (List.mem_cons_of_mem _ hmem)
    | some offer, none =>
      rcases ih h with hfound | hmem
      · exact Or.inr (hfound ▸ List.mem_cons_self)
      · exact Or.inr (List.mem_cons_of_mem _ hmem)
    | some offer, some first => cases h

lemma choose_eq_error {key : KeyName} {found : Option Resolution}
    {offers : List (Option Resolution)} {failure : Failure}
    (h : choose key found offers = .error failure) :
    ∃ subject other, failure = .illegalUse subject (.conflictingSource other key.display) := by
  induction offers generalizing found with
  | nil => cases h
  | cons offer offers ih =>
    match offer, found with
    | none, found => exact ih h
    | some offer, none => exact ih h
    | some offer, some first =>
      cases h
      exact ⟨_, _, rfl⟩

/-! ### Going through the sources -/

variable {inputs : Inputs} {binding : Binding}

lemma resolveFrom_eq_ok {sources : List Source} {resolution : Resolution}
    (h : inputs.resolveFrom binding sources = .ok (some resolution)) :
    ∃ source ∈ sources, some resolution ∈ inputs.offers binding source := by
  induction sources with
  | nil => cases h
  | cons source sources ih =>
    obtain ⟨chosen, hchoose, hrest⟩ := bind_eq_ok_iff.mp h
    cases chosen with
    | some first =>
      cases hrest
      rcases choose_eq_ok hchoose with hfound | hmem
      · cases hfound
      · exact ⟨source, List.mem_cons_self, hmem⟩
    | none =>
      obtain ⟨other, hother, hmem⟩ := ih hrest
      exact ⟨other, List.mem_cons_of_mem _ hother, hmem⟩

lemma resolveFrom_eq_error {sources : List Source} {failure : Failure}
    (h : inputs.resolveFrom binding sources = .error failure) :
    ∃ subject other,
      failure = .illegalUse subject (.conflictingSource other binding.key.display) := by
  induction sources with
  | nil => cases h
  | cons source sources ih =>
    rcases bind_eq_error_iff.mp h with hchoose | ⟨chosen, _, hrest⟩
    · exact choose_eq_error hchoose
    · cases chosen with
      | some first => cases hrest
      | none => exact ih hrest

lemma exists_offer_of_resolve {resolution : Resolution}
    (h : inputs.resolve binding = .ok (some resolution)) :
    ∃ source, some resolution ∈ inputs.offers binding source := by
  obtain ⟨source, _, hmem⟩ := resolveFrom_eq_ok h
  exact ⟨source, hmem⟩

/-- Resolution fails only where two offers of one source conflict. -/
lemma resolve_eq_error {failure : Failure} (h : inputs.resolve binding = .error failure) :
    ∃ subject other, failure = .illegalUse subject (.conflictingSource other binding.key.display) :=
  resolveFrom_eq_error h

/-! ### Kinds of offers -/

lemma kind_of_ofOption {kind : Kind} {source : Source} {name : OptionName}
    {resolution : Resolution} (h : inputs.ofOption kind source name = some resolution) :
    resolution.value.kind = kind := by
  unfold ofOption at h
  split at h
  · cases h
  · cases h
    rfl
  · cases h
    rfl

lemma kind_of_ofVariable {kind : Kind} {name : String} {resolution : Resolution}
    (h : inputs.ofVariable kind name = some resolution) : resolution.value.kind = kind := by
  rw [ofVariable, Option.map_eq_some_iff] at h
  obtain ⟨value, _, rfl⟩ := h
  cases kind <;> rfl

lemma kind_of_mem_offers {source : Source} {resolution : Resolution}
    (hremaining : binding.remaining → binding.key.kind = .array)
    (h : some resolution ∈ inputs.offers binding source) :
    resolution.value.kind = binding.key.kind := by
  cases source with
  | shortOption | longOption =>
    obtain ⟨option, _, hoffer⟩ := List.mem_map.mp h
    exact kind_of_ofOption hoffer
  | environment =>
    obtain ⟨name, _, hoffer⟩ := List.mem_map.mp h
    exact kind_of_ofVariable hoffer
  | positional =>
    rw [offers] at h
    split at h
    · rename_i hcollects
      cases List.mem_singleton.mp h
      exact (hremaining hcollects).symm
    · cases h

/-- Just the keys that stand for arrays get lists. -/
lemma kind_of_resolve {resolution : Resolution}
    (hremaining : binding.remaining → binding.key.kind = .array)
    (h : inputs.resolve binding = .ok (some resolution)) :
    resolution.value.kind = binding.key.kind := by
  obtain ⟨source, hmem⟩ := exists_offer_of_resolve h
  exact kind_of_mem_offers hremaining hmem

end Inputs

end DeclaredOptions
