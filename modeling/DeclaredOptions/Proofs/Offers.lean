import DeclaredOptions.Resolution
import DeclaredOptions.Proofs.Declarations
import DeclaredOptions.Proofs.Steps
import Mathlib.Data.List.ReduceOption
import Mathlib.Tactic.Common

/-!
# What is given to a binding

Of what a source offers only that counts which is given (`Inputs.given`). The first source that
gives something decides (`resolveFrom_of_nil`, `resolveFrom_of_singleton`), and where the sources
offer the same, resolution comes to the same (`resolve_congr`). So an option that is given alone is
the origin of the value (`resolve_of_option`), and without options so is a variable that alone has
a value (`resolve_of_variable`).
-/

namespace DeclaredOptions

open Steps

/-- What a single item gives is all that is given. -/
lemma filterMap_eq_singleton {α β : Type} {items : List α} {f : α → Option β} {a : α} {b : β}
    (hnodup : items.Nodup) (ha : a ∈ items) (hb : f a = some b)
    (hrest : ∀ c ∈ items, c ≠ a → f c = none) : items.filterMap f = [b] := by
  obtain ⟨before, after, rfl⟩ := List.append_of_mem ha
  have hnotin : a ∉ before ++ after := (List.nodup_middle.mp hnodup).notMem
  have hnone : ∀ c ∈ before ++ after, f c = none := by
    intro c hc
    apply hrest
    · simp only [List.mem_append, List.mem_cons] at hc ⊢
      exact hc.imp_right Or.inr
    · rintro rfl
      exact hnotin hc
  obtain ⟨hbefore, hafter⟩ := List.forall_mem_append.mp hnone
  rw [List.filterMap_append, List.filterMap_cons_some hb, List.filterMap_eq_nil_iff.mpr hbefore,
    List.filterMap_eq_nil_iff.mpr hafter]
  rfl

/-- The source that an option belongs to. -/
def OptionName.source (name : OptionName) : Source :=
  if name.isShort then .shortOption else .longOption

namespace Inputs

variable {inputs inputs' : Inputs} {binding : Binding} {name : OptionName}

/-! ### The deciding source -/

/-- What a source gives to a binding, in the order of declaration. -/
def given (inputs : Inputs) (binding : Binding) (source : Source) : List Resolution :=
  (inputs.offers binding source).reduceOption

lemma choose_some (key : KeyName) (first : Resolution) (offers : List (Option Resolution)) :
    choose key (some first) offers = match offers.reduceOption with
      | [] => .ok (some first)
      | second :: _ =>
        .error (.illegalUse second.origin (.conflictingSource first.origin key.display)) := by
  induction offers with
  | nil => rfl
  | cons offer offers ih =>
    cases offer with
    | none => rw [List.reduceOption_cons_of_none, ← ih]; rfl
    | some offer => rfl

/-- The only thing given is chosen, and a second one conflicts with the first. -/
lemma choose_none (key : KeyName) (offers : List (Option Resolution)) :
    choose key none offers = match offers.reduceOption with
      | [] => .ok none
      | [only] => .ok (some only)
      | first :: second :: _ =>
        .error (.illegalUse second.origin (.conflictingSource first.origin key.display)) := by
  induction offers with
  | nil => rfl
  | cons offer offers ih =>
    cases offer with
    | none => rw [List.reduceOption_cons_of_none, ← ih]; rfl
    | some first =>
      rw [choose, choose_some, List.reduceOption_cons_of_some]
      cases offers.reduceOption <;> rfl

lemma resolveFrom_of_nil {source : Source} {sources : List Source}
    (h : inputs.given binding source = []) :
    inputs.resolveFrom binding (source :: sources) = inputs.resolveFrom binding sources := by
  have hchoose : choose binding.key none (inputs.offers binding source) = .ok none := by
    rw [choose_none, show (inputs.offers binding source).reduceOption = [] from h]
  rw [resolveFrom, hchoose]
  rfl

lemma resolveFrom_of_singleton {source : Source} {sources : List Source} {resolution : Resolution}
    (h : inputs.given binding source = [resolution]) :
    inputs.resolveFrom binding (source :: sources) = .ok (some resolution) := by
  have hchoose :
      choose binding.key none (inputs.offers binding source) = .ok (some resolution) := by
    rw [choose_none, show (inputs.offers binding source).reduceOption = [resolution] from h]
  rw [resolveFrom, hchoose]
  rfl

/-- Where short options decide, long ones do not matter. -/
lemma resolve_congr
    (hshort : inputs.offers binding .shortOption = inputs'.offers binding .shortOption)
    (hlong : choose binding.key none (inputs.offers binding .shortOption) = .ok none →
      inputs.offers binding .longOption = inputs'.offers binding .longOption)
    (henvironment : inputs.offers binding .environment = inputs'.offers binding .environment)
    (hpositional : inputs.offers binding .positional = inputs'.offers binding .positional) :
    inputs.resolve binding = inputs'.resolve binding := by
  simp only [resolve, Source.precedence, resolveFrom, ← hshort, ← henvironment, ← hpositional]
  cases hchoose : choose binding.key none (inputs.offers binding .shortOption) with
  | error failure => rfl
  | ok found =>
    cases found with
    | some resolution => rfl
    | none => rw [hlong hchoose]

/-! ### Options -/

lemma exists_ofOption_of_gives (h : inputs.line.log.Gives name) (kind : Kind) (source : Source) :
    ∃ resolution, inputs.ofOption kind source name = some resolution ∧
      resolution.origin = name.display := by
  have hvalues : inputs.line.log.values name ≠ [] := by
    simpa [OptionLog.values, OptionLog.Gives] using h
  obtain ⟨value, values, hvalues⟩ := List.exists_cons_of_ne_nil hvalues
  cases kind <;> simp [ofOption, hvalues]

lemma ofOption_eq_none {kind : Kind} {source : Source}
    (h : ¬inputs.line.log.Gives name) : inputs.ofOption kind source name = none := by
  have hvalues : inputs.line.log.values name = [] := by
    simpa [OptionLog.values, OptionLog.Gives] using h
  cases kind <;> simp [ofOption, hvalues]

/-- What selected options of a binding give. -/
lemma reduceOption_map_ofOption {selects : OptionSpec → Bool} {source : Source}
    {option : OptionSpec} {resolution : Resolution}
    (hnodup : (optionNames binding.options).Nodup) (hoption : option ∈ binding.options)
    (hselects : selects option)
    (honly : ∀ other, inputs.line.log.Gives other → other = option.name)
    (hoffer : inputs.ofOption binding.key.kind source option.name = some resolution) :
    ((binding.options.filter selects).map fun option =>
      inputs.ofOption binding.key.kind source option.name).reduceOption = [resolution] := by
  rw [List.reduceOption, List.filterMap_map]
  apply filterMap_eq_singleton
  · exact (hnodup.of_map _).filter _
  · exact List.mem_filter.mpr ⟨hoption, hselects⟩
  · exact hoffer
  · intro other hother hne
    apply ofOption_eq_none
    intro hgives
    have hmem := (List.mem_filter.mp hother).1
    exact hne (List.inj_on_of_nodup_map hnodup hmem hoption (honly _ hgives))

lemma reduceOption_map_ofOption_eq_nil {selects : OptionSpec → Bool} {source : Source}
    (h : ∀ option ∈ binding.options, selects option → ¬inputs.line.log.Gives option.name) :
    ((binding.options.filter selects).map fun option =>
      inputs.ofOption binding.key.kind source option.name).reduceOption = [] := by
  rw [List.reduceOption, List.filterMap_map, List.filterMap_eq_nil_iff]
  intro option hoption
  obtain ⟨hmem, hselects⟩ := List.mem_filter.mp hoption
  exact ofOption_eq_none (h option hmem hselects)

/-- An option that is given alone is the origin of the value. -/
lemma resolve_of_option {option : OptionSpec} {resolution : Resolution}
    (hnodup : (optionNames binding.options).Nodup) (hoption : option ∈ binding.options)
    (honly : ∀ other, inputs.line.log.Gives other → other = option.name)
    (hoffer : inputs.ofOption binding.key.kind option.name.source option.name = some resolution) :
    inputs.resolve binding = .ok (some resolution) := by
  by_cases hshort : option.name.isShort
  · rw [OptionName.source, if_pos hshort] at hoffer
    exact resolveFrom_of_singleton
      (reduceOption_map_ofOption hnodup hoption hshort honly hoffer)
  · rw [OptionName.source, if_neg hshort] at hoffer
    have hnone : inputs.given binding .shortOption = [] := by
      apply reduceOption_map_ofOption_eq_nil
      intro other _ hother hgives
      rw [honly _ hgives] at hother
      exact hshort hother
    rw [resolve, Source.precedence, resolveFrom_of_nil hnone]
    exact resolveFrom_of_singleton
      (reduceOption_map_ofOption hnodup hoption (by simpa using hshort) honly hoffer)

/-! ### Variables -/

/-- Where no option of a binding is given, a variable that alone has a value is the origin. -/
lemma resolve_of_variable {name : String} {resolution : Resolution}
    (hlog : ∀ option ∈ binding.options, ¬inputs.line.log.Gives option.name)
    (hnodup : binding.envVars.Nodup) (hname : name ∈ binding.envVars)
    (honly : ∀ other ∈ binding.envVars, other ≠ name → inputs.environment.get? other = none)
    (hoffer : inputs.ofVariable binding.key.kind name = some resolution) :
    inputs.resolve binding = .ok (some resolution) := by
  have hshort : inputs.given binding .shortOption = [] :=
    reduceOption_map_ofOption_eq_nil fun option hoption _ => hlog option hoption
  have hlong : inputs.given binding .longOption = [] :=
    reduceOption_map_ofOption_eq_nil fun option hoption _ => hlog option hoption
  have hvariables : inputs.given binding .environment = [resolution] := by
    rw [given, offers, List.reduceOption, List.filterMap_map]
    refine filterMap_eq_singleton hnodup hname hoffer fun other hother hne => ?_
    simp [ofVariable, honly other hother hne]
  rw [resolve, Source.precedence, resolveFrom_of_nil hshort, resolveFrom_of_nil hlong]
  exact resolveFrom_of_singleton hvariables

end Inputs

end DeclaredOptions
