import DeclaredOptions.Proofs.NestedGuards

/-!
# Guards dropped from the first to the last

Several variables can be given values at once. If the guards of this are then dropped from the first
to the last, they do not nest: each variable keeps the last value but one that it was given
(`get?_passed`). So the environment is restored, whatever it was, just where no variable is given
two values (`passed_eq_iff`).
-/

namespace DeclaredOptions

namespace GuardedEnvironment

/-- Drops a number of guards, from the one at an index to the last of them. -/
def dropEach (guarded : GuardedEnvironment) (index : Nat) : Nat → GuardedEnvironment
  | 0 => guarded
  | count + 1 => dropEach (guarded.drop index) index count

/-- Gives values to variables and drops the guards of this, from the first to the last. -/
def passed (guarded : GuardedEnvironment) (pairs : List (String × String)) : GuardedEnvironment :=
  (guarded.changeAll pairs).dropEach guarded.guards.length pairs.length

lemma dropEach_append (environment : Environment) (earlier dropped : List Guard) :
    dropEach ⟨environment, earlier ++ dropped⟩ earlier.length dropped.length =
      ⟨dropped.foldl restore environment, earlier⟩ := by
  induction dropped generalizing environment with
  | nil => rw [List.append_nil]; rfl
  | cons guard dropped ih =>
    rw [List.length_cons, dropEach, drop_append]
    exact ih (restore environment guard)

/-! ### Given values -/

/-- The values that pairs give to a variable. -/
def given (name : String) (pairs : List (String × String)) : List String :=
  (pairs.filter (·.1 = name)).map Prod.snd

/-- The last value but one that pairs give to a variable. -/
def lastButOne? (name : String) (pairs : List (String × String)) : Option String :=
  (given name pairs).dropLast.getLast?

lemma given_concat_self (name value : String) (pairs : List (String × String)) :
    given name (pairs ++ [(name, value)]) = given name pairs ++ [value] := by
  simp [given]

lemma given_concat_of_ne {name other : String} (h : other ≠ name) (value : String)
    (pairs : List (String × String)) :
    given name (pairs ++ [(other, value)]) = given name pairs := by
  simp [given, h]

/-- There is a last value but one if the variable is named twice. -/
lemma lastButOne?_eq_none_iff {name : String} {pairs : List (String × String)} :
    lastButOne? name pairs = none ↔ (pairs.map Prod.fst).count name ≤ 1 := by
  have hlength : (given name pairs).length = (pairs.map Prod.fst).count name := by
    rw [given, List.length_map, ← List.countP_eq_length_filter, List.count_eq_countP,
      List.countP_map]
    congr 1
  rw [lastButOne?, List.getLast?_eq_none_iff, ← List.length_eq_zero_iff, List.length_dropLast,
    hlength]
  omega

/-! ### Guards of several changes -/

lemma changeAll_concat (guarded : GuardedEnvironment) (pairs : List (String × String))
    (pair : String × String) : guarded.changeAll (pairs ++ [pair]) =
      (guarded.changeAll pairs).change pair.1 (some pair.2) := List.foldl_append

/-- The guards that were there before stay, and do not matter for the changes. -/
lemma changeAll_append (environment : Environment) (earlier guards : List Guard)
    (pairs : List (String × String)) :
    changeAll ⟨environment, earlier ++ guards⟩ pairs =
      ⟨(changeAll ⟨environment, guards⟩ pairs).environment,
        earlier ++ (changeAll ⟨environment, guards⟩ pairs).guards⟩ := by
  induction pairs using List.reverseRecOn with
  | nil => rfl
  | append_singleton pairs pair ih =>
    rw [changeAll_concat, changeAll_concat, ih, change, change, List.append_assoc]

lemma length_guards_changeAll (guarded : GuardedEnvironment) (pairs : List (String × String)) :
    (guarded.changeAll pairs).guards.length = guarded.guards.length + pairs.length := by
  induction pairs using List.reverseRecOn with
  | nil => rfl
  | append_singleton pairs pair ih =>
    rw [changeAll_concat, change, List.length_append, ih, List.length_append, Nat.add_assoc]
    rfl

/-- A variable has the last value that it was given. -/
lemma get?_changeAll (guarded : GuardedEnvironment) (pairs : List (String × String))
    (name : String) : (guarded.changeAll pairs).environment.get? name =
      (given name pairs).getLast?.or (guarded.environment.get? name) := by
  induction pairs using List.reverseRecOn with
  | nil => rfl
  | append_singleton pairs pair ih =>
    obtain ⟨other, value⟩ := pair
    rw [changeAll_concat, change]
    by_cases h : other = name
    · subst h
      rw [Environment.get?_assign_self, given_concat_self, List.getLast?_concat, Option.some_or]
    · rw [Environment.get?_assign_of_ne _ h, given_concat_of_ne h, ih]

/-- Of the guards of a variable the last one that is dropped counts, and this one recalls what the
changes before the last one made of the variable. -/
lemma get?_restore_changeAll (environment other : Environment) (pairs : List (String × String))
    (name : String) :
    ((changeAll ⟨environment, []⟩ pairs).guards.foldl restore other).get? name =
      if given name pairs = [] then other.get? name
      else (lastButOne? name pairs).or (environment.get? name) := by
  induction pairs using List.reverseRecOn with
  | nil => rfl
  | append_singleton pairs pair ih =>
    obtain ⟨named, value⟩ := pair
    rw [changeAll_concat, change, List.foldl_append, List.foldl_cons, List.foldl_nil, restore]
    by_cases h : named = name
    · subst h
      rw [Environment.get?_assign_self, get?_changeAll, lastButOne?, given_concat_self,
        List.dropLast_concat, if_neg (by simp)]
    · rw [Environment.get?_assign_of_ne _ h, ih, lastButOne?, lastButOne?, given_concat_of_ne h]

lemma passed_eq (guarded : GuardedEnvironment) (pairs : List (String × String)) :
    guarded.passed pairs =
      ⟨(changeAll ⟨guarded.environment, []⟩ pairs).guards.foldl restore
        (changeAll ⟨guarded.environment, []⟩ pairs).environment, guarded.guards⟩ := by
  have hchanged := changeAll_append guarded.environment guarded.guards [] pairs
  rw [List.append_nil] at hchanged
  have hlength := length_guards_changeAll ⟨guarded.environment, []⟩ pairs
  rw [List.length_nil, Nat.zero_add] at hlength
  rw [passed, hchanged, ← hlength, dropEach_append]

/-- A variable is left with the last value but one that it was given, or as it was. -/
lemma get?_passed (guarded : GuardedEnvironment) (pairs : List (String × String))
    (name : String) : (guarded.passed pairs).environment.get? name =
      (lastButOne? name pairs).or (guarded.environment.get? name) := by
  rw [passed_eq, get?_restore_changeAll, get?_changeAll]
  split
  case isTrue hnone => rw [lastButOne?, hnone]; rfl
  case isFalse => rfl

lemma passed_eq_self_iff (guarded : GuardedEnvironment) (pairs : List (String × String)) :
    guarded.passed pairs = guarded ↔
      ∀ name, ∀ value ∈ lastButOne? name pairs, guarded.environment.get? name = some value := by
  constructor
  · intro hsame name value hvalue
    have hpassed := get?_passed guarded pairs name
    rw [hsame, hvalue, Option.some_or] at hpassed
    exact hpassed
  · intro hvalues
    have hguards : (guarded.passed pairs).guards = guarded.guards := by rw [passed_eq]
    have henvironment : (guarded.passed pairs).environment = guarded.environment := by
      apply SortedMap.ext_get?
      intro name
      rw [get?_passed]
      cases hvalue : lastButOne? name pairs with
      | none => rfl
      | some value => exact (hvalues name value hvalue).symm
    calc guarded.passed pairs
        = ⟨(guarded.passed pairs).environment, (guarded.passed pairs).guards⟩ := rfl
      _ = guarded := by rw [henvironment, hguards]

/-- Guards that are dropped from the first to the last leave each variable with the last value but
one that it was given. So an environment is restored just where these are the values that it holds,
and every environment is just where no variable is named twice. -/
theorem passed_eq_iff (pairs : List (String × String)) :
    (∀ guarded : GuardedEnvironment, guarded.passed pairs = guarded ↔
      ∀ name, ∀ value ∈ lastButOne? name pairs, guarded.environment.get? name = some value) ∧
    ((∀ guarded : GuardedEnvironment, guarded.passed pairs = guarded) ↔
      (pairs.map Prod.fst).Nodup) := by
  refine ⟨fun guarded => passed_eq_self_iff guarded pairs, ?_⟩
  rw [List.nodup_iff_count]
  constructor
  · intro hsame name
    rw [← lastButOne?_eq_none_iff, Option.eq_none_iff_forall_not_mem]
    intro value hvalue
    -- an environment without variables holds no value that could be left
    cases (passed_eq_self_iff ⟨∅, []⟩ pairs).mp (hsame _) name value hvalue
  · intro hcount guarded
    rw [passed_eq_self_iff]
    intro name value hvalue
    rw [lastButOne?_eq_none_iff.mpr (hcount name)] at hvalue
    cases hvalue

/-- Of two values that a variable without a value is given, the first one is left. -/
theorem not_passed_eq : ¬∀ name,
    (passed ⟨∅, []⟩ [("LEVEL", "1"), ("LEVEL", "2")]).environment.get? name =
      (∅ : Environment).get? name := by
  intro hrestored
  have hlevel := hrestored "LEVEL"
  rw [get?_passed] at hlevel
  exact absurd hlevel (by decide)

end GuardedEnvironment

end DeclaredOptions
