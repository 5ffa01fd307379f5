import DeclaredOptions.Program.Request
import DeclaredOptions.Proofs.Entries
import DeclaredOptions.Proofs.Steps
import Mathlib.Data.List.Nodup
import Mathlib.Tactic.Common

/-!
# Options in any order

Each option that takes a value can be written with the value in one argument or in two
(`Given.IsSpelledBy`). Just legal options are read, from the arguments that spell them, and all that
stands after the first `--` is the command line (`Given.readArguments_eq_ok_iff`). What an option
gives does not depend on where it stands (`Given.value?_reverse`).
-/

namespace DeclaredOptions

open Steps

namespace Setting

lemma equals_notMem_word (setting : Setting) : '=' ∉ setting.word.toList := by
  cases setting <;> decide

lemma ofWord?_word (setting : Setting) : ofWord? setting.word = some setting := by
  cases setting <;> decide

lemma word_of_ofWord? {word : String} {setting : Setting} (h : ofWord? word = some setting) :
    setting.word = word := by
  simpa using List.find?_some h

lemma word_ne_empty (setting : Setting) : setting.word ≠ "" := by
  cases setting <;> decide

end Setting

/-! ### One argument -/

section Arguments

variable {word : String}

lemma longArgument?_word (h : '=' ∉ word.toList) :
    longArgument? ("--" ++ word) = some (word, none) := by
  have hcut : Text.cut? '=' word = none := Text.cut?_eq_none_iff.mpr h
  simp [longArgument?, String.toList_append, hcut]

lemma longArgument?_assigned (h : '=' ∉ word.toList) (value : String) :
    longArgument? ("--" ++ word ++ "=" ++ value) = some (word, some value) := by
  have hcut : Text.cut? '=' (word ++ "=" ++ value) = some (word, value) :=
    Text.cut?_eq_some_iff.mpr ⟨h, rfl⟩
  have hargument : ("--" ++ word ++ "=" ++ value).toList =
      '-' :: '-' :: (word ++ "=" ++ value).toList := by
    simp [String.toList_append]
  rw [longArgument?, hargument]
  simp only [String.ofList_toList, hcut]

lemma eq_of_longArgument? {argument : String} {inlineValue : Option String}
    (h : longArgument? argument = some (word, inlineValue)) :
    argument = inlineValue.elim ("--" ++ word) ("--" ++ word ++ "=" ++ ·) := by
  unfold longArgument? at h
  split at h
  · rename_i body hbody
    have hargument : argument = "--" ++ String.ofList body := by
      rw [← String.toList_inj, hbody]
      simp
    cases hcut : Text.cut? '=' (.ofList body) with
    | none =>
      simp only [hcut] at h
      cases h
      exact hargument
    | some parts =>
      simp only [hcut] at h
      cases h
      rw [hargument, (Text.cut?_eq_some_iff.mp hcut).2, Option.elim_some, String.append_assoc,
        String.append_assoc, String.append_assoc]
      rfl
  · cases h

end Arguments

namespace Given

variable {given acc : Given} {setting : Setting} {value : String} {arguments argv : List String}

/-! ### Options by name -/

/-- Options that can be given together: none twice, each with a value that it takes. -/
structure IsLegal (given : Given) : Prop where
  once : (given.map Prod.fst).Nodup
  accepted : ∀ entry ∈ given, entry.1.accepts entry.2

lemma value?_eq_some_iff (h : (given.map Prod.fst).Nodup) :
    given.value? setting = some value ↔ (setting, value) ∈ given := by
  induction given with
  | nil => simp [value?]
  | cons entry given ih =>
    obtain ⟨other, text⟩ := entry
    rw [List.map_cons, List.nodup_cons] at h
    rw [value?, List.lookup_cons]
    by_cases hother : setting = other
    · subst hother
      have hrest : (setting, value) ∉ given := fun hmem => h.1 (List.mem_map.mpr ⟨_, hmem, rfl⟩)
      simp [hrest, eq_comm]
    · have hne : (setting == other) = false := by simpa using hother
      rw [hne]
      simpa [hother, value?] using ih h.2

/-- The order of options does not matter. -/
lemma value?_reverse (h : (given.map Prod.fst).Nodup) (setting : Setting) :
    value? given.reverse setting = given.value? setting := by
  have hreverse : (given.reverse.map Prod.fst).Nodup := by
    rw [List.map_reverse]
    exact List.nodup_reverse.mpr h
  apply Option.ext
  intro value
  rw [value?_eq_some_iff hreverse, value?_eq_some_iff h, List.mem_reverse]

lemma IsLegal.reverse (h : given.IsLegal) : IsLegal given.reverse where
  once := by
    rw [List.map_reverse]
    exact List.nodup_reverse.mpr h.once
  accepted entry hentry := h.accepted entry (List.mem_reverse.mp hentry)

lemma IsLegal.of_append {later : Given} (h : IsLegal (later ++ given)) : given.IsLegal where
  once := by
    have honce := h.once
    rw [List.map_append] at honce
    exact honce.of_append_right
  accepted entry hentry := h.accepted entry (List.mem_append_right later hentry)

/-- An option is added just if it is legal beside the others. -/
lemma add_eq_ok_iff {next : Given} (h : acc.IsLegal) : acc.add setting value = .ok next ↔
    IsLegal ((setting, value) :: acc) ∧ next = (setting, value) :: acc := by
  have hnew : (acc.value? setting).isNone ↔ setting ∉ acc.map Prod.fst := by
    rw [Option.isNone_iff_eq_none, value?, List.lookup_eq_none_iff, List.mem_map]
    constructor
    · rintro hall ⟨entry, hentry, rfl⟩
      exact bne_iff_ne.mp (hall entry hentry) rfl
    · intro hnotMem entry hentry
      exact bne_iff_ne.mpr fun heq => hnotMem ⟨entry, hentry, heq.symm⟩
  have hlegal : IsLegal ((setting, value) :: acc) ↔
      (acc.value? setting).isNone ∧ setting.accepts value := by
    rw [hnew]
    constructor
    · rintro ⟨honce, haccepted⟩
      exact ⟨(List.nodup_cons.mp honce).1, haccepted _ List.mem_cons_self⟩
    · rintro ⟨hnotMem, haccepts⟩
      exact ⟨List.nodup_cons.mpr ⟨hnotMem, h.once⟩, List.forall_mem_cons.mpr ⟨haccepts, h.accepted⟩⟩
  rw [add]
  by_cases hadd : (acc.value? setting).isNone ∧ setting.accepts value
  · rw [if_pos hadd, Except.ok.injEq, eq_comm]
    exact (and_iff_right (hlegal.mpr hadd)).symm
  · rw [if_neg hadd]
    exact iff_of_false (by simp) fun h => hadd (hlegal.mp h.1)

lemma IsLegal.add_eq (h : IsLegal ((setting, value) :: acc)) :
    acc.add setting value = .ok ((setting, value) :: acc) :=
  (add_eq_ok_iff (show IsLegal ([(setting, value)] ++ acc) from h).of_append).mpr ⟨h, rfl⟩

/-! ### Options from arguments -/

/-- The arguments that spell options, one option after the other. -/
inductive IsSpelledBy : Given → List String → Prop
  | nil : IsSpelledBy [] []
  | flag {setting : Setting} {given : Given} {arguments : List String} (hflag : setting.isFlag)
      (h : IsSpelledBy given arguments) :
      IsSpelledBy ((setting, "") :: given) (("--" ++ setting.word) :: arguments)
  | assigned {setting : Setting} {given : Given} {arguments : List String}
      (hflag : ¬setting.isFlag) (value : String) (h : IsSpelledBy given arguments) :
      IsSpelledBy ((setting, value) :: given)
        (("--" ++ setting.word ++ "=" ++ value) :: arguments)
  | apart {setting : Setting} {value : String} {given : Given} {arguments : List String}
      (hflag : ¬setting.isFlag) (hfree : isFreeValue value) (h : IsSpelledBy given arguments) :
      IsSpelledBy ((setting, value) :: given) (("--" ++ setting.word) :: value :: arguments)

lemma readArguments_flag (h : setting.isFlag) :
    readArguments acc (("--" ++ setting.word) :: arguments) =
      acc.add setting "" >>= fun given => readArguments given arguments := by
  rw [readArguments, if_neg (by simpa using setting.word_ne_empty),
    longArgument?_word setting.equals_notMem_word]
  simp only [setting.ofWord?_word, h, if_true]

lemma readArguments_assigned (h : ¬setting.isFlag) :
    readArguments acc (("--" ++ setting.word ++ "=" ++ value) :: arguments) =
      acc.add setting value >>= fun given => readArguments given arguments := by
  rw [readArguments, if_neg (by simp [String.append_assoc, setting.word_ne_empty]),
    longArgument?_assigned setting.equals_notMem_word]
  simp only [setting.ofWord?_word, h]
  rfl

lemma readArguments_apart (h : ¬setting.isFlag) (hfree : isFreeValue value) :
    readArguments acc (("--" ++ setting.word) :: value :: arguments) =
      acc.add setting value >>= fun given => readArguments given arguments := by
  rw [readArguments, if_neg (by simpa using setting.word_ne_empty),
    longArgument?_word setting.equals_notMem_word]
  simp only [setting.ofWord?_word, h, hfree, if_true]
  rfl

/-- Options are added to those that were read before them, last first. -/
lemma IsSpelledBy.readArguments_append (h : given.IsSpelledBy arguments)
    (hlegal : IsLegal (given.reverse ++ acc)) (rest : List String) :
    readArguments acc (arguments ++ rest) = readArguments (given.reverse ++ acc) rest := by
  induction h generalizing acc with
  | nil => rfl
  | flag hflag h ih =>
    rw [List.reverse_cons, List.append_assoc, List.singleton_append] at hlegal ⊢
    rw [List.cons_append, readArguments_flag hflag, hlegal.of_append.add_eq]
    exact ih hlegal
  | assigned hflag value h ih =>
    rw [List.reverse_cons, List.append_assoc, List.singleton_append] at hlegal ⊢
    rw [List.cons_append, readArguments_assigned hflag, hlegal.of_append.add_eq]
    exact ih hlegal
  | apart hflag hfree h ih =>
    rw [List.reverse_cons, List.append_assoc, List.singleton_append] at hlegal ⊢
    rw [List.cons_append, List.cons_append, readArguments_apart hflag hfree,
      hlegal.of_append.add_eq]
    exact ih hlegal

/-- Arguments that spell options and then end, or go on with `--` and a command line. -/
inductive Spells (given : Given) (argv : List String) : List String → Prop
  | dashes {spelled : List String} (h : given.IsSpelledBy spelled) :
      Spells given argv (spelled ++ "--" :: argv)
  | nothing {spelled : List String} (h : given.IsSpelledBy spelled) (hargv : argv = []) :
      Spells given argv spelled

lemma Spells.cons {entry : Setting × String} (h : Spells given argv arguments)
    (front : List String) (hfront : ∀ {spelled}, given.IsSpelledBy spelled →
      IsSpelledBy (entry :: given) (front ++ spelled)) :
    Spells (entry :: given) argv (front ++ arguments) := by
  cases h with
  | dashes h =>
    rw [← List.append_assoc]
    exact .dashes (hfront h)
  | nothing h hargv => exact .nothing (hfront h) hargv

lemma add_bind_eq_ok_iff (hacc : acc.IsLegal) :
    (acc.add setting value >>= fun next => readArguments next arguments) = .ok (given, argv) ↔
      IsLegal ((setting, value) :: acc) ∧
        readArguments ((setting, value) :: acc) arguments = .ok (given, argv) := by
  simp only [bind_eq_ok_iff, add_eq_ok_iff hacc, and_assoc, exists_and_left, exists_eq_left]

/-- What is read beside some options is spelled, and legal beside them. -/
lemma exists_spells (hacc : acc.IsLegal) (h : readArguments acc arguments = .ok (given, argv)) :
    given.IsLegal ∧ ∃ added, Spells added argv arguments ∧ given = added.reverse ++ acc := by
  fun_induction readArguments acc arguments with
  | case1 acc =>
    cases h
    exact ⟨hacc, [], .nothing .nil rfl, rfl⟩
  | case2 acc rest =>
    cases h
    exact ⟨hacc, [], .dashes .nil, rfl⟩
  | case5 acc argument rest hdashes word setting hword hflag hlong ih =>
    obtain ⟨hlegal, hrest⟩ := (add_bind_eq_ok_iff hacc).mp h
    obtain ⟨hgiven, added, hspells, rfl⟩ := ih _ hlegal hrest
    obtain rfl := Setting.word_of_ofWord? hword
    obtain rfl := eq_of_longArgument? hlong
    exact ⟨hgiven, _, hspells.cons [_] (.flag hflag), by simp⟩
  | case7 acc argument hdashes word setting hword hflag value rest hfree hlong ih =>
    obtain ⟨hlegal, hrest⟩ := (add_bind_eq_ok_iff hacc).mp h
    obtain ⟨hgiven, added, hspells, rfl⟩ := ih _ hlegal hrest
    obtain rfl := Setting.word_of_ofWord? hword
    obtain rfl := eq_of_longArgument? hlong
    exact ⟨hgiven, _, hspells.cons [_, value] (.apart hflag hfree), by simp⟩
  | case10 acc argument rest hdashes word setting value hword hflag hlong ih =>
    obtain ⟨hlegal, hrest⟩ := (add_bind_eq_ok_iff hacc).mp h
    obtain ⟨hgiven, added, hspells, rfl⟩ := ih _ hlegal hrest
    obtain rfl := Setting.word_of_ofWord? hword
    obtain rfl := eq_of_longArgument? hlong
    exact ⟨hgiven, _, hspells.cons [_] (.assigned hflag value), by simp⟩
  | _ => cases h

/-- Just legal options are read, and from nothing but the arguments that spell them. -/
theorem readArguments_eq_ok_iff : readArguments [] arguments = .ok (given, argv) ↔
    given.IsLegal ∧ Spells given.reverse argv arguments := by
  have hnil : IsLegal [] := ⟨List.nodup_nil, by simp⟩
  constructor
  · intro h
    obtain ⟨hlegal, added, hspells, rfl⟩ := exists_spells hnil h
    rw [List.append_nil] at hlegal ⊢
    exact ⟨hlegal, by rwa [List.reverse_reverse]⟩
  · rintro ⟨hlegal, hspells⟩
    have hgiven : IsLegal (given.reverse.reverse ++ []) := by simpa using hlegal
    have hend : readArguments given [] = .ok (given, []) := rfl
    have hdashes : readArguments given ("--" :: argv) = .ok (given, argv) := by
      simp [readArguments]
    cases hspells with
    | dashes h => simpa [hdashes] using h.readArguments_append hgiven ("--" :: argv)
    | nothing h hargv =>
      subst hargv
      simpa [hend] using h.readArguments_append hgiven []

end Given

end DeclaredOptions
