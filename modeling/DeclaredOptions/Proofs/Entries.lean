import DeclaredOptions.CommandLine
import Mathlib.Data.List.TakeWhile
import Mathlib.Tactic.Common

/-!
# How entries read

The text of an entry alone decides whether it is the terminator, a positional argument or gives
options, and then under which name or by which letters (`Entry.reads_iff`).
-/

namespace DeclaredOptions

lemma Text.cut?_eq_none_iff {sep : Char} {text : String} :
    cut? sep text = none ↔ sep ∉ text.toList := by
  have hnil : text.toList.dropWhile (· != sep) = [] ↔ sep ∉ text.toList := by
    rw [List.dropWhile_eq_nil_iff]
    constructor
    · intro hall hmem
      simpa using hall sep hmem
    · intro hfree c hc
      rw [bne_iff_ne]
      rintro rfl
      exact hfree hc
  rw [← hnil]
  unfold cut?
  split <;> simp_all

namespace Entry

/-- The texts of each kind of entry. -/
inductive Reads : String → Entry → Prop
  | terminator : Reads "--" .terminator
  | positional {text : String} (h : text = "-" ∨ text.toList.head? ≠ some '-') :
      Reads text .positional
  | long {word : String} (hempty : word ≠ "") (hword : '=' ∉ word.toList) :
      Reads ("--" ++ word) (.option (.long word none))
  | assigned {word : String} (value : String) (hword : '=' ∉ word.toList) :
      Reads ("--" ++ word ++ "=" ++ value) (.option (.long word (some value)))
  | cluster {letter : Char} (letters : List Char) (hletter : letter ≠ '-') :
      Reads (.ofList ('-' :: letter :: letters)) (.option (.cluster (letter :: letters)))

lemma exists_ofList_cons {text : String} (h : text ≠ "") : ∃ c cs, text = .ofList (c :: cs) := by
  cases htext : text.toList with
  | nil => exact absurd (String.toList_eq_nil_iff.mp htext) h
  | cons c cs => exact ⟨c, cs, by rw [← htext, String.ofList_toList]⟩

lemma ofText_long {body : String} (h : body ≠ "") : ofText ("--" ++ body) =
    match Text.cut? '=' body with
    | some (word, argument) => .option (.long word (some argument))
    | none => .option (.long body none) := by
  obtain ⟨c, cs, rfl⟩ := exists_ofList_cons h
  have htext : ("--" ++ String.ofList (c :: cs)).toList = '-' :: '-' :: c :: cs := by simp
  rw [ofText, htext]
  rfl

lemma Reads.ofText_eq {text : String} {entry : Entry} (h : Reads text entry) :
    ofText text = entry := by
  cases h with
  | terminator => rfl
  | positional h =>
    rcases h with rfl | h
    · rfl
    · unfold ofText
      split <;> simp_all
  | long hempty hword => rw [ofText_long hempty, Text.cut?_eq_none_iff.mpr hword]
  | @assigned word value hword =>
    have hcut : Text.cut? '=' (word ++ "=" ++ value) = some (word, value) :=
      Text.cut?_eq_some_iff.mpr ⟨hword, rfl⟩
    have htext : "--" ++ word ++ "=" ++ value = "--" ++ (word ++ "=" ++ value) := by
      simp only [String.append_assoc]
    rw [htext, ofText_long (by simp), hcut]
  | cluster letters hletter =>
    unfold ofText
    split <;> simp_all

lemma exists_reads_long (body : String) : ∃ entry, Reads ("--" ++ body) entry := by
  by_cases hempty : body = ""
  · subst hempty
    exact ⟨_, .terminator⟩
  cases hcut : Text.cut? '=' body with
  | none => exact ⟨_, .long hempty (Text.cut?_eq_none_iff.mp hcut)⟩
  | some parts =>
    obtain ⟨hword, rfl⟩ := Text.cut?_eq_some_iff.mp hcut
    have htext :
        "--" ++ (parts.1 ++ .singleton '=' ++ parts.2) = "--" ++ parts.1 ++ "=" ++ parts.2 := by
      rw [← String.append_assoc, ← String.append_assoc]
      rfl
    rw [htext]
    exact ⟨_, .assigned parts.2 hword⟩

lemma exists_reads (text : String) : ∃ entry, Reads text entry := by
  obtain ⟨chars, rfl⟩ : ∃ chars, text = .ofList chars := ⟨_, String.ofList_toList.symm⟩
  match chars with
  | [] => exact ⟨_, .positional (Or.inr (by simp))⟩
  | [c] =>
    by_cases hc : c = '-'
    · subst hc
      exact ⟨_, .positional (Or.inl rfl)⟩
    · exact ⟨_, .positional (Or.inr (by simpa using hc))⟩
  | c :: letter :: letters =>
    by_cases hc : c = '-'
    · subst hc
      by_cases hletter : letter = '-'
      · subst hletter
        have htext : String.ofList ('-' :: '-' :: letters) = "--" ++ .ofList letters := by
          rw [← String.toList_inj]
          simp
        rw [htext]
        exact exists_reads_long _
      · exact ⟨_, .cluster letters hletter⟩
    · exact ⟨_, .positional (Or.inr (by simpa using hc))⟩

/-- How an entry reads is known from its text. -/
lemma reads_iff {text : String} {entry : Entry} : Reads text entry ↔ ofText text = entry := by
  constructor
  · exact Reads.ofText_eq
  · rintro rfl
    obtain ⟨entry, h⟩ := exists_reads text
    rw [h.ofText_eq]
    exact h

end Entry

end DeclaredOptions
