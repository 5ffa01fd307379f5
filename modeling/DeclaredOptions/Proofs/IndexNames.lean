import DeclaredOptions.Name.Index
import DeclaredOptions.Proofs.NameOrder
import Mathlib.Algebra.Group.Nat.Defs
import Mathlib.Tactic.Common

/-!
# Index names

The name of an index is read back to it and no other text is read (`parse?_eq_some_iff`). As each
digit after the first is announced by an underscore, and digits sort before underscores, the names
sort like the numbers (`name_lt_name`).
-/

namespace DeclaredOptions.Index

open Std

/-! ### Digits -/

lemma value_eq_ofDigitChars (digits : List Char) : value digits = Nat.ofDigitChars 10 digits 0 :=
  rfl

lemma value_toDigits (n : Nat) : value (Nat.toDigits 10 n) = n := Nat.ofDigitChars_ten_toDigits

lemma isDigit_of_mem_toDigits {n : Nat} {c : Char} (h : c ∈ Nat.toDigits 10 n) : c.isDigit :=
  Nat.isDigit_of_mem_toDigits (by decide) (by decide) h

lemma isDigit_iff {c : Char} : c.isDigit ↔ 48 ≤ c.toNat ∧ c.toNat ≤ 57 :=
  Char.isDigit_iff_toNat

lemma value_cons (c : Char) (digits : List Char) :
    value (c :: digits) = 10 ^ digits.length * (c.toNat - 48) + value digits := by
  rw [value_eq_ofDigitChars, Nat.ofDigitChars_cons, Nat.ofDigitChars_eq_ofDigitChars_zero,
    Nat.mul_zero, Nat.zero_add]
  rfl

lemma value_lt {digits : List Char} (h : ∀ c ∈ digits, c.isDigit) :
    value digits < 10 ^ digits.length := by
  induction digits with
  | nil => decide
  | cons c digits ih =>
    have hc := isDigit_iff.mp (h c List.mem_cons_self)
    have hrest := ih fun d hd => h d (List.mem_cons_of_mem _ hd)
    have hmul : 10 ^ digits.length * (c.toNat - 48) ≤ 10 ^ digits.length * 9 :=
      Nat.mul_le_mul_left _ (by omega)
    rw [value_cons, List.length_cons, Nat.pow_succ]
    omega

/-- The leading digit decides between numbers, and the rest where it is the same. -/
lemma lt_or_of_digit {b x y u v : Nat} (hv : v < b) (h : b * x + u < b * y + v) :
    x < y ∨ x = y ∧ u < v := by
  rcases Nat.lt_trichotomy x y with hlt | rfl | hgt
  · exact Or.inl hlt
  · exact Or.inr ⟨rfl, Nat.lt_of_add_lt_add_left h⟩
  · -- a larger leading digit outweighs whatever follows
    have hmul : b * y + b ≤ b * x := by
      rw [← Nat.mul_succ]
      exact Nat.mul_le_mul_left _ hgt
    omega

/-- Among lists of digits of one length the smaller number comes first. -/
lemma lt_of_value_lt {ds es : List Char} (hlength : ds.length = es.length)
    (hds : ∀ c ∈ ds, c.isDigit) (hes : ∀ c ∈ es, c.isDigit) (h : value ds < value es) :
    ds < es := by
  induction ds generalizing es with
  | nil =>
    cases es with
    | nil => exact absurd h (Nat.lt_irrefl _)
    | cons e es => cases hlength
  | cons d ds ih =>
    cases es with
    | nil => cases hlength
    | cons e es =>
      have hlen : ds.length = es.length := Nat.succ.inj hlength
      have hd := isDigit_iff.mp (hds d List.mem_cons_self)
      have he := isDigit_iff.mp (hes e List.mem_cons_self)
      have hds' : ∀ c ∈ ds, c.isDigit := fun c hc => hds c (List.mem_cons_of_mem _ hc)
      have hes' : ∀ c ∈ es, c.isDigit := fun c hc => hes c (List.mem_cons_of_mem _ hc)
      rw [value_cons, value_cons, hlen] at h
      rw [List.cons_lt_cons_iff]
      rcases lt_or_of_digit (value_lt hes') h with hlt | ⟨heq, hrest⟩
      · left
        change d.toNat < e.toNat
        omega
      · have hde : d = e := Char.toNat_inj.mp (by omega)
        exact Or.inr ⟨hde, ih hlen hds' hes' hrest⟩

lemma toDigits_digit {c : Char} (h : c.isDigit) : Nat.toDigits 10 (c.toNat - 48) = [c] := by
  have hc := isDigit_iff.mp h
  rw [Nat.toDigits_of_lt_base (by omega)]
  congr 1
  apply Char.toNat_inj.mp
  rw [Nat.toNat_digitChar_of_lt_ten (by omega)]
  omega

/-- Digits after those of a positive number make the digits of a larger number. -/
lemma toDigits_append {a : Nat} {digits : List Char} (ha : 0 < a)
    (h : ∀ c ∈ digits, c.isDigit) :
    Nat.toDigits 10 a ++ digits = Nat.toDigits 10 (Nat.ofDigitChars 10 digits a) := by
  induction digits generalizing a with
  | nil => simp
  | cons c digits ih =>
    have hc := isDigit_iff.mp (h c List.mem_cons_self)
    have hstep : Nat.toDigits 10 a ++ [c] = Nat.toDigits 10 (10 * a + (c.toNat - 48)) := by
      rw [← toDigits_digit (h c List.mem_cons_self)]
      exact Nat.toDigits_append_toDigits (by decide) ha (by omega)
    rw [List.append_cons, hstep, Nat.ofDigitChars_cons]
    exact ih (by omega) fun d hd => h d (List.mem_cons_of_mem _ hd)

/-- Digits without needless zeros are the digits of their value. -/
lemma toDigits_value {digits : List Char} (hne : digits ≠ []) (h : ∀ c ∈ digits, c.isDigit)
    (hzero : digits.head? = some '0' → digits.length = 1) :
    Nat.toDigits 10 (value digits) = digits := by
  cases digits with
  | nil => exact absurd rfl hne
  | cons c digits =>
    have hc := isDigit_iff.mp (h c List.mem_cons_self)
    have hrest : ∀ d ∈ digits, d.isDigit := fun d hd => h d (List.mem_cons_of_mem _ hd)
    by_cases hc0 : c = '0'
    · subst hc0
      have hnil : digits = [] := by simpa using hzero rfl
      subst hnil
      decide
    · have hpos : 0 < c.toNat - 48 := by
        have hne48 : c.toNat ≠ '0'.toNat := fun heq => hc0 (Char.toNat_inj.mp heq)
        have : '0'.toNat = 48 := rfl
        omega
      have happend := toDigits_append hpos hrest
      rw [toDigits_digit (h c List.mem_cons_self)] at happend
      rw [value_eq_ofDigitChars, Nat.ofDigitChars_cons, Nat.mul_zero, Nat.zero_add]
      exact happend.symm

/-- The digits of a positive number do not begin with a zero. -/
lemma head?_toDigits_ne {n : Nat} (h : 0 < n) : (Nat.toDigits 10 n).head? ≠ some '0' := by
  induction n using Nat.strongRecOn with
  | ind n ih =>
    by_cases hn : n < 10
    · rw [Nat.toDigits_of_lt_base hn]
      simp
      omega
    · have hlt : n / 10 < n := Nat.div_lt_self h (by decide)
      have hpos : 0 < n / 10 := by omega
      rw [Nat.toDigits_of_base_le (by decide) (by omega), List.head?_append]
      intro hhead
      rcases Option.or_eq_some_iff.mp hhead with hzero | ⟨hnone, _⟩
      · exact ih (n / 10) hlt hpos hzero
      · exact Nat.toDigits_ne_nil (List.head?_eq_none_iff.mp hnone)

/-- Only the number zero is written with a leading zero. -/
lemma length_toDigits_of_head? {n : Nat} (h : (Nat.toDigits 10 n).head? = some '0') :
    (Nat.toDigits 10 n).length = 1 := by
  rcases Nat.eq_zero_or_pos n with rfl | hpos
  · rfl
  · exact absurd h (head?_toDigits_ne hpos)

/-! ### Names -/

lemma toList_name (n : Nat) :
    (name n).toList = '#' :: (List.replicate ((Nat.toDigits 10 n).length - 1) '_' ++
      Nat.toDigits 10 n) := String.toList_ofList

lemma isSegment_name (n : Nat) : IsSegment (name n) := by
  constructor
  · intro h
    have hnil := congrArg String.toList h
    rw [toList_name] at hnil
    cases hnil
  · intro h
    rw [toList_name, List.mem_cons, List.mem_append] at h
    rcases h with h | h | h
    · exact absurd h (by decide)
    · exact absurd (List.eq_of_mem_replicate h) (by decide)
    · exact absurd (isDigit_of_mem_toDigits h) (by decide)

/-- Underscores end where the digits begin. -/
lemma dropWhile_padding (k n : Nat) :
    (List.replicate k '_' ++ Nat.toDigits 10 n).dropWhile (· == '_') = Nat.toDigits 10 n := by
  induction k with
  | zero =>
    cases h : Nat.toDigits 10 n with
    | nil => rfl
    | cons c digits =>
      have hc : c.isDigit := isDigit_of_mem_toDigits (n := n) (by simp [h])
      have hne : (c == '_') = false := by
        by_contra heq
        have : c = '_' := by simpa using heq
        subst this
        exact absurd hc (by decide)
      simp [hne]
  | succ k ih => simpa [List.replicate_succ] using ih

/-- The name of an index is read back. -/
lemma parse?_name {n : Nat} (h : n < bound) : parse? (name n) = some n := by
  have hlength : ((List.replicate ((Nat.toDigits 10 n).length - 1) '_' ++
      Nat.toDigits 10 n).length - (Nat.toDigits 10 n).length)
      = (Nat.toDigits 10 n).length - 1 := by simp
  have hdigits : (Nat.toDigits 10 n).all Char.isDigit :=
    List.all_eq_true.mpr fun c hc => isDigit_of_mem_toDigits hc
  simp only [parse?, toList_name, dropWhile_padding, value_toDigits]
  rw [if_pos ⟨Nat.toDigits_ne_nil, hdigits, hlength, length_toDigits_of_head?, h⟩]

/-- Only names of indices are read. -/
lemma eq_name_of_parse? {s : String} {n : Nat} (h : parse? s = some n) :
    s = name n ∧ n < bound := by
  rw [parse?] at h
  split at h
  · rename_i rest hs
    simp only [Option.ite_none_right_eq_some, Option.some.injEq] at h
    obtain ⟨⟨hne, hdigits, hlength, hzero, hbound⟩, rfl⟩ := h
    refine ⟨?_, hbound⟩
    have hpadding : rest.takeWhile (· == '_') =
        List.replicate ((rest.dropWhile (· == '_')).length - 1) '_' := by
      rw [List.eq_replicate_iff]
      constructor
      · have hsum := congrArg List.length
          (List.takeWhile_append_dropWhile (p := (· == '_')) (l := rest))
        rw [List.length_append] at hsum
        omega
      · intro c hc
        simpa using List.all_eq_true.mp List.all_takeWhile c hc
    have hrest : rest = List.replicate ((rest.dropWhile (· == '_')).length - 1) '_' ++
        rest.dropWhile (· == '_') := by
      rw [← hpadding, List.takeWhile_append_dropWhile]
    have hvalue := toDigits_value hne (List.all_eq_true.mp hdigits) hzero
    rw [← String.toList_inj, toList_name, hs, hvalue, ← hrest]
  · cases h

/-- Exactly the names of indices are read. -/
lemma parse?_eq_some_iff {s : String} {n : Nat} :
    parse? s = some n ↔ s = name n ∧ n < bound := by
  constructor
  · exact eq_name_of_parse?
  · rintro ⟨rfl, h⟩
    exact parse?_name h

/-! ### Order -/

/-- A list of characters with more padding before digits sorts behind one with less. -/
lemma padded_lt_of_lt {j k : Nat} {ds es : List Char} (hjk : j < k) (hne : ds ≠ [])
    (hds : ∀ c ∈ ds, c.isDigit) :
    List.replicate j '_' ++ ds < List.replicate k '_' ++ es := by
  induction j generalizing k with
  | zero =>
    obtain ⟨k, rfl⟩ : ∃ i, k = i + 1 := ⟨k - 1, by omega⟩
    cases ds with
    | nil => exact absurd rfl hne
    | cons d ds =>
      have hd := isDigit_iff.mp (hds d List.mem_cons_self)
      rw [List.replicate_succ, List.cons_append, List.replicate_zero, List.nil_append,
        List.cons_lt_cons_iff]
      left
      change d.toNat < 95
      omega
  | succ j ih =>
    obtain ⟨k, rfl⟩ : ∃ i, k = i + 1 := ⟨k - 1, by omega⟩
    rw [List.replicate_succ, List.replicate_succ, List.cons_append, List.cons_append,
      List.cons_lt_cons_iff]
    exact Or.inr ⟨rfl, ih (by omega)⟩

/-- Names of indices sort like the indices. -/
lemma name_lt_name {m n : Nat} (h : m < n) : compare (name m) (name n) = .lt := by
  rw [Text.compare_eq_lt_iff, toList_name, toList_name, List.cons_lt_cons_iff]
  refine Or.inr ⟨rfl, ?_⟩
  have hm : ∀ c ∈ Nat.toDigits 10 m, c.isDigit := fun c => isDigit_of_mem_toDigits
  have hn : ∀ c ∈ Nat.toDigits 10 n, c.isDigit := fun c => isDigit_of_mem_toDigits
  have hpos := Nat.length_toDigits_pos (b := 10) (n := m)
  have hle : (Nat.toDigits 10 m).length ≤ (Nat.toDigits 10 n).length := by
    rw [Nat.length_toDigits_le_iff (by decide) Nat.length_toDigits_pos]
    exact Nat.lt_trans h
      ((Nat.length_toDigits_le_iff (by decide) Nat.length_toDigits_pos).mp (Nat.le_refl _))
  rcases Nat.lt_or_eq_of_le hle with hlt | heq
  · exact padded_lt_of_lt (by omega) Nat.toDigits_ne_nil hm
  · rw [heq]
    apply List.append_left_lt
    apply lt_of_value_lt heq hm hn
    rwa [value_toDigits, value_toDigits]

lemma compare_name_iff {m n : Nat} : compare (name m) (name n) = .lt ↔ m < n := by
  constructor
  · intro h
    rcases Nat.lt_trichotomy m n with hlt | rfl | hgt
    · exact hlt
    · simp at h
    · exact absurd h (OrientedCmp.not_lt_of_lt (name_lt_name hgt))
  · exact name_lt_name

lemma name_injective {m n : Nat} (h : name m = name n) : m = n := by
  rcases Nat.lt_trichotomy m n with hlt | heq | hgt
  · exact absurd (name_lt_name hlt) (by simp [h])
  · exact heq
  · exact absurd (name_lt_name hgt) (by simp [h])

/-- The key of a whole array sorts before the keys of its elements. -/
lemma wildcard_lt_name (n : Nat) : compare KeyName.wildcard (name n) = .lt := by
  rw [Text.compare_eq_lt_iff, toList_name]
  change ['#'] < _
  rw [List.cons_lt_cons_iff]
  refine Or.inr ⟨rfl, ?_⟩
  cases h : List.replicate ((Nat.toDigits 10 n).length - 1) '_' ++ Nat.toDigits 10 n with
  | nil => exact absurd (List.append_eq_nil_iff.mp h).2 Nat.toDigits_ne_nil
  | cons c cs => exact List.nil_lt_cons c cs

end DeclaredOptions.Index
