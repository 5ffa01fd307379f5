import DeclaredOptions.Proofs.IndexNames
import DeclaredOptions.Proofs.Utf8Text
import Mathlib.Tactic.Common

/-!
# The order of bytes

Texts sort by their bytes as they do by their characters (`encode_lt_iff`). A character is written
as a first byte and as many bytes of six bits as it needs. The first byte grows with their number
and then with the bits that it carries itself, and bytes of six bits sort like the number they
write (`trails_append_lt`). So bytes tell the character that they begin with, and texts begin with
each other as their bytes do (`encode_prefix_iff`), and the names of indices are a code that keeps
the order of the numbers, byte by byte (`Index.isOrderedCode`).
-/

namespace DeclaredOptions.Utf8

open Std

variable {c d : Char} {cs ds : List Char} {s t : String} {v w k : Nat} {bytes bytes' : List UInt8}

lemma ofNat_cons_lt (hv : v < 256) (hw : w < 256) (h : v < w ∨ v = w ∧ bytes < bytes') :
    UInt8.ofNat v :: bytes < UInt8.ofNat w :: bytes' := by
  rw [List.cons_lt_cons_iff]
  rcases h with hlt | ⟨rfl, hrest⟩
  · left
    rwa [UInt8.lt_iff_toNat_lt, UInt8.toNat_ofNat_of_lt' hv, UInt8.toNat_ofNat_of_lt' hw]
  · exact Or.inr ⟨rfl, hrest⟩

/-! ### Bytes of six bits -/

/-- The last `k` bytes of a character: six bits in each. -/
def trails : Nat → Nat → List UInt8
  | 0, _ => []
  | k + 1, v => .ofNat (v / 64 ^ k % 64 + 0x80) :: trails k v

/-- Bytes of six bits sort like the number they write, whatever follows. -/
lemma trails_append_lt (h : v % 64 ^ k < w % 64 ^ k) :
    trails k v ++ bytes < trails k w ++ bytes' := by
  induction k with
  | zero => simp [Nat.mod_one] at h
  | succ k ih =>
    rw [Nat.mod_pow_succ, Nat.mod_pow_succ, Nat.add_comm, Nat.add_comm (w % 64 ^ k)] at h
    have hw : w % 64 ^ k < 64 ^ k := Nat.mod_lt _ (Nat.pow_pos (by decide))
    rw [trails, trails, List.cons_append, List.cons_append]
    apply ofNat_cons_lt (by omega) (by omega)
    rcases Index.lt_or_of_digit hw h with hlt | ⟨heq, hrest⟩
    · exact Or.inl (Nat.add_lt_add_right hlt _)
    · exact Or.inr ⟨congrArg (· + 0x80) heq, ih hrest⟩

/-! ### Characters -/

/-- How many bytes follow the first byte of a character. -/
def following (v : Nat) : Nat :=
  if v ≤ 0x7f then 0 else if v ≤ 0x7ff then 1 else if v ≤ 0xffff then 2 else 3

/-- What a first byte adds to its bits when `k` bytes follow. -/
def mark : Nat → Nat
  | 0 => 0
  | 1 => 0xc0
  | 2 => 0xe0
  | _ => 0xf0

/-- The first byte of a character, as a number. -/
def lead (v : Nat) : Nat := v / 64 ^ following v + mark (following v)

lemma utf8EncodeChar_eq (c : Char) :
    String.utf8EncodeChar c = .ofNat (lead c.toNat) :: trails (following c.toNat) c.toNat := by
  have hvalid : c.toNat < 0xd800 ∨ 0xdfff < c.toNat ∧ c.toNat < 0x110000 := c.valid
  simp only [String.utf8EncodeChar, Char.toNat_val, lead, following]
  split_ifs with hone htwo hthree
  · simp [trails, mark]
  · have hlead : c.toNat / 64 % 32 = c.toNat / 64 := Nat.mod_eq_of_lt (by omega)
    simp [trails, mark, hlead]
  · have hlead : c.toNat / 4096 % 16 = c.toNat / 4096 := Nat.mod_eq_of_lt (by omega)
    simp [trails, mark, hlead]
  · have hlead : c.toNat / 262144 % 8 = c.toNat / 262144 := Nat.mod_eq_of_lt (by omega)
    simp [trails, mark, hlead]

lemma lead_lt_256 (h : v < 0x110000) : lead v < 256 := by
  simp only [lead, following]
  split_ifs <;> simp only [mark] <;> omega

lemma lead_lt_of_ne (h : v < w) (hw : w < 0x110000) (hne : following v ≠ following w) :
    lead v < lead w := by
  simp only [lead, following] at *
  split_ifs at * <;> simp only [mark] <;> omega

/-- Where equally many bytes follow, the first bytes are in order, or they are equal and the bytes
that follow are in order. -/
lemma lead_lt_or_eq (h : v < w) (heq : following v = following w) :
    lead v < lead w ∨ lead v = lead w ∧ v % 64 ^ following v < w % 64 ^ following v := by
  have hw : w % 64 ^ following v < 64 ^ following v := Nat.mod_lt _ (Nat.pow_pos (by decide))
  rw [← Nat.div_add_mod v (64 ^ following v), ← Nat.div_add_mod w (64 ^ following v)] at h
  simp only [lead, ← heq]
  rcases Index.lt_or_of_digit hw h with hlt | ⟨hquotient, hrest⟩
  · exact Or.inl (Nat.add_lt_add_right hlt _)
  · exact Or.inr ⟨congrArg (· + mark (following v)) hquotient, hrest⟩

/-- Characters sort like their bytes, whatever follows them. -/
lemma utf8EncodeChar_append_lt (h : c < d) :
    String.utf8EncodeChar c ++ bytes < String.utf8EncodeChar d ++ bytes' := by
  have hlt : c.toNat < d.toNat := h
  have hvalid : d.toNat < 0xd800 ∨ 0xdfff < d.toNat ∧ d.toNat < 0x110000 := d.valid
  have hd : d.toNat < 0x110000 := by omega
  rw [utf8EncodeChar_eq, utf8EncodeChar_eq, List.cons_append, List.cons_append]
  apply ofNat_cons_lt (lead_lt_256 (Nat.lt_trans hlt hd)) (lead_lt_256 hd)
  by_cases heq : following c.toNat = following d.toNat
  · rw [← heq]
    exact (lead_lt_or_eq hlt heq).imp_right fun ⟨hlead, hrest⟩ =>
      ⟨hlead, trails_append_lt hrest⟩
  · exact Or.inl (lead_lt_of_ne hlt hd heq)

lemma utf8EncodeChar_append_ne (h : c < d) :
    String.utf8EncodeChar c ++ bytes ≠ String.utf8EncodeChar d ++ bytes' := by
  intro heq
  have hlt : String.utf8EncodeChar c ++ bytes < String.utf8EncodeChar d ++ bytes' :=
    utf8EncodeChar_append_lt h
  rw [heq] at hlt
  exact List.lt_irrefl _ hlt

/-- Bytes begin with those of one character only. -/
lemma eq_of_utf8EncodeChar_append
    (h : String.utf8EncodeChar c ++ bytes = String.utf8EncodeChar d ++ bytes') : c = d := by
  rcases Nat.lt_trichotomy c.toNat d.toNat with hlt | heq | hgt
  · exact absurd h (utf8EncodeChar_append_ne hlt)
  · exact Char.toNat_inj.mp heq
  · exact absurd h.symm (utf8EncodeChar_append_ne hgt)

/-! ### Texts -/

lemma flatMap_lt_flatMap (h : cs < ds) :
    cs.flatMap String.utf8EncodeChar < ds.flatMap String.utf8EncodeChar := by
  induction h with
  | nil =>
    rw [List.flatMap_cons, utf8EncodeChar_eq]
    exact List.nil_lt_cons _ _
  | rel h => exact utf8EncodeChar_append_lt h
  | cons _ ih => exact List.append_left_lt ih

/-- The bytes of texts sort like the texts. -/
theorem encode_lt_iff : encode s < encode t ↔ compare s t = .lt := by
  have hlt {s t : String} (h : compare s t = .lt) : encode s < encode t := by
    rw [encode_eq_flatMap, encode_eq_flatMap]
    exact flatMap_lt_flatMap (Text.compare_eq_lt_iff.mp h)
  constructor
  · intro h
    cases hcompare : compare s t with
    | lt => rfl
    | eq =>
      rw [LawfulEqOrd.eq_of_compare hcompare] at h
      exact absurd h (List.lt_irrefl _)
    | gt => exact absurd h (List.lt_asymm (hlt (OrientedCmp.lt_of_gt hcompare)))
  · exact hlt

/-- The bytes of characters are a prefix code: where bytes begin with those of some characters, the
characters do. -/
lemma flatMap_prefix_flatMap_iff :
    cs.flatMap String.utf8EncodeChar <+: ds.flatMap String.utf8EncodeChar ↔ cs <+: ds := by
  constructor
  · intro h
    induction cs generalizing ds with
    | nil => exact List.nil_prefix
    | cons c cs ih =>
      obtain ⟨rest, hrest⟩ := h
      cases ds with
      | nil =>
        rw [List.flatMap_cons, utf8EncodeChar_eq] at hrest
        cases hrest
      | cons d ds =>
        rw [List.flatMap_cons, List.flatMap_cons, List.append_assoc] at hrest
        obtain rfl := eq_of_utf8EncodeChar_append hrest
        exact List.cons_prefix_cons.mpr ⟨rfl, ih ⟨rest, List.append_cancel_left hrest⟩⟩
  · rintro ⟨rest, rfl⟩
    rw [List.flatMap_append]
    exact List.prefix_append _ _

lemma encode_prefix_iff : encode s <+: encode t ↔ s.toList <+: t.toList := by
  rw [encode_eq_flatMap, encode_eq_flatMap, flatMap_prefix_flatMap_iff]

end DeclaredOptions.Utf8

/-! ### Names of indices -/

namespace DeclaredOptions.Index

open Std

/-- The names of the numbers below `2 ^ 64` are read as their numbers, no other text is read, and
the bytes of names sort like the numbers. -/
theorem isOrderedCode :
    (∀ text n, parse? text = some n ↔ text = name n ∧ n < 2 ^ 64) ∧
    (∀ text, parse? text = none ↔ ∀ n < 2 ^ 64, text ≠ name n) ∧
    ∀ m n, Utf8.encode (name m) < Utf8.encode (name n) ↔ m < n := by
  refine ⟨fun _ _ => parse?_eq_some_iff, fun text => ?_, fun m n => ?_⟩
  · rw [Option.eq_none_iff_forall_ne_some]
    constructor
    · rintro hnone n hn rfl
      exact hnone n (parse?_name hn)
    · intro hother n hsome
      obtain ⟨hname, hn⟩ := parse?_eq_some_iff.mp hsome
      exact hother n hn hname
  · rw [Utf8.encode_lt_iff]
    constructor
    · intro hlt
      rcases Nat.lt_trichotomy m n with hmn | rfl | hnm
      · exact hmn
      · simp at hlt
      · exact absurd (name_lt_name hnm) (OrientedCmp.not_lt_of_lt hlt)
    · exact name_lt_name

end DeclaredOptions.Index
