import DeclaredOptions.Json.Token
import Mathlib.Tactic.Common

/-!
# Literals are read back

An escaped character is read as the unit that stands for it (`scan_escape`), and the units of a text
decode to its characters, since no character is half of a surrogate pair (`decode_map_toNat`). So
the literal of a text is one token that holds the text, whatever follows it (`scan_write`).
-/

namespace DeclaredOptions.Json

namespace Literal

/-! ### Units -/

lemma hexValue?_hexDigit {n : Nat} (h : n < 16) : hexValue? (hexDigit n) = some n := by
  decide +revert

/-- No character is the first half of a surrogate pair. -/
lemma not_isLead (c : Char) : ¬IsLead c.toNat := by
  rintro ⟨hleast, hgreatest⟩
  have hvalid : c.toNat.isValidChar := c.valid
  rcases hvalid with hlow | ⟨hhigh, _⟩ <;> omega

lemma alone?_toNat (c : Char) : alone? c.toNat = some c := by
  have hvalid : c.toNat.isValidChar := c.valid
  rw [alone?, if_pos hvalid, Char.ofNat_toNat]

/-- The units of characters decode to these characters. -/
lemma decode_map_toNat (cs : List Char) : decode (cs.map Char.toNat) = some cs := by
  induction cs with
  | nil => rfl
  | cons c cs ih =>
    cases cs with
    | nil => rw [List.map_cons, List.map_nil, decode, alone?_toNat]; rfl
    | cons next cs =>
      rw [List.map_cons, List.map_cons, decode, if_neg fun h => not_isLead c h.1, alone?_toNat]
      rw [List.map_cons] at ih
      simp only [ih, Option.map_some]

end Literal

namespace Token

open Literal

/-! ### Characters of a literal -/

/-- A control character is read from the digits of its escape. -/
lemma scan_unicode {n : Nat} (h : n < 256) (units : List Nat) (rest : List Char) :
    scan (.unicode units 4 0) ('0' :: '0' :: hexDigit (n / 16) :: hexDigit (n % 16) :: rest) =
      scan (.text (n :: units)) rest := by
  have hzero : hexValue? '0' = some 0 := by decide
  have hhigh := hexValue?_hexDigit (n := n / 16) (by omega)
  have hlow := hexValue?_hexDigit (n := n % 16) (by omega)
  have hvalue : 16 * (16 * (16 * (16 * 0 + 0) + 0) + n / 16) + n % 16 = n := by omega
  simp only [scan, hzero, hhigh, hlow, hvalue]

/-- An escaped character is read as its unit. -/
lemma scan_escape (c : Char) (units : List Nat) (rest : List Char) :
    scan (.text units) (escape c ++ rest) = scan (.text (c.toNat :: units)) rest := by
  unfold escape
  split
  case h_8 _ hquote hbackslash _ _ _ _ _ =>
    by_cases hcontrol : c.toNat < 0x20
    · rw [if_pos hcontrol]
      show scan (.unicode units 4 0) _ = _
      exact scan_unicode (by omega) units rest
    · rw [if_neg hcontrol, List.singleton_append, scan, if_neg hquote, if_neg hbackslash,
        if_neg hcontrol]
  -- the others have escapes of their own
  all_goals rfl

lemma scan_flatMap_escape (cs : List Char) (units : List Nat) (rest : List Char) :
    scan (.text units) (cs.flatMap escape ++ rest) =
      scan (.text ((cs.map Char.toNat).reverse ++ units)) rest := by
  induction cs generalizing units with
  | nil => rfl
  | cons c cs ih =>
    rw [List.flatMap_cons, List.append_assoc, scan_escape, ih, List.map_cons, List.reverse_cons,
      List.append_assoc]
    rfl

/-! ### Whole literals -/

/-- A literal is read as the text that it was written for. -/
lemma scan_write (text : String) (rest : List Char) :
    scan .nothing ((Literal.write text).toList ++ rest) =
      (scan .nothing rest).map (.text (some text) :: ·) := by
  have hstart (cs : List Char) : scan .nothing ('"' :: cs) = scan (.text []) cs := rfl
  have hend (units : List Nat) : scan (.text units) ('"' :: rest) = (scan .nothing rest).map
      (.text ((Literal.decode units.reverse).map String.ofList) :: ·) := rfl
  rw [Literal.write, String.toList_ofList, List.cons_append, List.append_assoc, hstart,
    scan_flatMap_escape, List.singleton_append, hend, List.append_nil, List.reverse_reverse,
    decode_map_toNat, Option.map_some, String.ofList_toList]

end Token

end DeclaredOptions.Json
