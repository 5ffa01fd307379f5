import DeclaredOptions.Proofs.Documents
import DeclaredOptions.Text.Utf8

/-!
# Texts as bytes

The bytes of a text are read back as that text. A character is written in one to four bytes. The
first byte tells how many follow, and which second bytes would write a surrogate, a number that is
too large, or a character that has a shorter form.
-/

namespace DeclaredOptions.Utf8

/-- The bytes that write a text. -/
def encode (text : String) : List UInt8 := text.toUTF8.data.toList

variable {byte : UInt8} {place : Place} {rest : List UInt8} {v missing bits least greatest : Nat}

/-! ### One byte -/

lemma scan_complete (h : byte.toNat < 0x80) :
    scan .start (byte :: rest) = some (Char.ofNat byte.toNat) :: scan .start rest := by
  simp [scan, begin, h]

lemma scan_lead (h : begin byte.toNat = ([], place)) :
    scan .start (byte :: rest) = scan place rest := by
  simp [scan, h]

lemma scan_next (h : 1 < missing) (hbyte : least ≤ byte.toNat ∧ byte.toNat ≤ greatest) :
    scan (.inside missing bits least greatest) (byte :: rest) =
      scan (.inside (missing - 1) (64 * bits + (byte.toNat - 0x80)) 0x80 0xbf) rest := by
  simp [scan, hbyte, Nat.not_le.2 h]

lemma scan_last (hbyte : least ≤ byte.toNat ∧ byte.toNat ≤ greatest) :
    scan (.inside 1 bits least greatest) (byte :: rest) =
      some (Char.ofNat (64 * bits + (byte.toNat - 0x80))) :: scan .start rest := by
  simp [scan, hbyte]

/-! ### First bytes -/

lemma begin_two (hleast : 2 ≤ v) (hgreatest : v < 32) :
    begin (v + 0xc0) = ([], .inside 1 v 0x80 0xbf) := by
  grind [begin]

/-- With no bits in the first of three bytes, the second is large enough; with those of the
surrogates, it is small enough. -/
lemma begin_three {n : Nat} (hfirst : v < 16) (hnext : n < 64) (hlong : v = 0 → 32 ≤ n)
    (hsurrogate : v = 13 → n < 32) :
    ∃ least greatest, begin (v + 0xe0) = ([], .inside 2 v least greatest) ∧
      least ≤ n + 0x80 ∧ n + 0x80 ≤ greatest := by
  obtain rfl | rfl | ⟨hzero, hthirteen⟩ : v = 0 ∨ v = 13 ∨ v ≠ 0 ∧ v ≠ 13 := by omega
  · exact ⟨0xa0, 0xbf, rfl, by omega⟩
  · exact ⟨0x80, 0x9f, rfl, by omega⟩
  · exact ⟨0x80, 0xbf, by grind [begin], by omega⟩

lemma begin_four {n : Nat} (hfirst : v < 5) (hnext : n < 64) (hlong : v = 0 → 16 ≤ n)
    (hlarge : v = 4 → n < 16) :
    ∃ least greatest, begin (v + 0xf0) = ([], .inside 3 v least greatest) ∧
      least ≤ n + 0x80 ∧ n + 0x80 ≤ greatest := by
  obtain rfl | rfl | ⟨hzero, hfour⟩ : v = 0 ∨ v = 4 ∨ v ≠ 0 ∧ v ≠ 4 := by omega
  · exact ⟨0x90, 0xbf, rfl, by omega⟩
  · exact ⟨0x80, 0x8f, rfl, by omega⟩
  · exact ⟨0x80, 0xbf, by grind [begin], by omega⟩

/-! ### Characters -/

/-- A byte after the first carries six bits. -/
lemma toNat_trail (v : Nat) : (UInt8.ofNat (v % 64 + 0x80)).toNat = v % 64 + 0x80 := by
  simpa using (show v % 64 + 0x80 < 256 by omega)

/-- The bits of a byte after the first that may be any such byte. -/
lemma trail_mem (v : Nat) : 0x80 ≤ v % 64 + 0x80 ∧ v % 64 + 0x80 ≤ 0xbf := by omega

lemma scan_two (h : 0x80 ≤ v ∧ v < 0x800) :
    scan .start (.ofNat (v / 64 % 32 + 0xc0) :: .ofNat (v % 64 + 0x80) :: rest) =
      some (.ofNat v) :: scan .start rest := by
  have hlead : (UInt8.ofNat (v / 64 % 32 + 0xc0)).toNat = v / 64 + 0xc0 := by
    rw [UInt8.toNat_ofNat']
    omega
  have hbegin := begin_two (v := v / 64) (by omega) (by omega)
  rw [scan_lead (hlead ▸ hbegin), scan_last (by simpa only [toNat_trail] using trail_mem v),
    toNat_trail,
    show 64 * (v / 64) + (v % 64 + 0x80 - 0x80) = v by omega]

lemma scan_three (h : 0x800 ≤ v ∧ v < 0x10000) (hsurrogate : v < 0xd800 ∨ 0xdfff < v) :
    scan .start (.ofNat (v / 4096 % 16 + 0xe0) :: .ofNat (v / 64 % 64 + 0x80) ::
        .ofNat (v % 64 + 0x80) :: rest) =
      some (.ofNat v) :: scan .start rest := by
  have hlead : (UInt8.ofNat (v / 4096 % 16 + 0xe0)).toNat = v / 4096 + 0xe0 := by
    rw [UInt8.toNat_ofNat']
    omega
  obtain ⟨least, greatest, hbegin, hnext⟩ :=
    begin_three (v := v / 4096) (n := v / 64 % 64) (by omega) (by omega) (by omega) (by omega)
  rw [scan_lead (hlead ▸ hbegin), scan_next (by decide) (by simpa only [toNat_trail] using hnext),
    scan_last (by simpa only [toNat_trail] using trail_mem v), toNat_trail, toNat_trail,
    show 64 * (64 * (v / 4096) + (v / 64 % 64 + 0x80 - 0x80)) + (v % 64 + 0x80 - 0x80) = v by omega]

lemma scan_four (h : 0x10000 ≤ v ∧ v < 0x110000) :
    scan .start (.ofNat (v / 262144 % 8 + 0xf0) :: .ofNat (v / 4096 % 64 + 0x80) ::
        .ofNat (v / 64 % 64 + 0x80) :: .ofNat (v % 64 + 0x80) :: rest) =
      some (.ofNat v) :: scan .start rest := by
  have hlead : (UInt8.ofNat (v / 262144 % 8 + 0xf0)).toNat = v / 262144 + 0xf0 := by
    rw [UInt8.toNat_ofNat']
    omega
  have hbits : 64 * (64 * (64 * (v / 262144) + (v / 4096 % 64 + 0x80 - 0x80)) +
      (v / 64 % 64 + 0x80 - 0x80)) + (v % 64 + 0x80 - 0x80) = v := by omega
  obtain ⟨least, greatest, hbegin, hnext⟩ :=
    begin_four (v := v / 262144) (n := v / 4096 % 64) (by omega) (by omega) (by omega) (by omega)
  rw [scan_lead (hlead ▸ hbegin), scan_next (by decide) (by simpa only [toNat_trail] using hnext),
    scan_next (by decide) (by simpa only [toNat_trail] using trail_mem (v / 64)),
    scan_last (by simpa only [toNat_trail] using trail_mem v), toNat_trail, toNat_trail,
    toNat_trail, hbits]

/-- The bytes of a character are read as that character, whatever follows. -/
theorem scan_utf8EncodeChar (c : Char) :
    scan .start (String.utf8EncodeChar c ++ rest) = some c :: scan .start rest := by
  have hvalid : c.toNat < 0xd800 ∨ 0xdfff < c.toNat ∧ c.toNat < 0x110000 := c.valid
  conv_rhs => rw [← c.ofNat_toNat]
  simp only [String.utf8EncodeChar, Char.toNat_val]
  split_ifs with hone htwo hthree
  · have hbyte : (UInt8.ofNat c.toNat).toNat = c.toNat := by
      rw [UInt8.toNat_ofNat']
      omega
    rw [List.singleton_append, scan_complete (by omega), hbyte]
  · exact scan_two (by omega)
  · exact scan_three (by omega) (by omega)
  · exact scan_four (by omega)

/-! ### Texts -/

lemma scan_flatMap (chars : List Char) :
    scan .start (chars.flatMap String.utf8EncodeChar) = chars.map some := by
  induction chars with
  | nil => rfl
  | cons c chars ih => rw [List.flatMap_cons, scan_utf8EncodeChar, ih, List.map_cons]

/-- The bytes of a text are those of its characters. -/
lemma encode_eq_flatMap (text : String) :
    encode text = text.toList.flatMap String.utf8EncodeChar := by
  conv_lhs => rw [← text.ofList_toList]
  rw [encode, String.toUTF8_eq_toByteArray, String.toByteArray_ofList, List.utf8Encode,
    List.data_toByteArray]

/-- The bytes of a text are read back as that text. -/
theorem decode?_encode (text : String) : decode? (encode text) = some text := by
  have hparts := Document.mapM_map (f := some) (g := fun part => part) (fun _ => rfl) text.toList
  rw [decode?, encode_eq_flatMap, scan_flatMap, hparts, Option.map_some, text.ofList_toList]

end DeclaredOptions.Utf8
