/-!
# Splitting text at a character

`split` cuts at every occurrence of a separator and keeps empty parts, so joining the parts with
the separator gives the text back (`join_split`), and parts that are free of it are recovered from
their join (`split_join`). `cut?` cuts at the first occurrence only (`cut?_eq_some_iff`).
-/

namespace DeclaredOptions.Text

/-- The parts of `text` between the occurrences of `sep`, empty ones included. -/
def split (sep : Char) (text : String) : List String :=
  (text.toList.splitOn sep).map String.ofList

/-- The parts with `sep` between them. -/
def join (sep : Char) (parts : List String) : String := (String.singleton sep).intercalate parts

/-- The text before and after the first `sep`. -/
def cut? (sep : Char) (text : String) : Option (String × String) :=
  match text.toList.dropWhile (· != sep) with
  | [] => none
  | _ :: after => some (.ofList (text.toList.takeWhile (· != sep)), .ofList after)

/-! ### Laws -/

theorem toList_join (sep : Char) (parts : List String) :
    (join sep parts).toList = [sep].intercalate (parts.map String.toList) := by
  simp [join]

theorem map_toList_split (sep : Char) (text : String) :
    (split sep text).map String.toList = text.toList.splitOn sep := by
  simp [split, Function.comp_def]

theorem join_split (sep : Char) (text : String) : join sep (split sep text) = text := by
  rw [← String.toList_inj, toList_join, map_toList_split, List.intercalate_splitOn]

theorem split_join {sep : Char} {parts : List String} (h : parts ≠ [])
    (free : ∀ part ∈ parts, sep ∉ part.toList) : split sep (join sep parts) = parts := by
  rw [split, toList_join, List.splitOn_intercalate _ (by simpa using free) (by simpa using h)]
  simp [Function.comp_def]

theorem split_ne_nil (sep : Char) (text : String) : split sep text ≠ [] := by
  simp [split, List.splitOn_ne_nil]

theorem not_mem_of_mem_splitOn {sep : Char} {cs part : List Char} (h : part ∈ cs.splitOn sep) :
    sep ∉ part := by
  induction cs generalizing part with
  | nil => simp_all
  | cons c cs ih =>
    rw [List.splitOn_cons_eq_if_modifyHead] at h
    split at h
    · rcases List.mem_cons.1 h with rfl | h
      · simp
      · exact ih h
    · rename_i hc
      cases hs : cs.splitOn sep with
      | nil => exact absurd hs (List.splitOn_ne_nil _ _)
      | cons p ps =>
        rw [hs] at ih
        rw [hs, List.modifyHead_cons] at h
        rcases List.mem_cons.1 h with rfl | h
        · have := ih (List.mem_cons_self (a := p))
          simp only [List.mem_cons, not_or]
          exact ⟨fun e => hc (by simp [e]), this⟩
        · exact ih (List.mem_cons_of_mem _ h)

/-- No part holds the separator. -/
theorem not_mem_of_mem_split {sep : Char} {text part : String} (h : part ∈ split sep text) :
    sep ∉ part.toList := by
  obtain ⟨cs, hcs, rfl⟩ := List.mem_map.1 h
  simpa using not_mem_of_mem_splitOn hcs

/-- The first part of a cut is free of the separator. -/
theorem cut?_eq_some_iff {sep : Char} {text before after : String} :
    cut? sep text = some (before, after) ↔
      sep ∉ before.toList ∧ text = before ++ .singleton sep ++ after := by
  rw [← @String.toList_inj text]
  simp only [cut?, String.toList_append, String.toList_singleton, List.append_assoc,
    List.singleton_append]
  constructor
  · intro h
    split at h
    · simp at h
    · rename_i c rest hdrop
      simp only [Option.some.injEq, Prod.mk.injEq] at h
      obtain ⟨rfl, rfl⟩ := h
      have hc : c = sep := by
        have := List.head?_dropWhile_not (· != sep) text.toList
        simpa [hdrop] using this
      have hfree := List.all_eq_true.1 (List.all_takeWhile (p := (· != sep)) (l := text.toList))
      have hparts := List.takeWhile_append_dropWhile (p := (· != sep)) (l := text.toList)
      rw [hdrop, hc] at hparts
      refine ⟨fun hm => ?_, by simp [hparts]⟩
      simpa using hfree sep (by simpa using hm)
  · rintro ⟨hfree, htext⟩
    have hall : ∀ c ∈ before.toList, (c != sep) = true := by
      intro c hc
      simp only [bne_iff_ne]
      exact fun e => hfree (e ▸ hc)
    rw [htext, List.dropWhile_append_of_pos hall, List.takeWhile_append_of_pos hall]
    simp

end DeclaredOptions.Text
