/-!
# Lists sorted by a key

`SortedBy key` holds items in strictly increasing order of `key`, hence at most one item for each
key. It is the canonical form of a finite map whose items know their own key: two of them are equal
as soon as every look-up agrees (`SortedBy.ext_find?`). `SortedMap κ β` is the special case of
pairs sorted by their first component.
-/

namespace DeclaredOptions

open Std

variable {α κ β : Type} [Ord κ]

/-- Items in strictly increasing order of `key`. -/
@[ext]
structure SortedBy (key : α → κ) where
  toList : List α
  increasing : toList.Pairwise fun a b => compare (key a) (key b) = .lt

/-- Finite maps from `κ` to `β`, as pairs sorted by their first component. -/
abbrev SortedMap (κ β : Type) [Ord κ] : Type := SortedBy (Prod.fst : κ × β → κ)

namespace SortedBy

variable {key : α → κ}

instance [DecidableEq α] : DecidableEq (SortedBy key) := fun s t =>
  decidable_of_iff (s.toList = t.toList) SortedBy.ext_iff.symm

/-! ### Look-up -/

/-- The item filed under `k`. -/
def find? (s : SortedBy key) (k : κ) : Option α :=
  s.toList.find? fun a => compare (key a) k == .eq

/-- The items whose key is not below `k`, in order. -/
def atLeast (s : SortedBy key) (k : κ) : List α :=
  s.toList.dropWhile fun a => compare (key a) k == .lt

/-- The items whose key is above `k`, in order. -/
def above (s : SortedBy key) (k : κ) : List α :=
  s.toList.dropWhile fun a => (compare (key a) k).isLE

/-- The number of items. -/
def size (s : SortedBy key) : Nat := s.toList.length

/-- Whether there are no items. -/
def isEmpty (s : SortedBy key) : Bool := s.toList.isEmpty

/-! ### Change -/

instance : EmptyCollection (SortedBy key) := ⟨⟨[], .nil⟩⟩

instance : Inhabited (SortedBy key) := ⟨∅⟩

/-- Insertion into a list sorted by `key`; an item of the same key gives way. -/
def insertInto (key : α → κ) (x : α) : List α → List α
  | [] => [x]
  | a :: rest =>
    match compare (key x) (key a) with
    | .lt => x :: a :: rest
    | .eq => x :: rest
    | .gt => a :: insertInto key x rest

theorem mem_insertInto {x b : α} {l : List α} (h : b ∈ insertInto key x l) : b = x ∨ b ∈ l := by
  induction l with
  | nil => simpa [insertInto] using h
  | cons a rest ih =>
    rw [insertInto] at h
    split at h <;> grind

theorem pairwise_insertInto [TransOrd κ] (x : α) {l : List α}
    (h : l.Pairwise fun a b => compare (key a) (key b) = .lt) :
    (insertInto key x l).Pairwise fun a b => compare (key a) (key b) = .lt := by
  induction l with
  | nil => simp [insertInto]
  | cons a rest ih =>
    rw [List.pairwise_cons] at h
    rw [insertInto]
    split
    · rename_i hlt
      refine List.pairwise_cons.2 ⟨fun b hb => ?_, List.pairwise_cons.2 h⟩
      rcases List.mem_cons.1 hb with rfl | hb
      · exact hlt
      · exact TransCmp.lt_trans hlt (h.1 b hb)
    · rename_i heq
      exact List.pairwise_cons.2
        ⟨fun b hb => (TransCmp.congr_left heq).trans (h.1 b hb), h.2⟩
    · rename_i hgt
      refine List.pairwise_cons.2 ⟨fun b hb => ?_, ih h.2⟩
      rcases mem_insertInto hb with rfl | hb
      · exact OrientedCmp.lt_of_gt hgt
      · exact h.1 b hb

/-- Files `x` under its key, in place of the item that was there. -/
def insert [TransOrd κ] (s : SortedBy key) (x : α) : SortedBy key :=
  ⟨insertInto key x s.toList, pairwise_insertInto x s.increasing⟩

/-- Files all items in turn: of two with the same key the later one stays. -/
def insertAll [TransOrd κ] (s : SortedBy key) (items : List α) : SortedBy key :=
  items.foldl insert s

/-- The items of a list, the later ones replacing earlier ones of the same key. -/
def ofList [TransOrd κ] (key : α → κ) (items : List α) : SortedBy key :=
  insertAll ∅ items

/-- Removes the item filed under `k`. -/
def erase (s : SortedBy key) (k : κ) : SortedBy key :=
  ⟨s.toList.filter fun a => compare (key a) k != .eq, s.increasing.filter _⟩

/-! ### Look-up after a change -/

@[simp] theorem toList_empty : (∅ : SortedBy key).toList = [] := rfl

@[simp] theorem find?_empty (k : κ) : (∅ : SortedBy key).find? k = none := rfl

@[simp] theorem insertAll_nil [TransOrd κ] (s : SortedBy key) : s.insertAll [] = s := rfl

@[simp] theorem insertAll_cons [TransOrd κ] (s : SortedBy key) (x : α) (items : List α) :
    s.insertAll (x :: items) = (s.insert x).insertAll items := rfl

theorem insertAll_append [TransOrd κ] (s : SortedBy key) (xs ys : List α) :
    s.insertAll (xs ++ ys) = (s.insertAll xs).insertAll ys := List.foldl_append

theorem key_of_find?_eq_some [LawfulEqOrd κ] {s : SortedBy key} {k : κ} {a : α}
    (h : s.find? k = some a) : key a = k := by
  have := List.find?_some h
  simpa using this

variable [LawfulEqOrd κ]

theorem find?_insert_self [TransOrd κ] (s : SortedBy key) (x : α) :
    (s.insert x).find? (key x) = some x := by
  obtain ⟨l, hl⟩ := s
  simp only [find?, insert]
  clear hl
  induction l with
  | nil => simp [insertInto]
  | cons a rest ih =>
    rw [insertInto]
    split
    · simp
    · simp
    · rename_i hgt
      have : compare (key a) (key x) = .lt := OrientedCmp.lt_of_gt hgt
      simp [this, ih]

theorem find?_insert_of_ne [TransOrd κ] (s : SortedBy key) {x : α} {k : κ} (h : key x ≠ k) :
    (s.insert x).find? k = s.find? k := by
  obtain ⟨l, hl⟩ := s
  simp only [find?, insert]
  clear hl
  have hx : (compare (key x) k == .eq) = false := by simpa using h
  induction l with
  | nil => simp [insertInto, hx]
  | cons a rest ih =>
    rw [insertInto]
    split
    · rw [List.find?_cons_of_neg (by simp [hx])]
    · rename_i heq
      have ha : key a = key x := (LawfulEqCmp.eq_of_compare heq).symm
      rw [List.find?_cons_of_neg (by simp [hx]), List.find?_cons_of_neg (by simp [ha, hx])]
    · simp only [List.find?_cons, ih]

theorem find?_erase_self (s : SortedBy key) (k : κ) : (s.erase k).find? k = none := by
  simp [find?, erase]

theorem find?_erase_of_ne (s : SortedBy key) {j k : κ} (h : j ≠ k) :
    (s.erase j).find? k = s.find? k := by
  simp only [find?, erase, List.find?_filter]
  congr 1
  funext a
  by_cases ha : key a = k
  · simp [ha, Ne.symm h]
  · simp [ha]

theorem mem_iff_find? {s : SortedBy key} {a : α} : a ∈ s.toList ↔ s.find? (key a) = some a := by
  obtain ⟨l, hl⟩ := s
  simp only [find?]
  constructor
  · intro ha
    induction l with
    | nil => simp at ha
    | cons b rest ih =>
      rw [List.pairwise_cons] at hl
      rcases List.mem_cons.1 ha with rfl | ha
      · simp
      · have : compare (key b) (key a) = .lt := hl.1 a ha
        rw [List.find?_cons_of_neg (by simp [this])]
        exact ih hl.2 ha
  · exact List.mem_of_find?_eq_some

/-- A sorted list is determined by its look-ups. -/
theorem ext_find? [TransOrd κ] {s t : SortedBy key} (h : ∀ k, s.find? k = t.find? k) : s = t := by
  have mem : ∀ a, a ∈ s.toList ↔ a ∈ t.toList := fun a => by
    rw [mem_iff_find?, mem_iff_find?, h]
  obtain ⟨l, hl⟩ := s
  obtain ⟨m, hm⟩ := t
  rw [SortedBy.mk.injEq]
  simp only at mem
  clear h
  induction l generalizing m with
  | nil =>
    cases m with
    | nil => rfl
    | cons b m => exact absurd ((mem b).2 (by simp)) (by simp)
  | cons a l ih =>
    cases m with
    | nil => exact absurd ((mem a).1 (by simp)) (by simp)
    | cons b m =>
      rw [List.pairwise_cons] at hl hm
      have hab : a = b := by
        rcases List.mem_cons.1 ((mem a).1 (by simp)) with rfl | ha
        · rfl
        · rcases List.mem_cons.1 ((mem b).2 (by simp)) with rfl | hb
          · rfl
          · exact absurd (TransCmp.lt_trans (hm.1 a ha) (hl.1 b hb)) (by simp)
      subst hab
      have irrefl : ∀ c, compare (key c) (key c) ≠ .lt := fun c => by simp
      refine congrArg _ (ih hl.2 m hm.2 fun c => ⟨fun hc => ?_, fun hc => ?_⟩)
      · rcases List.mem_cons.1 ((mem c).1 (List.mem_cons_of_mem _ hc)) with rfl | h
        · exact absurd (hl.1 c hc) (irrefl c)
        · exact h
      · rcases List.mem_cons.1 ((mem c).2 (List.mem_cons_of_mem _ hc)) with rfl | h
        · exact absurd (hm.1 c hc) (irrefl c)
        · exact h

end SortedBy

namespace SortedMap

/-- The value filed under `k`. -/
def get? (m : SortedMap κ β) (k : κ) : Option β := (m.find? k).map Prod.snd

/-- Files `v` under `k`. -/
def set [TransOrd κ] (m : SortedMap κ β) (k : κ) (v : β) : SortedMap κ β := m.insert (k, v)

variable [TransOrd κ] [LawfulEqOrd κ]

theorem get?_set_self (m : SortedMap κ β) (k : κ) (v : β) : (m.set k v).get? k = some v := by
  simp only [get?, set]
  rw [SortedBy.find?_insert_self m (k, v), Option.map_some]

theorem get?_set_of_ne (m : SortedMap κ β) {j k : κ} (h : j ≠ k) (v : β) :
    (m.set j v).get? k = m.get? k := by
  simp only [get?, set]
  rw [SortedBy.find?_insert_of_ne m h]

end SortedMap

end DeclaredOptions
