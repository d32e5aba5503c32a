import Mathlib

/-!
# Sorted sets and the newest of a list

A set that is kept sorted by a key, each key once, and the loop that keeps the newest element of a list.
-/

namespace Ordered
open List List.Pairwise

section
variable {α : Type*} {key : α → ℕ} {x y : α} {l : List α}

def insertBy (key : α → ℕ) (x : α) : List α → List α
  | [] => [x]
  | y :: l => if key x < key y then x :: y :: l else if key x = key y then y :: l else y :: insertBy key x l

def setOf (key : α → ℕ) (l : List α) : List α := l.foldl (fun s x => insertBy key x s) []

lemma eq_or_mem_of_insertBy (h : y ∈ insertBy key x l) : y = x ∨ y ∈ l := by
  induction l with
  | nil => simpa [insertBy] using h
  | cons w l ih =>
    unfold insertBy at h
    split at h
    · simpa using h
    split at h
    · exact .inr h
    rcases mem_cons.mp h with rfl | h
    · exact .inr mem_cons_self
    · exact (ih h).imp id (mem_cons_of_mem _)

lemma sorted_insertBy (h : l.Pairwise fun a b => key a < key b) :
    (insertBy key x l).Pairwise fun a b => key a < key b := by
  induction l with
  | nil => simp [insertBy]
  | cons y l ih =>
    obtain ⟨hy, hl⟩ := pairwise_cons.mp h
    unfold insertBy
    split
    · rename_i hlt
      refine pairwise_cons.mpr ⟨?_, h⟩
      intro z hz
      rcases mem_cons.mp hz with rfl | hz
      · exact hlt
      · exact hlt.trans (hy z hz)
    · split
      · exact h
      rename_i hlt hne
      refine pairwise_cons.mpr ⟨?_, ih hl⟩
      intro z hz
      rcases eq_or_mem_of_insertBy hz with rfl | hz
      · omega
      · exact hy z hz

lemma mem_insertBy (h : l.Pairwise fun a b => key a < key b) :
    y ∈ insertBy key x l ↔ y ∈ l ∨ (y = x ∧ ∀ z ∈ l, key z ≠ key x) := by
  induction l with
  | nil => simp [insertBy]
  | cons w l ih =>
    obtain ⟨hw, hl⟩ := pairwise_cons.mp h
    unfold insertBy
    split
    · rename_i hlt
      have hall : ∀ z ∈ w :: l, key z ≠ key x := by
        intro z hz
        rcases mem_cons.mp hz with rfl | hz
        · omega
        · have := hw z hz
          omega
      rw [mem_cons]
      constructor
      · rintro (rfl | hy)
        · exact .inr ⟨rfl, hall⟩
        · exact .inl hy
      · rintro (hy | ⟨rfl, -⟩)
        · exact .inr hy
        · exact .inl rfl
    · split
      · rename_i heq
        constructor
        · exact .inl
        · rintro (hy | ⟨-, hall⟩)
          · exact hy
          · exact absurd heq.symm (hall w mem_cons_self)
      · rename_i hne
        rw [mem_cons, ih hl, mem_cons, forall_mem_cons]
        constructor
        · rintro (rfl | hy | ⟨rfl, hall⟩)
          · exact .inl (.inl rfl)
          · exact .inl (.inr hy)
          · exact .inr ⟨rfl, fun heq => hne heq.symm, hall⟩
        · rintro ((rfl | hy) | ⟨rfl, -, hall⟩)
          · exact .inl rfl
          · exact .inr (.inl hy)
          · exact .inr (.inr ⟨rfl, hall⟩)

def FirstOf (key : α → ℕ) (l : List α) (x : α) : Prop := l.find? (fun y => key y = key x) = some x

lemma sorted_setOf (key : α → ℕ) (l : List α) : (setOf key l).Pairwise fun a b => key a < key b := by
  unfold setOf
  suffices ∀ s : List α, (s.Pairwise fun a b => key a < key b) →
      (l.foldl (fun s x => insertBy key x s) s).Pairwise fun a b => key a < key b from this [] nil
  induction l with
  | nil => exact fun s hs => hs
  | cons x l ih => exact fun s hs => ih _ (sorted_insertBy hs)

lemma mem_setOf (key : α → ℕ) (l : List α) (y : α) : y ∈ setOf key l ↔ FirstOf key l y := by
  unfold setOf
  suffices ∀ s : List α, (s.Pairwise fun a b => key a < key b) → (y ∈ l.foldl (fun s x => insertBy key x s) s ↔
        y ∈ s ∨ ((∀ z ∈ s, key z ≠ key y) ∧ FirstOf key l y)) by
    have h := this [] nil
    simpa using h
  induction l with
  | nil => simp [FirstOf]
  | cons x l ih =>
    intro s hs
    rw [foldl_cons, ih _ (sorted_insertBy hs), mem_insertBy hs]
    unfold FirstOf
    rw [find?_cons]
    by_cases hx : key x = key y
    · simp only [hx, decide_true, Option.some.injEq]
      constructor
      · rintro ((hy | ⟨rfl, hall⟩) | ⟨hall, -⟩)
        · exact .inl hy
        · exact .inr ⟨hall, rfl⟩
        exfalso
        by_cases hin : ∃ z ∈ s, key z = key y
        · obtain ⟨z, hz, hzy⟩ := hin
          exact hall z ((mem_insertBy hs).mpr (.inl hz)) hzy
        · simp only [not_exists, not_and] at hin
          exact hall x ((mem_insertBy hs).mpr (.inr ⟨rfl, fun z hz => by rw [hx]; exact hin z hz⟩)) hx
      · rintro (hy | ⟨hall, rfl⟩)
        · exact .inl (.inl hy)
        · exact .inl (.inr ⟨rfl, hall⟩)
    · simp only [hx, decide_false]
      constructor
      · rintro ((hy | ⟨rfl, -⟩) | ⟨hall, hfirst⟩)
        · exact .inl hy
        · exact absurd rfl hx
        · exact .inr ⟨fun z hz => hall z ((mem_insertBy hs).mpr (.inl hz)), hfirst⟩
      · rintro (hy | ⟨hall, hfirst⟩)
        · exact .inl (.inl hy)
        refine .inr ⟨?_, hfirst⟩
        intro z hz
        rcases (mem_insertBy hs).mp hz with hz | ⟨rfl, -⟩
        · exact hall z hz
        · exact hx

lemma length_insertBy (h : ∀ y ∈ l, key y ≠ key x) : (insertBy key x l).length = l.length + 1 := by
  induction l with
  | nil => rfl
  | cons y l ih =>
    obtain ⟨hy, hl⟩ := forall_mem_cons.mp h
    unfold insertBy
    split
    · rfl
    · rw [if_neg (Ne.symm hy), length_cons, ih hl, length_cons]

lemma length_setOf (h : l.Pairwise fun a b => key a ≠ key b) : (setOf key l).length = l.length := by
  unfold setOf
  suffices ∀ s : List α, (∀ x ∈ s, ∀ y ∈ l, key x ≠ key y) →
      (l.foldl (fun s x => insertBy key x s) s).length = s.length + l.length by
    simpa using this [] (fun _ hx => absurd hx not_mem_nil)
  induction l with
  | nil => exact fun s _ => rfl
  | cons y l ih =>
    intro s hs
    obtain ⟨hy, hl⟩ := pairwise_cons.mp h
    have hlen := length_insertBy (x := y) (l := s) fun x hx => hs x hx y mem_cons_self
    rw [foldl_cons, ih hl, hlen, length_cons]
    · omega
    intro x hx z hz
    rcases eq_or_mem_of_insertBy hx with rfl | hx
    · exact hy z hz
    · exact hs x hx z (mem_cons_of_mem _ hz)

end

section
variable {α : Type*} {t : α → ℤ} {key : α → ℕ} {l : List α} {s : α}

def newest (t : α → ℤ) (s : α) (l : List α) : α := l.foldl (fun sel x => if t sel < t x then x else sel) s

lemma newest_spec (h : l.Pairwise fun a b => key a < key b) : (newest t s l = s ∧ ∀ x ∈ l, t x ≤ t s) ∨
      (newest t s l ∈ l ∧ t s < t (newest t s l) ∧ ∀ x ∈ l, t x < t (newest t s l) ∨
          (t x = t (newest t s l) ∧ key (newest t s l) ≤ key x)) := by
  unfold newest
  induction l generalizing s with
  | nil => simp
  | cons x l ih =>
    obtain ⟨hx, hl⟩ := pairwise_cons.mp h
    rw [foldl_cons]
    by_cases hlt : t s < t x
    · rw [if_pos hlt]
      right
      rcases ih (s := x) hl with ⟨heq, hall⟩ | ⟨hmem, hgt, hall⟩
      · rw [heq]
        refine ⟨mem_cons_self, hlt, ?_⟩
        intro y hy
        rcases mem_cons.mp hy with rfl | hy
        · exact .inr ⟨rfl, le_refl _⟩
        rcases lt_or_eq_of_le (hall y hy) with h | h
        · exact .inl h
        · exact .inr ⟨h, (hx y hy).le⟩
      · refine ⟨mem_cons_of_mem _ hmem, hlt.trans hgt, ?_⟩
        intro y hy
        rcases mem_cons.mp hy with rfl | hy
        · exact .inl hgt
        · exact hall y hy
    · rw [if_neg hlt]
      rcases ih (s := s) hl with ⟨heq, hall⟩ | ⟨hmem, hgt, hall⟩
      · left
        refine ⟨heq, ?_⟩
        intro y hy
        rcases mem_cons.mp hy with rfl | hy
        · omega
        · exact hall y hy
      · right
        refine ⟨mem_cons_of_mem _ hmem, hgt, ?_⟩
        intro y hy
        rcases mem_cons.mp hy with rfl | hy
        · left
          omega
        · exact hall y hy

end

/-!
## sets that are kept sorted by a key

A `std::set` as the list of its elements in order, which carries the proof that it is sorted.
-/

/-- the elements of a set in the order of their keys, which differ -/
@[ext]
structure SortedSet {α : Type*} (key : α → ℕ) where
  toList : List α
  sorted : toList.Pairwise fun a b => key a < key b
deriving DecidableEq

namespace SortedSet
variable {α : Type*} {key : α → ℕ} {x y : α} {l : List α} {s s' : SortedSet key}

def empty : SortedSet key := ⟨[], .nil⟩

/-- `none` when an element with the key of `x` is there already -/
def emplace (s : SortedSet key) (x : α) : Option (SortedSet key) :=
  if s.toList.any fun y => key y = key x then none else some ⟨insertBy key x s.toList, sorted_insertBy s.sorted⟩

def emplaceAll (s : SortedSet key) (l : List α) : Option (SortedSet key) := l.foldlM emplace s

/-- `std::set::insert` -/
def insert (s : SortedSet key) (x : α) : SortedSet key := ⟨insertBy key x s.toList, sorted_insertBy s.sorted⟩

lemma mem_insert (hinj : Function.Injective key) : y ∈ (s.insert x).toList ↔ y = x ∨ y ∈ s.toList := by
  show y ∈ insertBy key x s.toList ↔ _
  rw [mem_insertBy s.sorted]
  constructor
  · rintro (hy | ⟨rfl, -⟩)
    · exact .inr hy
    · exact .inl rfl
  · rintro (rfl | hy)
    · by_cases hmem : y ∈ s.toList
      · exact .inl hmem
      · exact .inr ⟨rfl, fun z hz heq => hmem (hinj heq ▸ hz)⟩
    · exact .inl hy

lemma nodup (s : SortedSet key) : s.toList.Nodup := s.sorted.imp fun h heq => absurd h (by simp [heq])

lemma insertBy_last (h : ∀ y ∈ l, key y < key x) : insertBy key x l = l ++ [x] := by
  induction l with
  | nil => rfl
  | cons y l ih =>
    have hy : key y < key x := h y mem_cons_self
    unfold insertBy
    rw [if_neg (by omega), if_neg (by omega), ih fun z hz => h z (mem_cons_of_mem y hz), cons_append]

lemma emplace_last (h : ∀ y ∈ s.toList, key y < key x) (hs : (s.toList ++ [x]).Pairwise fun a b => key a < key b) :
    s.emplace x = some ⟨s.toList ++ [x], hs⟩ := by
  have hnew : ¬ (s.toList.any fun y => decide (key y = key x)) = true := by
    rw [any_eq_true]
    rintro ⟨y, hy, heq⟩
    have hlt := h y hy
    have heq : key y = key x := of_decide_eq_true heq
    omega
  unfold emplace
  rw [if_neg hnew]
  exact congrArg some (SortedSet.ext (insertBy_last h))

lemma emplaceAll_append (l : List α) : ∀ {s : SortedSet key} (h : (s.toList ++ l).Pairwise fun a b => key a < key b),
    s.emplaceAll l = some ⟨s.toList ++ l, h⟩ := by
  induction l with
  | nil =>
    intro s h
    exact congrArg some (SortedSet.ext (append_nil s.toList).symm)
  | cons x l ih =>
    intro s h
    have hassoc : s.toList ++ x :: l = s.toList ++ [x] ++ l := by simp
    have hx : ∀ y ∈ s.toList, key y < key x := fun y hy =>
      (pairwise_append.mp h).2.2 y hy x mem_cons_self
    have hfirst : (s.toList ++ [x]).Pairwise fun a b => key a < key b := by
      rw [hassoc] at h
      exact (pairwise_append.mp h).1
    unfold emplaceAll
    rw [foldlM_cons, emplace_last hx hfirst]
    refine (ih (s := ⟨s.toList ++ [x], hfirst⟩) (by rw [hassoc] at h; exact h)).trans ?_
    exact congrArg some (SortedSet.ext hassoc.symm)

lemma emplaceAll_sorted (s : SortedSet key) : emplaceAll empty s.toList = some s :=
  emplaceAll_append (s := empty) s.toList s.sorted

lemma mem_emplace (h : s.emplace x = some s') : y ∈ s'.toList ↔ y ∈ s.toList ∨ y = x := by
  unfold emplace at h
  split at h
  · cases h
  rename_i hnew
  cases h
  have hnew' : ∀ z ∈ s.toList, key z ≠ key x := by
    intro z hz heq
    exact hnew (any_eq_true.mpr ⟨z, hz, decide_eq_true heq⟩)
  rw [mem_insertBy s.sorted]
  exact or_congr_right ⟨fun h => h.1, fun h => ⟨h, hnew'⟩⟩

lemma mem_emplaceAll (l : List α) : ∀ {s : SortedSet key}, s.emplaceAll l = some s' →
    (y ∈ s'.toList ↔ y ∈ s.toList ∨ y ∈ l) := by
  induction l with
  | nil =>
    intro s h
    cases h
    simp
  | cons x l ih =>
    intro s h
    unfold emplaceAll at h
    rw [foldlM_cons] at h
    obtain ⟨_, h1, h2⟩ := Option.bind_eq_some_iff.mp h
    rw [ih h2, mem_emplace h1, mem_cons, or_assoc]

end SortedSet

end Ordered
