import Mathlib

/-!
# Serving queues in turn

Places in a row are visited over and over, each visit takes an item, and all is over when every other place was found
empty.
-/

namespace Belnet.RoundRobin
open List Function Nat

def peak (c : List ℕ) : ℕ := c.foldr max 0

@[simp] lemma peak_nil : peak [] = 0 := rfl

@[simp] lemma peak_cons (a : ℕ) (c : List ℕ) : peak (a :: c) = max a (peak c) := rfl

lemma peak_concat (c : List ℕ) (a : ℕ) : peak (c ++ [a]) = max (peak c) a := by
  induction c with
  | nil => simp
  | cons b c ih => rw [cons_append, peak_cons, peak_cons, ih, max_assoc]

def served (m : ℕ) : List ℕ → ℕ
  | [] => 0
  | a :: c => min a (max m (peak c + 1)) + served (max m a) c

lemma served_concat (c : List ℕ) (m a : ℕ) :
    served m (c ++ [a]) = served (max m (a + 1)) c + min a (max (max m (peak c)) 1) := by
  induction c generalizing m with
  | nil => simp [served]
  | cons b c ih =>
    have hm : max (max m b) (a + 1) = max (max m (a + 1)) b := by omega
    rw [cons_append, served, served, ih, hm, peak_concat, peak_cons]
    omega

lemma served_of_peak {c : List ℕ} (h : peak c = 0) (m : ℕ) : served m c = 0 := by
  induction c generalizing m with
  | nil => rfl
  | cons b c ih =>
    rw [peak_cons] at h
    rw [served, ih (by omega)]
    omega

lemma served_one (c : List ℕ) : served 1 c = served 0 c := by
  induction c with
  | nil => rfl
  | cons b c ih =>
    have hb : served (max 1 b) c = served (max 0 b) c := by
      rcases Nat.eq_zero_or_pos b with rfl | hb
      · exact ih
      · rw [max_eq_right hb, max_eq_right (zero_le b)]
    rw [served, served, hb]
    omega

lemma served_zero_cons (c : List ℕ) : served 0 (0 :: c) = served 0 (c ++ [0]) := by
  rw [served_concat, served]
  simp [served_one]

lemma served_succ_cons (a : ℕ) (c : List ℕ) :
    served 0 ((a + 1) :: c) = 1 + if peak c = 0 then 0 else served 0 (c ++ [a]) := by
  rw [served]
  split
  · rename_i h
    rw [served_of_peak h, h]
    omega
  · rename_i h
    rw [served_concat]
    omega

lemma served_le_sum (c : List ℕ) (m : ℕ) : served m c ≤ c.sum := by
  induction c generalizing m with
  | nil => exact le_refl 0
  | cons a c ih =>
    have hc := ih (max m a)
    rw [served, sum_cons]
    omega

lemma served_eq_sum_iff (c : List ℕ) (m : ℕ) :
    served m c = c.sum ↔ ∀ pre a post, c = pre ++ a :: post → a ≤ max (max m (peak pre)) (peak post + 1) := by
  induction c generalizing m with
  | nil => exact ⟨fun _ pre a post h => by simp at h, fun _ => rfl⟩
  | cons b c ih =>
    have hle := served_le_sum c (max m b)
    rw [served, sum_cons]
    constructor
    · intro h pre a post heq
      have hb : b ≤ max m (peak c + 1) := by omega
      have hc := (ih (max m b)).mp (by omega)
      cases pre with
      | nil =>
        obtain ⟨rfl, rfl⟩ := cons.inj heq
        simpa using hb
      | cons b' pre =>
        obtain ⟨rfl, hrest⟩ := cons.inj heq
        have ha := hc pre a post hrest
        rw [peak_cons]
        omega
    · intro h
      have hb := h [] b c rfl
      have hc : served (max m b) c = c.sum := by
        refine (ih _).mpr fun pre a post heq => ?_
        have ha := h (b :: pre) a post (by rw [heq]; rfl)
        rw [peak_cons] at ha
        omega
      rw [peak_nil] at hb
      omega

def share (d m l : ℕ) : ℕ := (l + d - 1 - m) / d

lemma share_one (l : ℕ) : share 1 0 l = l := by
  unfold share
  rw [Nat.div_one]
  omega

lemma share_shift {d m : ℕ} (h : m + 1 < d) (l : ℕ) : share d (m + 1) l = share d m (l - 1) := by
  unfold share
  cases l with
  | zero => rw [div_eq_of_lt (by omega), div_eq_of_lt (by omega)]
  | succ l => congr 1; omega

lemma share_head {d : ℕ} (hd : 0 < d) (l : ℕ) : share d (d - 1) (l - 1) = share d 0 l - 1 := by
  unfold share
  cases l with
  | zero => rw [div_eq_of_lt (by omega), div_eq_of_lt (by omega)]
  | succ l =>
    have hlast : l + 1 - 1 + d - 1 - (d - 1) = l := by omega
    have hfirst : l + 1 + d - 1 - 0 = l + d := by omega
    rw [hlast, hfirst, add_div_right l hd]
    rfl

lemma share_eq_zero_iff {d : ℕ} (hd : 0 < d) (l : ℕ) : share d 0 l = 0 ↔ l = 0 := by
  unfold share
  rw [Nat.div_eq_zero_iff]
  omega

lemma share_le (d m l : ℕ) : share d m l ≤ l := by
  unfold share
  rcases Nat.eq_zero_or_pos d with rfl | hd
  · rw [Nat.div_zero]
    exact Nat.zero_le l
  cases l with
  | zero => exact le_of_eq (div_eq_of_lt (by omega))
  | succ l =>
    have hl : d * (l + 1) = d * l + d := Nat.mul_succ d l
    have hle : l ≤ d * l := Nat.le_mul_of_pos_left l hd
    exact Nat.div_le_of_le_mul (by omega)

variable {P : Type} [DecidableEq P]

def placesFrom (d len : P → ℕ) : (P → ℕ) → List P → List ℕ
  | _, [] => []
  | m, x :: xs => share (d x) (m x) (len x) :: placesFrom d len (update m x (m x + 1)) xs

variable (len : P → ℕ)

def places (order : List P) : List ℕ := placesFrom (fun x => order.count x) len (fun _ => 0) order

lemma placesFrom_length (d len m : P → ℕ) (xs : List P) : (placesFrom d len m xs).length = xs.length := by
  induction xs generalizing m with
  | nil => rfl
  | cons x xs ih => rw [placesFrom, length_cons, length_cons, ih]

lemma places_length (order : List P) : (places len order).length = order.length := placesFrom_length _ _ _ _

lemma placesFrom_sum_le (d len m : P → ℕ) (xs : List P) : (placesFrom d len m xs).sum ≤ (xs.map len).sum := by
  induction xs generalizing m with
  | nil => exact le_refl 0
  | cons x xs ih =>
    rw [placesFrom, map_cons, sum_cons, sum_cons]
    exact Nat.add_le_add (share_le _ _ _) (ih _)

lemma places_sum_le (order : List P) : (places len order).sum ≤ (order.map len).sum := placesFrom_sum_le _ _ _ _

lemma placesFrom_concat (d len m : P → ℕ) (xs : List P) (x : P) :
    placesFrom d len m (xs ++ [x]) = placesFrom d len m xs ++ [share (d x) (m x + xs.count x) (len x)] := by
  induction xs generalizing m with
  | nil => rfl
  | cons y xs ih =>
    rw [cons_append, placesFrom, placesFrom, ih, cons_append]
    by_cases hy : y = x
    · subst hy
      rw [update_self, count_cons_self]
      congr 4
      omega
    · rw [update_of_ne (Ne.symm hy), count_cons_of_ne hy]

lemma placesFrom_shift {d len : P → ℕ} {x : P} (xs : List P) {m m' : P → ℕ} (hm : ∀ y ≠ x, m y = m' y)
    (hx : m x = m' x + 1) (hd : m x + xs.count x ≤ d x) :
    placesFrom d len m xs = placesFrom d (update len x (len x - 1)) m' xs := by
  induction xs generalizing m m' with
  | nil => rfl
  | cons y xs ih =>
    rw [placesFrom, placesFrom]
    by_cases hy : y = x
    · subst hy
      rw [count_cons_self] at hd
      rw [update_self, hx, share_shift (by omega)]
      congr 1
      refine ih (fun z hz => ?_) ?_ ?_
      · rw [update_of_ne hz, update_of_ne hz, hm z hz]
      · rw [update_self, update_self]
      · rw [update_self]
        omega
    · rw [count_cons_of_ne hy] at hd
      rw [update_of_ne hy, hm y hy]
      congr 1
      refine ih (fun z hz => ?_) ?_ ?_
      · by_cases hzy : z = y
        · subst hzy
          rw [update_self, update_self]
        · rw [update_of_ne hzy, update_of_ne hzy, hm z hz]
      · rw [update_of_ne (Ne.symm hy), update_of_ne (Ne.symm hy), hx]
      · rw [update_of_ne (Ne.symm hy)]
        exact hd

lemma places_rotate (x : P) (xs : List P) : ∃ a c, places len (x :: xs) = a :: c ∧
    places (update len x (len x - 1)) (xs ++ [x]) = c ++ [a - 1] ∧ (a = 0 ↔ len x = 0) := by
  have hd : 0 < (x :: xs).count x := by rw [count_cons_self]; omega
  have hcount : (fun y => (xs ++ [x]).count y) = fun y => (x :: xs).count y := by
    funext y
    exact (perm_append_singleton x xs).count_eq y
  refine ⟨_, _, rfl, ?_, share_eq_zero_iff hd _⟩
  unfold places
  rw [hcount, placesFrom_concat]
  congr 1
  · refine (placesFrom_shift xs (fun y hy => ?_) ?_ ?_).symm
    · rw [update_of_ne hy]
    · rw [update_self]
    · rw [update_self, count_cons_self]
      dsimp only
      omega
  · have hlast : 0 + xs.count x = (x :: xs).count x - 1 := by rw [count_cons_self]; omega
    rw [update_self, hlast, share_head hd]

lemma places_of_nodup {order : List P} (h : order.Nodup) : places len order = order.map len := by
  have hown : ∀ (d m : P → ℕ) (xs : List P), xs.Nodup → (∀ x ∈ xs, d x = 1 ∧ m x = 0) →
      placesFrom d len m xs = xs.map len := by
    intro d m xs hxs
    induction xs generalizing m with
    | nil => exact fun _ => rfl
    | cons x xs ih =>
      intro hone
      obtain ⟨hx, hxs⟩ := nodup_cons.mp hxs
      obtain ⟨hdx, hmx⟩ := hone x mem_cons_self
      rw [placesFrom, hdx, hmx, share_one, map_cons]
      congr 1
      refine ih _ hxs fun y hy => ?_
      have hne : y ≠ x := by
        rintro rfl
        exact hx hy
      rw [update_of_ne hne]
      exact hone y (mem_cons_of_mem _ hy)
  exact hown _ _ order h fun x hx => ⟨count_eq_one_of_mem h hx, rfl⟩

end Belnet.RoundRobin
