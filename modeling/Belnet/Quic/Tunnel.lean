import Belnet.Lib.Ordered

/-!
# The free keys of a tunnel map

`find_unused_key` of `llarp/quic/tunnel.cpp`, for an unsigned key type whose maximum is `max`.  Assertions are
compiled out, as in the default build.
-/

namespace Belnet.Quic
open List Fin
variable {max : ℕ}

/-- the loop over the map from `it` on; `none` when `start` has wrapped -/
def walk : List (Fin (max + 1)) → Fin (max + 1) → Option (Fin (max + 1))
  | [], start => if start ≠ 0 then some start else none
  | key :: it, start => if key ≠ start then some start else walk it (start + 1)

/-- the keys of a `std::map<K, V>`, in their order: the values are not read -/
abbrev Keys (max : ℕ) := Ordered.SortedSet fun k : Fin (max + 1) => k.val

namespace Keys
variable (m : Keys max) {start k j : Fin (max + 1)}

/-- the keys from `lower_bound` to the end of the map -/
def lowerBound (start : Fin (max + 1)) : List (Fin (max + 1)) := m.toList.filter (start ≤ ·)

/-- `none` when `n` calls are not enough -/
def findUnusedKey : ℕ → Fin (max + 1) → Option (Option (Fin (max + 1)))
  | 0, _ => none
  | n+1, start =>
    if m.toList.length = max then some none
    else if m.lowerBound start = [] then some (some start)
    else match walk (m.lowerBound start) start with
      | some k => some (some k)
      | none => findUnusedKey n 0

/-- the first free key from `start` on, or the smallest one if there is none from `start` on -/
def FirstFree (start k : Fin (max + 1)) : Prop :=
  k ∉ m.toList ∧ (start ≤ k ∧ (∀ j, start ≤ j → j < k → j ∈ m.toList) ∨
    (∀ j, start ≤ j → j ∈ m.toList) ∧ ∀ j < k, j ∈ m.toList)

def Finds (start : Fin (max + 1)) : Prop :=
  ∃ n r, m.findUnusedKey n start = some r ∧ (r = none ↔ ∀ k, k ∈ m.toList) ∧ ∀ k, r = some k → m.FirstFree start k

/-- the walk stops at the first free key from `start` on, and wraps only if there is none -/
lemma walk_spec {it : List (Fin (max + 1))} (hit : it ≠ []) (hs : it.Pairwise fun a b => a.val < b.val)
    (hge : ∀ k ∈ it, start ≤ k) : (∀ k ∈ walk it start, start ≤ k ∧ k ∉ it) ∧
      ∀ j, start ≤ j → (∀ k ∈ walk it start, j < k) → j ∈ it := by
  induction it generalizing start with
  | nil => exact absurd rfl hit
  | cons key it ih =>
    obtain ⟨hkey, hs⟩ := pairwise_cons.mp hs
    unfold walk
    split
    · rename_i hne
      have hlt := lt_of_le_of_ne (hge key mem_cons_self) (Ne.symm hne)
      refine ⟨fun k hk => ?_, fun j hj hk => absurd (hk start rfl) (not_lt_of_ge hj)⟩
      cases hk
      exact ⟨le_rfl, not_mem_cons_of_ne_of_not_mem hlt.ne fun hmem => lt_asymm hlt (hkey start hmem)⟩
    · rename_i heq
      obtain rfl := not_not.mp heq
      have hnext : ∀ j, key < j → key < key + 1 ∧ key + 1 ≤ j :=
        fun j hj => ⟨lt_add_one_iff.mpr (hj.trans_le (le_last j)), add_one_le_of_lt hj⟩
      have hrest : (∀ k ∈ walk it (key + 1), key < k ∧ k ∉ it) ∧
          ∀ j, key < j → (∀ k ∈ walk it (key + 1), j < k) → j ∈ it := by
        cases it with
        | nil =>
          unfold walk
          refine ⟨fun k hk => ?_, fun j hj hk => ?_⟩
          · obtain ⟨h0, hk⟩ := Option.ite_none_right_eq_some.mp hk
            cases hk
            exact ⟨lt_add_one_iff.mpr (lt_last_iff_ne_last.mpr fun h => h0 (h ▸ last_add_one max)), not_mem_nil⟩
          · rw [if_pos (Fin.pos_iff_ne_zero.mp ((Fin.zero_le key).trans_lt (hnext j hj).1))] at hk
            exact absurd (hk _ rfl) (not_lt_of_ge (hnext j hj).2)
        | cons key' it =>
          obtain ⟨hfree, hall⟩ := ih (cons_ne_nil _ _) hs fun k hk => (hnext k (hkey k hk)).2
          have hlt := (hnext key' (hkey key' mem_cons_self)).1
          exact ⟨fun k hk => ⟨hlt.trans_le (hfree k hk).1, (hfree k hk).2⟩, fun j hj => hall j (hnext j hj).2⟩
      refine ⟨fun k hk => ?_, fun j hj hk => ?_⟩
      · obtain ⟨hlt, hmem⟩ := hrest.1 k hk
        exact ⟨hlt.le, not_mem_cons_of_ne_of_not_mem hlt.ne' hmem⟩
      · rcases hj.eq_or_lt with rfl | hj
        · exact mem_cons_self
        · exact mem_cons_of_mem _ (hrest.2 j hj hk)

variable {m}

lemma mem_lowerBound : j ∈ m.lowerBound start ↔ j ∈ m.toList ∧ start ≤ j := by
  unfold lowerBound
  rw [mem_filter, decide_eq_true_eq]

lemma lowerBound_walk (h : m.lowerBound start ≠ []) :
    (∀ k ∈ walk (m.lowerBound start) start, start ≤ k ∧ k ∉ m.toList) ∧
      ∀ j, start ≤ j → (∀ k ∈ walk (m.lowerBound start) start, j < k) → j ∈ m.toList := by
  obtain ⟨hfree, hall⟩ := walk_spec h (m.sorted.filter _) fun k hk => (mem_lowerBound.mp hk).2
  refine ⟨fun k hk => ?_, fun j hj hk => (mem_lowerBound.mp (hall j hj hk)).1⟩
  exact ⟨(hfree k hk).1, fun hmem => (hfree k hk).2 (mem_lowerBound.mpr ⟨hmem, (hfree k hk).1⟩)⟩

lemma nodup : m.toList.Nodup := m.sorted.imp fun h => (lt_def.mpr h).ne

lemma forall_mem_iff : (∀ k, k ∈ m.toList) ↔ m.toList.length = max + 1 := by
  have hcard := Finset.card_eq_iff_eq_univ m.toList.toFinset
  rw [toFinset_card_of_nodup m.nodup, Fintype.card_fin, Finset.eq_univ_iff_forall] at hcard
  simpa only [mem_toFinset] using hcard.symm

lemma findUnusedKey_full (h : ∀ k, k ∈ m.toList) (n : ℕ) (start : Fin (max + 1)) : m.findUnusedKey n start = none := by
  induction n generalizing start with
  | zero => rfl
  | succ n ih =>
    have hne : m.lowerBound start ≠ [] := ne_nil_of_mem (mem_lowerBound.mpr ⟨h start, le_rfl⟩)
    unfold findUnusedKey
    rw [if_neg (by rw [forall_mem_iff.mp h]; omega), if_neg hne]
    cases hw : walk (m.lowerBound start) start with
    | some k => exact absurd (h k) ((lowerBound_walk hne).1 k hw).2
    | none => exact ih 0

lemma not_finds_of_length (h : m.toList.length = max) : ¬m.Finds start := by
  rintro ⟨n, r, hr, hnone, -⟩
  cases n with
  | zero => cases hr
  | succ n =>
    unfold findUnusedKey at hr
    rw [if_pos h] at hr
    have hall := forall_mem_iff.mp (hnone.mp (Option.some.inj hr).symm)
    omega

variable (m)

/-- a free key is found, and a full map reported, exactly while at least two keys are free -/
theorem finds_iff (start : Fin (max + 1)) : m.Finds start ↔ m.toList.length < max := by
  constructor
  · intro h
    by_contra hlen
    have hmax : m.toList.length ≠ max := fun heq => not_finds_of_length heq h
    have hle := m.nodup.length_le_card
    rw [Fintype.card_fin] at hle
    obtain ⟨n, r, hr, -⟩ := h
    rw [findUnusedKey_full (forall_mem_iff.mpr (by omega)) n start] at hr
    cases hr
  · intro hlen
    have hfree : ¬∀ k, k ∈ m.toList := fun h => by
      rw [forall_mem_iff.mp h] at hlen
      omega
    have hfound : ∀ n k, m.findUnusedKey n start = some (some k) → m.FirstFree start k → m.Finds start :=
      fun n k hr hk => ⟨n, some k, hr, iff_of_false (Option.some_ne_none k) hfree, fun k' h => Option.some.inj h ▸ hk⟩
    by_cases hlb : m.lowerBound start = []
    · refine hfound 1 start ?_ ⟨fun h => ?_, .inl ⟨le_rfl, fun j hj hj' => absurd hj' (not_lt_of_ge hj)⟩⟩
      · unfold findUnusedKey
        rw [if_neg hlen.ne, if_pos hlb]
      · exact ne_nil_of_mem (mem_lowerBound.mpr ⟨h, le_rfl⟩) hlb
    obtain ⟨hwalk, hall⟩ := lowerBound_walk hlb
    cases hw : walk (m.lowerBound start) start with
    | some k =>
      rw [hw] at hwalk hall
      obtain ⟨hle, hk⟩ := hwalk k rfl
      refine hfound 1 k ?_ ⟨hk, .inl ⟨hle, fun j hj hj' => hall j hj fun _ h => Option.some.inj h ▸ hj'⟩⟩
      unfold findUnusedKey
      rw [if_neg hlen.ne, if_neg hlb, hw]
    | none =>
      rw [hw] at hall
      obtain ⟨i, hi⟩ := exists_mem_of_ne_nil _ hlb
      have hzero : m.lowerBound 0 ≠ [] := ne_nil_of_mem (mem_lowerBound.mpr ⟨(mem_lowerBound.mp hi).1, zero_le i⟩)
      obtain ⟨hwalk', hall'⟩ := lowerBound_walk hzero
      cases hw' : walk (m.lowerBound 0) 0 with
      | none =>
        rw [hw'] at hall'
        exact absurd (fun j => hall' j (zero_le j) fun _ h => by cases h) hfree
      | some k =>
        rw [hw'] at hwalk' hall'
        refine hfound 2 k ?_ ⟨(hwalk' k rfl).2, .inr ⟨fun j hj => hall j hj fun _ h => (by cases h), fun j hj => ?_⟩⟩
        · unfold findUnusedKey
          rw [if_neg hlen.ne, if_neg hlb, hw]
          unfold findUnusedKey
          rw [if_neg hlen.ne, if_neg hzero, hw']
        · exact hall' j (zero_le j) fun _ h => Option.some.inj h ▸ hj

/-- with the keys `0` to `254` of a byte in use, `255` is free and is not found -/
theorem last_key_not_found : 255 ∉ (finRange 255).map castSucc ∧
    ∃ m : Keys 255, m.toList = (finRange 255).map castSucc ∧ ¬m.Finds 0 := by
  refine ⟨by decide +kernel, ⟨(finRange 255).map castSucc, ?_⟩, rfl, not_finds_of_length (by simp)⟩
  exact pairwise_map.mpr (pairwise_lt_finRange 255)

end Keys
end Belnet.Quic
