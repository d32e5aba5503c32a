import Belnet.Router.Lookups

/-!
# Searches by XOR distance

The searches of `llarp/nodedb.cpp` and `llarp/dht/bucket.hpp`, and `HandleExploritoryRouterLookup` of
`llarp/dht/context.cpp`.
-/

namespace Ordered
open List

section
variable {α : Type*} {key d : α → ℕ} {l ex R : List α} {x y : α} {n : ℕ}

def setDifference (key : α → ℕ) : List α → List α → List α
  | [], _ => []
  | x :: l, [] => x :: l
  | x :: l, y :: ex =>
    if key x < key y then x :: setDifference key l (y :: ex)
    else if key y < key x then setDifference key (x :: l) ex
    else setDifference key l ex
termination_by l ex => l.length + ex.length

structure Nearest (d : α → ℕ) (l : List α) (n : ℕ) (R : List α) : Prop where
  nodup : R.Nodup
  length : R.length = n
  subset : R ⊆ l
  nearer : ∀ x ∈ R, ∀ y ∈ l, y ∉ R → d x < d y

lemma Nearest.of_perm {l' R' : List α} (h : Nearest d l n R) (hl : ∀ y, y ∈ l' ↔ y ∈ l) (hR : R'.Perm R) :
    Nearest d l' n R' where
  nodup := hR.nodup_iff.mpr h.nodup
  length := hR.length_eq.trans h.length
  subset y hy := (hl y).mpr (h.subset (hR.mem_iff.mp hy))
  nearer x hx y hy hR' := h.nearer x (hR.mem_iff.mp hx) y ((hl y).mp hy) fun hy => hR' (hR.mem_iff.mpr hy)

/-- the first elements of a sorted list are the nearest ones -/
lemma Nearest.take (hl : l.Pairwise fun a b => d a < d b) (hn : n ≤ l.length) : Nearest d l n (l.take n) where
  nodup := (hl.imp fun h heq => absurd h (by simp [heq])).sublist (take_sublist n l)
  length := length_take_of_le hn
  subset := take_subset n l
  nearer x hx y hy hR := by
    rw [← take_append_drop n l] at hl hy
    exact (pairwise_append.mp hl).2.2 x hx y ((mem_append.mp hy).resolve_left hR)

/-- the nearest element, then the nearest ones of the others -/
lemma Nearest.cons (hx : x ∈ l) (hmin : ∀ y ∈ l, d x ≤ d y) (hinj : Function.Injective d)
    {l' : List α} (hl' : ∀ y, y ∈ l' ↔ y ∈ l ∧ y ≠ x) (h : Nearest d l' n R) : Nearest d l (n + 1) (x :: R) where
  nodup := nodup_cons.mpr ⟨fun hR => ((hl' x).mp (h.subset hR)).2 rfl, h.nodup⟩
  length := congrArg (· + 1) h.length
  subset := cons_subset.mpr ⟨hx, fun y hy => ((hl' y).mp (h.subset hy)).1⟩
  nearer z hz y hy hR := by
    obtain ⟨hne, hR⟩ := not_or.mp (mt mem_cons.mpr hR)
    rcases mem_cons.mp hz with rfl | hz
    · exact lt_of_le_of_ne (hmin y hy) fun heq => hne (hinj heq).symm
    · exact h.nearer z hz y ((hl' y).mpr ⟨hy, hne⟩) hR

lemma mem_setOf_of_pairwise (h : l.Pairwise fun a b => key a ≠ key b) : x ∈ setOf key l ↔ x ∈ l := by
  rw [mem_setOf]
  refine ⟨mem_of_find?_eq_some, fun hx => ?_⟩
  unfold FirstOf
  induction l with
  | nil => exact absurd hx not_mem_nil
  | cons y l ih =>
    obtain ⟨hy, hl⟩ := pairwise_cons.mp h
    rcases mem_cons.mp hx with rfl | hx
    · simp
    · rw [find?_cons_of_neg (by simpa using hy x hx), ih hl hx]

/-- An element stays if it is not in the second range, or if a greater one was before it: that range is then left
behind. -/
lemma mem_setDifference (hinj : Function.Injective key) (hl : l.Pairwise fun a b => d a < d b)
    (hex : ex.Pairwise fun a b => key a < key b) : x ∈ setDifference key l ex ↔
      x ∈ l ∧ (x ∉ ex ∨ ∃ y ∈ l, d y < d x ∧ key x < key y) := by
  fun_induction setDifference key l ex with
  | case1 => simp
  | case2 => simp
  | case3 z l y ex hlt ih =>
    have hz := (pairwise_cons.mp hl).1
    have hy := (pairwise_cons.mp hex).1
    rw [mem_cons, ih hl.tail hex, mem_cons]
    grind
  | case4 z l y ex _ hlt ih =>
    have hz := (pairwise_cons.mp hl).1
    have hy := (pairwise_cons.mp hex).1
    rw [ih hl hex.tail]
    grind
  | case5 z l y ex _ _ ih =>
    have hz := (pairwise_cons.mp hl).1
    have hy := (pairwise_cons.mp hex).1
    have heq : y = z := hinj (by omega)
    rw [ih hl.tail hex.tail, mem_cons]
    grind

lemma sublist_setDifference (key : α → ℕ) (l ex : List α) : (setDifference key l ex).Sublist l := by
  fun_induction setDifference key l ex with
  | case1 => exact .slnil
  | case2 => exact .refl _
  | case3 x l y ex _ ih => exact ih.cons_cons x
  | case4 x l y ex _ _ ih => exact ih
  | case5 x l y ex _ _ ih => exact ih.cons x

end

end Ordered

namespace Belnet
open Ordered List

namespace Router.NodeDB
open Belnet.Path (isZero)
variable (db : NodeDB) (location : Dht.Key)

lemma mem_setOf_all {rc : RouterContact} : rc ∈ setOf (fun rc => distance location rc.pubkey) db.all ↔ rc ∈ db.all :=
  mem_setOf_of_pairwise (db.pairwise_all location)

variable {location}

/-- the sentinel is left at the first contact, whose key is not zero -/
lemma foldl_closer {env : RouterEnv} (l : List RouterContact) (hzero : ∀ rc ∈ l, ¬ isZero rc.pubkey) :
    l.foldl (closer location) (.new env) = (l.argmin fun rc => distance location rc.pubkey).getD (.new env) := by
  induction l using reverseRecOn with
  | nil => rfl
  | append_singleton l x ih =>
    rw [foldl_append, ih fun rc hrc => hzero rc (mem_append_left _ hrc), argmin_concat]
    cases heq : l.argmin fun rc => distance location rc.pubkey with
    | none => simp [closer, RouterContact.new, isZero]
    | some rc =>
      have hrc := hzero rc (mem_append_left _ (argmin_mem heq))
      simp only [foldl_cons, foldl_nil, Option.getD_some, closer, if_neg hrc]
      split <;> rfl

variable (location) in
lemma findClosestTo_spec (env : RouterEnv) (hzero : ∀ rc ∈ db.all, ¬ isZero rc.pubkey) (hne : db.all ≠ []) :
    db.findClosestTo env location ∈ db.all ∧
      ∀ rc ∈ db.all, distance location (db.findClosestTo env location).pubkey ≤ distance location rc.pubkey := by
  unfold findClosestTo
  rw [foldl_closer db.all hzero]
  cases heq : db.all.argmin fun rc => distance location rc.pubkey with
  | none => exact absurd (argmin_eq_none.mp heq) hne
  | some rc => exact ⟨argmin_mem heq, fun x hx => le_of_mem_argmin (f := fun rc => distance location rc.pubkey) hx heq⟩

/-- The contacts found are the nearest ones, from near to far, and the one that is found alone is the first. -/
theorem findManyClosestTo_nearest (env : RouterEnv) (location : Dht.Key) (hzero : ∀ rc ∈ db.all, ¬ isZero rc.pubkey)
    (n : ℕ) : ((db.findManyClosestTo location n).Pairwise fun a b => distance location a.pubkey < distance location b.pubkey) ∧
      Nearest (fun rc => distance location rc.pubkey) db.all (min n db.all.length) (db.findManyClosestTo location n) ∧
      (0 < n → db.all ≠ [] → (db.findManyClosestTo location n).head? = some (db.findClosestTo env location)) := by
  have hsorted := sorted_setOf (fun rc : RouterContact => distance location rc.pubkey) db.all
  have hlen := length_setOf (db.pairwise_all location)
  have htake : db.findManyClosestTo location n =
      (setOf (fun rc => distance location rc.pubkey) db.all).take (min n db.all.length) := by
    rw [← hlen, ← take_eq_take_min]
    rfl
  refine ⟨hsorted.sublist (take_sublist n _), ?_, fun hn hne => ?_⟩
  · rw [htake]
    exact (Nearest.take hsorted (by omega)).of_perm (fun _ => (db.mem_setOf_all location).symm) (.refl _)
  obtain ⟨hmem, hmin⟩ := db.findClosestTo_spec location env hzero hne
  unfold findManyClosestTo
  rw [head?_take, if_neg (by omega)]
  -- an element of the sorted list that is not its head is farther than the head
  rw [← db.mem_setOf_all location] at hmem
  cases heq : setOf (fun rc : RouterContact => distance location rc.pubkey) db.all with
  | nil => exact absurd (heq ▸ hmem) not_mem_nil
  | cons rc l =>
    rw [heq] at hmem hsorted
    have hrc := hmin rc ((db.mem_setOf_all location).mp (heq ▸ mem_cons_self))
    rcases mem_cons.mp hmem with hsame | hfar
    · exact congrArg some hsame.symm
    · exact absurd ((pairwise_cons.mp hsorted).1 _ hfar) (not_lt.mpr hrc)

def Sample.twoRouters : NodeDB := (({} : NodeDB).put 0 (Sample.contact 1 0)).put 0 (Sample.contact 2 0)

theorem findManyClosestTo_nearest_sample : (Sample.twoRouters.findManyClosestTo (Sample.key 3) 1).head? =
      some (Sample.twoRouters.findClosestTo Sample.client.toRouterEnv (Sample.key 3)) :=
  (findManyClosestTo_nearest Sample.twoRouters _ _ (by decide +kernel) 1).2.2 (by decide) (by decide +kernel)

end Router.NodeDB

/-! ## the buckets -/

namespace Dht
open Router (distance)
open Belnet.Path (RouterID)

def plain (k : Key) : ℕ := Bytes.loadBig k.toList

lemma plain_injective : Function.Injective plain := fun a b h => Vector.eq _ _ (Bytes.loadBig_inj (by simp) h)

lemma distance_injective (target : Key) : Function.Injective (distance target) := fun _ _ => Router.distance_inj

abbrev KeySet := SortedSet plain

structure Bucket where
  us : Key
  nodes : SortedSet (distance us)
  fits : nodes.toList.length < 2^64

def maxdist : ℕ := 256^32 - 1

namespace Bucket
variable (b : Bucket) (target : Key) (exclude : KeySet)

def getRandomNodeExcluding (random : UInt64) : Option Key :=
  let candidates := setDifference plain b.nodes.toList exclude.toList
  if candidates.isEmpty then none else candidates[random.toNat % candidates.length]?

def visit (found : ℕ × Key) (k : Key) : ℕ × Key :=
  if k ∈ exclude.toList then found
  else if distance target k < found.1 then (distance target k, k)
  else found

def findCloseExcluding (result : Key) : Bool × Key :=
  let found := b.nodes.toList.foldl (visit target exclude) (maxdist, result)
  (found.1 < maxdist, found.2)

def nearLoop : ℕ → Key → KeySet → KeySet → Bool × KeySet
  | 0, _, _, result => (true, result)
  | N+1, peer, s, result =>
    let found := b.findCloseExcluding target s peer
    if found.1 then nearLoop N found.2 (s.insert found.2) (result.insert found.2) else (false, result)

def getManyNearExcluding (result : KeySet) (N : ℕ) : Bool × KeySet := b.nearLoop target N (.zero 32) exclude result

def others : List Key := b.nodes.toList.filter (· ∉ exclude.toList)

def candidates : List Key := (b.others exclude).filter fun k => distance target k < maxdist

variable {b target exclude} {k : Key}

lemma mem_others : k ∈ b.others exclude ↔ k ∈ b.nodes.toList ∧ k ∉ exclude.toList := by simp [others]

lemma mem_candidates :
    k ∈ b.candidates target exclude ↔ k ∈ b.others exclude ∧ distance target k < maxdist := by simp [candidates]

lemma nodup_candidates : (b.candidates target exclude).Nodup := (b.nodes.nodup.filter _).filter _

variable (target exclude) in
lemma foldl_visit (l : List Key) (result : Key) : l.foldl (visit target exclude) (maxdist, result) =
    (((l.filter (· ∉ exclude.toList)).filter fun k => distance target k < maxdist).argmin (distance target)).elim
      (maxdist, result) fun k => (distance target k, k) := by
  induction l using reverseRecOn with
  | nil => rfl
  | append_singleton l k ih =>
    rw [foldl_append, ih, filter_append, filter_append]
    by_cases hk : k ∈ exclude.toList
    · simp [visit, hk]
    by_cases hlt : distance target k < maxdist
    · have hlast : ([k].filter (· ∉ exclude.toList)).filter (fun k => distance target k < maxdist) = [k] := by
        simp [hk, hlt]
      rw [hlast, argmin_concat]
      cases argmin (distance target) _ with
      | none => simp [visit, hk, hlt]
      | some c =>
        simp only [foldl_cons, foldl_nil, Option.elim, visit, if_neg hk]
        split <;> rfl
    · have hlast : ([k].filter (· ∉ exclude.toList)).filter (fun k => distance target k < maxdist) = [] := by
        simp [hk, hlt]
      rw [hlast, append_nil]
      cases heq : argmin (distance target) _ with
      | none => simp [visit, hk, hlt]
      | some c =>
        have hc : distance target c < maxdist := by simpa using of_mem_filter (argmin_mem heq)
        have hnot : ¬ distance target k < distance target c := by omega
        simp [visit, hk, hnot]

variable (b target exclude) in
/-- a search finds the nearest candidate -/
lemma findCloseExcluding_spec (result : Key) :
    (b.findCloseExcluding target exclude result = (false, result) ∧ b.candidates target exclude = []) ∨
      ∃ x ∈ b.candidates target exclude, b.findCloseExcluding target exclude result = (true, x) ∧
        ∀ y ∈ b.candidates target exclude, distance target x ≤ distance target y := by
  have hfold := foldl_visit target exclude b.nodes.toList result
  unfold findCloseExcluding
  change _ = ((b.candidates target exclude).argmin _).elim _ _ at hfold
  rw [hfold]
  cases heq : (b.candidates target exclude).argmin (distance target) with
  | none => exact .inl ⟨by simp, argmin_eq_none.mp heq⟩
  | some x =>
    have hx := argmin_mem heq
    exact .inr ⟨x, hx, Prod.ext (decide_eq_true (mem_candidates.mp hx).2) rfl, fun y hy => le_of_mem_argmin hy heq⟩

lemma mem_candidates_insert {x y : Key} : y ∈ b.candidates target (exclude.insert x) ↔
    y ∈ b.candidates target exclude ∧ y ≠ x := by
  rw [mem_candidates, mem_candidates, mem_others, mem_others, SortedSet.mem_insert plain_injective, not_or]
  tauto

lemma length_candidates_insert {x : Key} (hx : x ∈ b.candidates target exclude) :
    (b.candidates target exclude).length = (b.candidates target (exclude.insert x)).length + 1 := by
  have hnew : (x :: b.candidates target (exclude.insert x)).Nodup :=
    nodup_cons.mpr ⟨fun h => (mem_candidates_insert.mp h).2 rfl, nodup_candidates⟩
  refine ((perm_ext_iff_of_nodup nodup_candidates hnew).mpr fun y => ?_).length_eq
  rw [mem_cons, mem_candidates_insert]
  by_cases hy : y = x
  · simp [hy, hx]
  · simp [hy]

variable (b target) in
lemma nearLoop_spec (N : ℕ) (peer : Key) (s result : KeySet) :
    ((b.nearLoop target N peer s result).1 = true ↔ N ≤ (b.candidates target s).length) ∧
      ((b.nearLoop target N peer s result).1 = true → ∃ R, Nearest (distance target) (b.candidates target s) N R ∧
        ∀ x, x ∈ (b.nearLoop target N peer s result).2.toList ↔ x ∈ result.toList ∨ x ∈ R) := by
  induction N generalizing peer s result with
  | zero => exact ⟨by simp [nearLoop], fun _ => ⟨[], ⟨.nil, rfl, nil_subset _, by simp⟩, by simp [nearLoop]⟩⟩
  | succ N ih =>
    unfold nearLoop
    rcases findCloseExcluding_spec b target s peer with
      ⟨heq, hnone⟩ | ⟨x, hx, heq, hmin⟩
    · rw [heq, hnone]
      simp
    rw [heq]
    obtain ⟨hiff, hsome⟩ := ih x (s.insert x) (result.insert x)
    have hlen := length_candidates_insert hx
    refine ⟨by simp only [if_true, hiff]; omega, fun h => ?_⟩
    obtain ⟨R, hR, hmem⟩ := hsome h
    refine ⟨x :: R, .cons hx hmin (distance_injective target) (fun y => mem_candidates_insert) hR, fun y => ?_⟩
    simp only [if_true, hmem, SortedSet.mem_insert plain_injective, mem_cons]
    tauto

variable (b target exclude) in
lemma getManyNearExcluding_spec (N : ℕ) :
    ((b.getManyNearExcluding target exclude .empty N).1 = true ↔ N ≤ (b.candidates target exclude).length) ∧
      ((b.getManyNearExcluding target exclude .empty N).1 = true → Nearest (distance target)
        (b.candidates target exclude) N (b.getManyNearExcluding target exclude .empty N).2.toList) := by
  obtain ⟨hiff, hsome⟩ := nearLoop_spec b target N (.zero 32) exclude .empty
  refine ⟨hiff, fun h => ?_⟩
  obtain ⟨R, hR, hmem⟩ := hsome h
  refine hR.of_perm (fun _ => .rfl) ((perm_ext_iff_of_nodup (SortedSet.nodup _) hR.nodup).mpr fun x => ?_)
  exact (hmem x).trans (by simp [SortedSet.empty])

lemma distance_le_maxdist (k : Key) : distance target k ≤ maxdist := by
  have h := Bytes.loadBig_lt (Router.Key.xor k target).toList
  rw [Vector.toList_length] at h
  exact Nat.le_sub_one_of_lt h

/-- a node at the greatest distance is farther than every candidate -/
lemma nearest_others {n : ℕ} {R : List Key} (h : Nearest (distance target) (b.candidates target exclude) n R) :
    Nearest (distance target) (b.others exclude) n R where
  nodup := h.nodup
  length := h.length
  subset x hx := (mem_candidates.mp (h.subset hx)).1
  nearer x hx y hy hR := by
    by_cases hlt : distance target y < maxdist
    · exact h.nearer x hx y (mem_candidates.mpr ⟨hy, hlt⟩) hR
    · exact (mem_candidates.mp (h.subset hx)).2.trans_le (not_lt.mp hlt)

/-- With no node at the greatest distance, nodes that are not excluded are found if there are as many. -/
theorem searches_exact (b : Bucket) (target : Key) (hfar : ∀ k ∈ b.nodes.toList, distance target k ≠ maxdist)
    (exclude : KeySet) (result : Key) (N : ℕ) :
    ((b.findCloseExcluding target exclude result).1 = true ↔ b.others exclude ≠ []) ∧
      ((b.findCloseExcluding target exclude result).1 = true →
        Nearest (distance target) (b.others exclude) 1 [(b.findCloseExcluding target exclude result).2]) ∧
      ((b.getManyNearExcluding target exclude .empty N).1 = true ↔ N ≤ (b.others exclude).length) ∧
      ((b.getManyNearExcluding target exclude .empty N).1 = true → Nearest (distance target) (b.others exclude) N
          (b.getManyNearExcluding target exclude .empty N).2.toList) := by
  have hall : b.candidates target exclude = b.others exclude := by
    refine filter_eq_self.mpr fun k hk => decide_eq_true ?_
    exact lt_of_le_of_ne (distance_le_maxdist k) (hfar k (mem_others.mp hk).1)
  have hmany := getManyNearExcluding_spec b target exclude N
  have hclose := findCloseExcluding_spec b target exclude result
  rw [hall] at hmany hclose
  refine ⟨?_, ?_, hmany.1, hmany.2⟩
  · rcases hclose with ⟨heq, hnone⟩ | ⟨x, hx, heq, -⟩
    · simp [heq, hnone]
    · simp [heq, ne_nil_of_mem hx]
  intro h
  rcases hclose with ⟨heq, -⟩ | ⟨x, hx, heq, hmin⟩
  · rw [heq] at h
    cases h
  have hrest (y : Key) : y ∈ (b.others exclude).filter (· ≠ x) ↔ y ∈ b.others exclude ∧ y ≠ x := by simp
  rw [heq]
  exact .cons hx hmin (distance_injective target) hrest ⟨.nil, rfl, nil_subset _, by simp⟩

def Sample.key (n : UInt8) : Key := ⟨replicate 31 0 ++ [n], rfl⟩

def Sample.bucket : Bucket := ⟨Sample.key 1, ⟨[Sample.key 1, Sample.key 3, Sample.key 2], by decide +kernel⟩, by decide⟩

theorem searches_exact_sample : (Sample.bucket.getManyNearExcluding (Sample.key 0) .empty .empty 3).1 = true :=
  have hfar : (Sample.bucket.nodes.toList.all fun k => distance (Sample.key 0) k ≠ maxdist) = true := by decide +kernel
  (searches_exact Sample.bucket (Sample.key 0) (fun k hk => of_decide_eq_true (all_eq_true.mp hfar k hk)) .empty
    (Sample.key 0) 3).2.2.1.mpr (by decide +kernel)

/-- whether a random node is given as the exclude set asks: if there is one, not an excluded one, and any of them -/
def RandomExact (b : Bucket) (exclude : KeySet) : Prop :=
  (∀ random, ((b.getRandomNodeExcluding exclude random).isSome ↔ b.others exclude ≠ []) ∧
    ∀ k ∈ b.getRandomNodeExcluding exclude random, k ∈ b.others exclude) ∧
  ∀ k ∈ b.others exclude, ∃ random, b.getRandomNodeExcluding exclude random = some k

lemma mem_random : k ∈ setDifference plain b.nodes.toList exclude.toList ↔ k ∈ b.nodes.toList ∧ (k ∉ exclude.toList ∨
      ∃ y ∈ b.nodes.toList, distance b.us y < distance b.us k ∧ plain k < plain y) :=
  mem_setDifference plain_injective b.nodes.sorted exclude.sorted

lemma isSome_random (random : UInt64) : (b.getRandomNodeExcluding exclude random).isSome ↔
    setDifference plain b.nodes.toList exclude.toList ≠ [] := by
  unfold getRandomNodeExcluding
  cases setDifference plain b.nodes.toList exclude.toList with
  | nil => simp
  | cons x l => simpa using Nat.le_of_lt_succ (Nat.mod_lt random.toNat l.length.succ_pos)

lemma random_mem {random : UInt64} (h : k ∈ b.getRandomNodeExcluding exclude random) :
    k ∈ setDifference plain b.nodes.toList exclude.toList := by
  unfold getRandomNodeExcluding at h
  dsimp only at h
  split at h
  · cases h
  · exact mem_of_getElem? h

lemma exists_random (h : k ∈ setDifference plain b.nodes.toList exclude.toList) :
    ∃ random, b.getRandomNodeExcluding exclude random = some k := by
  obtain ⟨i, hi, heq⟩ := getElem_of_mem h
  have hsize : i < 2^64 :=
    hi.trans_le ((sublist_setDifference plain b.nodes.toList exclude.toList).length_le.trans b.fits.le)
  have hindex : (UInt64.ofNat i).toNat = i := UInt64.toNat_ofNat_of_lt' hsize
  refine ⟨UInt64.ofNat i, ?_⟩
  unfold getRandomNodeExcluding
  rw [if_neg (by simpa using ne_nil_of_mem h), hindex, Nat.mod_eq_of_lt hi, getElem?_eq_getElem hi, heq]

/-- The bucket is sorted by distance and the exclude set by key: an excluded node goes only if no node before it has a
greater key. -/
theorem randomExact_iff (b : Bucket) (exclude : KeySet) : RandomExact b exclude ↔
    ∀ x ∈ b.nodes.toList, x ∈ exclude.toList → ∀ y ∈ b.nodes.toList,
      distance b.us y < distance b.us x → ¬ plain x < plain y := by
  constructor
  · intro h x hx hex y hy hlt hplain
    obtain ⟨random, hrandom⟩ := exists_random (mem_random.mpr ⟨hx, .inr ⟨y, hy, hlt, hplain⟩⟩)
    exact (mem_others.mp ((h.1 random).2 x hrandom)).2 hex
  · intro h
    have hmem (k : Key) : k ∈ setDifference plain b.nodes.toList exclude.toList ↔ k ∈ b.others exclude := by
      rw [mem_random, mem_others]
      refine and_congr_right fun hk => or_iff_left_of_imp ?_
      rintro ⟨y, hy, hlt, hplain⟩ hex
      exact h k hk hex y hy hlt hplain
    refine ⟨fun random => ⟨?_, fun k hk => (hmem k).mp (random_mem hk)⟩, fun k hk => exists_random ((hmem k).mpr hk)⟩
    rw [isSome_random]
    simp only [ne_eq, eq_nil_iff_forall_not_mem, hmem]

/-- node 2 comes after 3, and is given although it is excluded -/
theorem not_randomExact : ¬ RandomExact Sample.bucket ⟨[Sample.key 2], by simp⟩ ∧
    Sample.bucket.getRandomNodeExcluding ⟨[Sample.key 2], by simp⟩ 2 = some (Sample.key 2) := by
  refine ⟨fun h => ?_, by decide +kernel⟩
  have hmem := (h.1 2).2 (Sample.key 2) (by decide +kernel)
  exact absurd hmem (by decide +kernel)

end Bucket

structure GotRouterMessage where
  txid : UInt64
  nearKeys : List RouterID
  relayed : Bool
deriving DecidableEq

section
variable (ourKey : Key) (isBadForConnect : RouterID → Bool) (requester : Key) (txid : UInt64) (target : RouterID)
  (reply : List GotRouterMessage)

def askers : KeySet := (SortedSet.empty.insert ourKey).insert requester

def handleExploritoryRouterLookup (nodes : Option Bucket) : Bool × List GotRouterMessage :=
  match nodes with
  | none => (false, reply)
  | some nodes =>
    let nodeCount := nodes.nodes.toList.length
    if nodeCount = 0 then (false, reply)
    else
      let found := nodes.getManyNearExcluding target (askers ourKey requester) .empty (min nodeCount 4)
      if !found.1 then (false, reply)
      else (true, reply ++ [⟨txid, found.2.toList.filter (!isBadForConnect ·), false⟩])

/-- the reply that is due when there are other nodes: the four nearest ones, or all of them, without the bad ones -/
def Explored (b : Bucket) : Prop :=
  b.others (askers ourKey requester) ≠ [] → ∃ R, Nearest (distance target) (b.others (askers ourKey requester))
        (min 4 (b.others (askers ourKey requester)).length) R ∧
      handleExploritoryRouterLookup ourKey isBadForConnect requester txid target reply (some b) =
        (true, reply ++ [⟨txid, R.filter (!isBadForConnect ·), false⟩])

/-- As many nodes are looked for as there are, and not as many as there are apart from the two excluded ones. -/
theorem explored_iff (b : Bucket) : Explored ourKey isBadForConnect requester txid target reply b ↔
    b.others (askers ourKey requester) = [] ∨
      min b.nodes.toList.length 4 ≤ (b.candidates target (askers ourKey requester)).length := by
  have hothers : (b.others (askers ourKey requester)).length ≤ b.nodes.toList.length := length_filter_le _ _
  have hcands : (b.candidates target (askers ourKey requester)).length ≤ (b.others (askers ourKey requester)).length :=
    length_filter_le _ _
  obtain ⟨hiff, hnear⟩ := Bucket.getManyNearExcluding_spec b target (askers ourKey requester)
    (min b.nodes.toList.length 4)
  unfold Explored handleExploritoryRouterLookup
  rw [← hiff]
  by_cases hnone : b.others (askers ourKey requester) = []
  · simp [hnone]
  have hpos : (b.others (askers ourKey requester)).length ≠ 0 := mt length_eq_zero_iff.mp hnone
  have hcount : b.nodes.toList.length ≠ 0 := by omega
  dsimp only
  rw [if_neg hcount]
  constructor
  · intro h
    obtain ⟨R, -, hreply⟩ := h hnone
    refine .inr ?_
    by_contra hfail
    rw [Bool.not_eq_true] at hfail
    rw [hfail] at hreply
    exact absurd (congrArg Prod.fst hreply) (by simp)
  · intro h _
    have hfound := h.resolve_left hnone
    have hn : min 4 (b.others (askers ourKey requester)).length = min b.nodes.toList.length 4 := by
      have := hiff.mp hfound
      omega
    refine ⟨_, ?_, by rw [hfound]; rfl⟩
    rw [hn]
    exact Bucket.nearest_others (hnear hfound)

/-- three nodes, of which one asks: two could be given, and three are looked for -/
theorem not_explored : ¬ Explored (Bucket.Sample.key 9) (fun _ => false) (Bucket.Sample.key 3) 1 (Bucket.Sample.key 0) []
      Bucket.Sample.bucket ∧
    handleExploritoryRouterLookup (Bucket.Sample.key 9) (fun _ => false) (Bucket.Sample.key 3) 1 (Bucket.Sample.key 0) []
      (some Bucket.Sample.bucket) = (false, []) := by
  have hrun : handleExploritoryRouterLookup (Bucket.Sample.key 9) (fun _ => false) (Bucket.Sample.key 3) 1
      (Bucket.Sample.key 0) [] (some Bucket.Sample.bucket) = (false, []) := by decide +kernel
  refine ⟨fun h => ?_, hrun⟩
  obtain ⟨R, -, hreply⟩ := h (by decide +kernel)
  rw [hrun] at hreply
  cases hreply

end

end Dht

end Belnet
