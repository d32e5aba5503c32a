import Belnet.Path.Messages

/-!
# Profiles of routers

The counters of `llarp/profiling.cpp` and the verdicts on them, as natural numbers: counters below `2^63` do not wrap
around.
-/

namespace Belnet.Router
open Belnet.Path Function Nat List

structure RouterProfile where
  connectTimeoutCount : ℕ := 0
  connectGoodCount : ℕ := 0
  pathSuccessCount : ℕ := 0
  pathFailCount : ℕ := 0
  pathTimeoutCount : ℕ := 0

def checkIsGood (fails success chances : ℕ) : Bool :=
  if 0 < fails ∧ chances ≤ fails + success then 1 < success / fails
  else if success = 0 then fails < chances
  else true

abbrev Profiles := RouterID → RouterProfile

namespace RouterProfile
variable (p : RouterProfile) (chances : ℕ)

def isGoodForConnect : Bool := checkIsGood p.connectTimeoutCount p.connectGoodCount chances

def isGoodForPath : Bool :=
  if chances < p.pathTimeoutCount then false else checkIsGood p.pathFailCount p.pathSuccessCount chances

def connectTimeout : RouterProfile := { p with connectTimeoutCount := p.connectTimeoutCount + 1 }

def connectSuccess : RouterProfile := { p with connectGoodCount := p.connectGoodCount + 1 }

def hopFail : RouterProfile := { p with pathFailCount := p.pathFailCount + 1 }

def pathTimeout : RouterProfile := { p with pathTimeoutCount := p.pathTimeoutCount + 1 }

def pathSuccess (sz : ℕ) : RouterProfile :=
  { p with pathFailCount := p.pathFailCount / 2, pathTimeoutCount := 0, pathSuccessCount := p.pathSuccessCount + sz }

end RouterProfile

namespace Profiles
variable (p : Profiles) (r : RouterID) (hops : List RouterID) (chances : ℕ)

def mark (f : RouterProfile → RouterProfile) (p : Profiles) (r : RouterID) : Profiles := update p r (f (p r))

def markConnectTimeout : Profiles := p.mark RouterProfile.connectTimeout r

def markConnectSuccess : Profiles := p.mark RouterProfile.connectSuccess r

def markHopFail : Profiles := p.mark RouterProfile.hopFail r

def markPathTimeout : Profiles := hops.foldl (mark RouterProfile.pathTimeout) p

def markPathSuccess : Profiles := hops.foldl (mark (·.pathSuccess hops.length)) p

/-- a success does not turn a good router into a bad one, nor a failure a bad router into a good one -/
structure Monotone : Prop where
  connectSuccess : (p r).isGoodForConnect chances → (p.markConnectSuccess r r).isGoodForConnect chances
  pathSuccess : ∀ hops, r ∈ hops → (p r).isGoodForPath chances → (p.markPathSuccess hops r).isGoodForPath chances
  connectTimeout : (p.markConnectTimeout r r).isGoodForConnect chances → (p r).isGoodForConnect chances
  hopFail : (p.markHopFail r r).isGoodForPath chances → (p r).isGoodForPath chances
  pathTimeout : ∀ hops, r ∈ hops → (p.markPathTimeout hops r).isGoodForPath chances → (p r).isGoodForPath chances

variable {p r} {f : RouterProfile → RouterProfile}

lemma mark_self : p.mark f r r = f (p r) := update_self r _ p

/-- marking a path applies the change once for each time the router is on it -/
lemma foldl_mark : hops.foldl (mark f) p r = f^[hops.count r] (p r) := by
  induction hops generalizing p with
  | nil => rfl
  | cons hop hops ih =>
    rw [foldl_cons, ih]
    by_cases hr : hop = r
    · rw [hr, mark_self, count_cons_self, iterate_succ_apply]
    · rw [mark, update_of_ne (Ne.symm hr), count_cons_of_ne hr]

end Profiles

variable {chances fails success : ℕ}

lemma checkIsGood_iff : checkIsGood fails success chances ↔
    if 0 < fails ∧ chances ≤ fails + success then 2 * fails ≤ success else success ≠ 0 ∨ fails < chances := by
  unfold checkIsGood
  split
  · rename_i h
    rw [decide_eq_true_iff, lt_iff_add_one_le, le_div_iff_mul_le h.1]
  · split <;> simp_all

lemma checkIsGood_of_fail (h : checkIsGood (fails + 1) success chances) :
    checkIsGood fails success chances := by
  rw [checkIsGood_iff] at h ⊢
  split at h <;> split <;> omega

namespace RouterProfile
variable {p : RouterProfile} {m sz chances : ℕ}

lemma pathTimeout_iterate : pathTimeout^[m] p = { p with pathTimeoutCount := p.pathTimeoutCount + m } := by
  induction m with
  | zero => rfl
  | succ m ih =>
    rw [iterate_succ_apply', ih]
    rfl

lemma pathSuccess_iterate : (pathSuccess · sz)^[m + 1] p =
    { p with
      pathFailCount := p.pathFailCount / 2^(m + 1)
      pathTimeoutCount := 0
      pathSuccessCount := p.pathSuccessCount + (m + 1) * sz } := by
  induction m with
  | zero => simp [pathSuccess]
  | succ m ih =>
    rw [iterate_succ_apply', ih]
    simp only [pathSuccess, Nat.div_div_eq_div_mul, ← pow_succ]
    congr 1
    ring

def ConnectTurns (p : RouterProfile) (chances : ℕ) : Prop :=
  0 < p.connectTimeoutCount ∧ p.connectTimeoutCount + p.connectGoodCount + 1 = chances ∧
    p.connectGoodCount + 1 < 2 * p.connectTimeoutCount

def PathTurns (p : RouterProfile) (m sz chances : ℕ) : Prop :=
  p.pathTimeoutCount ≤ chances ∧ p.pathFailCount + p.pathSuccessCount < chances ∧ 0 < p.pathFailCount / 2^m ∧
    chances ≤ p.pathFailCount / 2^m + (p.pathSuccessCount + m * sz) ∧
    p.pathSuccessCount + m * sz < 2 * (p.pathFailCount / 2^m)

lemma connectTurns_iff : ¬ p.ConnectTurns chances ↔
    (p.isGoodForConnect chances → p.connectSuccess.isGoodForConnect chances) := by
  unfold isGoodForConnect connectSuccess ConnectTurns
  rw [checkIsGood_iff, checkIsGood_iff]
  dsimp only
  split <;> split <;> omega

lemma pathTurns_iff (hm : m ≠ 0) : ¬ p.PathTurns m sz chances ↔
    (p.isGoodForPath chances → ((pathSuccess · sz)^[m] p).isGoodForPath chances) := by
  obtain ⟨m, rfl⟩ := exists_eq_succ_of_ne_zero hm
  rw [pathSuccess_iterate]
  unfold isGoodForPath PathTurns
  have hle : p.pathFailCount / 2^(m + 1) ≤ p.pathFailCount := div_le_self _ _
  generalize p.pathFailCount / 2^(m + 1) = fails at hle
  generalize (m + 1) * sz = more
  by_cases ht : chances < p.pathTimeoutCount
  · simp [ht]
  rw [if_neg ht, if_neg (by simp), checkIsGood_iff, checkIsGood_iff]
  dsimp only
  split <;> split <;> omega

lemma isGoodForPath_of_hopFail (h : p.hopFail.isGoodForPath chances) : p.isGoodForPath chances := by
  unfold isGoodForPath hopFail at h
  unfold isGoodForPath
  split at h
  · cases h
  rename_i ht
  rw [if_neg ht]
  exact checkIsGood_of_fail h

lemma isGoodForPath_of_timeouts (h : (pathTimeout^[m] p).isGoodForPath chances) : p.isGoodForPath chances := by
  rw [pathTimeout_iterate] at h
  unfold isGoodForPath at h ⊢
  split at h
  · cases h
  · rename_i ht
    rwa [if_neg (by simp only at ht; omega)]

end RouterProfile

namespace Profiles
open RouterProfile

/-- Failures never make a bad router good; a success that reaches the number of chances makes a good one bad. -/
theorem monotone_iff (p : Profiles) (r : RouterID) (chances : ℕ) : p.Monotone r chances ↔ ¬ (p r).ConnectTurns chances ∧
      ∀ hops : List RouterID, r ∈ hops → ¬ (p r).PathTurns (hops.count r) hops.length chances := by
  have hcount {hops : List RouterID} (hr : r ∈ hops) : hops.count r ≠ 0 := (List.count_pos_iff.mpr hr).ne'
  constructor
  · intro h
    refine ⟨connectTurns_iff.mpr fun hgood => ?_, fun hops hr => (pathTurns_iff (hcount hr)).mpr fun hgood => ?_⟩
    · rw [← mark_self (f := connectSuccess)]
      exact h.connectSuccess hgood
    · rw [← foldl_mark]
      exact h.pathSuccess hops hr hgood
  · rintro ⟨hconnect, hpath⟩
    constructor
    · rw [markConnectSuccess, mark_self]
      exact connectTurns_iff.mp hconnect
    · intro hops hr
      rw [markPathSuccess, foldl_mark]
      exact (pathTurns_iff (hcount hr)).mp (hpath hops hr)
    · rw [markConnectTimeout, mark_self]
      exact checkIsGood_of_fail
    · rw [markHopFail, mark_self]
      exact isGoodForPath_of_hopFail
    · intro hops _
      rw [markPathTimeout, foldl_mark]
      exact isGoodForPath_of_timeouts

/-- three timeouts and one success are good with five chances, and one more success makes them bad -/
theorem not_monotone : ¬ Monotone (fun _ => ⟨3, 1, 0, 0, 0⟩) (.zero 32) 5 :=
  fun h => absurd (h.connectSuccess (by decide)) (by decide +kernel)

end Profiles

end Belnet.Router
