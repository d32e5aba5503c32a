import Belnet.Net.Ranges

/-!
# Ranges as sets of addresses

A range with `n` leading bits is a block of `2^(128 - n)` addresses; `Contains` looks only at a range's stored and
highest address.
-/

namespace Belnet.Net.IPRange
open Util List

def containsRange (r other : IPRange) : Bool := r.contains other.addr && r.contains other.highestAddr

def intersects (r other : IPRange) : Bool := r.containsRange other || other.containsRange r

def ipaddrIpv4Bits (a b c d : ℕ) : BitVec 32 := BitVec.ofNat 32 (d ||| c <<< 8 ||| b <<< 16 ||| a <<< 24)

def fromIPv4 (a b c d mask : ℕ) : IPRange := ⟨expandV4 (ipaddrIpv4Bits a b c d), netmaskIpv6Bits (mask + 96)⟩

def privateRanges : List IPRange :=
  (range' 16 16).map (fun oct => fromIPv4 172 oct 0 1 16) ++ ((range 256).map (fun oct => fromIPv4 10 oct 0 1 16) ++
      (range 256).map (fun oct => fromIPv4 192 168 oct 1 24))

def findPrivateRange (excluding : List IPRange) : Option IPRange :=
  privateRanges.find? fun range => excluding.all fun ex => !ex.intersects range

def ofPrefix (a : BitVec 128) (n : Fin 129) : IPRange := ⟨a, netmaskIpv6Bits n⟩

variable {a b ip : BitVec 128} {m n : Fin 129}

lemma contains_block : (ofPrefix a n).contains ip = true ↔
    a.toNat / 2^(128 - n.val) = ip.toNat / 2^(128 - n.val) := by
  have hn : n.val ≤ 128 := Nat.lt_succ_iff.mp n.isLt
  unfold contains
  rw [decide_eq_true_iff, ← BitVec.toNat_inj]
  show (a &&& netmaskIpv6Bits n).toNat = (ip &&& netmaskIpv6Bits n).toNat ↔ _
  rw [toNat_netmask a hn, toNat_netmask ip hn, Nat.mul_left_inj (Nat.two_pow_pos _).ne']

lemma contains_self : (ofPrefix a n).contains a = true := contains_block.mpr rfl

lemma contains_highest : (ofPrefix a n).contains (ofPrefix a n).highestAddr = true :=
  have hn : n.val ≤ 128 := Nat.lt_succ_iff.mp n.isLt
  contains_of_between hn rfl (le_highestAddr hn rfl) (BitVec.le_refl _)

lemma contains_mono (h : m ≤ n) (hip : (ofPrefix b n).contains ip = true) : (ofPrefix b m).contains ip = true := by
  have hpow : 2^(128 - m.val) = 2^(128 - n.val) * 2^(n.val - m.val) := by
    rw [← pow_add]
    congr 1
    have : m.val ≤ n.val := h
    omega
  rw [contains_block] at hip ⊢
  rw [hpow, ← Nat.div_div_eq_div_mul, ← Nat.div_div_eq_div_mul, hip]

lemma contains_trans (hb : (ofPrefix a m).contains b = true) :
    (ofPrefix a m).contains ip = (ofPrefix b m).contains ip := by
  rw [Bool.eq_iff_iff, contains_block, contains_block, contains_block.mp hb]

lemma le_of_subset (h : ∀ ip, (ofPrefix b n).contains ip = true → (ofPrefix a m).contains ip = true) : m ≤ n := by
  by_contra hlt
  have hlt : n.val < m.val := not_le.mp hlt
  have hn : n.val ≤ 128 := Nat.lt_succ_iff.mp n.isLt
  have hm : m.val ≤ 128 := Nat.lt_succ_iff.mp m.isLt
  -- the first and the last address of the block
  have hfirst : (ofPrefix b n).contains (b &&& netmaskIpv6Bits n) = true := by
    rw [contains_block, toNat_netmask b hn, Nat.mul_div_cancel _ (Nat.two_pow_pos _)]
  have hblock := (contains_block.mp (h _ hfirst)).symm.trans (contains_block.mp (h _ contains_highest))
  rw [toNat_netmask b hn, toNat_highestAddr hn rfl] at hblock
  change _ = (b.toNat / _ * _ + _) / _ at hblock
  have hpow : 2^(128 - n.val) = 2^(m.val - n.val) * 2^(128 - m.val) := by
    rw [← pow_add]
    congr 1
    omega
  have hone : 2 ≤ 2^(m.val - n.val) := Nat.le_self_pow (by omega) 2
  have hpos : 0 < 2^(128 - m.val) := Nat.two_pow_pos _
  rw [hpow, ← Nat.mul_assoc, Nat.mul_div_cancel _ hpos] at hblock
  have hlast : 2^(128 - m.val) ≤ 2^(m.val - n.val) * 2^(128 - m.val) - 1 := by
    have := Nat.mul_le_mul_right (2^(128 - m.val)) hone
    omega
  have hnext := Nat.div_le_div_right (c := 2^(128 - m.val)) (Nat.add_le_add_left hlast
    (b.toNat / (2^(m.val - n.val) * 2^(128 - m.val)) * 2^(m.val - n.val) * 2^(128 - m.val)))
  rw [← Nat.succ_mul, Nat.mul_div_cancel _ hpos] at hnext
  exact absurd (hnext.trans_eq hblock.symm) (Nat.not_succ_le_self _)

/-- `Contains` is containment for every range on the left exactly when the right one is not larger, or has its address
in another part of this size than its highest. -/
theorem containsRange_iff_subset (b : BitVec 128) (m n : Fin 129) :
    (∀ a, (ofPrefix a m).containsRange (ofPrefix b n) = true ↔
      ∀ ip, (ofPrefix b n).contains ip = true → (ofPrefix a m).contains ip = true) ↔
      m ≤ n ∨ (ofPrefix b m).contains (ofPrefix b n).highestAddr = false := by
  have hends : ∀ a, (ofPrefix a m).containsRange (ofPrefix b n) = true ↔
      (ofPrefix a m).contains b = true ∧ (ofPrefix b m).contains (ofPrefix b n).highestAddr = true := by
    intro a
    unfold containsRange
    rw [Bool.and_eq_true]
    exact and_congr_right fun hb => Bool.eq_iff_iff.mp (contains_trans hb)
  constructor
  · intro h
    by_contra hno
    rw [not_or, Bool.not_eq_false] at hno
    exact hno.1 (le_of_subset ((h b).mp ((hends b).mpr ⟨contains_self, hno.2⟩)))
  · intro h a
    rw [hends]
    constructor
    · rintro ⟨hb, hhigh⟩ ip hip
      rcases h with hle | hno
      · rw [contains_trans hb]
        exact contains_mono hle hip
      · exact absurd (hno.symm.trans hhigh) Bool.false_ne_true
    · intro hsub
      exact ⟨hsub b contains_self, contains_mono (le_of_subset hsub) contains_highest⟩

/-- 10.0.0.255/32 is said to contain 10.0.0.255/24 -/
theorem containsRange_larger : (ofPrefix 0xffff0a0000ff 128).containsRange (ofPrefix 0xffff0a0000ff 120) = true ∧
    (ofPrefix 0xffff0a0000ff 120).contains 0xffff0a000001 = true ∧
    (ofPrefix 0xffff0a0000ff 128).contains 0xffff0a000001 = false := by decide +kernel

lemma intersects_prefix_iff (a b : BitVec 128) (m n : Fin 129) : (ofPrefix a m).intersects (ofPrefix b n) = true ↔
      ∃ ip, (ofPrefix a m).contains ip = true ∧ (ofPrefix b n).contains ip = true := by
  -- the smaller block lies in the larger one as soon as they share an address
  have hnested : ∀ {a b : BitVec 128} {m n : Fin 129} {ip : BitVec 128}, m ≤ n →
      (ofPrefix a m).contains ip = true → (ofPrefix b n).contains ip = true →
      (ofPrefix a m).containsRange (ofPrefix b n) = true := by
    intro a b m n ip hle ha hb
    have hab : (ofPrefix a m).contains b = true := by
      rw [contains_trans ha, ← contains_trans (contains_mono hle hb)]
      exact contains_self
    unfold containsRange
    rw [Bool.and_eq_true]
    exact ⟨hab, (contains_trans hab).trans (contains_mono hle contains_highest)⟩
  unfold intersects
  rw [Bool.or_eq_true]
  constructor
  · rintro (h | h)
    · exact ⟨b, (Bool.and_eq_true_iff.mp h).1, contains_self⟩
    · exact ⟨a, contains_self, (Bool.and_eq_true_iff.mp h).1⟩
  · rintro ⟨ip, ha, hb⟩
    rcases le_total m n with hle | hle
    · exact .inl (hnested hle ha hb)
    · exact .inr (hnested hle hb ha)

lemma privateRanges_prefix {r : IPRange} (h : r ∈ privateRanges) : ∃ a n, r = ofPrefix a n := by
  have hmask : ∀ (x y z w : ℕ) (k : Fin 33), ∃ a n, fromIPv4 x y z w k = ofPrefix a n := by
    intro x y z w k
    exact ⟨_, ⟨k + 96, by have := k.isLt; omega⟩, rfl⟩
  rcases mem_append.mp h with h | h
  · obtain ⟨oct, -, rfl⟩ := mem_map.mp h
    exact hmask _ _ _ _ 16
  rcases mem_append.mp h with h | h
  · obtain ⟨oct, -, rfl⟩ := mem_map.mp h
    exact hmask _ _ _ _ 16
  · obtain ⟨oct, -, rfl⟩ := mem_map.mp h
    exact hmask _ _ _ _ 24

/-- Two ranges intersect when they share an address; `FindPrivateRange` finds one that shares none, and fails when all
528 candidates share one. -/
theorem intersects_iff_common (a b : BitVec 128) (m n : Fin 129) (excluding : List (BitVec 128 × Fin 129)) :
    ((ofPrefix a m).intersects (ofPrefix b n) = true ↔
      ∃ ip, (ofPrefix a m).contains ip = true ∧ (ofPrefix b n).contains ip = true) ∧
    (∀ r, findPrivateRange (excluding.map fun ex => ofPrefix ex.1 ex.2) = some r →
      ∀ ex ∈ excluding, ¬ ∃ ip, (ofPrefix ex.1 ex.2).contains ip = true ∧ r.contains ip = true) ∧
    (findPrivateRange (excluding.map fun ex => ofPrefix ex.1 ex.2) = none →
      ∀ r ∈ privateRanges, ∃ ex ∈ excluding, ∃ ip, (ofPrefix ex.1 ex.2).contains ip = true ∧ r.contains ip = true) ∧
    privateRanges.length = 528 := by
  refine ⟨intersects_prefix_iff a b m n, ?_, ?_, by decide +kernel⟩
  · intro r hr ex hex hip
    unfold findPrivateRange at hr
    obtain ⟨a', n', rfl⟩ := privateRanges_prefix (mem_of_find?_eq_some hr)
    have hall := find?_some hr
    have hgood := all_eq_true.mp hall _ (mem_map_of_mem hex)
    rw [(intersects_prefix_iff _ _ _ _).mpr hip] at hgood
    cases hgood
  · intro hnone r hr
    obtain ⟨a', n', rfl⟩ := privateRanges_prefix hr
    have hbad := find?_eq_none.mp hnone _ hr
    simp only [all_map, all_eq_true, not_forall] at hbad
    obtain ⟨ex, hex, hmeet⟩ := hbad
    refine ⟨ex, hex, (intersects_prefix_iff _ _ _ _).mp ?_⟩
    simpa using hmeet

lemma fromString_prefix {lib : Libs} {s : Bytes} {r : IPRange} (h : fromString lib s = some r) :
    ∃ a n, r = ofPrefix a n := by
  unfold fromString at h
  dsimp only at h
  split at h
  · split at h
    · cases h
    split at h
    · cases h
      exact ⟨_, 128, rfl⟩
    split at h
    · cases h
    split at h
    · cases h
    · cases h
      exact ⟨_, ⟨96 + _, by omega⟩, rfl⟩
  · split at h
    · cases h
    split at h
    · cases h
      exact ⟨_, 128, rfl⟩
    split at h
    · cases h
    rename_i hbits
    cases h
    exact ⟨_, ⟨_, Nat.lt_succ_of_le (Int.toNat_le.mpr (by omega))⟩, rfl⟩

/-- The text of a range is read again, and means the same addresses unless it is an IPv4 text and the range has less
than 96 bits. -/
theorem text_faithful_iff {lib : Libs} (hlib : lib.Lawful) {s : Bytes} {r : IPRange} (h : fromString lib s = some r) :
    ∃ r', fromString lib (r.toString lib) = some r' ∧
      ((∀ ip, r'.contains ip = r.contains ip) ↔ (r.isV4 = true → 96 ≤ countBits r.netmaskBits)) := by
  obtain ⟨a, n, rfl⟩ := fromString_prefix h
  have hn : n.val ≤ 128 := Nat.lt_succ_iff.mp n.isLt
  have hcount : countBits (ofPrefix a n).netmaskBits = n := countBits_netmask n hn
  refine ⟨_, fromString_toString hlib _, ?_⟩
  rw [hcount]
  constructor
  · intro hsame hv4
    obtain ⟨k, hk, hmask, h96⟩ := (ofPrefix a n).received_plain
    have hreceived : (ofPrefix a n).received = ofPrefix a ⟨k, Nat.lt_succ_of_le hk⟩ := congrArg (IPRange.mk a) hmask
    rw [hreceived] at hsame
    have hle := le_of_subset (m := ⟨k, Nat.lt_succ_of_le hk⟩) fun ip hip => (hsame ip).trans hip
    exact (h96 hv4).trans hle
  · intro h96 ip
    rw [(received_eq_iff _).mpr ⟨n, hn, rfl, h96⟩]

theorem text_faithful_iff_v4 : ∃ r', fromString Libs.decimals
    ((ofPrefix 0xffff00000007 104).toString Libs.decimals) = some r' ∧
      ((∀ ip, r'.contains ip = (ofPrefix 0xffff00000007 104).contains ip) ↔
        ((ofPrefix 0xffff00000007 104).isV4 = true → 96 ≤ countBits (ofPrefix 0xffff00000007 104).netmaskBits)) :=
  text_faithful_iff (s := [55, 47, 56]) Libs.decimals_lawful (by decide +kernel)

/-- an IPv4 address in the text of an IPv6 one, with 64 bits, is printed as an IPv4 range with none -/
theorem text_unfaithful : fromString Libs.decimals (58 :: Decimal.decimal 0xffff00000007 ++ [47, 54, 52])
      = some (ofPrefix 0xffff00000007 64) ∧
    (ofPrefix 0xffff00000007 64).toString Libs.decimals = [55, 47, 48] ∧
    ∃ r', fromString Libs.decimals [55, 47, 48] = some r' ∧
      (ofPrefix 0xffff00000007 64).contains 7 = true ∧ r'.contains 7 = false := by
  refine ⟨by decide +kernel, by decide +kernel, ofPrefix 0xffff00000007 96, ?_⟩
  decide +kernel

end Belnet.Net.IPRange
