import Belnet.Dns.SRVData
import Belnet.Net.SockAddr
import Belnet.Net.Subnets

/-!
# Reverse names

`DecodePTR` of `llarp/dns/name.cpp`, on a machine that stores numbers with the lowest byte first.
-/

namespace Belnet.Dns
open List Decimal Net UInt8 IPRange Bytes Function

/-- `in-addr.arpa` and `ip6.arpa` -/
def inAddrArpa : Bytes := [105, 110, 45, 97, 100, 100, 114, 46, 97, 114, 112, 97]

def ip6Arpa : Bytes := [105, 112, 54, 46, 97, 114, 112, 97]

/-- the value of a digit that passes `oxenc::is_hex_digit` -/
def hexValue (x : UInt8) : Option ℕ :=
  if 48 ≤ x ∧ x ≤ 57 then some (x.toNat - 48)
  else if 97 ≤ x ∧ x ≤ 102 then some (x.toNat - 87)
  else if 65 ≤ x ∧ x ≤ 70 then some (x.toNat - 55)
  else none

/-- the numbers of an IPv4 name, the first one in the last place -/
def decodeV4 : ℕ → Bytes → List ℕ → Option (List ℕ)
  | 0, _, q => some q
  | i+1, name, q => do
    let x ← parseInt 8 (name.takeWhile (· ≠ 46))
    decodeV4 i ((name.dropWhile (· ≠ 46)).drop 1) (x :: q)

/-- the array `in`, where the digits of a name are flipped two by two -/
def flipped : Bytes → Option Bytes
  | [] => some []
  | a :: 46 :: b :: 46 :: name => if (hexValue a).isSome ∧ (hexValue b).isSome then (b :: a :: ·) <$> flipped name else none
  | _ => none

def fromHex : Bytes → Bytes
  | h :: l :: rest => .ofNat (16 * (hexValue h).getD 0 + (hexValue l).getD 0) :: fromHex rest
  | _ => []

/-- the memory of a `uint128_t`: `lower`, then `upper` -/
def loadUint128 (m : Bytes) : BitVec 128 :=
  BitVec.ofNat 128 (2^64 * Bytes.loadBig (m.drop 8).reverse + Bytes.loadBig (m.take 8).reverse)

def decodePTR (name : Bytes) : Option (BitVec 128) := do
  let v4 := findSub (46 :: inAddrArpa) name
  let pos ← v4.or (findSub (46 :: ip6Arpa) name)
  let name := name.take (pos + 1)
  if name.count 46 = 4 ∧ v4.isSome then
    match ← decodeV4 4 name [] with
    | [a, b, c, d] => return expandV4 (ipaddrIpv4Bits a b c d)
    | _ => none
  else if name.count 46 = 32 ∧ name.length = 64 ∧ v4.isNone then
    return loadUint128 (fromHex (← flipped name))
  else none

/-- the labels of a name, each with its dot -/
def labels (segs : List Bytes) : Bytes := segs.flatMap (· ++ [46])

def v4Name (a b c d : UInt8) : Bytes :=
  labels [decimal d.toNat, decimal c.toNat, decimal b.toNat, decimal a.toNat] ++ (inAddrArpa ++ [46])

def hexDigit (upper : Bool) (n : Fin 16) : UInt8 := .ofNat (if n < 10 then 48 + n else if upper then 55 + n else 87 + n)

/-- the digit of place `j`, in upper or lower case -/
def nibble (upper : ℕ → Bool) (x : BitVec 128) (j : ℕ) : UInt8 := hexDigit (upper j) (Fin.ofNat 16 (x.toNat / 16^j))

def v6Name (upper : ℕ → Bool) (x : BitVec 128) : Bytes :=
  labels ((range 16).flatMap fun k => [[nibble upper x (2 * k)], [nibble upper x (2 * k + 1)]]) ++ (ip6Arpa ++ [46])

/-! ## where the domain begins -/

structure Label (seg : Bytes) : Prop where
  noDot : 46 ∉ seg
  start : ∃ x t, seg = x :: t ∧ x ≠ 105

lemma findSub_append {p seg rest : Bytes} (hseg : 46 ∉ seg) :
    findSub (46 :: p) (seg ++ rest) = (findSub (46 :: p) rest).map (· + seg.length) := by
  induction seg with
  | nil => simp
  | cons x seg ih =>
    obtain ⟨hx, hseg⟩ := not_or.mp (mt mem_cons.mpr hseg)
    rw [cons_append, findSub, if_neg (by simp [hx]), ih hseg, Option.map_map]
    rfl

variable {segs : List Bytes}

lemma labels_cons (seg : Bytes) : labels (seg :: segs) = seg ++ 46 :: labels segs := by simp [labels]

/-- a domain that begins with `i` is not found in the labels before it -/
lemma findSub_labels (p suffix : Bytes) (hne : segs ≠ []) (hsegs : ∀ seg ∈ segs, Label seg) :
    findSub (46 :: 105 :: p) (labels segs ++ suffix) =
      (findSub (46 :: 105 :: p) (46 :: suffix)).map (· + ((labels segs).length - 1)) := by
  induction segs with
  | nil => exact absurd rfl hne
  | cons seg segs ih =>
    obtain ⟨hseg, hsegs⟩ := forall_mem_cons.mp hsegs
    rw [labels_cons, append_assoc, cons_append, findSub_append hseg.noDot]
    cases segs with
    | nil => simp [labels]
    | cons seg' segs =>
      obtain ⟨x, t, rfl, hx⟩ := (hsegs seg' mem_cons_self).start
      rw [findSub, if_neg (by simp [labels, Ne.symm hx]), ih (cons_ne_nil _ _) hsegs, Option.map_map, Option.map_map]
      congr 1
      funext n
      simp [labels]
      omega

lemma count_labels (hsegs : ∀ seg ∈ segs, Label seg) : (labels segs).count 46 = segs.length := by
  induction segs with
  | nil => rfl
  | cons seg segs ih =>
    obtain ⟨hseg, hsegs⟩ := forall_mem_cons.mp hsegs
    rw [labels_cons, count_append, count_eq_zero.mpr hseg.noDot, count_cons_self, ih hsegs, length_cons, Nat.zero_add]

lemma labels_length_pos (hne : segs ≠ []) : 0 < (labels segs).length := by
  cases segs with
  | nil => exact absurd rfl hne
  | cons seg segs => simp [labels]

/-! ## names of addresses -/

lemma take_labels (hne : segs ≠ []) (suffix : Bytes) :
    (labels segs ++ suffix).take (0 + ((labels segs).length - 1) + 1) = labels segs := by
  have hpos := labels_length_pos hne
  rw [show 0 + ((labels segs).length - 1) + 1 = (labels segs).length by omega, take_left]

lemma decimal_label (n : ℕ) : Label (decimal n) := by
  have hdigit {x : UInt8} (hx : x ∈ decimal n) {y : UInt8} (hy : isDigit y = false) : x ≠ y := fun heq => by
    rw [heq] at hx
    exact absurd (mem_decimal hx) (by simp [hy])
  refine ⟨fun h => hdigit h (y := 46) (by decide) rfl, ?_⟩
  obtain ⟨x, t, heq⟩ := exists_cons_of_ne_nil (decimal_ne_nil n)
  exact ⟨x, t, heq, hdigit (heq ▸ mem_cons_self) (by decide)⟩

lemma decodeV4_succ (i : ℕ) (x : UInt8) (rest : Bytes) (q : List ℕ) :
    decodeV4 (i + 1) (decimal x.toNat ++ 46 :: rest) q = decodeV4 i rest (x.toNat :: q) := by
  have hdot : ∀ y ∈ decimal x.toNat, decide (y ≠ 46) = true := fun y hy =>
    decide_eq_true fun heq => (decimal_label x.toNat).noDot (heq ▸ hy)
  have hparse : parseInt 8 (decimal x.toNat) = some x.toNat := by
    unfold parseInt
    rw [digits_decimal, if_pos ⟨decimal_ne_nil _, all_eq_true.mpr fun y hy => mem_decimal hy, x.toNat_lt⟩]
  rw [decodeV4, takeWhile_append_of_pos hdot, dropWhile_append_of_pos hdot]
  simp [hparse]

lemma ipaddrIpv4Bits_eq (a b c d : UInt8) : (ipaddrIpv4Bits a.toNat b.toNat c.toNat d.toNat).toNat =
    a.toNat * 2^24 + (b.toNat * 2^16 + (c.toNat * 2^8 + d.toNat)) := by
  have ha := a.toNat_lt
  have hb := b.toNat_lt
  have hc := c.toNat_lt
  have hd := d.toNat_lt
  unfold ipaddrIpv4Bits
  rw [Nat.or_comm d.toNat, ← Nat.shiftLeft_add_eq_or_of_lt (by omega), Nat.or_comm _ (b.toNat <<< 16),
    ← Nat.shiftLeft_add_eq_or_of_lt (by rw [Nat.shiftLeft_eq]; omega), Nat.or_comm _ (a.toNat <<< 24),
    ← Nat.shiftLeft_add_eq_or_of_lt (by rw [Nat.shiftLeft_eq, Nat.shiftLeft_eq]; omega)]
  simp only [Nat.shiftLeft_eq, BitVec.toNat_ofNat]
  omega

lemma decodePTR_v4Name (a b c d : UInt8) :
    decodePTR (v4Name a b c d) = some (expandV4 (ipaddrIpv4Bits a.toNat b.toNat c.toNat d.toNat)) := by
  have hsegs : ∀ seg ∈ [decimal d.toNat, decimal c.toNat, decimal b.toNat, decimal a.toNat], Label seg := by
    simp [decimal_label]
  have hfind := findSub_labels (inAddrArpa.drop 1) (inAddrArpa ++ [46]) (cons_ne_nil _ _) hsegs
  rw [show findSub (46 :: 105 :: inAddrArpa.drop 1) (46 :: (inAddrArpa ++ [46])) = some 0 by decide] at hfind
  have hread : decodeV4 4 (labels [decimal d.toNat, decimal c.toNat, decimal b.toNat, decimal a.toNat]) [] =
      some [a.toNat, b.toNat, c.toNat, d.toNat] := by
    simp only [labels, flatMap_cons, flatMap_nil, append_assoc, cons_append, nil_append, decodeV4_succ]
    rfl
  unfold decodePTR v4Name
  rw [show findSub (46 :: inAddrArpa) _ = _ from hfind]
  simp only [Option.map_some, Option.some_or, Option.bind_eq_bind, Option.bind_some, take_labels (cons_ne_nil _ _),
    count_labels hsegs, hread]
  rfl

lemma hexValue_nibble (upper : ℕ → Bool) (x : BitVec 128) (j : ℕ) :
    hexValue (nibble upper x j) = some (x.toNat / 16^j % 16) := by
  have hdigit : ∀ (u : Bool) (n : Fin 16), hexValue (hexDigit u n) = some n.val := by decide
  exact hdigit _ _

lemma nibble_label (upper : ℕ → Bool) (x : BitVec 128) (j : ℕ) : Label [nibble upper x j] := by
  have hvalue := hexValue_nibble upper x j
  have hne {y : UInt8} (hy : hexValue y = none) : nibble upper x j ≠ y := fun heq => by
    rw [heq, hy] at hvalue
    cases hvalue
  exact ⟨by simpa using (hne (y := 46) (by decide)).symm, _, [], rfl, hne (by decide)⟩

variable {a b : ℕ → UInt8}

lemma flipped_pairs (h : ∀ k, (hexValue (a k)).isSome ∧ (hexValue (b k)).isSome) (l : List ℕ) :
    flipped (labels (l.flatMap fun k => [[a k], [b k]])) = some (l.flatMap fun k => [b k, a k]) := by
  induction l with
  | nil => rfl
  | cons k l ih =>
    show (if _ then (b k :: a k :: ·) <$> flipped (labels (l.flatMap fun k => [[a k], [b k]])) else none) = _
    rw [if_pos (h k), ih]
    rfl

lemma fromHex_pairs (l : List ℕ) : fromHex (l.flatMap fun k => [b k, a k]) =
    l.map fun k => .ofNat (16 * (hexValue (b k)).getD 0 + (hexValue (a k)).getD 0) := by
  induction l with
  | nil => rfl
  | cons k l ih => exact congrArg (_ :: ·) ih

/-- memory with the lowest byte first -/
lemma loadBig_reverse (v n : ℕ) :
    loadBig ((range n).map fun k => ofNat (v / 256^k)).reverse = v % 256^n := by
  rw [← loadBig_writeBig]
  congr 1
  induction n generalizing v with
  | zero => rfl
  | succ n ih =>
    rw [range_succ_eq_map, map_cons, reverse_cons, map_map, writeBig, ← ih]
    simp [comp_def, Nat.div_div_eq_div_mul, pow_succ']

lemma loadUint128_bytes (x : BitVec 128) : loadUint128 ((range 16).map fun k => ofNat (x.toNat / 256^k)) = x := by
  have hx := x.isLt
  have hupper : ((range 16).map fun k => ofNat (x.toNat / 256^k)).drop 8 =
      (range 8).map fun k => ofNat (x.toNat / 256^8 / 256^k) := by
    rw [← map_drop, show (range 16).drop 8 = (range 8).map (8 + ·) by decide, map_map]
    simp [comp_def, Nat.div_div_eq_div_mul, pow_add]
  have hlower : ((range 16).map fun k => ofNat (x.toNat / 256^k)).take 8 =
      (range 8).map fun k => ofNat (x.toNat / 256^k) := by
    rw [← map_take, show (range 16).take 8 = range 8 by decide]
  unfold loadUint128
  rw [hupper, hlower, loadBig_reverse, loadBig_reverse]
  apply BitVec.eq_of_toNat_eq
  rw [BitVec.toNat_ofNat]
  omega

lemma decodePTR_v6Name (upper : ℕ → Bool) (x : BitVec 128) : decodePTR (v6Name upper x) = some x := by
  have hsegs : ∀ seg ∈ (range 16).flatMap fun k => [[nibble upper x (2 * k)], [nibble upper x (2 * k + 1)]],
      Label seg := by
    intro seg hseg
    obtain ⟨k, -, hk⟩ := mem_flatMap.mp hseg
    rcases mem_cons.mp hk with rfl | hk
    · exact nibble_label upper x _
    · rw [mem_singleton.mp hk]
      exact nibble_label upper x _
  have hne : ((range 16).flatMap fun k => [[nibble upper x (2 * k)], [nibble upper x (2 * k + 1)]]) ≠ [] := nofun
  have hv4 := findSub_labels (inAddrArpa.drop 1) (ip6Arpa ++ [46]) hne hsegs
  rw [show findSub (46 :: 105 :: inAddrArpa.drop 1) (46 :: (ip6Arpa ++ [46])) = none by decide] at hv4
  have hv6 := findSub_labels (ip6Arpa.drop 1) (ip6Arpa ++ [46]) hne hsegs
  rw [show findSub (46 :: 105 :: ip6Arpa.drop 1) (46 :: (ip6Arpa ++ [46])) = some 0 by decide] at hv6
  have hread := flipped_pairs (a := fun k => nibble upper x (2 * k)) (b := fun k => nibble upper x (2 * k + 1))
    (fun k => by simp [hexValue_nibble]) (range 16)
  have hbytes : fromHex ((range 16).flatMap fun k => [nibble upper x (2 * k + 1), nibble upper x (2 * k)]) =
      (range 16).map fun k => .ofNat (x.toNat / 256^k) := by
    rw [fromHex_pairs]
    refine map_congr_left fun k _ => ?_
    rw [hexValue_nibble, hexValue_nibble, Option.getD_some, Option.getD_some, pow_succ, pow_mul,
      ← Nat.div_div_eq_div_mul]
    exact UInt8.toNat_inj.mp (by simp; omega)
  unfold decodePTR v6Name
  rw [show findSub (46 :: inAddrArpa) _ = _ from hv4, show findSub (46 :: ip6Arpa) _ = _ from hv6]
  simp only [Option.map_some, Option.map_none, Option.none_or, Option.bind_eq_bind, Option.bind_some, take_labels hne,
    count_labels hsegs, hread, hbytes, loadUint128_bytes]
  rfl

/-- The name of an address is read back, whatever the case of its digits, so that no two addresses have one name. -/
theorem ptr_names_decode (a b c d : UInt8) (upper : ℕ → Bool) (x : BitVec 128) :
    decodePTR (v4Name a b c d) = some (expandV4 (ipaddrIpv4Bits a.toNat b.toNat c.toNat d.toNat)) ∧
      decodePTR (v6Name upper x) = some x ∧
      (∀ a' b' c' d', v4Name a b c d = v4Name a' b' c' d' → a = a' ∧ b = b' ∧ c = c' ∧ d = d') ∧
      ∀ upper' x', v6Name upper x = v6Name upper' x' → x = x' := by
  refine ⟨decodePTR_v4Name a b c d, decodePTR_v6Name upper x, fun a' b' c' d' h => ?_, fun upper' x' h => ?_⟩
  · have hsame := congrArg decodePTR h
    rw [decodePTR_v4Name, decodePTR_v4Name] at hsame
    have hbits := congrArg truncateV6 (Option.some.inj hsame)
    rw [SockAddr.truncateV6_expandV4, SockAddr.truncateV6_expandV4] at hbits
    have hnat := congrArg BitVec.toNat hbits
    rw [ipaddrIpv4Bits_eq, ipaddrIpv4Bits_eq] at hnat
    have := b.toNat_lt
    have := c.toNat_lt
    have := d.toNat_lt
    have := b'.toNat_lt
    have := c'.toNat_lt
    have := d'.toNat_lt
    simp only [← UInt8.toNat_inj]
    omega
  · have hsame := congrArg decodePTR h
    rw [decodePTR_v6Name, decodePTR_v6Name] at hsame
    exact Option.some.inj hsame

end Belnet.Dns
