import Belnet.Lib.Ordered
import Belnet.Util.Dict

/-!
# Ranges of addresses

`IPRange` of `llarp/net/ip_range.hpp`: its text `address/bits` has only the number of its netmask's bits, for IPv4 of
the last 32.
-/

namespace Belnet.Net
open Util Decimal List BitVec

/-- `inet_ntop` and `inet_pton` for addresses in host order, and `oxenc::bt_deserialize` for a string -/
structure Libs where
  ntop4 : BitVec 32 → Bytes
  pton4 : Bytes → Option (BitVec 32)
  ntop6 : BitVec 128 → Bytes
  pton6 : Bytes → Option (BitVec 128)
  btString : Bytes → Option Bytes

structure Libs.Lawful (lib : Libs) : Prop where
  pton4_ntop4 : ∀ a, lib.pton4 (lib.ntop4 a) = some a
  pton6_ntop6 : ∀ a, lib.pton6 (lib.ntop6 a) = some a
  text4 : ∀ a, (lib.ntop4 a).length < 16 ∧ 0 ∉ lib.ntop4 a ∧ 47 ∉ lib.ntop4 a ∧ 58 ∉ lib.ntop4 a
  text6 : ∀ a, (lib.ntop6 a).length < 46 ∧ 0 ∉ lib.ntop6 a ∧ 47 ∉ lib.ntop6 a ∧ 58 ∈ lib.ntop6 a
  btString_str : ∀ x, lib.btString (str x) = some x

def Libs.decimals : Libs where
  ntop4 a := decimal a.toNat
  pton4 t := some (BitVec.ofInt 32 (atoi t))
  ntop6 a := 58 :: decimal a.toNat
  pton6 t := some (BitVec.ofInt 128 (atoi (t.drop 1)))
  btString b := some ((b.dropWhile isDigit).drop 1)

lemma Libs.decimals_lawful : Libs.decimals.Lawful where
  pton4_ntop4 a := by
    show some (BitVec.ofInt 32 (atoi (decimal a.toNat))) = some a
    rw [atoi_decimal, BitVec.ofInt_natCast, BitVec.ofNat_toNat, BitVec.setWidth_eq]
  pton6_ntop6 a := by
    show some (BitVec.ofInt 128 (atoi (decimal a.toNat))) = some a
    rw [atoi_decimal, BitVec.ofInt_natCast, BitVec.ofNat_toNat, BitVec.setWidth_eq]
  text4 a := by
    have hlen : (decimal a.toNat).length ≤ 10 := decimal_length_le (by norm_num) (by have := a.isLt; omega)
    exact ⟨Nat.lt_of_le_of_lt hlen (by norm_num), notMem_decimal _ (by decide), notMem_decimal _ (by decide),
      notMem_decimal _ (by decide)⟩
  text6 a := by
    have hlen : (decimal a.toNat).length ≤ 39 := decimal_length_le (by norm_num) (by have := a.isLt; omega)
    have hnot : ∀ x : UInt8, x ≠ 58 → isDigit x = false → x ∉ 58 :: decimal a.toNat := by
      intro x hx hdigit hmem
      rcases mem_cons.mp hmem with h | h
      · exact hx h
      · exact notMem_decimal _ hdigit h
    exact ⟨Nat.lt_of_le_of_lt (Nat.succ_le_succ hlen) (by norm_num), hnot 0 (by decide) (by decide),
      hnot 47 (by decide) (by decide), mem_cons_self⟩
  btString_str x := by
    have hassoc : str x = decimal x.length ++ 58 :: x := by simp [str]
    have hdrop : (str x).dropWhile isDigit = 58 :: x := by
      rw [hassoc, dropWhile_append_of_pos fun y hy => mem_decimal hy]
      exact dropWhile_cons_of_neg (by decide)
    show some (((str x).dropWhile isDigit).drop 1) = some x
    rw [hdrop]
    rfl

variable (b : Bytes)

def cStr : Bytes := b.takeWhile (· ≠ 0)

lemma cStr_eq {b : Bytes} (h : 0 ∉ b) : cStr b = b := by
  apply takeWhile_eq_self_iff.mpr
  intro x hx
  exact decide_eq_true fun h0 => h (h0 ▸ hx)

def startsNumber : Bool :=
  match b.dropWhile isSpace with
  | 45 :: r => r.head?.any isDigit
  | 43 :: r => r.head?.any isDigit
  | r => r.head?.any isDigit

def stoi : Option ℤ :=
  if !startsNumber b then none
  else if atoi b < -2^31 ∨ 2^31 ≤ atoi b then none
  else some (atoi b)

def atoiInt : ℤ := (max (-2^63) (min (2^63 - 1) (atoi b))).bmod (2^32)

variable {n : ℕ}

lemma stoi_decimal (hn : n < 2^31) : stoi (decimal n) = some (n : ℤ) := by
  obtain ⟨x, r, hdrop, hx, h45, h43⟩ := dropWhile_decimal n
  have hdigit : isDigit x = true := mem_decimal (n := n) (by rw [hx]; exact mem_cons_self)
  have hstarts : startsNumber (decimal n) = true := by
    unfold startsNumber
    rw [hdrop]
    split
    · rename_i r' heq
      exact absurd (cons.inj heq).1 h45
    · rename_i r' heq
      exact absurd (cons.inj heq).1 h43
    · simpa using hdigit
  unfold stoi
  rw [hstarts, atoi_decimal, if_neg (by simp), if_neg (by omega)]

lemma atoiInt_decimal (hn : n < 2^31) : atoiInt (decimal n) = n := by
  unfold atoiInt
  rw [atoi_decimal, min_eq_right (by omega), max_eq_right (by omega)]
  apply Int.bmod_eq_of_le
  · omega
  · omega

def netmaskFrom : ℕ → ℕ → BitVec 128
  | 0, _ => 0
  | k + 1, i => (1 <<< i) ||| netmaskFrom k (i + 1)

@[irreducible]
def netmaskIpv6Bits (numset : ℕ) : BitVec 128 := netmaskFrom numset (128 - numset)

def countBits {w : ℕ} (x : BitVec w) : ℕ := (range w).countP fun i => x.getLsbD i

lemma countBits_le {w : ℕ} (x : BitVec w) : countBits x ≤ w := by
  unfold countBits
  exact le_of_le_of_eq countP_le_length length_range

def truncateV6 (x : BitVec 128) : BitVec 32 := x.setWidth 32

def expandV4 (x : BitVec 32) : BitVec 128 := 0xffff00000000 ||| x.setWidth 128

lemma countBits_netmask : ∀ n ≤ 128, countBits (netmaskIpv6Bits n) = n := by decide +kernel

lemma countBits_truncate : ∀ n ≤ 32, countBits (truncateV6 (netmaskIpv6Bits (96 + n))) = n := by decide +kernel

lemma netmask96_bits : ∀ i < 128, (netmaskIpv6Bits 96).getLsbD i = decide (32 ≤ i) := by decide +kernel

lemma netmask_eq_shift : ∀ n ≤ 128, netmaskIpv6Bits n = allOnes 128 <<< (128 - n) := by decide +kernel

lemma mapped_bits : ∀ i < 32, (0xffff00000000 : BitVec 128).getLsbD i = false := by decide +kernel

structure IPRange where
  addr : BitVec 128 := 0
  netmaskBits : BitVec 128 := 0
deriving DecidableEq

namespace IPRange

def contains (r : IPRange) (ip : BitVec 128) : Bool := r.addr &&& r.netmaskBits = ip &&& r.netmaskBits

def v4MappedRange : IPRange := ⟨0xffff00000000, netmaskIpv6Bits 96⟩

def isV4 (r : IPRange) : Bool := v4MappedRange.contains r.addr

def hostmaskBits (r : IPRange) : ℕ := if r.isV4 then countBits (truncateV6 r.netmaskBits) else countBits r.netmaskBits

variable (lib : Libs)

def baseAddressString (r : IPRange) : Bytes :=
  if r.isV4 then lib.ntop4 (truncateV6 r.addr) else lib.ntop6 r.addr

def toString (r : IPRange) : Bytes := r.baseAddressString lib ++ 47 :: decimal r.hostmaskBits

def fromString (text : Bytes) : Option IPRange :=
  let host := text.takeWhile (· ≠ 47)
  let bitsstr := (text.dropWhile (· ≠ 47)).tail
  if 58 ∉ text then
    match lib.pton4 (cStr host) with
    | none => none
    | some ip =>
      if bitsstr = [] then some ⟨expandV4 ip, netmaskIpv6Bits 128⟩
      else match stoi bitsstr with
        | none => none
        | some bits => if bits < 0 ∨ 32 < bits then none else some ⟨expandV4 ip, netmaskIpv6Bits (96 + bits.toNat)⟩
  else
    match lib.pton6 (cStr host) with
    | none => none
    | some ip =>
      if bitsstr = [] then some ⟨ip, netmaskIpv6Bits 128⟩
      else
        let bits := atoiInt bitsstr
        if bits < 0 ∨ 128 < bits then none else some ⟨ip, netmaskIpv6Bits bits.toNat⟩

def key (r : IPRange) : ℕ := (r.addr &&& r.netmaskBits).toNat * 2^128 + r.netmaskBits.toNat

def bdecode (b : Bytes) : Except MemFault (Option (IPRange × Bytes)) := do
  match ← discard b with
  | none => return none
  | some rest => return ((lib.btString (b.take (b.length - rest.length))).bind (fromString lib)).map fun r => (r, rest)

variable (r : IPRange)

def encoding : Bytes := str (r.toString lib)

def bencode : Writer := write (r.encoding lib)

def received : IPRange :=
  ⟨r.addr, netmaskIpv6Bits (if r.isV4 then 96 + countBits (truncateV6 r.netmaskBits) else countBits r.netmaskBits)⟩

def Plain : Prop := ∃ n ≤ 128, r.netmaskBits = netmaskIpv6Bits n ∧ (r.isV4 = true → 96 ≤ n)

lemma received_eq_iff : r.received = r ↔ r.Plain := by
  constructor
  · intro h
    have hmask := congrArg netmaskBits h
    refine ⟨_, ?_, hmask.symm, ?_⟩
    · split
      · have hle := countBits_le (truncateV6 r.netmaskBits)
        omega
      · exact countBits_le r.netmaskBits
    · intro hv4
      rw [if_pos hv4]
      omega
  · rintro ⟨n, hn, hmask, hv4⟩
    unfold received
    split
    · rename_i h4
      obtain ⟨k, rfl⟩ : ∃ k, n = 96 + k := ⟨n - 96, by have := hv4 h4; omega⟩
      rw [hmask, countBits_truncate k (by omega), ← hmask]
    · rw [hmask, countBits_netmask n hn, ← hmask]

lemma received_plain : r.received.Plain := by
  refine ⟨_, ?_, rfl, ?_⟩
  · split
    · have hle := countBits_le (truncateV6 r.netmaskBits)
      omega
    · exact countBits_le r.netmaskBits
  · intro hv4
    rw [if_pos (show r.isV4 = true from hv4)]
    omega

variable {r : IPRange}

lemma expandV4_truncateV6 (h : r.isV4 = true) : expandV4 (truncateV6 r.addr) = r.addr := by
  have hmasked : (0xffff00000000 : BitVec 128) &&& netmaskIpv6Bits 96 = r.addr &&& netmaskIpv6Bits 96 :=
    of_decide_eq_true h
  apply eq_of_getLsbD_eq
  intro i hi
  unfold expandV4 truncateV6
  rw [getLsbD_or, getLsbD_setWidth, getLsbD_setWidth]
  by_cases hlow : i < 32
  · rw [mapped_bits i hlow]
    simp [hi, hlow]
  have hbit := congrArg (fun x => x.getLsbD i) hmasked
  simp only [getLsbD_and, netmask96_bits i hi] at hbit
  have h32 : 32 ≤ i := by omega
  simp only [h32, decide_true, Bool.and_true] at hbit
  simpa [hlow] using hbit

lemma toString_split {host : Bytes} (h : 47 ∉ host) (n : ℕ) : (host ++ 47 :: decimal n).takeWhile (· ≠ 47) = host ∧
      ((host ++ 47 :: decimal n).dropWhile (· ≠ 47)).tail = decimal n := by
  have hall : ∀ x ∈ host, decide (x ≠ 47) = true := fun x hx => decide_eq_true fun h47 => h (h47 ▸ hx)
  constructor
  · rw [takeWhile_append_of_pos hall]
    simp
  · rw [dropWhile_append_of_pos hall]
    simp

variable {lib : Libs}

lemma fromString_toString (hlib : lib.Lawful) (r : IPRange) : fromString lib (r.toString lib) = some r.received := by
  have hcolon : ∀ n, (58 : UInt8) ∉ decimal n := fun n => notMem_decimal n (by decide)
  unfold fromString toString baseAddressString hostmaskBits received
  by_cases h4 : r.isV4 = true
  · obtain ⟨-, hzero, hslash, hno⟩ := hlib.text4 (truncateV6 r.addr)
    have hle := countBits_le (truncateV6 r.netmaskBits)
    rw [if_pos h4, if_pos h4, if_pos h4]
    obtain ⟨htake, hdrop⟩ := toString_split hslash (countBits (truncateV6 r.netmaskBits))
    have hmem : (58 : UInt8) ∉ lib.ntop4 (truncateV6 r.addr) ++ 47 :: decimal (countBits (truncateV6 r.netmaskBits)) := by
      simp [hno, hcolon]
    rw [if_pos hmem, htake, hdrop, cStr_eq hzero, hlib.pton4_ntop4]
    dsimp only
    rw [if_neg (decimal_ne_nil _), stoi_decimal (by omega)]
    dsimp only
    rw [if_neg (by omega), expandV4_truncateV6 h4, Int.toNat_natCast]
  · obtain ⟨-, hzero, hslash, hin⟩ := hlib.text6 r.addr
    have hle := countBits_le r.netmaskBits
    rw [if_neg h4, if_neg h4, if_neg h4]
    obtain ⟨htake, hdrop⟩ := toString_split hslash (countBits r.netmaskBits)
    have hmem : ¬ (58 : UInt8) ∉ lib.ntop6 r.addr ++ 47 :: decimal (countBits r.netmaskBits) := by simp [hin]
    rw [if_neg hmem, htake, hdrop, cStr_eq hzero, hlib.pton6_ntop6]
    dsimp only
    rw [if_neg (decimal_ne_nil _), atoiInt_decimal (by omega), if_neg (by omega), Int.toNat_natCast]

lemma toString_length (hlib : lib.Lawful) (r : IPRange) : (r.toString lib).length < 10^9 := by
  have hbits : r.hostmaskBits ≤ 128 := by
    unfold hostmaskBits
    split
    · have := countBits_le (truncateV6 r.netmaskBits)
      omega
    · exact countBits_le r.netmaskBits
  have hdec : (decimal r.hostmaskBits).length ≤ 3 := decimal_length_le (by norm_num) (by omega)
  have hbase : (r.baseAddressString lib).length < 46 := by
    unfold baseAddressString
    split
    · have := (hlib.text4 (truncateV6 r.addr)).1
      omega
    · exact (hlib.text6 r.addr).1
  unfold toString
  rw [length_append, length_cons]
  omega

lemma bdecode_encoding (hlib : lib.Lawful) (r : IPRange) (rest : Bytes) :
    bdecode lib (r.encoding lib ++ rest) = .ok (some (r.received, rest)) := by
  have hlen := toString_length hlib r
  have htake : (r.encoding lib ++ rest).take ((r.encoding lib ++ rest).length - rest.length) = str (r.toString lib) := by
    rw [length_append, Nat.add_sub_cancel, take_left]
    rfl
  have hdiscard : Util.discard (r.encoding lib ++ rest) = .ok (some rest) := discardFrom_str hlen _ rest
  unfold bdecode
  rw [hdiscard]
  dsimp only [bind, Except.bind]
  rw [htake, hlib.btString_str, Option.bind_some, fromString_toString hlib]
  rfl

def highestAddr (r : IPRange) : BitVec 128 :=
  (r.addr &&& r.netmaskBits) + ((1 : BitVec 128) <<< (128 - countBits r.netmaskBits)) - 1

lemma toNat_netmask (x : BitVec 128) (hn : n ≤ 128) :
    (x &&& netmaskIpv6Bits n).toNat = x.toNat / 2^(128 - n) * 2^(128 - n) := by
  have hshift : x &&& netmaskIpv6Bits n = (x >>> (128 - n)) <<< (128 - n) := by
    rw [netmask_eq_shift n hn]
    apply eq_of_getLsbD_eq
    intro i _
    rw [getLsbD_and, getLsbD_shiftLeft, getLsbD_shiftLeft, getLsbD_ushiftRight]
    by_cases hlow : i < 128 - n
    · simp [hlow]
    · rw [show 128 - n + (i - (128 - n)) = i by omega, getLsbD_allOnes, decide_eq_true (by omega : i - (128 - n) < 128),
        Bool.and_true, Bool.and_comm]
  have hle : x.toNat / 2^(128 - n) * 2^(128 - n) ≤ x.toNat := Nat.div_mul_le_self _ _
  rw [hshift, toNat_shiftLeft, toNat_ushiftRight, Nat.shiftLeft_eq, Nat.shiftRight_eq_div_pow,
    Nat.mod_eq_of_lt (Nat.lt_of_le_of_lt hle x.isLt)]

section
variable (hn : n ≤ 128) (hmask : r.netmaskBits = netmaskIpv6Bits n)
include hn hmask

lemma toNat_highestAddr : r.highestAddr.toNat = r.addr.toNat / 2^(128 - n) * 2^(128 - n) + (2^(128 - n) - 1) := by
  have hbase := toNat_netmask r.addr hn
  -- the blocks of `2^(128 - n)` addresses fill the whole space
  have hroom : r.addr.toNat / 2^(128 - n) * 2^(128 - n) + 2^(128 - n) ≤ 2^128 := by
    have hlt : r.addr.toNat / 2^(128 - n) < 2^n := by
      rw [Nat.div_lt_iff_lt_mul (Nat.two_pow_pos _), ← pow_add, show n + (128 - n) = 128 by omega]
      exact r.addr.isLt
    calc r.addr.toNat / 2^(128 - n) * 2^(128 - n) + 2^(128 - n)
        = (r.addr.toNat / 2^(128 - n) + 1) * 2^(128 - n) := by ring
      _ ≤ 2^n * 2^(128 - n) := Nat.mul_le_mul_right _ hlt
      _ = 2^128 := by rw [← pow_add, show n + (128 - n) = 128 by omega]
  have hpos : 0 < 2^(128 - n) := Nat.two_pow_pos _
  unfold highestAddr
  rw [hmask, countBits_netmask n hn, toNat_sub, toNat_add, hbase, toNat_shiftLeft, Nat.shiftLeft_eq]
  rw [show (1 : BitVec 128).toNat = 1 from rfl, one_mul, Nat.add_mod_mod]
  generalize 2^(128 - n) = k at *
  generalize r.addr.toNat / k * k = base at *
  omega

lemma le_highestAddr : r.addr ≤ r.highestAddr := by
  have hpos : 0 < 2^(128 - n) := Nat.two_pow_pos _
  have hblock : r.addr.toNat < r.addr.toNat / 2^(128 - n) * 2^(128 - n) + 2^(128 - n) := Nat.lt_div_mul_add hpos
  apply le_def.mpr
  rw [toNat_highestAddr hn hmask]
  omega

lemma contains_of_between
    {ip : BitVec 128} (hlow : r.addr ≤ ip) (hhigh : ip ≤ r.highestAddr) : r.contains ip = true := by
  have hhigh' := le_def.mp hhigh
  rw [toNat_highestAddr hn hmask] at hhigh'
  have hlow' := le_def.mp hlow
  have hpos : 0 < 2^(128 - n) := Nat.two_pow_pos _
  have hdown : r.addr.toNat / 2^(128 - n) * 2^(128 - n) ≤ r.addr.toNat := Nat.div_mul_le_self _ _
  have hblock : ip.toNat / 2^(128 - n) = r.addr.toNat / 2^(128 - n) := by
    apply Nat.div_eq_of_lt_le
    · omega
    · rw [Nat.add_mul, one_mul]
      omega
  apply decide_eq_true
  apply eq_of_toNat_eq
  rw [hmask, toNat_netmask _ hn, toNat_netmask _ hn, hblock]

end

end IPRange

end Belnet.Net
