import Belnet.Util.Dict

/-!
# SRV records

`SRVData` and `SRVTuple` of `llarp/dns/srv_data.cpp`, written and read with `oxenc`, after `bencode_discard` has found
their end.
-/

namespace Belnet.Dns
open Util Decimal List

abbrev SRVTuple := Bytes × UInt16 × UInt16 × UInt16 × Bytes

namespace SRVTuple

def items (t : SRVTuple) : List (Bytes ⊕ UInt64) :=
  [.inl t.1, .inr t.2.1.toUInt64, .inr t.2.2.1.toUInt64, .inr t.2.2.2.1.toUInt64, .inl t.2.2.2.2]

def serialize (t : SRVTuple) : Bytes := 108 :: (t.items.flatMap (Sum.elim str int) ++ [101])

def serializeAll (l : List SRVTuple) : Bytes := 108 :: (l.flatMap serialize ++ [101])

lemma item_cons (a : Bytes ⊕ UInt64) : Opens (Sum.elim str int a) := by
  cases a with
  | inl x => exact str_opens x
  | inr i => exact int_opens i

lemma serialize_cons (t : SRVTuple) : Opens t.serialize := ⟨108, _, rfl, by decide⟩

variable {t : SRVTuple}

lemma skipped_serialize (h : t.serialize.length < 10^9) : Skipped t.serialize := by
  have hlen : t.1.length < 10^9 ∧ t.2.2.2.2.length < 10^9 := by
    simp only [serialize, items, flatMap_cons, flatMap_nil, Sum.elim_inl, Sum.elim_inr, str, length_append,
      length_cons] at h
    omega
  refine skipped_list item_cons t.items fun a ha => ?_
  cases a with
  | inl x =>
    have hx : x = t.1 ∨ x = t.2.2.2.2 := by simpa [items] using ha
    rcases hx with rfl | rfl
    · exact skipped_str hlen.1
    · exact skipped_str hlen.2
  | inr i => exact skipped_int i

lemma discard_serializeAll {l : List SRVTuple} (h : (serializeAll l).length < 10^9) (rest : Bytes) :
    Util.discard (serializeAll l ++ rest) = .ok (some rest) := by
  refine (skipped_list serialize_cons l fun t ht => skipped_serialize ?_).discard rest
  have hle := le_of_mem_flatMap serialize ht
  unfold serializeAll at h
  rw [length_cons, length_append] at h
  omega

end SRVTuple

structure BtLibs where
  tuple : Bytes → Option SRVTuple
  tuples : Bytes → Option (List SRVTuple)

structure BtLibs.Lawful (bt : BtLibs) : Prop where
  tuple_serialize : ∀ t, bt.tuple t.serialize = some t
  tuples_serializeAll : ∀ l, bt.tuples (SRVTuple.serializeAll l) = some l

namespace BtLibs

def takeString (b : Bytes) : Bytes × Bytes :=
  let r := (b.dropWhile isDigit).drop 1
  (r.take (atoi (b.takeWhile isDigit)).toNat, r.drop (atoi (b.takeWhile isDigit)).toNat)

def takeInt (b : Bytes) : UInt16 × Bytes :=
  match readInteger b with
  | .ok (some (i, r)) => (i.toUInt16, r)
  | _ => (0, [])

def takeTuple (b : Bytes) : SRVTuple × Bytes :=
  let proto := takeString (b.drop 1)
  let priority := takeInt proto.2
  let weight := takeInt priority.2
  let port := takeInt weight.2
  let target := takeString port.2
  ((proto.1, priority.1, weight.1, port.1, target.1), target.2.drop 1)

def takeTuples : ℕ → Bytes → List SRVTuple
  | 0, _ => []
  | n + 1, b => if b.head? = some 101 then [] else (takeTuple b).1 :: takeTuples n (takeTuple b).2

lemma takeString_str (x rest : Bytes) : takeString (str x ++ rest) = (x, rest) := by
  have hassoc : str x ++ rest = decimal x.length ++ 58 :: (x ++ rest) := by simp [str]
  have hall : ∀ y ∈ decimal x.length, isDigit y = true := fun y hy => mem_decimal hy
  have htake : (str x ++ rest).takeWhile isDigit = decimal x.length := by
    rw [hassoc, takeWhile_append_of_pos hall, takeWhile_cons_of_neg (by decide), append_nil]
  have hdrop : (str x ++ rest).dropWhile isDigit = 58 :: (x ++ rest) := by
    rw [hassoc, dropWhile_append_of_pos hall, dropWhile_cons_of_neg (by decide)]
  unfold takeString
  rw [htake, hdrop, atoi_decimal]
  simp

lemma takeInt_int (i : UInt16) (rest : Bytes) : takeInt (int i.toUInt64 ++ rest) = (i, rest) := by
  unfold takeInt
  rw [readInteger_int]
  simp

lemma takeTuple_serialize (t : SRVTuple) (rest : Bytes) : takeTuple (t.serialize ++ rest) = (t, rest) := by
  obtain ⟨proto, priority, weight, port, target⟩ := t
  have hassoc : (SRVTuple.serialize (proto, priority, weight, port, target) ++ rest).drop 1
      = str proto ++ (int priority.toUInt64 ++ (int weight.toUInt64 ++ (int port.toUInt64 ++
        (str target ++ 101 :: rest)))) := by simp [SRVTuple.serialize, SRVTuple.items]
  unfold takeTuple
  simp only [hassoc, takeString_str, takeInt_int, drop_one, tail_cons]

lemma takeTuples_flatMap (l : List SRVTuple) (rest : Bytes) : ∀ n, l.length < n →
    takeTuples n (l.flatMap SRVTuple.serialize ++ 101 :: rest) = l := by
  induction l with
  | nil =>
    intro n hn
    obtain ⟨n, rfl⟩ : ∃ m, n = m + 1 := ⟨n - 1, by simp at hn; omega⟩
    rfl
  | cons t l ih =>
    intro n hn
    obtain ⟨n, rfl⟩ : ∃ m, n = m + 1 := ⟨n - 1, by simp at hn; omega⟩
    have hassoc : (t :: l).flatMap SRVTuple.serialize ++ 101 :: rest
        = t.serialize ++ (l.flatMap SRVTuple.serialize ++ 101 :: rest) := by simp
    have hhead : (t.serialize ++ (l.flatMap SRVTuple.serialize ++ 101 :: rest)).head? = some 108 := rfl
    rw [takeTuples, hassoc, hhead, if_neg (by decide), takeTuple_serialize, ih n (by simp at hn; omega)]

def taking : BtLibs where
  tuple b := some (takeTuple b).1
  tuples b := some (takeTuples b.length (b.drop 1))

lemma taking_lawful : taking.Lawful where
  tuple_serialize t := by
    show some (takeTuple t.serialize).1 = some t
    have h := takeTuple_serialize t []
    rw [append_nil] at h
    rw [h]
  tuples_serializeAll l := by
    have hlen := length_le_flatMap SRVTuple.serialize_cons l
    show some (takeTuples (SRVTuple.serializeAll l).length (l.flatMap SRVTuple.serialize ++ 101 :: [])) = some l
    rw [takeTuples_flatMap]
    rw [SRVTuple.serializeAll, length_cons, length_append]
    omega

end BtLibs

structure SRVData where
  serviceProto : Bytes
  priority : UInt16
  weight : UInt16
  port : UInt16
  target : Bytes
deriving DecidableEq

def findSub (pat : Bytes) : Bytes → Option ℕ
  | [] => if pat = [] then some 0 else none
  | x :: s => if pat.isPrefixOf (x :: s) then some 0 else (findSub pat s).map (· + 1)

namespace SRVData

abbrev targetMaxSize : ℕ := 200

variable (s : SRVData)

def isValid : Bool :=
  if s.target = [46] ∨ s.target.length = 0 then true
  else if targetMaxSize < s.target.length then false
  -- does target end in .bdx?
  else if (findSub [46, 98, 100, 120] s.target).any (· + 5 = s.target.length) then true
  -- does target end in .mnode?
  else (findSub [46, 109, 110, 111, 100, 101] s.target).any (· + 6 = s.target.length)

def toTuple : SRVTuple := (s.serviceProto, s.priority, s.weight, s.port, s.target)

def fromTuple (t : SRVTuple) : SRVData := ⟨t.1, t.2.1, t.2.2.1, t.2.2.2.1, t.2.2.2.2⟩

lemma fromTuple_toTuple : fromTuple s.toTuple = s := rfl

def encoding : Bytes := s.toTuple.serialize

def bencode : Writer := write s.encoding

def bdecode (bt : BtLibs) (b : Bytes) : Except MemFault (Option (SRVData × Bytes)) := do
  match ← discard b with
  | none => return none
  | some rest =>
    match bt.tuple (b.take (b.length - rest.length)) with
    | none => return none
    | some t => return if (fromTuple t).isValid then some (fromTuple t, rest) else none

lemma bdecode_encoding {bt : BtLibs} (hbt : bt.Lawful) {s : SRVData} (h : s.encoding.length < 10^9) (rest : Bytes) :
    bdecode bt (s.encoding ++ rest) = .ok (if s.isValid then some (s, rest) else none) := by
  have htaken : (s.encoding ++ rest).take ((s.encoding ++ rest).length - rest.length) = s.encoding := by
    rw [length_append, Nat.add_sub_cancel, take_left]
  unfold bdecode
  rw [show Util.discard (s.encoding ++ rest) = .ok (some rest) from
    (SRVTuple.skipped_serialize h).discard rest]
  dsimp only [bind, Except.bind]
  rw [htaken, show bt.tuple s.encoding = some s.toTuple from hbt.tuple_serialize s.toTuple]
  dsimp only
  rw [fromTuple_toTuple]
  rfl

abbrev bdx : Bytes := [46, 98, 100, 120]

abbrev mnode : Bytes := [46, 109, 110, 111, 100, 101]

def Documented : Prop :=
  s.target = [] ∨ s.target = [46] ∨ s.target.length ≤ targetMaxSize ∧ (bdx <:+ s.target ∨ mnode <:+ s.target)

variable {i : ℕ}

lemma findSub_eq_some {pat s : Bytes} (h : findSub pat s = some i) : ∃ a c, s = a ++ (pat ++ c) ∧ a.length = i := by
  induction s generalizing i with
  | nil =>
    unfold findSub at h
    split at h
    · cases h
      exact ⟨[], [], by simp_all, rfl⟩
    · cases h
  | cons x s ih =>
    unfold findSub at h
    split at h
    · rename_i hp
      obtain ⟨c, hc⟩ := isPrefixOf_iff_prefix.mp hp
      cases h
      exact ⟨[], c, hc.symm, rfl⟩
    · obtain ⟨j, hj, rfl⟩ := Option.map_eq_some_iff.mp h
      obtain ⟨a, c, rfl, rfl⟩ := ih hj
      exact ⟨x :: a, c, rfl, rfl⟩

variable {t : Bytes}

/-- where the test for `.bdx` succeeds, one byte follows it -/
lemma bdx_not_last (h : findSub bdx t = some i) (hlen : i + 5 = t.length) : ¬ bdx <:+ t ∧ ¬ mnode <:+ t := by
  obtain ⟨a, c, rfl, rfl⟩ := findSub_eq_some h
  obtain ⟨x, rfl⟩ := length_eq_one_iff.mp (show c.length = 1 by simp at hlen; omega)
  have hx : bdx ++ [x] <:+ a ++ (bdx ++ [x]) := suffix_append a _
  refine ⟨fun hb => ?_, fun hm => ?_⟩
  · have hsuffix := suffix_of_suffix_length_le hb hx (by simp)
    simp [suffix_iff_eq_drop] at hsuffix
  · have hsuffix := suffix_of_suffix_length_le hx hm (by simp)
    simp [suffix_iff_eq_drop] at hsuffix

lemma mnode_last (h : findSub mnode t = some i) (hlen : i + 6 = t.length) : mnode <:+ t := by
  obtain ⟨a, c, rfl, rfl⟩ := findSub_eq_some h
  obtain rfl := length_eq_zero_iff.mp (show c.length = 0 by simpa using hlen)
  exact suffix_append a _

/-- A target ending in `.bdx` is refused, with one more byte it is accepted; one ending in `.mnode` is accepted if that
occurs first there. -/
theorem isValid_iff_documented : (s.isValid = true ↔ s.Documented) ↔
    s.target = [] ∨ s.target = [46] ∨ targetMaxSize < s.target.length ∨
      ((∀ i ∈ findSub bdx s.target, i + 5 ≠ s.target.length) ∧ ¬ bdx <:+ s.target ∧
        (mnode <:+ s.target → ∃ i ∈ findSub mnode s.target, i + 6 = s.target.length)) := by
  unfold isValid Documented
  by_cases hempty : s.target = [] ∨ s.target = [46]
  · rcases hempty with h | h <;> simp [h]
  obtain ⟨h0, h1⟩ := not_or.mp hempty
  by_cases hsize : targetMaxSize < s.target.length
  · simp [h0, h1, hsize]
  have hbdx : (findSub bdx s.target).any (· + 5 = s.target.length) = true →
      ¬ bdx <:+ s.target ∧ ¬ mnode <:+ s.target := by
    intro h
    obtain ⟨i, hi, hlen⟩ := (Option.any_eq_true _ _).mp h
    exact bdx_not_last hi (of_decide_eq_true hlen)
  have hmnode : (∃ i ∈ findSub mnode s.target, i + 6 = s.target.length) → mnode <:+ s.target :=
    fun ⟨i, hi, hlen⟩ => mnode_last hi hlen
  have hboth : bdx <:+ s.target → ¬ mnode <:+ s.target := fun hb hm =>
    absurd (suffix_of_suffix_length_le hb hm (by simp)) (by decide)
  have hnone : (∀ i ∈ findSub bdx s.target, i + 5 ≠ s.target.length) ↔
      ¬ (findSub bdx s.target).any (· + 5 = s.target.length) = true := by simp [Option.any_eq_true]
  have hsome : (∃ i ∈ findSub mnode s.target, i + 6 = s.target.length) ↔
      (findSub mnode s.target).any (· + 6 = s.target.length) = true := by simp [Option.any_eq_true]
  rw [hsome] at hmnode
  rw [if_neg (not_or.mpr ⟨h1, mt length_eq_zero_iff.mp h0⟩), if_neg hsize, hnone, hsome]
  simp only [h0, h1, hsize, not_lt.mp hsize, false_or, true_and]
  split <;> tauto

/-- the target `a.bdx` -/
theorem bdx_refused : ¬ ((⟨[], 0, 0, 0, [97, 46, 98, 100, 120]⟩ : SRVData).isValid = true ↔
    Documented ⟨[], 0, 0, 0, [97, 46, 98, 100, 120]⟩) :=
  fun h => absurd (h.mpr (.inr (.inr ⟨by decide, .inl (by decide)⟩))) (by decide)

end SRVData

end Belnet.Dns
