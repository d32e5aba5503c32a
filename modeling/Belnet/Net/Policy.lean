import Belnet.Net.Ranges

/-!
# Traffic policies

`ProtocolInfo` and `TrafficPolicy` of `llarp/net/traffic_policy.cpp`.  Sets are written as lists and read with
duplicates denied.
-/

namespace Belnet.Net
open Util Decimal Ordered List IPRange SortedSet UInt8 Nat

def readSet {α : Type} {key : α → ℕ} (item : Bytes → Except MemFault (Option (α × Bytes))) (s : SortedSet key)
    (b : Bytes) : Except MemFault (Option (SortedSet key × Bytes)) :=
  readList (fun s b => do
    match ← item b with
    | none => return none
    -- deny duplicates
    | some (x, b) => return (s.emplace x).map fun s => (s, b)) s b

lemma readSet_encoding {α : Type} {key : α → ℕ} {item : Bytes → Decoded α} {x : α → Bytes}
    {f : α → α} (hne : ∀ a, Opens (x a)) (l : List α)
    (hitem : ∀ a ∈ l, ∀ rest, item (x a ++ rest) = .ok (some (f a, rest))) (s : SortedSet key) (rest : Bytes) :
    readSet item s (108 :: (l.flatMap x ++ [101]) ++ rest) = .ok ((s.emplaceAll (l.map f)).map fun s => (s, rest)) := by
  have hfold : l.foldlM (fun (s : SortedSet key) a => s.emplace (f a)) s = s.emplaceAll (l.map f) := by
    unfold emplaceAll
    rw [foldlM_map]
  rw [← hfold]
  apply readList_foldlM hne l
  intro a ha s rest
  rw [hitem a ha]
  rfl

def swap16 (x : UInt16) : UInt16 := .ofNat (x.toNat % 256 * 256 + x.toNat / 256)

lemma swap16_swap16 (x : UInt16) : swap16 (swap16 x) = x := by
  have hx : x.toNat < 65536 := x.toNat_lt
  have hlow : (x.toNat % 256 * 256 + x.toNat / 256) / 256 = x.toNat % 256 := by omega
  have hhigh : (x.toNat % 256 * 256 + x.toNat / 256) % 256 = x.toNat / 256 := by omega
  apply UInt16.toNat_inj.mp
  unfold swap16
  rw [UInt16.toNat_ofNat', UInt16.toNat_ofNat', mod_eq_of_lt (a := x.toNat % 256 * 256 + x.toNat / 256) (by omega),
    hlow, hhigh, div_add_mod' x.toNat 256]
  exact mod_eq_of_lt hx

structure ProtocolInfo where
  protocol : UInt8
  port : Option UInt16
deriving DecidableEq

namespace ProtocolInfo

def key (p : ProtocolInfo) : ℕ := p.protocol.toNat * 2^17 + (p.port.elim 0 fun n => n.toNat + 1)

def bencode (p : ProtocolInfo) : Writer :=
  ((startList.seq (writeUint64 p.protocol.toUInt64)).seq (match p.port with
      | none => skip
      | some n => writeUint64 (swap16 n).toUInt64)).seq
    endDict

def vals (p : ProtocolInfo) : List UInt64 := p.protocol.toUInt64 :: (p.port.map fun n => (swap16 n).toUInt64).toList

def encoding (p : ProtocolInfo) : Bytes := 108 :: (p.vals.flatMap int ++ [101])

def ofVals : List UInt64 → Option ProtocolInfo
  | [] => none
  | [v] => if 255 < v then none else some ⟨v.toUInt8, none⟩
  | v :: w :: _ =>
    if 255 < v then none else if 65536 < w then none else some ⟨v.toUInt8, some (swap16 w.toUInt16)⟩

def bdecode (b : Bytes) : Except MemFault (Option (ProtocolInfo × Bytes)) := do
  match ← readList (fun l b => do return (← readInteger b).map fun r => (l ++ [r.1], r.2)) [] b with
  | none => return none
  | some (vals, b) => return (ofVals vals).map fun p => (p, b)

lemma prints_bencode (p : ProtocolInfo) : Prints p.bencode p.encoding := by
  have head := (prints_write [108]).seq (prints_writeUint64 p.protocol.toUInt64)
  obtain ⟨protocol, port⟩ := p
  cases port with
  | none => exact (head.seq prints_skip).seq (prints_write [101])
  | some n =>
    have hvals : encoding ⟨protocol, some n⟩
        = [108] ++ int protocol.toUInt64 ++ int (swap16 n).toUInt64 ++ [101] := by simp [encoding, vals]
    rw [hvals]
    exact (head.seq (prints_writeUint64 (swap16 n).toUInt64)).seq (prints_write [101])

lemma readInts (l : List UInt64) (rest : Bytes) :
    readList (fun l b => do return (← readInteger b).map fun r => (l ++ [r.1], r.2)) []
      (108 :: (l.flatMap int ++ [101]) ++ rest) = .ok (some (l, rest)) := by
  rw [readList_collect (f := id) int_opens l (fun i _ => readInteger_int i), map_id]
  rfl

lemma ofVals_vals (p : ProtocolInfo) : ofVals p.vals = some p := by
  obtain ⟨protocol, port⟩ := p
  have hp := protocol.toNat_lt
  have hproto : ¬ (255 : UInt64) < protocol.toUInt64 := by
    rw [UInt64.lt_iff_toNat_lt, toNat_toUInt64]
    show ¬ 255 < protocol.toNat
    omega
  cases port with
  | none =>
    show (if (255 : UInt64) < protocol.toUInt64 then none else _) = _
    rw [if_neg hproto, toUInt8_toUInt64]
  | some n =>
    have hn := (swap16 n).toNat_lt
    have hport : ¬ (65536 : UInt64) < (swap16 n).toUInt64 := by
      rw [UInt64.lt_iff_toNat_lt, UInt16.toNat_toUInt64]
      show ¬ 65536 < (swap16 n).toNat
      omega
    show (if (255 : UInt64) < protocol.toUInt64 then none
      else if (65536 : UInt64) < (swap16 n).toUInt64 then none else _) = _
    rw [if_neg hproto, if_neg hport, toUInt8_toUInt64, UInt16.toUInt16_toUInt64, swap16_swap16]

lemma bdecode_encoding (p : ProtocolInfo) (rest : Bytes) : bdecode (p.encoding ++ rest) = .ok (some (p, rest)) := by
  unfold bdecode encoding
  rw [readInts]
  dsimp only [bind, Except.bind]
  rw [ofVals_vals]
  rfl

end ProtocolInfo

structure TrafficPolicy where
  ranges : SortedSet key := .empty
  protocols : SortedSet ProtocolInfo.key := .empty
deriving DecidableEq

namespace TrafficPolicy
variable (lib : Libs)

def bencode (p : TrafficPolicy) : Writer :=
  (((((((startDict.seq (writeBytestring [112])).seq startList).seq
    (writeAll ProtocolInfo.bencode p.protocols.toList)).seq
    endDict).seq
    (writeBytestring [114])).seq
    startList).seq
    (writeAll (IPRange.bencode lib) p.ranges.toList)).seq
    endDict |>.seq
    endDict

def protocolList (p : TrafficPolicy) : Bytes := 108 :: (p.protocols.toList.flatMap ProtocolInfo.encoding ++ [101])

def rangeList (s : SortedSet key) : Bytes := 108 :: (s.toList.flatMap (encoding lib) ++ [101])

def encoding (p : TrafficPolicy) : Bytes :=
  100 :: ((str [112] ++ p.protocolList) ++ (str [114] ++ rangeList lib p.ranges) ++ [101])

def onKey : Sink TrafficPolicy := fun p key b =>
  match key with
  | none => .ok (some (p, b))
  | some key =>
    if startsWith [112] key then do
      return (← readSet ProtocolInfo.bdecode p.protocols b).map fun r => ({ p with protocols := r.1 }, r.2)
    else if startsWith [114] key then do
      return (← readSet (bdecode lib) p.ranges b).map fun r => ({ p with ranges := r.1 }, r.2)
    else do
      return (← discard b).map fun b => (p, b)

def bdecode (b : Bytes) : Except MemFault (Option (TrafficPolicy × Bytes)) := readDict (onKey lib) {} b

lemma prints_bencode (p : TrafficPolicy) : Prints (p.bencode lib) (p.encoding lib) := by
  have protos := (((prints_write [100]).seq (prints_writeBytestring [112])).seq (prints_write [108])).seq
    (prints_writeAll ProtocolInfo.prints_bencode p.protocols.toList)
  have ranges := (((protos.seq (prints_write [101])).seq (prints_writeBytestring [114])).seq (prints_write [108])).seq
    (prints_writeAll (fun r : IPRange => prints_write (r.encoding lib)) p.ranges.toList)
  have all := (ranges.seq (prints_write [101])).seq (prints_write [101])
  have hencoding : p.encoding lib = [100] ++ str [112] ++ [108] ++ p.protocols.toList.flatMap ProtocolInfo.encoding ++
      [101] ++ str [114] ++ [108] ++ p.ranges.toList.flatMap (fun r => r.encoding lib) ++ [101] ++ [101] := by
    simp [encoding, protocolList, rangeList]
  rw [hencoding]
  exact all

def receivedRanges (s : SortedSet key) : Option (SortedSet key) := SortedSet.emplaceAll .empty (s.toList.map received)

lemma receivedRanges_plain {s s' : SortedSet key} (h : receivedRanges s = some s') : ∀ r ∈ s'.toList, r.Plain := by
  intro r hr
  rcases (mem_emplaceAll _ h).mp hr with hr | hr
  · cases hr
  · obtain ⟨r', -, rfl⟩ := mem_map.mp hr
    exact r'.received_plain

lemma ranges_eq_iff (s : SortedSet key) : receivedRanges s = some s ↔ ∀ r ∈ s.toList, r.Plain := by
  constructor
  · exact receivedRanges_plain
  · intro h
    have hmap : s.toList.map received = s.toList := by
      conv_rhs => rw [← map_id s.toList]
      apply map_congr_left
      intro r hr
      exact r.received_eq_iff.mpr (h r hr)
    unfold receivedRanges
    rw [hmap]
    exact s.emplaceAll_sorted

def received (p : TrafficPolicy) : Option TrafficPolicy := (receivedRanges p.ranges).map fun s => { p with ranges := s }

lemma received_eq_iff (p : TrafficPolicy) : p.received = some p ↔ ∀ r ∈ p.ranges.toList, r.Plain := by
  rw [← ranges_eq_iff]
  unfold received
  constructor
  · intro h
    obtain ⟨s, hs, hp⟩ := Option.map_eq_some_iff.mp h
    rw [hs, ← congrArg ranges hp]
  · intro h
    rw [h]
    rfl

lemma readRanges {lib : Libs} (hlib : lib.Lawful) (s : SortedSet IPRange.key) (rest : Bytes) :
    readSet (IPRange.bdecode lib) .empty (rangeList lib s ++ rest)
      = .ok ((receivedRanges s).map fun s => (s, rest)) := by
  have hne : ∀ r : IPRange, Opens (r.encoding lib) := fun r => str_opens (r.toString lib)
  unfold rangeList
  exact readSet_encoding hne s.toList (fun r _ => IPRange.bdecode_encoding hlib r) .empty rest

lemma bdecode_encoding {lib : Libs} (hlib : lib.Lawful) (p : TrafficPolicy) (rest : Bytes) :
    bdecode lib (p.encoding lib ++ rest) = .ok (p.received.map fun p => (p, rest)) := by
  have hprotos : Reads (onKey lib) {} (str [112] ++ p.protocolList) { protocols := p.protocols } := by
    apply Reads.entry (by simp)
    intro rest
    have hread : readSet ProtocolInfo.bdecode (.empty : SortedSet ProtocolInfo.key) (p.protocolList ++ rest)
        = .ok (some (p.protocols, rest)) := by
      have hne : ∀ q : ProtocolInfo, Opens q.encoding := fun q => ⟨108, _, rfl, by decide⟩
      unfold protocolList
      rw [readSet_encoding (f := id) hne p.protocols.toList (fun q _ => ProtocolInfo.bdecode_encoding q),
        map_id, emplaceAll_sorted]
      rfl
    show (do return (← readSet ProtocolInfo.bdecode (.empty : SortedSet ProtocolInfo.key)
      (p.protocolList ++ rest)).map _) = _
    rw [hread]
    rfl
  have hranges : ∀ rest, onKey lib { protocols := p.protocols } (some [114]) (rangeList lib p.ranges ++ rest)
      = .ok (p.received.map fun p => (p, rest)) := by
    intro rest
    show (do return (← readSet (IPRange.bdecode lib) .empty (rangeList lib p.ranges ++ rest)).map _) = _
    rw [readRanges hlib]
    unfold received
    cases receivedRanges p.ranges with
    | none => rfl
    | some => rfl
  unfold bdecode
  cases hp : p.received with
  | none =>
    have hassoc : p.encoding lib ++ rest
        = 100 :: ((str [112] ++ p.protocolList) ++ (str [114] ++ rangeList lib p.ranges) ++ 101 :: rest) := by
      simp [encoding]
    rw [hassoc]
    exact hprotos.dict_none (fun _ => by rw [hranges, hp]; rfl) _
  | some q =>
    have hentry : Reads (onKey lib) { protocols := p.protocols } (str [114] ++ rangeList lib p.ranges) q :=
      Reads.entry (by simp) fun rest => by rw [hranges, hp]; rfl
    exact (hprotos.append hentry).dict rest

end TrafficPolicy

/-!
## ports of a packet

`SrcPort`, `DstPort` of `llarp/net/ip_packet.cpp` and `MatchesPacket` of `llarp/net/traffic_policy.cpp`.
-/

structure IPPacket where
  buf : Bytes
  minSize : 20 ≤ buf.length

namespace IPPacket
variable (p : IPPacket)

def header (i : Fin 20) : UInt8 := p.buf.get ⟨i, i.isLt.trans_le p.minSize⟩

def version : UInt8 := p.header 0 >>> 4

def ihl : ℕ := (p.header 0 &&& 15).toNat

def readPort (off : ℕ) : Except MemFault UInt16 :=
  match p.buf.drop off with
  | hi :: lo :: _ => .ok (hi.toUInt16 <<< 8 ||| lo.toUInt16)
  | _ => .error (.outside off 2)

def tcp : UInt8 := 0x06

def udp : UInt8 := 0x11

def dstPort : Except MemFault (Option UInt16) :=
  if p.header 9 = tcp ∨ p.header 9 = udp then some <$> p.readPort (p.ihl * 4 + 2) else .ok none

def srcPort : Except MemFault (Option UInt16) :=
  if p.header 9 = tcp ∨ p.header 9 = udp then some <$> p.readPort (p.ihl * 4) else .ok none

def protocol : UInt8 := if p.version = 4 then p.header 9 else p.header 6

def transport : Option ℕ :=
  if p.version = 4 then if 5 ≤ p.ihl then some (p.ihl * 4) else none else some 40

def ports : Option (UInt16 × UInt16) :=
  p.transport.bind fun off =>
    match p.readPort off, p.readPort (off + 2) with
    | .ok src, .ok dst => some (src, dst)
    | _, _ => none

end IPPacket

def ProtocolInfo.matchesPacket (info : ProtocolInfo) (p : IPPacket) : Except MemFault Bool :=
  if p.header 9 ≠ info.protocol then .ok false
  else
    match info.port with
    | none => .ok true
    | some port => (fun dst => dst.elim true (port == ·)) <$> p.dstPort

namespace IPPacket
variable {p : IPPacket}

/-- Nothing is read outside; the ports are the packet's when it has them; and a protocol matches as it should. -/
structure Own (p : IPPacket) : Prop where
  src : ∃ r, p.srcPort = .ok r ∧ ∀ q, p.ports = some q → r = some q.1
  dst : ∃ r, p.dstPort = .ok r ∧ ∀ q, p.ports = some q → r = some q.2
  inside : ∀ info : ProtocolInfo, ∃ b, info.matchesPacket p = .ok b ∧
    (info.port = none → (b = true ↔ info.protocol = p.protocol)) ∧
    ∀ q port, p.ports = some q → info.port = some port → (b = true ↔ info.protocol = p.protocol ∧ port = q.2)

lemma readPort_ok_iff {off : ℕ} : (∃ r, p.readPort off = .ok r) ↔ off + 2 ≤ p.buf.length := by
  have hlen := List.length_drop (i := off) (l := p.buf)
  unfold readPort
  split
  · rename_i heq
    rw [heq, List.length_cons, List.length_cons] at hlen
    exact iff_of_true ⟨_, rfl⟩ (by omega)
  rename_i hnone
  refine iff_of_false nofun fun h => ?_
  match hd : p.buf.drop off with
  | hi :: lo :: rest => exact hnone hi lo rest hd
  | [_] | [] =>
    rw [hd] at hlen
    simp at hlen
    omega

/-- The protocol that is looked at is the packet's, the ports lie inside, and if the packet has ports then these are
read. -/
structure Lucky (p : IPPacket) : Prop where
  protocol : p.header 9 = p.protocol
  inside : p.ihl * 4 + 4 ≤ p.buf.length
  ports : ∀ q, p.ports = some q → p.readPort (p.ihl * 4) = .ok q.1 ∧ p.readPort (p.ihl * 4 + 2) = .ok q.2

lemma ports_v4 (h4 : p.version = 4) (q : UInt16 × UInt16) (hq : p.ports = some q) :
    p.readPort (p.ihl * 4) = .ok q.1 ∧ p.readPort (p.ihl * 4 + 2) = .ok q.2 := by
  obtain ⟨_, hoff, hread⟩ := Option.bind_eq_some_iff.mp hq
  unfold transport at hoff
  rw [if_pos h4] at hoff
  split at hoff
  · cases hoff
    split at hread
    · rename_i hsrc hdst
      cases hread
      exact ⟨hsrc, hdst⟩
    · cases hread
  · cases hoff

lemma lucky_iff_v4 (h4 : p.version = 4) : p.Lucky ↔ p.ihl * 4 + 4 ≤ p.buf.length :=
  ⟨Lucky.inside, fun h => ⟨(if_pos h4).symm, h, ports_v4 h4⟩⟩

lemma Lucky.own (h : p.Lucky) (hp : p.protocol = tcp ∨ p.protocol = udp) : p.Own := by
  obtain ⟨src, hsrc⟩ := readPort_ok_iff.mpr (show p.ihl * 4 + 2 ≤ p.buf.length by have := h.inside; omega)
  obtain ⟨dst, hdst⟩ := readPort_ok_iff.mpr (show p.ihl * 4 + 2 + 2 ≤ p.buf.length from h.inside)
  have hps : p.srcPort = .ok (some src) := by
    rw [srcPort, h.protocol, if_pos hp, hsrc]
    rfl
  have hpd : p.dstPort = .ok (some dst) := by
    rw [dstPort, h.protocol, if_pos hp, hdst]
    rfl
  have hports (q : UInt16 × UInt16) (hq : p.ports = some q) : src = q.1 ∧ dst = q.2 := by
    obtain ⟨h1, h2⟩ := h.ports q hq
    rw [hsrc] at h1
    rw [hdst] at h2
    cases h1
    cases h2
    exact ⟨rfl, rfl⟩
  refine ⟨⟨_, hps, fun q hq => congrArg some (hports q hq).1⟩, ⟨_, hpd, fun q hq => congrArg some (hports q hq).2⟩, ?_⟩
  intro info
  unfold ProtocolInfo.matchesPacket
  rw [h.protocol]
  split
  · rename_i hne
    have hfalse : info.protocol ≠ p.protocol := fun h => hne h.symm
    exact ⟨false, rfl, fun _ => iff_of_false nofun hfalse, fun _ _ _ _ => iff_of_false nofun fun h => hfalse h.1⟩
  rename_i heq
  have heq : info.protocol = p.protocol := (not_not.mp heq).symm
  cases hport : info.port with
  | none => exact ⟨true, rfl, fun _ => iff_of_true rfl heq, nofun⟩
  | some port =>
    refine ⟨port == dst, by rw [hpd]; rfl, nofun, ?_⟩
    rintro q _ hq ⟨⟩
    rw [beq_iff_eq, (hports q hq).2, and_iff_right heq]

lemma Own.lucky (h : p.Own) (hp : p.protocol = tcp ∨ p.protocol = udp) : p.Lucky := by
  -- a policy of the packet's protocol alone has to match
  have hproto : p.header 9 = p.protocol := by
    obtain ⟨b, hb, hmatch, -⟩ := h.inside ⟨p.protocol, none⟩
    by_contra hne
    rw [ProtocolInfo.matchesPacket, if_pos hne] at hb
    cases hb
    exact absurd ((hmatch rfl).mpr rfl) nofun
  obtain ⟨⟨s, hs, hsq⟩, ⟨d, hd, hdq⟩, -⟩ := h
  rw [srcPort, hproto, if_pos hp] at hs
  rw [dstPort, hproto, if_pos hp] at hd
  obtain ⟨_, hsrc, rfl⟩ := Run.ok_map.mp hs
  obtain ⟨dst, hdst, rfl⟩ := Run.ok_map.mp hd
  refine ⟨hproto, readPort_ok_iff.mp ⟨dst, hdst⟩, fun q hq => ?_⟩
  rw [hsrc, hdst, Option.some.inj (hsq q hq), Option.some.inj (hdq q hq)]
  exact ⟨rfl, rfl⟩

end IPPacket

/-- The exact condition, for every packet that carries TCP or UDP without extension headers. -/
theorem ports_own_iff (p : IPPacket) (hp : p.protocol = IPPacket.tcp ∨ p.protocol = IPPacket.udp) :
    (p.Own ↔ p.Lucky) ∧ (p.version = 4 → (p.Own ↔ p.ihl * 4 + 4 ≤ p.buf.length)) := by
  have hiff : p.Own ↔ p.Lucky := ⟨fun h => h.lucky hp, fun h => h.own hp⟩
  exact ⟨hiff, fun h4 => hiff.trans (IPPacket.lucky_iff_v4 h4)⟩

namespace IPPacket.Sample

def datagram : IPPacket := ⟨[0x45, 0, 0, 28, 0, 0, 0, 0, 64, 17, 0, 0, 10, 0, 0, 1, 10, 0, 0, 2, 0, 1, 0, 53, 0, 8, 0, 0],
  by decide⟩

def datagram6 : IPPacket := ⟨[0x60, 0, 0, 0, 0, 8, 17, 64] ++ List.replicate 32 0 ++ [0, 1, 0, 53, 0, 8, 0, 0], by decide⟩

def truncated : IPPacket := ⟨[0x4f, 0, 0, 20, 0, 0, 0, 0, 64, 6, 0, 0, 10, 0, 0, 1, 10, 0, 0, 2], by decide⟩

end IPPacket.Sample

open IPPacket.Sample

theorem ports_own_iff_datagram : datagram.Own ↔ datagram.ihl * 4 + 4 ≤ datagram.buf.length :=
  (ports_own_iff datagram (.inr (by decide))).2 (by decide)

/-- a policy for UDP does not match a datagram over IPv6, and the ports of a truncated packet are read past its end -/
theorem ports_of_other : (datagram6.version = 6 ∧ datagram6.protocol = IPPacket.udp ∧ datagram6.ports = some (1, 53) ∧
      ProtocolInfo.matchesPacket ⟨IPPacket.udp, none⟩ datagram6 = .ok false) ∧
    truncated.version = 4 ∧ truncated.protocol = IPPacket.tcp ∧ truncated.srcPort = .error (.outside 60 2) := by
  decide +kernel

end Belnet.Net
