import Belnet.Routing.Survive

/-!
# The traffic of an exit

A client (`llarp/exit/session.cpp`) and an exit (`llarp/exit/endpoint.cpp`) put packets into transfer messages and
flush them over a path.
-/

namespace Belnet.Handlers
open Iwp hiding RouterContact
open Util Decimal Routing List Function Bytes Option Nat Run

inductive ProtocolType where
  | control | trafficV4 | trafficV6 | exit | auth | quic
deriving DecidableEq

def ProtocolType.code : ProtocolType → UInt64
  | .control => 0
  | .trafficV4 => 1
  | .trafficV6 => 2
  | .exit => 3
  | .auth => 4
  | .quic => 5

lemma ProtocolType.code_injective {a b : ProtocolType} (h : a.code = b.code) : a = b := by
  cases a <;> cases b <;> first | rfl | cases h

def exitPadSize : ℕ := 512 - 48

def maxExitMTU : ℕ := 1500

abbrev ExitPacket := { x : Bytes // x.length ≤ 1508 }

structure TransferTraffic where
  protocol : ProtocolType
  X : List ExitPacket
  size : ℕ

def exitPacket (buf : Bytes) (counter : UInt64) (h : buf.length ≤ maxExitMTU) : ExitPacket :=
  ⟨writeBig 8 counter.toNat ++ buf, by
    have h8 : (writeBig 8 counter.toNat).length = 8 := by simp
    unfold maxExitMTU at h
    rw [length_append, h8]
    omega⟩

def TransferTraffic.putBuffer (buf : Bytes) (counter : UInt64) (m : TransferTraffic) : Bool × TransferTraffic :=
  if h : buf.length ≤ maxExitMTU then
    (true, { m with X := m.X ++ [exitPacket buf counter h], size := m.size + (buf.length + 16) })
  else (false, m)

structure Packet where
  data : Bytes
  counter : UInt64
  protocol : UInt64
deriving DecidableEq

def handleTransferTrafficMessage (protocol : UInt64) (X : List ExitPacket) : List Packet :=
  X.filterMap fun x => if x.1.length ≤ 8 then none
    else some ⟨x.1.drop 8, .ofNat (loadBig (x.1.take 8)), protocol⟩

def TransferTraffic.received (m : TransferTraffic) : List Packet := handleTransferTrafficMessage m.protocol.code m.X

/-- `m_Upstream` or `m_DownstreamQueues`, and `m_Counter`; an index without a queue has an empty one -/
structure TrafficQueues where
  queues : UInt8 → List TransferTraffic
  counter : UInt64

namespace TrafficQueues

def index (buf : Bytes) : UInt8 := .ofNat (buf.length / exitPadSize)

def put (idx : UInt8) (l : List TransferTraffic) (s : TrafficQueues) : TrafficQueues :=
  ⟨update s.queues idx l, s.counter + 1⟩

def queueTraffic (buf : Bytes) (t : ProtocolType) (s : TrafficQueues) : Bool × TrafficQueues :=
  let queue := s.queues (index buf)
  let (ok, new) := (⟨t, [], 0⟩ : TransferTraffic).putBuffer buf s.counter
  match queue.getLast? with
  | none => (ok, s.put (index buf) (queue ++ [new]))
  | some back =>
    if exitPadSize < back.size + buf.length then (ok, s.put (index buf) (queue ++ [new]))
    else
      let (ok, back) := { back with protocol := t }.putBuffer buf s.counter
      (ok, s.put (index buf) (queue.dropLast ++ [back]))

def queueUpstreamTraffic (pkt : Bytes) (t : ProtocolType) (s : TrafficQueues) : Bool × TrafficQueues :=
  if 256 ≤ (s.queues (index pkt)).length then (false, s) else s.queueTraffic pkt t

def queueInboundTraffic (rewrite : Bytes → Option Bytes) (buf : Bytes) (t : ProtocolType) (s : TrafficQueues) :
    Bool × TrafficQueues :=
  if t = .quic then s.queueTraffic buf t
  else match rewrite buf with
    | none => (false, s)
    | some buf => s.queueTraffic buf t

def indices : List UInt8 := (range 256).map .ofNat

def queued (s : TrafficQueues) : List TransferTraffic := indices.flatMap s.queues

end TrafficQueues

inductive Side where
  | client
  | exit (rewrite : Bytes → Option Bytes)

def Side.queue : Side → Bytes → ProtocolType → TrafficQueues → Bool × TrafficQueues
  | .client => TrafficQueues.queueUpstreamTraffic
  | .exit rewrite => TrafficQueues.queueInboundTraffic rewrite

def Side.admits : Side → Bytes → ProtocolType → TrafficQueues → Option Bytes
  | .client, pkt, _, s => if 256 ≤ (s.queues (TrafficQueues.index pkt)).length then none else some pkt
  | .exit rewrite, buf, t, _ => if t = .quic then some buf else rewrite buf

variable {s : TrafficQueues} {t : ProtocolType} {side : Side} {buf : Bytes}

lemma Side.queue_none (h : side.admits buf t s = none) : side.queue buf t s = (false, s) := by
  cases side with
  | client =>
    rw [Side.admits] at h
    split at h
    · rename_i hfull
      exact if_pos hfull
    · cases h
  | exit =>
    rw [Side.admits] at h
    split at h
    · cases h
    · rename_i hquic
      rw [Side.queue, TrafficQueues.queueInboundTraffic, if_neg hquic, h]

variable {b : Bytes}

lemma Side.queue_some (h : side.admits buf t s = some b) : side.queue buf t s = s.queueTraffic b t := by
  cases side with
  | client =>
    rw [Side.admits] at h
    split at h
    · cases h
    rename_i hroom
    cases h
    exact if_neg hroom
  | exit =>
    rw [Side.admits] at h
    rw [Side.queue, TrafficQueues.queueInboundTraffic]
    split at h
    · rename_i hquic
      cases h
      rw [if_pos hquic]
    · rename_i hquic
      rw [if_neg hquic, h]

/-- a sender's queues with the packets that it accepted and those that the other side received -/
structure TrafficLink where
  sender : TrafficQueues
  received : List Packet
  accepted : List Packet

namespace TrafficLink

def start (counter : UInt64) : TrafficLink := ⟨⟨fun _ => [], counter⟩, [], []⟩

inductive Op where
  | queue (buf : Bytes) (t : ProtocolType)
  | flush

def step (side : Side) : Op → TrafficLink → Except Empty TrafficLink
  | .queue buf t, s =>
    let (ok, sender) := side.queue buf t s.sender
    let pkt : Packet := ⟨(side.admits buf t s.sender).getD [], s.sender.counter, t.code⟩
    .ok { s with sender, accepted := if ok then s.accepted ++ [pkt] else s.accepted }
  | .flush, s =>
    .ok { s with
      sender := { s.sender with queues := fun _ => [] }
      received := s.received ++ s.sender.queued.flatMap TransferTraffic.received }

/-- What was received, with what the next flush would deliver, is what was accepted: bytes, counter and type. -/
def Delivered (s : TrafficLink) : Prop :=
  (s.received ++ s.sender.queued.flatMap TransferTraffic.received).Perm s.accepted

/-- The packet that goes into the queue has bytes, and a message that it joins has its type. -/
def Fine (side : Side) : Op → TrafficLink → Prop
  | .queue buf t, s => ∀ b, side.admits buf t s.sender = some b → b.length ≤ maxExitMTU →
    b ≠ [] ∧ ∀ back, (s.sender.queues (TrafficQueues.index b)).getLast? = some back →
      back.size + b.length ≤ exitPadSize → back.X ≠ [] → back.protocol = t
  | .flush, _ => True

end TrafficLink

section
variable (protocol : UInt64)

lemma handle_append (X Y : List ExitPacket) : handleTransferTrafficMessage protocol (X ++ Y) =
    handleTransferTrafficMessage protocol X ++ handleTransferTrafficMessage protocol Y := filterMap_append

variable {x : ExitPacket}

lemma handle_cons_short (hx : x.1.length ≤ 8) (X : List ExitPacket) :
    handleTransferTrafficMessage protocol (x :: X) = handleTransferTrafficMessage protocol X := by
  simp [handleTransferTrafficMessage, hx]

lemma handle_cons_long (hx : ¬ x.1.length ≤ 8) (X : List ExitPacket) :
    handleTransferTrafficMessage protocol (x :: X) = ⟨x.1.drop 8, .ofNat (loadBig (x.1.take 8)), protocol⟩ ::
      handleTransferTrafficMessage protocol X := by simp [handleTransferTrafficMessage, hx]

lemma handle_exitPacket (counter : UInt64) (h : buf.length ≤ maxExitMTU) :
    handleTransferTrafficMessage protocol [exitPacket buf counter h] = if buf = [] then [] else [⟨buf, counter, protocol⟩] := by
  have h8 : (writeBig 8 counter.toNat).length = 8 := by simp
  have hcounter : .ofNat (loadBig (writeBig 8 counter.toNat)) = counter := by
    rw [loadBig_writeBig, mod_eq_of_lt (show counter.toNat < 256^8 from counter.toNat_lt), UInt64.ofNat_toNat]
  have htake : (writeBig 8 counter.toNat ++ buf).take 8 = writeBig 8 counter.toNat := take_left' h8
  have hdrop : (writeBig 8 counter.toNat ++ buf).drop 8 = buf := drop_left' h8
  have hlen : (exitPacket buf counter h).1.length = 8 + buf.length := by
    show (writeBig 8 counter.toNat ++ buf).length = _
    rw [length_append, h8]
  by_cases hbuf : buf = []
  · have hshort : (exitPacket buf counter h).1.length ≤ 8 := by rw [hlen, hbuf]; rfl
    rw [if_pos hbuf, handle_cons_short protocol hshort]
    rfl
  have hpos : 0 < buf.length := length_pos_iff.mpr hbuf
  have hlong : ¬ (exitPacket buf counter h).1.length ≤ 8 := by omega
  rw [if_neg hbuf, handle_cons_long protocol hlong]
  show [(⟨(writeBig 8 counter.toNat ++ buf).drop 8,
    .ofNat (loadBig ((writeBig 8 counter.toNat ++ buf).take 8)), protocol⟩ : Packet)] = _
  rw [htake, hdrop, hcounter]

lemma handle_length_le (X : List ExitPacket) :
    (handleTransferTrafficMessage protocol X).length ≤ X.length := length_filterMap_le _ X

end

variable {X : List ExitPacket}

lemma handle_protocol {protocol : UInt64} : ∀ p ∈ handleTransferTrafficMessage protocol X, p.protocol = protocol := by
  intro p hp
  obtain ⟨x, -, hx⟩ := mem_filterMap.mp hp
  split at hx
  · cases hx
  · rw [← some.inj hx]

lemma handle_length_eq (p q : UInt64) (X : List ExitPacket) :
    (handleTransferTrafficMessage p X).length = (handleTransferTrafficMessage q X).length := by
  induction X with
  | nil => rfl
  | cons x X ih =>
    by_cases hx : x.1.length ≤ 8
    · rw [handle_cons_short p hx, handle_cons_short q hx]
      exact ih
    · rw [handle_cons_long p hx, handle_cons_long q hx, length_cons, length_cons, ih]

variable {α : Type} {m : TransferTraffic} {base : TransferTraffic} {init old : List TransferTraffic}

namespace TrafficQueues

lemma mem_indices (i : UInt8) : i ∈ indices := mem_map.mpr ⟨i.toNat, mem_range.mpr i.toNat_lt, UInt8.ofNat_toNat⟩

lemma nodup_indices : indices.Nodup := by decide +kernel

lemma queued_perm (f : TransferTraffic → List α) (q : UInt8 → List TransferTraffic) (idx : UInt8) :
    ((indices.flatMap q).flatMap f).Perm ((q idx).flatMap f ++ ((indices.erase idx).flatMap q).flatMap f) := by
  have hperm := ((perm_cons_erase (mem_indices idx)).flatMap_right q).flatMap_right f
  rwa [flatMap_cons, flatMap_append] at hperm

lemma others_update (q : UInt8 → List TransferTraffic) (idx : UInt8) (l : List TransferTraffic) :
    (indices.erase idx).flatMap (update q idx l) = (indices.erase idx).flatMap q := by
  apply flatMap_congr
  intro i hi
  exact update_of_ne ((nodup_indices.mem_erase_iff).mp hi).1 _ _

lemma queued_put (f : TransferTraffic → List α) (idx : UInt8) (l : List TransferTraffic) (s : TrafficQueues) :
    ((s.put idx l).queued.flatMap f).Perm (l.flatMap f ++ ((indices.erase idx).flatMap s.queues).flatMap f) := by
  have hperm := queued_perm f (update s.queues idx l) idx
  rwa [others_update, update_self] at hperm

lemma mem_queued : m ∈ s.queued ↔ ∃ i, m ∈ s.queues i :=
  ⟨fun h => let ⟨i, _, hi⟩ := mem_flatMap.mp h; ⟨i, hi⟩, fun ⟨i, hi⟩ => mem_flatMap.mpr ⟨i, mem_indices i, hi⟩⟩

inductive Goes (buf : Bytes) (t : ProtocolType) (s : TrafficQueues) (init : List TransferTraffic) :
    List TransferTraffic → TransferTraffic → Prop
  | new : s.queues (index buf) = init → (∀ back, (s.queues (index buf)).getLast? = some back →
      exitPadSize < back.size + buf.length) → Goes buf t s init [] ⟨t, [], 0⟩
  | last (back : TransferTraffic) : s.queues (index buf) = init ++ [back] → back.size + buf.length ≤ exitPadSize →
      Goes buf t s init [back] { back with protocol := t }

lemma queueTraffic_goes (buf : Bytes) (t : ProtocolType) (s : TrafficQueues) :
    ∃ init old base, Goes buf t s init old base ∧ s.queueTraffic buf t =
      ((base.putBuffer buf s.counter).1, s.put (index buf) (init ++ [(base.putBuffer buf s.counter).2])) := by
  unfold queueTraffic
  dsimp only
  cases hlast : (s.queues (index buf)).getLast? with
  | none => exact ⟨_, [], _, .new rfl (fun _ h => by rw [hlast] at h; cases h), rfl⟩
  | some back =>
    dsimp only
    split
    · rename_i hfull
      refine ⟨_, [], _, .new rfl (fun _ h => ?_), rfl⟩
      rw [hlast] at h
      obtain rfl := some.inj h
      exact hfull
    · have hsplit : s.queues (index buf) = (s.queues (index buf)).dropLast ++ [back] :=
        (dropLast_append_getLast? back hlast).symm
      exact ⟨_, [back], _, .last back hsplit (by omega), rfl⟩

lemma Goes.queue_eq (h : Goes buf t s init old base) : s.queues (index buf) = init ++ old := by
  cases h with
  | new hq => rw [hq, append_nil]
  | last back hq => exact hq

end TrafficQueues

/-- `_size` counts 16 more than the bytes of every packet, and a message has one packet or little more than `ExitPadSize` -/
structure TransferTraffic.Formed (m : TransferTraffic) : Prop where
  size : m.size = (m.X.map fun x => x.1.length + 8).sum
  small : m.size ≤ 1516

lemma TransferTraffic.Formed.putBuffer (h : m.Formed) (counter : UInt64)
    (hroom : m.size = 0 ∨ m.size + buf.length ≤ exitPadSize) : (m.putBuffer buf counter).2.Formed := by
  unfold TransferTraffic.putBuffer
  split
  · rename_i hlen
    have hone : (exitPacket buf counter hlen).1.length = buf.length + 8 := by
      show (writeBig 8 counter.toNat ++ buf).length = _
      simp [add_comm]
    refine ⟨?_, ?_⟩
    · show m.size + (buf.length + 16) = _
      rw [map_append, sum_append_nat, h.size, map_singleton, sum_singleton, hone]
    show m.size + (buf.length + 16) ≤ 1516
    unfold maxExitMTU at hlen
    unfold exitPadSize at hroom
    omega
  · exact h

namespace TrafficLink
open TrafficQueues

structure Sound (s : TrafficLink) : Prop where
  formed : ∀ i, ∀ m ∈ s.sender.queues i, m.Formed
  counted : s.received.length + (s.sender.queued.flatMap TransferTraffic.X).length ≤ s.accepted.length

lemma queued_empty : (indices.flatMap fun _ => ([] : List TransferTraffic)) = [] := by simp

lemma sound_start (counter : UInt64) : (start counter).Sound := by
  refine ⟨fun i m hm => (nomatch hm), ?_⟩
  show 0 + ((indices.flatMap fun _ => []).flatMap TransferTraffic.X).length ≤ 0
  rw [queued_empty]
  exact le_refl 0

lemma handle_flatMap_le (l : List TransferTraffic) :
    (l.flatMap TransferTraffic.received).length ≤ (l.flatMap TransferTraffic.X).length := by
  induction l with
  | nil => exact le_refl 0
  | cons m l ih =>
    rw [flatMap_cons, flatMap_cons, length_append, length_append]
    exact Nat.add_le_add (handle_length_le _ _) ih

variable {l : List TransferTraffic}

lemma received_length (h : (l.flatMap TransferTraffic.X).length ≤ (l.flatMap TransferTraffic.received).length) :
    ∀ m ∈ l, m.received.length = m.X.length := by
  induction l with
  | nil => exact fun m hm => (nomatch hm)
  | cons m l ih =>
    rw [flatMap_cons, flatMap_cons, length_append, length_append] at h
    have hm : m.received.length ≤ m.X.length := handle_length_le _ _
    have hl := handle_flatMap_le l
    intro m' hm'
    rcases mem_cons.mp hm' with rfl | hm'
    · omega
    · exact ih (by omega) m' hm'

lemma Sound.received_length {s : TrafficLink} (h : s.Sound) (hd : s.Delivered)
    (hm : m ∈ s.sender.queued) : m.received.length = m.X.length := by
  have hlen := hd.length_eq
  rw [length_append] at hlen
  have hcounted := h.counted
  exact TrafficLink.received_length (by omega) m hm

lemma perm_change {R Q Q' A I B C O : List α} {p : α} (hP : (R ++ Q).Perm A) (hQ : Q.Perm (I ++ B ++ O))
    (hQ' : Q'.Perm (I ++ C ++ O)) : (R ++ Q').Perm (A ++ [p]) ↔ C.Perm (B ++ [p]) := by
  simp only [← Multiset.coe_eq_coe, ← Multiset.coe_add] at hP hQ hQ' ⊢
  rw [← hP, hQ, hQ']
  have hleft : (R : Multiset α) + (I + C + O) = (R + I + O) + C := by abel
  have hright : (R : Multiset α) + (I + B + O) + [p] = (R + I + O) + (B + [p]) := by abel
  rw [hleft, hright, add_right_inj]

/-- A packet is refused, is too long and leaves an empty message, or goes into a message; or all is flushed. -/
inductive Steps (side : Side) (s : TrafficLink) : Op → TrafficLink → Prop
  | refused {buf : Bytes} {t : ProtocolType} : side.admits buf t s.sender = none → Steps side s (.queue buf t) s
  | tooLong {buf b : Bytes} {t : ProtocolType} : side.admits buf t s.sender = some b → maxExitMTU < b.length →
      Steps side s (.queue buf t)
        { s with sender := s.sender.put (index b) (s.sender.queues (index b) ++ [⟨t, [], 0⟩]) }
  | goes {buf b : Bytes} {t : ProtocolType} {init old : List TransferTraffic} {base : TransferTraffic} :
      side.admits buf t s.sender = some b → (h : b.length ≤ maxExitMTU) → Goes b t s.sender init old base →
      Steps side s (.queue buf t) { s with
        sender := s.sender.put (index b) (init ++ [{ base with
          X := base.X ++ [exitPacket b s.sender.counter h], size := base.size + (b.length + 16) }])
        accepted := s.accepted ++ [⟨b, s.sender.counter, t.code⟩] }
  | flush : Steps side s .flush { s with
      sender := { s.sender with queues := fun _ => [] }
      received := s.received ++ s.sender.queued.flatMap TransferTraffic.received }

variable {op : Op}

lemma steps_of_step {s s' : TrafficLink} (h : step side op s = .ok s') : Steps side s op s' := by
  cases op with
  | flush =>
    obtain rfl := Except.ok.inj h
    exact .flush
  | queue buf t =>
    rw [step] at h
    cases hadmits : side.admits buf t s.sender with
    | none =>
      rw [Side.queue_none hadmits] at h
      obtain rfl := Except.ok.inj h
      exact .refused hadmits
    | some b =>
      rw [Side.queue_some hadmits, hadmits] at h
      obtain ⟨_, _, base, hgoes, heq⟩ := queueTraffic_goes b t s.sender
      rw [heq] at h
      by_cases hlen : b.length ≤ maxExitMTU
      · have hput : base.putBuffer b s.sender.counter = (true, { base with
            X := base.X ++ [exitPacket b s.sender.counter hlen], size := base.size + (b.length + 16) }) := dif_pos hlen
        rw [hput] at h
        obtain rfl := Except.ok.inj h
        exact .goes hadmits hlen hgoes
      · have hput : base.putBuffer b s.sender.counter = (false, base) := dif_neg hlen
        rw [hput] at h
        obtain rfl := Except.ok.inj h
        -- a packet that is too long does not fit into a message that is there
        cases hgoes with
        | new hq =>
          rw [← hq]
          exact .tooLong hadmits (Nat.lt_of_not_le hlen)
        | last back _ hfits =>
          unfold maxExitMTU at hlen
          unfold exitPadSize at hfits
          omega

lemma formed_put {idx : UInt8} (h : ∀ i, ∀ m ∈ s.queues i, m.Formed)
    (hl : ∀ m ∈ l, m.Formed) : ∀ i, ∀ m ∈ (s.put idx l).queues i, m.Formed := by
  intro i m hm
  have hm' : m ∈ update s.queues idx l i := hm
  by_cases hi : i = idx
  · rw [hi, update_self] at hm'
    exact hl m hm'
  · rw [update_of_ne hi] at hm'
    exact h i m hm'

lemma goes_formed (h : Goes b t s init old base) (hs : ∀ m ∈ s.queues (index b), m.Formed) :
    base.Formed ∧ (base.size = 0 ∨ base.size + b.length ≤ exitPadSize) ∧ base.X = old.flatMap TransferTraffic.X := by
  cases h with
  | new => exact ⟨⟨rfl, by norm_num⟩, .inl rfl, rfl⟩
  | last back hq hfits =>
    have hback := hs back (by rw [hq]; exact mem_append_right _ mem_cons_self)
    exact ⟨⟨hback.size, hback.small⟩, .inr hfits, (flatMap_singleton _ _).symm⟩

lemma Sound.step {s s' : TrafficLink} (h : s.Sound) (hs : step side op s = .ok s') : s'.Sound := by
  cases steps_of_step hs with
  | refused => exact h
  | @tooLong _ b t =>
    refine ⟨formed_put h.formed fun m hm => ?_, ?_⟩
    · rcases mem_concat.mp hm with hm | rfl
      · exact h.formed _ m hm
      · exact ⟨rfl, by norm_num⟩
    have hnew := (queued_put TransferTraffic.X (index b) (s.sender.queues (index b) ++ [⟨t, [], 0⟩]) s.sender).length_eq
    have hold := (queued_perm TransferTraffic.X s.sender.queues (index b)).length_eq
    have hcounted := h.counted
    rw [flatMap_append] at hnew
    simp only [flatMap_cons, flatMap_nil, append_nil] at hnew hold
    unfold queued at hcounted
    show s.received.length + ((s.sender.put _ _).queued.flatMap TransferTraffic.X).length ≤ s.accepted.length
    omega
  | @goes _ b t init old base _ hlen hgoes =>
    obtain ⟨hformed, hroom, hX⟩ := goes_formed hgoes (h.formed _)
    have hinit : ∀ m ∈ init, m.Formed := fun m hm =>
      h.formed _ m (by rw [hgoes.queue_eq]; exact mem_append_left _ hm)
    have hput := hformed.putBuffer s.sender.counter hroom
    unfold TransferTraffic.putBuffer at hput
    rw [dif_pos hlen] at hput
    refine ⟨formed_put h.formed fun m hm => ?_, ?_⟩
    · rcases mem_concat.mp hm with hm | rfl
      · exact hinit m hm
      · exact hput
    have hnew := (queued_put TransferTraffic.X (index b) (init ++ [{ base with
        X := base.X ++ [exitPacket b s.sender.counter hlen], size := base.size + (b.length + 16) }]) s.sender).length_eq
    have hold := (queued_perm TransferTraffic.X s.sender.queues (index b)).length_eq
    have hcounted := h.counted
    have hXlen := congrArg length hX
    rw [flatMap_append, flatMap_singleton] at hnew
    rw [hgoes.queue_eq, flatMap_append] at hold
    simp only [length_append, length_singleton] at hnew hold
    unfold queued at hcounted
    show s.received.length + ((s.sender.put _ _).queued.flatMap TransferTraffic.X).length ≤ (s.accepted ++ [_]).length
    rw [length_append, length_singleton]
    omega
  | flush =>
    have hle := handle_flatMap_le s.sender.queued
    have hcounted := h.counted
    refine ⟨fun i m hm => (nomatch hm), ?_⟩
    show (s.received ++ s.sender.queued.flatMap TransferTraffic.received).length +
      ((indices.flatMap fun _ => []).flatMap TransferTraffic.X).length ≤ s.accepted.length
    rw [queued_empty, length_append]
    exact Nat.le_trans (Nat.add_le_add_left hle _) hcounted

variable {p q : UInt64}

lemma handle_perm_iff (hX : (handleTransferTrafficMessage p X).length = X.length) :
    (handleTransferTrafficMessage q X).Perm (handleTransferTrafficMessage p X) ↔ (X ≠ [] → p = q) := by
  constructor
  · intro hperm hne
    have hpos : 0 < (handleTransferTrafficMessage p X).length := by
      rw [hX]
      exact length_pos_iff.mpr hne
    obtain ⟨pkt, hpkt⟩ := exists_mem_of_length_pos hpos
    exact (handle_protocol pkt hpkt).symm.trans (handle_protocol pkt (hperm.mem_iff.mpr hpkt))
  · intro heq
    by_cases hne : X = []
    · rw [hne]
      exact Perm.refl _
    · rw [heq hne]

lemma joined_perm_iff {counter : UInt64} (hlen : b.length ≤ maxExitMTU)
    (hX : (handleTransferTrafficMessage p X).length = X.length) :
    (handleTransferTrafficMessage q (X ++ [exitPacket b counter hlen])).Perm
        (handleTransferTrafficMessage p X ++ [⟨b, counter, q⟩]) ↔ b ≠ [] ∧ (X ≠ [] → p = q) := by
  rw [handle_append, handle_exitPacket]
  by_cases hb : b = []
  · rw [if_pos hb, append_nil]
    refine ⟨fun hperm => ?_, fun h => absurd hb h.1⟩
    have hlength := hperm.length_eq
    rw [length_append, handle_length_eq q p, length_singleton] at hlength
    omega
  · rw [if_neg hb, perm_append_right_iff, handle_perm_iff hX]
    exact ⟨fun h => ⟨hb, h⟩, fun h => h.2⟩

lemma delivered_step_iff {s s' : TrafficLink} (h : s.Sound) (hd : s.Delivered)
    (hs : step side op s = .ok s') : s'.Delivered ↔ Fine side op s := by
  cases steps_of_step hs with
  | refused hnone =>
    refine ⟨fun _ b hb => ?_, fun _ => hd⟩
    rw [hnone] at hb
    cases hb
  | @tooLong _ b t hsome =>
    have hQ := queued_perm TransferTraffic.received s.sender.queues (index b)
    have hQ' := queued_put TransferTraffic.received (index b) (s.sender.queues (index b) ++ [⟨t, [], 0⟩]) s.sender
    rw [flatMap_append, show ([⟨t, [], 0⟩] : List TransferTraffic).flatMap TransferTraffic.received = [] from rfl,
      append_nil] at hQ'
    refine ⟨fun _ b' hb' hlen => ?_, fun _ => ((hQ'.trans hQ.symm).append_left s.received).trans hd⟩
    rw [hsome] at hb'
    obtain rfl := some.inj hb'
    omega
  | @goes buf b t init old base hsome hlen hgoes =>
    have hQ := queued_perm TransferTraffic.received s.sender.queues (index b)
    rw [hgoes.queue_eq, flatMap_append] at hQ
    have hQ' := queued_put TransferTraffic.received (index b) (init ++ [{ base with
      X := base.X ++ [exitPacket b s.sender.counter hlen], size := base.size + (b.length + 16) }]) s.sender
    rw [flatMap_append, flatMap_singleton] at hQ'
    have hiff := perm_change (p := ⟨b, s.sender.counter, t.code⟩) hd hQ hQ'
    refine hiff.trans ?_
    have hfine : Fine side (.queue buf t) s ↔ b ≠ [] ∧ ∀ back, (s.sender.queues (index b)).getLast? = some back →
        back.size + b.length ≤ exitPadSize → back.X ≠ [] → back.protocol = t := by
      constructor
      · intro hf
        exact hf b hsome hlen
      · intro hf b' hb' _
        rw [hsome] at hb'
        obtain rfl := some.inj hb'
        exact hf
    refine Iff.trans ?_ hfine.symm
    cases hgoes with
    | new hq hfull =>
      refine (joined_perm_iff (p := t.code) (X := []) hlen rfl).trans ⟨fun hf => ⟨hf.1, fun back hback hfits _ => ?_⟩,
        fun hf => ⟨hf.1, fun _ => rfl⟩⟩
      have := hfull back hback
      omega
    | last back hq hfits =>
      have hmem : back ∈ s.sender.queued := mem_queued.mpr ⟨index b, by rw [hq]; exact mem_append_right _ mem_cons_self⟩
      have hlast : (s.sender.queues (index b)).getLast? = some back := by rw [hq, getLast?_concat]
      rw [flatMap_singleton]
      refine (joined_perm_iff hlen (h.received_length hd hmem)).trans ⟨fun hf => ⟨hf.1, fun _ hback' _ hne => ?_⟩,
        fun hf => ⟨hf.1, fun hne => congrArg ProtocolType.code (hf.2 back hlast hfits hne)⟩⟩
      rw [hlast] at hback'
      obtain rfl := some.inj hback'
      exact ProtocolType.code_injective (hf.2 hne)
  | flush =>
    refine ⟨fun _ => trivial, fun _ => ?_⟩
    show (s.received ++ _ ++ (indices.flatMap fun _ => []).flatMap TransferTraffic.received).Perm s.accepted
    rw [queued_empty, flatMap_nil, append_nil]
    exact hd

end TrafficLink

section
variable (pq : ℕ) (dht : DhtCodec)

def TransferTraffic.toMessage (S : UInt64) (m : TransferTraffic) : (transferTrafficMessage pq dht).Object :=
  update (update (update (transferTrafficMessage pq dht).new 80 m.protocol.code) 83 S) 88 m.X

def messageProtocol (o : (transferTrafficMessage pq dht).Object) : UInt64 := o 80

def messagePackets (o : (transferTrafficMessage pq dht).Object) : List ExitPacket := o 88

def TransferTraffic.text (S : UInt64) (m : TransferTraffic) : Bytes :=
  [100] ++ ((str [65] ++ str [73]) ++ ((str [80] ++ int m.protocol.code) ++ ((str [83] ++ int S) ++ ((str [86] ++ int 0) ++
    ((str [88] ++ ([108] ++ m.X.flatMap (fun x => str x.1) ++ [101])) ++ []))))) ++ [101]

lemma TransferTraffic.prints (S : UInt64) (m : TransferTraffic) :
    PrintsDict ((transferTrafficMessage pq dht).bencode (m.toMessage pq dht S)) (m.text S) := by
  have htype := (prints_writeBytestring [65]).seq (prints_writeBytestring [73])
  have hP := (prints_writeBytestring [80]).seq (prints_writeUint64 m.protocol.code)
  have hS := (prints_writeBytestring [83]).seq (prints_writeUint64 S)
  have hV := (prints_writeBytestring [86]).seq (prints_writeUint64 0)
  have hX : Prints ((transferTrafficMessage pq dht).writeEntry (m.toMessage pq dht S) (.field 88 88))
      (str [88] ++ ([108] ++ m.X.flatMap (fun x => str x.1) ++ [101])) :=
    (prints_writeBytestring [88]).seq (((prints_write [108]).seq
      (prints_writeAll (fun x : ExitPacket => prints_writeBytestring x.1) m.X)).seq (prints_write [101]))
  exact ((prints_write [100]).seq (htype.seq (hP.seq (hS.seq (hV.seq (hX.seq prints_skip)))))).dict

variable {pq dht}

lemma str_length_le {x : Bytes} (hx : x.length ≤ 1508) : (str x).length ≤ x.length + 5 := by
  have hdigits : (decimal x.length).length ≤ 4 := decimal_length_le (by norm_num) (by omega)
  unfold str
  rw [length_append, length_append, length_singleton]
  omega

lemma int_length_le (i : UInt64) : (int i).length ≤ 22 := by
  have hdigits : (decimal i.toNat).length ≤ 20 := decimal_length_le (by norm_num) (by have := i.toNat_lt; omega)
  unfold int
  rw [length_append, length_cons, length_singleton]
  omega

lemma packets_length_le (X : List ExitPacket) :
    (X.flatMap fun x => str x.1).length ≤ (X.map fun x => x.1.length + 8).sum := by
  induction X with
  | nil => exact le_refl 0
  | cons x X =>
    have hx := str_length_le x.2
    rw [flatMap_cons, length_append, map_cons, sum_cons]
    omega

lemma TransferTraffic.Formed.text_length (h : m.Formed) (S : UInt64) : (m.text S).length ≤ 4096 := by
  have hX := packets_length_le m.X
  have hP := int_length_le m.protocol.code
  have hS := int_length_le S
  have hV := int_length_le 0
  have hsize := h.size
  have hsmall := h.small
  have hkey : ∀ c : UInt8, (str [c]).length = 3 := fun c => rfl
  unfold TransferTraffic.text
  simp only [length_append, hkey, length_singleton, length_nil]
  omega

end

namespace TrafficLink
open TrafficQueues

/-- Accepted packets are received once, as they were, exactly when each has bytes and joins only packets of its type.
-/
theorem traffic_as_queued_iff (side : Side) (counter : UInt64) (ops : List Op) :
    (Run.Always (step side) Delivered ops (start counter) ↔ Run.Obeys (step side) (Fine side) ops (start counter)) ∧
      ∀ s, exec (step side) ops (start counter) = .ok s → ∀ m ∈ s.sender.queued,
        ∀ pq dht (h : Holder pq dht), Reachable pq dht h → ∀ S pad n, 4096 ≤ n →
          ∃ b, ((transferTrafficMessage pq dht).bencode (m.toMessage pq dht S)).into n = some b ∧
            ∃ o : (schema pq dht .traffic).Object, parse pq dht h (b ++ pad) = .ok (some ⟨.traffic, o⟩) ∧
              handleTransferTrafficMessage (messageProtocol pq dht o) (messagePackets pq dht o) = m.received := by
  constructor
  · have hstart : (start counter).Delivered := by
      show ([] ++ (indices.flatMap fun _ => []).flatMap TransferTraffic.received).Perm []
      rw [queued_empty]
      exact Perm.refl _
    exact always_iff_obeys (fun _ _ _ => Sound.step) (fun _ _ e _ => nomatch e)
      (fun _ _ _ hsound => delivered_step_iff hsound) ops _ (sound_start counter) hstart
  · intro s hs m hm pq dht h hreach S pad n hn
    have hruns : Run.Reaches (step side) (fun _ _ => True) (start counter) s := exec_reaches (fun _ _ _ => trivial) hs
    have hsound : s.Sound := hruns.inv (fun _ _ _ hsound _ => hsound.step) (sound_start counter)
    obtain ⟨i, hi⟩ := mem_queued.mp hm
    have hinto := (m.prints pq dht S).into_eq n
    rw [if_pos (le_trans ((hsound.formed i m hi).text_length S) hn)] at hinto
    refine ⟨m.text S, hinto, m.toMessage pq dht S, ?_, rfl⟩
    unfold Writer.into at hinto
    split at hinto
    · rename_i b hok
      have hcurrent : Current pq dht .traffic (m.toMessage pq dht S) := ⟨rfl, trivial⟩
      have hparse := parse_bencode hreach (by decide) hcurrent trivial (zero_le _) hok pad (by decide)
      rwa [drop_zero, some.inj hinto] at hparse
    · cases hinto

/-- an IPv4 packet without payload, with the identification `n` -/
def v4 (n : UInt8) : Bytes := [0x45, 0, 0, 20, 0, n] ++ replicate 14 0
/-- the rewriting of an exit for the client `10.0.0.1`, which is put in as the destination -/
def toClient : Side := .exit fun buf => if buf.length < 20 then none else some (buf.take 16 ++ [10, 0, 0, 1] ++ buf.drop 20)

theorem traffic_as_queued_iff_two : Run.Always (step .client) Delivered
    [.queue (v4 1) .trafficV4, .queue (v4 2) .trafficV4, .flush] (start 7) := by
  refine (traffic_as_queued_iff .client 7 _).1.mpr ⟨?_, fun s1 h1 => ⟨?_, fun s2 h2 => ⟨trivial, fun _ _ => trivial⟩⟩⟩
  · intro b hb _
    obtain rfl := some.inj hb
    exact ⟨by decide, fun back hback => nomatch hback⟩
  obtain rfl := Except.ok.inj h1
  intro b hb _
  obtain rfl := some.inj hb
  refine ⟨by decide, fun back hback _ _ => ?_⟩
  obtain rfl := some.inj hback
  rfl

/-- a QUIC packet is received as one of IPv4 put behind it in the message -/
theorem traffic_type_changed :
    (∃ s, exec (step .client) [.queue (v4 1) .quic, .queue (v4 2) .trafficV4, .flush] (start 7) = .ok s ∧
      s.accepted = [⟨v4 1, 7, 5⟩, ⟨v4 2, 8, 1⟩] ∧ s.received = [⟨v4 1, 7, 1⟩, ⟨v4 2, 8, 1⟩]) ∧
    (∃ s, exec (step toClient) [.queue (v4 1) .quic, .queue (v4 2) .trafficV4, .flush] (start 7) = .ok s ∧
      s.accepted = [⟨v4 1, 7, 5⟩, ⟨(v4 2).take 16 ++ [10, 0, 0, 1], 8, 1⟩] ∧
      s.received = [⟨v4 1, 7, 1⟩, ⟨(v4 2).take 16 ++ [10, 0, 0, 1], 8, 1⟩]) := by
  exact ⟨ok_sat, ok_sat⟩

/-- No more packets are received and queued than were accepted; a queued message counts its size, at most 1516. -/
theorem traffic_counted (side : Side) (counter : UInt64) (ops : List Op) :
    Run.Always (step side) Sound ops (start counter) :=
  Run.always_of_inv (fun _ _ _ => Sound.step) (fun _ h => h) ops (sound_start counter)

end TrafficLink

end Belnet.Handlers
