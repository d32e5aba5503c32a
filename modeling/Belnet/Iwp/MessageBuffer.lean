import Belnet.Lib.Run
import Belnet.Iwp.Packet

/-!
# Outbound and inbound messages of a session (`llarp/iwp/message_buffer.{hpp,cpp}`)

A message is one XMIT packet (size, id, digest, first fragment) and a DATA packet for every further fragment.
-/

namespace Belnet.Iwp
open List BitVec Bytes Run

inductive DeliveryStatus where
  | success | dropped
deriving DecidableEq, Repr

/-- the handlers callers pass (told apart by a number), and the lambda of `GotOutboundLIM` -/
inductive Handler where
  | user (n : ℕ)
  | outboundLIM
deriving DecidableEq, Repr

abbrev Bitset := BitVec 8

namespace Bitset

def set (b : Bitset) (i : ℕ) : Bitset := b ||| (1#8 <<< i)

def test (b : Bitset) (i : ℕ) : Bool := b.getLsbD i

lemma test_set (b : Bitset) (i j : ℕ) (hi : i < 8) : (b.set i).test j = (b.test j || decide (i = j)) := by
  unfold set test
  by_cases hj : j < 8
  · simp only [getLsbD_or, getLsbD_shiftLeft, getLsbD_one]
    by_cases h : i = j
    · subst h; simp [hi]
    · have hz : j < i ∨ j - i ≠ 0 := by omega
      rcases hz with hz | hz <;> simp [h, hj, hz]
  · have h : i ≠ j := by omega
    rw [getLsbD_of_ge _ _ (by omega), getLsbD_of_ge b _ (by omega)]
    simp [h]

end Bitset

def testInbound (b : Bitset) (i : ℕ) : Except Fault Bool :=
  if i < maxFragments then .ok (b.test i) else .error (.inboundBitset i)

def setInbound (b : Bitset) (i : ℕ) : Except Fault Bitset :=
  if i < maxFragments then .ok (b.set i) else .error (.inboundBitset i)

def testOutbound (b : Bitset) (i : ℕ) : Except Fault Bool :=
  if i < maxFragments then .ok (b.test i) else .error (.outboundBitset i)

def fragments (n : ℕ) : List ℕ := blocks n fragmentSize

lemma mem_fragments {n x : ℕ} : x ∈ fragments n ↔ x < n ∧ x % fragmentSize = 0 := mem_blocks (by norm_num)

def allSet (test : ℕ → Except Fault Bool) : List ℕ → Except Fault Bool
  | [] => .ok true
  | idx :: rest => do
    if ← test (idx / fragmentSize) then allSet test rest else return false

lemma allSet_cons (test : ℕ → Except Fault Bool) (idx : ℕ) (rest : List ℕ) :
    allSet test (idx :: rest) = test (idx / fragmentSize) >>= fun b =>
      if b = true then allSet test rest else .ok false := rfl

variable {test : ℕ → Except Fault Bool} {l : List ℕ}

lemma allSet_true (h : allSet test l = .ok true) : ∀ idx ∈ l, test (idx / fragmentSize) = .ok true := by
  induction l with
  | nil => intro idx hidx; cases hidx
  | cons i l ih =>
    rw [allSet_cons] at h
    obtain ⟨b, hb, h⟩ := ok_bind.mp h
    cases b with
    | false => cases h
    | true =>
      intro idx hidx
      rcases mem_cons.mp hidx with rfl | hidx
      · exact hb
      · exact ih h idx hidx

lemma allSet_error {e : Fault} (h : allSet test l = .error e) : ∃ idx ∈ l, test (idx / fragmentSize) = .error e := by
  induction l with
  | nil => cases h
  | cons i l ih =>
    rw [allSet_cons] at h
    rcases error_bind.mp h with hb | ⟨b, _, h⟩
    · exact ⟨i, mem_cons_self, hb⟩
    cases b with
    | false => cases h
    | true =>
      obtain ⟨idx, hidx, ht⟩ := ih h
      exact ⟨idx, mem_cons_of_mem _ hidx, ht⟩

/-! ## outbound messages -/

structure OutboundMessage where
  data : Message
  msgID : UInt64
  acks : Bitset
  completed : Option Handler
  lastFlush : Millis
  digest : ShortHash
  startedAt : Millis
  resendPriority : UInt16

namespace OutboundMessage

def new (c : Crypto) (msgid : UInt64) (msg : Message) (now : Millis) (handler : Option Handler)
    (priority : UInt16) : OutboundMessage where
  data := msg
  msgID := msgid
  acks := Bitset.set 0 0
  completed := handler
  lastFlush := now
  digest := c.shorthash msg
  startedAt := now
  resendPriority := priority

/-- `operator<`: the first order is reversed, higher means more important; the second part is for
queue order -/
def lt (a b : OutboundMessage) : Bool :=
  b.resendPriority < a.resendPriority ∨ (a.resendPriority = b.resendPriority ∧ a.msgID < b.msgID)

def xmitBody (id : UInt64) (digest : ShortHash) (data : Message) : Bytes :=
  writeBig 2 data.length ++ (writeBig 8 id.toNat ++ (digest.toList ++ data.take fragmentSize))

variable (m : OutboundMessage)

def xmit (r : Rng) (k : ℕ) : Packet := createPacket r k .xmit (xmitBody m.msgID m.digest m.data) 0 0

def shouldFlush (now : Millis) : Bool := now - m.lastFlush ≥ txFlushInterval

def ack (bitmask : UInt8) : OutboundMessage := { m with acks := bitmask.toBitVec }

def unAckedFrom (acks : Bitset) : List ℕ → Except Fault (List ℕ)
  | [] => .ok []
  | idx :: rest => do
    let acked ← testOutbound acks (idx / fragmentSize)
    let l ← unAckedFrom acks rest
    return if acked then l else idx :: l

def unAcked : Except Fault (List ℕ) := unAckedFrom m.acks (fragments m.data.length)

def isTransmitted : Except Fault Bool := allSet (testOutbound m.acks) (fragments m.data.length)

def isTimedOut (now : Millis) : Bool := now > m.startedAt ∧ now - m.startedAt > deliveryTimeout

lemma unAckedFrom_sub {acks : Bitset} {l' : List ℕ} (h : unAckedFrom acks l = .ok l') :
    (∀ idx ∈ l, idx / fragmentSize < maxFragments) ∧ ∀ idx ∈ l', idx ∈ l := by
  induction l generalizing l' with
  | nil => cases h; exact ⟨fun _ h => (nomatch h), fun _ h => h⟩
  | cons i l ih =>
    have h' := h
    obtain ⟨b, hb, h'⟩ := ok_bind.mp h'
    obtain ⟨_, h1, h'⟩ := ok_bind.mp h'
    obtain ⟨ih1, ih2⟩ := ih h1
    have hi : i / fragmentSize < maxFragments := by
      unfold testOutbound at hb
      split at hb
      · assumption
      · cases hb
    constructor
    · intro idx hidx
      rcases mem_cons.mp hidx with rfl | hidx
      · exact hi
      · exact ih1 idx hidx
    · cases Except.ok.inj h'
      intro idx hidx
      cases b with
      | true => exact mem_cons_of_mem _ (ih2 idx hidx)
      | false =>
        rcases mem_cons.mp hidx with rfl | hidx
        · exact mem_cons_self
        · exact mem_cons_of_mem _ (ih2 idx hidx)

end OutboundMessage

def fragment (data : Message) (idx : ℕ) : Bytes :=
  (data.drop idx).take (if idx + fragmentSize < data.length then fragmentSize else data.length - idx)

def dataBody (idx : ℕ) (id : UInt64) (payload : Bytes) : Bytes :=
  writeBig 2 idx ++ (writeBig 8 id.toNat ++ payload)

def dataPacket (r : Rng) (k idx : ℕ) (id : UInt64) (payload : Bytes) : Packet :=
  createPacket r k .data (dataBody idx id payload) 0 0

structure InboundMessage where
  data : Message
  digest : ShortHash
  msgID : UInt64
  lastACKSent : Millis
  lastActiveAt : Millis
  acks : Bitset

namespace InboundMessage

def new (msgid : UInt64) (sz : UInt16) (h : ShortHash) (now : Millis) : InboundMessage where
  data := replicate sz.toNat 0
  digest := h
  msgID := msgid
  lastACKSent := 0
  lastActiveAt := now
  acks := 0

variable (m : InboundMessage)

def handleData (idx : UInt16) (buf : Bytes) (now : Millis) : Except Fault InboundMessage :=
  if idx.toNat + buf.length > m.data.length then .ok m
  else do
    let acks ← setInbound m.acks (idx.toNat / fragmentSize)
    return { m with data := overwrite m.data idx.toNat buf, acks := acks, lastActiveAt := now }

def acksBitmask : UInt8 := ⟨m.acks⟩

def ackBody (id : UInt64) (mask : UInt8) : Bytes := writeBig 8 id.toNat ++ [mask]

def ackPacket (r : Rng) (k : ℕ) : Packet := createPacket r k .acks (ackBody m.msgID m.acksBitmask) 16 16

def isCompleted : Except Fault Bool := allSet (testInbound m.acks) (fragments m.data.length)

def shouldSendACKS (now : Millis) : Bool := now > m.lastACKSent + ackResendInterval

def isTimedOut (now : Millis) : Bool := now > m.lastActiveAt ∧ now - m.lastActiveAt > deliveryTimeout

def verify (c : Crypto) (m : InboundMessage) : Bool := c.shorthash m.data = m.digest

end InboundMessage

end Belnet.Iwp
