import Belnet.Lib.Bytes

/-!
# IWP packets: sizes, commands, creation, encryption

A packet is `hmac ++ nonce ++ ciphertext`, in plaintext `hmac ++ nonce ++ [version, command] ++ body`
(`llarp/iwp/session.cpp`).
-/

namespace Belnet.Iwp
open List Bytes Except

abbrev Packet := Bytes

abbrev Message := Bytes

abbrev Millis := ℤ

abbrev PubKey := AlignedBuffer 32

abbrev SecretKey := AlignedBuffer 64

abbrev SharedSecret := AlignedBuffer 32

abbrev ShortHash := AlignedBuffer 32

abbrev TunnelNonce := AlignedBuffer 32

abbrev Signature := AlignedBuffer 64

/-! ## sizes and times -/

abbrev hmacSize : ℕ := 32

abbrev tunNonceSize : ℕ := 32

abbrev packetOverhead : ℕ := hmacSize + tunNonceSize

abbrev commandOverhead : ℕ := 2

abbrev fragmentSize : ℕ := 1024

abbrev maxLinkMsgSize : ℕ := 8192

abbrev maxFragments : ℕ := maxLinkMsgSize / fragmentSize

abbrev maxSendQueueSize : ℕ := 1024 * 16

abbrev plaintextQueueSize : ℕ := 512

abbrev protoVersion : UInt8 := 0

abbrev maxACKSInMACK : ℕ := 1024 / 8

abbrev deliveryTimeout : Millis := 500

abbrev receivalTimeout : Millis := deliveryTimeout * 8 / 5

abbrev replayWindow : Millis := receivalTimeout * 3 / 2

abbrev ackResendInterval : Millis := deliveryTimeout / 2

abbrev txFlushInterval : Millis := deliveryTimeout / 5 * 4

abbrev pingInterval : Millis := 5000

abbrev sessionAliveTimeout : Millis := pingInterval * 5

abbrev defaultLinkSessionLifetime : Millis := 5 * 60 * 1000

abbrev linkLayerConnectTimeout : Millis := 5000

inductive Command where
  | ping | xmit | data | acks | nack | mack | clos
deriving DecidableEq, Repr

def Command.toByte : Command → UInt8
  | .ping => 0
  | .xmit => 1
  | .data => 2
  | .acks => 3
  | .nack => 4
  | .mack => 5
  | .clos => 0xff

def Command.ofByte (b : UInt8) : Option Command :=
  if b = 1 then some .xmit
  else if b = 2 then some .data
  else if b = 3 then some .acks
  else if b = 0 then some .ping
  else if b = 4 then some .nack
  else if b = 0xff then some .clos
  else if b = 5 then some .mack
  else none

@[simp] lemma Command.ofByte_toByte (c : Command) : Command.ofByte c.toByte = some c := by cases c <;> rfl

lemma Command.toByte_ofByte {b : UInt8} {c : Command} (h : Command.ofByte b = some c) : c.toByte = b := by
  unfold Command.ofByte at h
  split_ifs at h <;> cases h <;> simp_all [Command.toByte]

inductive Fault where
  | readPastEnd (index size : ℕ)
  | inboundBitset (index : ℕ)
  | outboundBitset (index : ℕ)
deriving DecidableEq, Repr

variable (p : Packet)

def readSlice (off n : ℕ) : Except Fault Bytes :=
  match slice p off n with
  | some b => .ok b
  | none => .error (.readPastEnd (max off p.length) p.length)

def readByte (i : ℕ) : Except Fault UInt8 := do
  let b ← readSlice p i 1
  return b.headD 0

def readBig (off w : ℕ) : Except Fault ℕ := do
  let b ← readSlice p off w
  return loadBig b

def readU16 (off : ℕ) : Except Fault UInt16 := do
  let v ← readBig p off 2
  return .ofNat v

def readU64 (off : ℕ) : Except Fault UInt64 := do
  let v ← readBig p off 8
  return .ofNat v

def readBuf (n : ℕ) (p : Packet) (off : ℕ) : Except Fault (AlignedBuffer n) := do
  let b ← readSlice p off n
  return .ofBytes n b

structure Crypto where
  shorthash : Bytes → ShortHash
  hmac : Bytes → SharedSecret → Option ShortHash
  keystream : SharedSecret → TunnelNonce → ℕ → UInt8
  verify : PubKey → Bytes → Signature → Bool
  transportDhClient : PubKey → SecretKey → TunnelNonce → Option SharedSecret
  transportDhServer : PubKey → SecretKey → TunnelNonce → Option SharedSecret

/-- a stream cipher: the bytes are combined with those of the key stream -/
def xorStream (stream : ℕ → UInt8) (b : Bytes) : Bytes := b.mapIdx fun i x => x ^^^ stream i

@[simp] lemma xorStream_length (stream : ℕ → UInt8) (b : Bytes) :
    (xorStream stream b).length = b.length := List.length_mapIdx

lemma xorStream_twice (stream : ℕ → UInt8) (b : Bytes) :
    xorStream stream (xorStream stream b) = b := by
  unfold xorStream
  rw [List.mapIdx_mapIdx, List.mapIdx_eq_iff]
  intro i
  cases b[i]? with
  | none => rfl
  | some => simp

def Crypto.xchacha20 (c : Crypto) (b : Bytes) (k : SharedSecret) (n : TunnelNonce) : Bytes :=
  xorStream (c.keystream k n) b

@[simp] lemma Crypto.xchacha20_length (c : Crypto) (b : Bytes) (k : SharedSecret)
    (n : TunnelNonce) : (c.xchacha20 b k n).length = b.length := length_mapIdx

/-- the random source: `byte k` for the `k`-th packet, `int k` for its padding, `nonce k` for key exchanges -/
structure Rng where
  byte : ℕ → ℕ → UInt8
  int : ℕ → ℕ
  nonce : ℕ → TunnelNonce
  limNonce : ℕ → Bytes

variable (r : Rng)

def Rng.randbytes (k off n : ℕ) : Bytes := (range n).map (fun i => r.byte k (off + i))

@[simp] lemma Rng.randbytes_length (k off n : ℕ) : (r.randbytes k off n).length = n := by simp [Rng.randbytes]

def Rng.pad (k minpad variance : ℕ) : Bytes :=
  r.randbytes k tunNonceSize (if minpad > 0 then minpad + (if variance > 0 then r.int k % variance else 0) else 0)

def Rng.head (k : ℕ) : Bytes := replicate hmacSize 0 ++ r.randbytes k 0 tunNonceSize

@[simp] lemma Rng.head_length (k : ℕ) : (r.head k).length = packetOverhead := by simp [Rng.head]

def createPacket (k : ℕ) (cmd : Command) (body : Bytes) (minpad variance : ℕ) : Packet :=
  r.head k ++ ([protoVersion, cmd.toByte] ++ (body ++ r.pad k minpad variance))

def encryptPacket (c : Crypto) (key : SharedSecret) (p : Packet) : Packet :=
  let nonce := AlignedBuffer.ofBytes 32 (p.drop hmacSize)
  let tail := (p.drop hmacSize).take tunNonceSize ++ c.xchacha20 (p.drop packetOverhead) key nonce
  match c.hmac tail key with
  | some h => h.toList ++ tail
  | none => p.take hmacSize ++ tail

def decryptMessageInPlace (c : Crypto) (key : SharedSecret) (p : Packet) : Option Packet :=
  if p.length ≤ packetOverhead then none
  else match c.hmac (p.drop hmacSize) key with
    | none => none
    | some h =>
      if h = .ofBytes 32 p then
        some (p.take packetOverhead ++ c.xchacha20 (p.drop packetOverhead) key (.ofBytes 32 (p.drop hmacSize)))
      else none

variable {p : Packet}

lemma decryptInPlace_length {c : Crypto} {key : SharedSecret} {q : Packet}
    (h : decryptMessageInPlace c key p = some q) : packetOverhead < p.length ∧ q.length = p.length := by
  unfold decryptMessageInPlace at h
  split at h
  · cases h
  rename_i hlen
  split at h
  · cases h
  split at h
  · cases h
    refine ⟨by omega, ?_⟩
    rw [length_append, Crypto.xchacha20_length, length_take, length_drop]
    omega
  · cases h

variable {off n : ℕ}

lemma readSlice_ok (h : off + n ≤ p.length) : readSlice p off n = .ok ((p.drop off).take n) := by
  unfold readSlice
  rw [slice_of_le h]

lemma readSlice_le {b : Bytes} (h : readSlice p off n = .ok b) : off + n ≤ p.length := by
  by_contra hlen
  unfold readSlice at h
  rw [slice_eq_none.mpr (by omega)] at h
  cases h

lemma readSlice_length {b : Bytes} (h : readSlice p off n = .ok b) : b.length = n := by
  unfold readSlice at h
  split at h
  · rename_i hs
    cases h
    exact length_of_slice hs
  · cases h

lemma readByte_ok {i : ℕ} (h : i < p.length) : ∃ b, readByte p i = .ok b := by
  unfold readByte
  rw [readSlice_ok (by omega)]
  exact ⟨_, rfl⟩

lemma readU16_ok (h : off + 2 ≤ p.length) : ∃ v, readU16 p off = .ok v := by
  unfold readU16 readBig
  rw [readSlice_ok h]
  exact ⟨_, rfl⟩

lemma readU64_ok (h : off + 8 ≤ p.length) : ∃ v, readU64 p off = .ok v := by
  unfold readU64 readBig
  rw [readSlice_ok h]
  exact ⟨_, rfl⟩

lemma readBuf_ok (h : off + n ≤ p.length) : ∃ v, readBuf n p off = .ok v := by
  unfold readBuf
  rw [readSlice_ok h]
  exact ⟨_, rfl⟩

section
variable (r : Rng) (k : ℕ) (cmd : Command) (body : Bytes) (minpad variance : ℕ)

lemma packet_length : (createPacket r k cmd body minpad variance).length
    = packetOverhead + commandOverhead + body.length + (r.pad k minpad variance).length := by
  unfold createPacket
  rw [length_append, Rng.head_length, length_append, length_append]
  simp only [length_cons, length_nil, commandOverhead]
  omega

lemma readByte_command :
    readByte (createPacket r k cmd body minpad variance) (packetOverhead + 1) = .ok cmd.toByte := by
  unfold readByte readSlice createPacket
  rw [slice_right (Rng.head_length r k)]
  rfl

lemma readSlice_body (off n : ℕ) {x : Bytes} (h : slice (body ++ r.pad k minpad variance) off n = some x) :
    readSlice (createPacket r k cmd body minpad variance) (packetOverhead + (commandOverhead + off)) n = .ok x := by
  unfold readSlice createPacket
  rw [slice_right (Rng.head_length r k),
    slice_right (show [protoVersion, cmd.toByte].length = commandOverhead from rfl), h]

end

lemma readU16_of_slice (h : readSlice p off 2 = .ok (writeBig 2 n)) : readU16 p off = .ok (.ofNat n) := by
  unfold readU16 readBig
  rw [h]
  show ok (UInt16.ofNat (loadBig (writeBig 2 n))) = _
  rw [loadBig_writeBig]
  exact congrArg ok (UInt16.toNat_inj.mp (by simp [UInt16.toNat_ofNat']))

lemma readU64_slice {v : UInt64} (h : readSlice p off 8 = .ok (writeBig 8 v.toNat)) : readU64 p off = .ok v := by
  unfold readU64 readBig
  rw [h]
  show ok (UInt64.ofNat (loadBig (writeBig 8 v.toNat))) = _
  rw [loadBig_writeBig, Nat.mod_eq_of_lt (show v.toNat < 256^8 from v.toNat_lt), UInt64.ofNat_toNat]

lemma readBuf_of_slice {v : AlignedBuffer n} (h : readSlice p off n = .ok v.toList) : readBuf n p off = .ok v := by
  unfold readBuf
  rw [h]
  have hv := AlignedBuffer.ofBytes_append v []
  rw [append_nil] at hv
  exact congrArg ok hv

end Belnet.Iwp
