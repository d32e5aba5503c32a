import Belnet.Path.Messages

/-!
# Messages of hidden services

`ServiceInfo`, `Introduction`, `ProtocolMessage` and `ProtocolFrame` of `llarp/service/`.
-/

namespace Belnet.Service
open Iwp Util Belnet.Path

abbrev Address := AlignedBuffer 32

abbrev ConvoTag := AlignedBuffer 16

abbrev PQCipherBlock := Bytes

def decodeDict {σ : Type} (decodeKey : σ → Bytes → Bytes → Except MemFault (Option (σ × Bytes))) (s : σ)
    (b : Bytes) : Except MemFault (Option (σ × Bytes)) :=
  readDict (fun s key b => match key with
    | none => .ok (some (s, b))
    | some key => decodeKey s key b) s b

structure ServiceCrypto extends PathCrypto where
  pqeDecrypt : PQCipherBlock → Bytes → Option SharedSecret
  deriveSubkey : PubKey → ℕ → PubKey

structure ServiceInfo where
  enckey : PubKey := .zero 32
  signkey : PubKey := .zero 32
  vanity : AlignedBuffer 16 := .zero 16
  version : UInt64 := recordVersion
  cachedAddr : Address := .zero 32
deriving DecidableEq

namespace ServiceInfo
variable (info : ServiceInfo)

def addr : Address := if isZero info.cachedAddr then info.signkey else info.cachedAddr

def same (a b : ServiceInfo) : Prop :=
  a.enckey = b.enckey ∧ a.signkey = b.signkey ∧ a.version = b.version ∧ a.vanity = b.vanity

instance (a b : ServiceInfo) : Decidable (a.same b) := inferInstanceAs (Decidable (_ ∧ _))

def updateAddr : ServiceInfo := { info with cachedAddr := info.addr }

def decodeKey (key b : Bytes) : Except MemFault (Option (ServiceInfo × Bytes)) :=
  if startsWith [101] key then bufferEntry (fun x => { info with enckey := x }) b
  else if startsWith [115] key then bufferEntry (fun x => { info with signkey := x }) b
  else if startsWith [118] key then intEntry (fun i => some { info with version := i }) b
  else if startsWith [120] key then bufferEntry (fun x => { info with vanity := x }) b
  else .ok none

def bdecode (b : Bytes) : Except MemFault (Option (ServiceInfo × Bytes)) := do
  return (← decodeDict decodeKey info b).map fun r => (r.1.updateAddr, r.2)

end ServiceInfo

structure Introduction where
  router : RouterID := .zero 32
  pathID : PathID := .zero 16
  latency : Millis := 0
  expiresAt : Millis := 0
  version : UInt64 := recordVersion
deriving DecidableEq

namespace Introduction

def decodeKey (intro : Introduction) (key b : Bytes) : Except MemFault (Option (Introduction × Bytes)) :=
  if startsWith [107] key then bufferEntry (fun x => { intro with router := x }) b
  else if startsWith [108] key then intEntry (fun i => some { intro with latency := i.toInt64.toInt }) b
  else if startsWith [112] key then bufferEntry (fun x => { intro with pathID := x }) b
  else if startsWith [118] key then intEntry (fun i => some { intro with version := i }) b
  else if startsWith [120] key then intEntry (fun i => some { intro with expiresAt := i.toInt64.toInt }) b
  else .ok none

def bdecode (intro : Introduction) (b : Bytes) : Except MemFault (Option (Introduction × Bytes)) :=
  decodeDict decodeKey intro b

end Introduction

/-! ## messages -/

structure ProtocolMessage where
  proto : UInt64 := 1
  payload : Bytes := []
  introReply : Introduction := {}
  sender : ServiceInfo := {}
  tag : ConvoTag := .zero 16
  seqno : UInt64 := 0
  version : UInt64 := recordVersion
deriving DecidableEq

namespace ProtocolMessage

def decodeKey (msg : ProtocolMessage) (key b : Bytes) : Except MemFault (Option (ProtocolMessage × Bytes)) :=
  if startsWith [97] key then intEntry (fun i => some { msg with proto := i }) b
  else if startsWith [100] key then
    .ok ((readString b).map fun r => ({ msg with payload := r.1 }, r.2))
  else if startsWith [105] key then do
    return (← msg.introReply.bdecode b).map fun r => ({ msg with introReply := r.1 }, r.2)
  else if startsWith [110] key then intEntry (fun i => some { msg with seqno := i }) b
  else if startsWith [115] key then do
    return (← msg.sender.bdecode b).map fun r => ({ msg with sender := r.1 }, r.2)
  else if startsWith [116] key then bufferEntry (fun x => { msg with tag := x }) b
  else if startsWith [118] key then intEntry (fun i => some { msg with version := i }) b
  else .ok none

def bdecode (b : Bytes) : Except MemFault (Option ProtocolMessage) := do
  return (← decodeDict decodeKey {} b).map Prod.fst

end ProtocolMessage

structure ProtocolFrame where
  C : PQCipherBlock
  D : Bytes
  F : PathID
  N : TunnelNonce
  R : UInt64
  T : ConvoTag
  Z : Signature
  version : UInt64 := recordVersion
deriving DecidableEq

abbrev maxProtocolMessageSize : ℕ := 2048 * 2

def writeEntry (k x : Bytes) : Writer := (writeBytestring k).seq (writeBytestring x)

def entry (k x : Bytes) : Bytes := str k ++ str x

namespace ProtocolFrame
variable (f : ProtocolFrame)

def bencode : Writer :=
  (((((((((startDict.seq (writeEntry [65] [72])).seq (if f.C.all (· = 0) then skip else writeEntry [67] f.C)).seq
    (if 0 < f.D.length then writeEntry [68] f.D else skip)).seq
    (writeEntry [70] f.F.toList)).seq
    (if isZero f.N then skip else writeEntry [78] f.N.toList)).seq
    (if f.R = 0 then skip else writeDictInt [82] f.R)).seq
    (if isZero f.T then skip else writeEntry [84] f.T.toList)).seq
    (writeDictInt [86] f.version)).seq
    (writeEntry [90] f.Z.toList)).seq
    endDict

def signed : Option Bytes :=
  match { f with Z := .zero 64 }.bencode ⟨List.replicate maxProtocolMessageSize 0, 0⟩ with
  | (true, b) => some (b.data.take b.cur)
  | (false, _) => none

def fields : Bytes :=
  entry [65] [72] ++ (if f.C.all (· = 0) then [] else entry [67] f.C) ++
    (if 0 < f.D.length then entry [68] f.D else []) ++ entry [70] f.F.toList ++
    (if isZero f.N then [] else entry [78] f.N.toList) ++ (if f.R = 0 then [] else str [82] ++ int f.R) ++
    (if isZero f.T then [] else entry [84] f.T.toList) ++ (str [86] ++ int f.version) ++ entry [90] f.Z.toList

def encoding : Bytes := 100 :: (f.fields ++ [101])

def verify (c : Crypto) (f : ProtocolFrame) (from' : ServiceInfo) : Bool :=
  match f.signed with
  | some b => c.verify from'.signkey b f.Z
  | none => false

def decryptPayload (c : Crypto) (f : ProtocolFrame) (sharedkey : SharedSecret) :
    Except MemFault (Option ProtocolMessage) := ProtocolMessage.bdecode (c.xchacha20 f.D sharedkey f.N)

end ProtocolFrame

structure Identity where
  enckey : SecretKey
  pq : Bytes
  pub : ServiceInfo

namespace Sample

def crypto : ServiceCrypto where
  shorthash _ := .ofBytes 32 [1]
  hmac _ _ := none
  keystream _ _ _ := 0
  verify k _ z := z.head == k.head
  transportDhClient _ _ _ := none
  transportDhServer _ _ _ := none
  dhClient _ _ _ := some (.zero 32)
  dhServer _ _ _ := some (.zero 32)
  toPublic _ := .zero 32
  pqeDecrypt _ _ := some (.zero 32)
  deriveSubkey k _ := k

def key (n : UInt8) : PubKey := .ofBytes 32 [n]

end Sample

/-! ## introsets, of `llarp/service/intro_set.cpp` -/

abbrev maxIntrosetSize : ℕ := 4096

def Address.toKey (c : ServiceCrypto) (addr : Address) : PubKey := c.deriveSubkey addr 1

/-- the readers of parts that nothing here looks at: policy, ranges, SRV records, and the size of the post-quantum key
-/
structure IntroSetReaders where
  policy : Bytes → Except MemFault (Option Bytes)
  ranges : Bytes → Except MemFault (Option Bytes)
  srvs : Bytes → Bool
  pqPubKeySize : ℕ

structure IntroSet where
  addressKeys : ServiceInfo := {}
  intros : List Introduction := []
  sntrupKey : Bytes := []
  topic : AlignedBuffer 16 := .zero 16
  supportedProtocols : List UInt64 := []
  timestampSignedAt : Millis := 0
  version : UInt64 := recordVersion
  signature : Signature := .zero 64

namespace IntroSet

def decodeKey (rd : IntroSetReaders) (i : IntroSet) (key b : Bytes) : Except MemFault (Option (IntroSet × Bytes)) :=
  if startsWith [97] key then do
    return (← i.addressKeys.bdecode b).map fun r => ({ i with addressKeys := r.1 }, r.2)
  else if startsWith [101] key then do
    return (← rd.policy b).map fun b => (i, b)
  else if startsWith [105] key then do
    return (← readList (fun l b => do return (← Introduction.bdecode {} b).map fun r => (l ++ [r.1], r.2))
      i.intros b).map fun r => ({ i with intros := r.1 }, r.2)
  else if startsWith [107] key then
    .ok (match readString b with
      | some (k, b) => if k.length = rd.pqPubKeySize then some ({ i with sntrupKey := k }, b) else none
      | none => none)
  else if startsWith [110] key then bufferEntry (fun x => { i with topic := x }) b
  else if startsWith [112] key then do
    return (← readList (fun l b => do return (← readInteger b).map fun r => (l ++ [r.1], r.2))
      i.supportedProtocols b).map fun r => ({ i with supportedProtocols := r.1 }, r.2)
  else if startsWith [114] key then do
    return (← rd.ranges b).map fun b => (i, b)
  else if startsWith [115] key then do
    match ← discard b with
    | none => return none
    | some rest => return if rd.srvs (b.take (b.length - rest.length)) then some (i, rest) else none
  else if startsWith [116] key then intEntry (fun x => some { i with timestampSignedAt := x.toInt64.toInt }) b
  else if startsWith [118] key then intEntry (fun x => some { i with version := x }) b
  else if startsWith [122] key then bufferEntry (fun x => { i with signature := x }) b
  else do
    return (← discard b).map fun b => (i, b)

def bdecode (rd : IntroSetReaders) (b : Bytes) : Except MemFault (Option IntroSet) := do
  return (← decodeDict (decodeKey rd) {} b).map Prod.fst

def getNewestIntroExpiration (i : IntroSet) : Millis := i.intros.foldl (fun t x => max x.expiresAt t) 0

def isExpired (i : IntroSet) (now : Millis) : Bool := i.getNewestIntroExpiration < now

end IntroSet

structure EncryptedIntroSet where
  derivedSigningKey : PubKey := .zero 32
  signedAt : Millis := 0
  introsetPayload : Bytes := []
  nounce : TunnelNonce := .zero 32
  sig : Signature := .zero 64
deriving DecidableEq

namespace EncryptedIntroSet
variable (e : EncryptedIntroSet)

def bencode : Writer :=
  (((((startDict.seq (writeEntry [100] e.derivedSigningKey.toList)).seq (writeEntry [110] e.nounce.toList)).seq
    (writeDictInt [115] (.ofInt e.signedAt))).seq
    (writeEntry [120] e.introsetPayload)).seq
    (writeEntry [122] e.sig.toList)).seq
    endDict

def encoding : Bytes :=
  [100] ++ entry [100] e.derivedSigningKey.toList ++ entry [110] e.nounce.toList ++
    (str [115] ++ int (.ofInt e.signedAt)) ++ entry [120] e.introsetPayload ++ entry [122] e.sig.toList ++ [101]

def signed : Option Bytes :=
  match { e with sig := .zero 64 }.bencode ⟨List.replicate (maxIntrosetSize + 128) 0, 0⟩ with
  | (true, b) => some (b.data.take b.cur)
  | (false, _) => none

def isExpired (now : Millis) : Bool := e.signedAt + defaultLifetime ≤ now

def verify (c : Crypto) (e : EncryptedIntroSet) (now : Millis) : Bool :=
  if e.isExpired now then false
  else match e.signed with
    | some b => c.verify e.derivedSigningKey b e.sig
    | none => false

def maybeDecrypt (c : Crypto) (rd : IntroSetReaders) (e : EncryptedIntroSet) (root : PubKey) :
    Except MemFault (Option IntroSet) := IntroSet.bdecode rd (c.xchacha20 e.introsetPayload root e.nounce)

def order : ℕ := Bytes.loadBig e.derivedSigningKey.toList

end EncryptedIntroSet

end Belnet.Service
