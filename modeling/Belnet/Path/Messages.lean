import Belnet.Iwp.Session
import Belnet.Path.Frame

/-!
# The messages that build a path

`llarp/messages/relay_commit.cpp`, `llarp/messages/relay_status.cpp`, `Path::HandleLRSM`, `TransitHop::HandleLRSM`.
-/

set_option linter.dupNamespace false

namespace Belnet.Path
open Iwp Util EncryptedFrame

abbrev PathID := AlignedBuffer 16

abbrev RouterID := AlignedBuffer 32

abbrev maxLen : ℕ := 8

abbrev defaultLifetime : Millis := 20 * 60 * 1000

abbrev recordVersion : UInt64 := 0

def isZero {n : ℕ} (b : AlignedBuffer n) : Bool := b = .zero n

structure RouterContact extends Iwp.RouterContact where
  enckey : PubKey
deriving DecidableEq

def Frames.assign (dst src : Frames) : Frames := List.Vector.map₂ EncryptedFrame.assign dst src

def Frames.copied (frames : Frames) : Frames := frames.map EncryptedFrame.copied

def Frames.shiftBack (frames : Frames) : List.Vector EncryptedFrame 7 :=
  List.Vector.map₂ EncryptedFrame.assign frames.tail ⟨frames.toList.take 7, by simp⟩

/-! ## status records -/

structure LRStatusRecord where
  status : UInt64 := 0
  version : UInt64 := 0

namespace LRStatusRecord

abbrev success : UInt64 := 1

abbrev failCongestion : UInt64 := 4

abbrev failDecryptError : UInt64 := 16

abbrev failMalformedRecord : UInt64 := 32

abbrev failDestInvalid : UInt64 := 64

abbrev failDuplicateHop : UInt64 := 256

def bencode (r : LRStatusRecord) : Writer :=
  ((startDict.seq (writeDictInt [115] r.status)).seq (writeDictInt [118] recordVersion)).seq endDict

def onKey : Sink LRStatusRecord := fun r key b =>
  match key with
  | none => .ok (some (r, b))
  | some key =>
    if startsWith [115] key then intEntry (fun i => some { r with status := i }) b
    else if startsWith [118] key then
      intEntry (fun i => if i = recordVersion then some { r with version := i } else none) b
    else .ok none

def bdecode (b : Bytes) : Except MemFault (Option LRStatusRecord) := do
  return (← readDict onKey {} b).map Prod.fst

end LRStatusRecord

/-! ## status messages -/

structure LRStatusMessage where
  frames : Frames
  pathid : PathID
  status : UInt64

def EncryptedFrame.read (f : EncryptedFrame) (b : Bytes) : Except MemFault (Option (EncryptedFrame × Bytes)) :=
  match readString b with
  | none => .ok none
  | some (x, rest) => do return (← f.bdecode x).map fun f => (f, rest)

def Frames.clear (frames : Frames) : Frames := frames.map fun f => { f with sz := 0, sz_le := Nat.zero_le _ }

def LRStatusMessage.decodeKey (m : LRStatusMessage) (key b : Bytes) :
    Except MemFault (Option (LRStatusMessage × Bytes)) :=
  if startsWith [99] key then do
    return (← readArray read m.frames b).map fun r => ({ m with frames := r.1 }, r.2)
  else if startsWith [112] key then bufferEntry (fun x => { m with pathid := x }) b
  else if startsWith [115] key then intEntry (fun i => some { m with status := i }) b
  else if startsWith [118] key then intEntry (fun i => if i = recordVersion then some m else none) b
  else .ok none

structure FrameNoise where
  fill : Bytes
  nonce : TunnelNonce
  pubkey : PubKey

namespace LRStatusMessage

def addFrame (c : Crypto) (pathKey : SharedSecret) (newStatus : UInt64) (noise : FrameNoise)
    (frames : Frames) : Except MemFault (Bool × Frames) := do
  let record : LRStatusRecord := { status := newStatus, version := recordVersion }
  -- encode record
  let (ok, frame) := (frames.head.randomize noise.fill).writeRecord record.bencode
  if !ok then return (false, frame ::ᵥ frames.shiftBack)
  else
    -- use ephemeral keypair for frame
    let (ok, frame) ← frame.doEncrypt c pathKey (some (noise.nonce, noise.pubkey))
    return (ok, frame ::ᵥ frames.shiftBack)

def dummyFrames (fill : ℕ → Bytes) : Frames := List.Vector.ofFn fun i => (new encryptedFrameBodySize).randomize (fill i)

def create (c : Crypto) (pathid : PathID) (pathKey : SharedSecret) (status : UInt64) (dummy : ℕ → Bytes)
    (noise : FrameNoise) : Except MemFault LRStatusMessage := do
  let (_, frames) ← addFrame c pathKey status noise (dummyFrames dummy)
  return { frames, pathid, status }

end LRStatusMessage

structure TransitHopInfo where
  txID : PathID
  rxID : PathID
  upstream : RouterID
  downstream : RouterID
deriving DecidableEq

structure TransitHop where
  info : TransitHopInfo
  pathKey : SharedSecret
  nonceXOR : ShortHash
  started : Millis
  lifetime : Millis
deriving DecidableEq

def TransitHop.handleLRSM (c : Crypto) (hop : TransitHop) (noise : FrameNoise) (status : UInt64)
    (frames : Frames) : Except MemFault LRStatusMessage := do
  let (_, frames) ← LRStatusMessage.addFrame c hop.pathKey LRStatusRecord.success noise frames.copied
  return { frames, pathid := hop.info.rxID, status }

structure PathHopConfig where
  txID : PathID
  rxID : PathID
  rc : RouterContact
  commkey : SecretKey
  shared : SharedSecret
  nonceXOR : ShortHash
  upstream : RouterID
  nonce : TunnelNonce

structure Path where
  hops : List PathHopConfig
  hops_ne : hops ≠ []
  hops_le : hops.length ≤ maxLen

inductive LRSMResult where
  | confirm
  | failed (failedAt : Option RouterID) (status : UInt64)

def statusLoop (c : Crypto) : ℕ → UInt64 → List PathHopConfig → List EncryptedFrame →
    Except MemFault (UInt64 × Option RouterID)
  | _, currentStatus, [], _ => .ok (currentStatus, none)
  | index, _, _ :: _, [] => .error (.outside index 1)
  | index, _, hop :: hops, frame :: frames => do
    let (ok, frame) ← frame.doDecrypt c hop.shared
    if !ok then return (LRStatusRecord.failDecryptError, some hop.rc.pubkey)
    else
      match ← LRStatusRecord.bdecode frame.body with
      | none => return (LRStatusRecord.failMalformedRecord, some hop.rc.pubkey)
      | some record =>
        if record.status &&& LRStatusRecord.success ≠ LRStatusRecord.success then
          -- first hop building too fast
          if record.status &&& LRStatusRecord.failCongestion ≠ 0 ∧ index = 0 then
            return (record.status, some hop.rc.pubkey)
          -- failed at next hop
          else return (record.status, hops.head?.map fun next => next.rc.pubkey)
        else statusLoop c (index + 1) record.status hops frames

def Path.handleLRSM (c : Crypto) (path : Path) (status : UInt64) (frames : Frames) : Except MemFault LRSMResult := do
  let (currentStatus, failedAt) ← statusLoop c 0 status path.hops frames.toList
  if currentStatus &&& LRStatusRecord.success = LRStatusRecord.success then return .confirm
  else return .failed failedAt currentStatus

structure PoW where
  timestamp : Millis := 0
  extendedLifetime : Millis := 0
  nonce : AlignedBuffer 32 := .zero 32
  version : UInt64 := recordVersion

def PoW.decodeKey : Sink PoW := fun w key b =>
  match key with
  | none => .ok (some (w, b))
  | some _ => .ok none

structure LRCommitRecord where
  commkey : PubKey := .zero 32
  nextHop : RouterID := .zero 32
  tunnelNonce : TunnelNonce := .zero 32
  txid : PathID := .zero 16
  rxid : PathID := .zero 16
  nextRC : Option RouterContact := none
  work : Option PoW := none
  version : UInt64 := 0
  lifetime : Millis := 0

/-- how a router contact is written and read; the reader has the rest of a buffer and makes no other -/
structure RCCodec where
  bencode : RouterContact → Writer
  bdecode : Bytes → Except MemFault (Option (RouterContact × Bytes))
  bdecode_inside : ∀ b off n, bdecode b ≠ .error (.outside off n)

/-- how a proof of work is written and read -/
structure PoWCodec where
  bencode : PoW → Writer
  bdecode : Bytes → Except MemFault (Option (PoW × Bytes))

def PoW.codec : PoWCodec := ⟨fun _ => startDict.seq endDict, readDict PoW.decodeKey {}⟩

/-- the lifetimes that are written -/
def Short (lifetime : Millis) : Prop := 10000 < lifetime ∧ lifetime < defaultLifetime

instance (lifetime : Millis) : Decidable (Short lifetime) := inferInstanceAs (Decidable (_ ∧ _))

namespace LRCommitRecord
variable (codec : RCCodec) (pow : PoWCodec)

def writeOption {α : Type} (key : UInt8) (bencode : α → Writer) : Option α → Writer
  | some a => (writeBytestring [key]).seq (bencode a)
  | none => skip

def bencodeWith (r : LRCommitRecord) : Writer :=
  ((((((((startDict.seq ((writeBytestring [99]).seq (writeBytestring r.commkey.toList))).seq
    ((writeBytestring [105]).seq (writeBytestring r.nextHop.toList))).seq
    (if Short r.lifetime then writeDictInt [105] (.ofInt r.lifetime) else skip)).seq
    ((writeBytestring [110]).seq (writeBytestring r.tunnelNonce.toList))).seq
    ((writeBytestring [114]).seq (writeBytestring r.rxid.toList))).seq
    ((writeBytestring [116]).seq (writeBytestring r.txid.toList))).seq
    (writeOption 117 codec.bencode r.nextRC)).seq
    ((writeDictInt [118] recordVersion).seq
    (writeOption 119 pow.bencode r.work))).seq
    endDict

def onKeyWith : Sink LRCommitRecord := fun r key b =>
  match key with
  | none => .ok (some (r, b))
  | some key =>
    if startsWith [99] key then bufferEntry (fun x => { r with commkey := x }) b
    else if startsWith [105] key then bufferEntry (fun x => { r with nextHop := x }) b
    else if startsWith [108] key then intEntry (fun i => some { r with lifetime := i.toInt64.toInt }) b
    else if startsWith [110] key then bufferEntry (fun x => { r with tunnelNonce := x }) b
    else if startsWith [114] key then bufferEntry (fun x => { r with rxid := x }) b
    else if startsWith [116] key then bufferEntry (fun x => { r with txid := x }) b
    else if startsWith [117] key then do
      return (← codec.bdecode b).map fun x => ({ r with nextRC := some x.1 }, x.2)
    else if startsWith [118] key then
      intEntry (fun i => if i = recordVersion then some { r with version := i } else none) b
    else if startsWith [119] key then
      if r.work.isSome then .ok none
      else do return (← pow.bdecode b).map fun x => ({ r with work := some x.1 }, x.2)
    else .ok none

def bdecodeWith (b : Bytes) : Except MemFault (Option LRCommitRecord) := do
  return (← readDict (onKeyWith codec pow) {} b).map Prod.fst

def bencode (r : LRCommitRecord) : Writer := r.bencodeWith codec PoW.codec

def onKey : Sink LRCommitRecord := onKeyWith codec PoW.codec

def bdecode (b : Bytes) : Except MemFault (Option LRCommitRecord) := bdecodeWith codec PoW.codec b

end LRCommitRecord

/-! ## commit messages -/

structure PathContext where
  us : RouterID
  encryption : SecretKey
  allowTransit : Bool
  pathToRouterAllowed : RouterID → Bool
  transitPaths : List (PathID × TransitHop)
  pathLimits : List (BitVec 128)

namespace PathContext

def hasTransitHop (ctx : PathContext) (info : TransitHopInfo) : Bool :=
  ctx.transitPaths.any fun e => e.1 = info.txID ∧ e.2.info = info

def putTransitHop (ctx : PathContext) (hop : TransitHop) : PathContext :=
  { ctx with transitPaths := (hop.info.txID, hop) :: (hop.info.rxID, hop) :: ctx.transitPaths }

def checkPathLimitHitByIP (ctx : PathContext) (ip : BitVec 128) : Bool × PathContext :=
  if ip ∈ ctx.pathLimits then (true, ctx) else (false, { ctx with pathLimits := ip :: ctx.pathLimits })

end PathContext

structure LRCommitMessage where
  frames : Frames
  downstream : RouterID
  fromAddr : Option (BitVec 128)

inductive LRCMResult where
  | dropped
  | sendStatus (pathid : PathID) (nextHop : RouterID) (pathKey : SharedSecret) (status : UInt64)
  | forward (upstream : RouterID) (frames : Frames)

def sendLRCM (ctx : PathContext) (m : LRCommitMessage) (hop : TransitHop) (frames : Frames) :
    PathContext × LRCMResult :=
  let refuse := fun status =>
    LRCMResult.sendStatus hop.info.rxID hop.info.downstream hop.pathKey status
  if ctx.hasTransitHop hop.info then (ctx, refuse LRStatusRecord.failDuplicateHop)
  else
    -- only do ip limiting from non master nodes
    let (hit, ctx) := match m.fromAddr with
      | some ip => ctx.checkPathLimitHitByIP ip
      | none => (false, ctx)
    if hit then (ctx, refuse LRStatusRecord.failCongestion)
    else if !ctx.pathToRouterAllowed hop.info.upstream then (ctx, refuse LRStatusRecord.failDestInvalid)
    else (ctx.putTransitHop hop, .forward hop.info.upstream frames)

def sendPathConfirm (ctx : PathContext) (hop : TransitHop) : PathContext × LRCMResult :=
  let reply := fun status =>
    LRCMResult.sendStatus hop.info.rxID hop.info.downstream hop.pathKey status
  if ctx.hasTransitHop hop.info then (ctx, reply LRStatusRecord.failDuplicateHop)
  else (ctx.putTransitHop hop, reply LRStatusRecord.success)

def shiftFrames (frames : Frames) (junk : Bytes) : Frames :=
  let last := (new (sub64 frames.head.sz encryptedFrameOverheadSize)).randomize junk
  frames.assign (Frames.assign (.replicate 8 (new encryptedFrameBodySize)) ⟨frames.toList.tail ++ [last], by simp⟩)

/-- what a hop depends on besides its context; the validity of a proof of work is a matter of logarithms -/
structure RelayEnv where
  crypto : PathCrypto
  codec : RCCodec
  powIsValid : PoW → Millis → Bool

section
variable (env : RelayEnv) (ctx : PathContext) (now : Millis) (junk : Bytes)

def handleDecrypted (m : LRCommitMessage) (buf : Bytes) : Except MemFault (Option (TransitHop × Frames)) := do
  match ← LRCommitRecord.bdecode env.codec buf with
  | none => return none
  | some record =>
    if isZero record.txid || isZero record.rxid then return none
    else
      match env.crypto.dhServer record.commkey ctx.encryption record.tunnelNonce with
      | none => return none
      | some pathKey =>
        let lifetime : Millis := match record.work with
          | some work =>
            if env.powIsValid work now then defaultLifetime + work.extendedLifetime
            else if record.lifetime < defaultLifetime ∧ 10000 < record.lifetime then record.lifetime
            else defaultLifetime
          | none =>
            if record.lifetime < defaultLifetime ∧ 10000 < record.lifetime then record.lifetime
            else defaultLifetime
        let hop : TransitHop :=
          { info :=
              { txID := record.txid
                rxID := record.rxid
                upstream := record.nextHop
                downstream := m.downstream }
            pathKey := pathKey
            -- hash of hop key for nonce mutation
            nonceXOR := env.crypto.shorthash pathKey.toList
            started := now
            lifetime := lifetime }
        return some (hop, shiftFrames m.frames junk)

def decryptTarget (frames : Frames) : EncryptedFrame := (new encryptedFrameBodySize).assign frames.head

def handleLRCM (m : LRCommitMessage) : Except MemFault (PathContext × LRCMResult) := do
  if !ctx.allowTransit then return (ctx, .dropped)
  else
    -- copy frames so we own them
    let m := { m with frames := m.frames.copied }
    let (ok, target) ← (decryptTarget m.frames).decryptInPlace env.crypto ctx.encryption
    if !ok then return (ctx, .dropped)
    else
      match ← handleDecrypted env ctx now junk m target.body with
      | none => return (ctx, .dropped)
      | some (hop, frames) =>
        if hop.info.upstream = ctx.us then return sendPathConfirm ctx hop
        else return sendLRCM ctx m hop frames

end

end Belnet.Path
