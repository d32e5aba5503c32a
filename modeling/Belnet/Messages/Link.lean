import Belnet.Contact.Codec
import Belnet.Dht.TXHolder
import Belnet.Service.Publish
import Belnet.Util.Entries

/-!
# Messages of the DHT and of links

The messages that `DecodeMesssageList` reads, each with its table of keys, and those that are sent with their encoders.
-/

namespace Belnet.Messages
open Iwp hiding RouterContact LinkIntroMessage
open Util Decimal
open Service (decodeDict entry writeEntry EncryptedIntroSet)
open Belnet.Path (recordVersion RouterID PathID EncryptedFrame Frames LRStatusMessage encryptedFrameBodySize)
open Contact (RouterContact ContactLibs)
open Dht (Key)

abbrev Tag := AlignedBuffer 16

abbrev SymmNonce := AlignedBuffer 24

def verifyVersion {σ : Type} (s : σ) (b : Bytes) : Except MemFault (Option (σ × Bytes)) :=
  intEntry (fun i => if i = recordVersion then some s else none) b

def readVector {α : Type} (read : Bytes → Except MemFault (Option (α × Bytes))) (l : List α) (b : Bytes) :
    Except MemFault (Option (List α × Bytes)) :=
  readList (fun l b => do return (← read b).map fun x => (l ++ [x.1], x.2)) l b

/-- `bencode_decode_dict` puts the first byte of a key that was refused into the log, also when it has none -/
def loggedSink {σ : Type} (decodeKey : σ → Bytes → Bytes → Except MemFault (Option (σ × Bytes))) : Sink σ :=
  fun s key b => match key with
    | none => .ok (some (s, b))
    | some key => match decodeKey s key b with
      | .ok none => if key = [] ∧ b = [] then .error .pastEnd else .ok none
      | x => x

def readIntroSet (b : Bytes) : Except MemFault (Option (EncryptedIntroSet × Bytes)) :=
  readDict (loggedSink EncryptedIntroSet.decodeKey) {} b

/-! ## the messages -/

structure FindName where
  nameHash : Key := .zero 32
  txid : UInt64 := 0

def FindName.decodeKey (m : FindName) (key b : Bytes) : Except MemFault (Option (FindName × Bytes)) :=
  if startsWith [72] key then bufferEntry (fun x => { m with nameHash := x }) b
  else if startsWith [84] key then intEntry (fun i => some { m with txid := i }) b
  else do return (← discard b).map fun b => (m, b)

structure GotName where
  ciphertext : Bytes := []
  nonce : SymmNonce := .zero 24
  txid : UInt64 := 0

abbrev nameSizeLimit : ℕ := 128

def GotName.decodeKey (m : GotName) (key b : Bytes) : Except MemFault (Option (GotName × Bytes)) :=
  if startsWith [68] key then
    .ok (match readString b with
      | none => none
      | some (x, b) => if nameSizeLimit < x.length then none else some ({ m with ciphertext := x }, b))
  else if startsWith [78] key then bufferEntry (fun x => { m with nonce := x }) b
  else if startsWith [84] key then intEntry (fun i => some { m with txid := i }) b
  else do return (← discard b).map fun b => (m, b)

structure FindIntro where
  tagName : Tag := .zero 16
  relayOrder : UInt64 := 0
  location : Key := .zero 32
  txid : UInt64 := 0

namespace FindIntro

def bencode (m : FindIntro) : Writer :=
  (((((startDict.seq (writeEntry [65] [70])).seq (if m.tagName.toList.head? = some 0 then
      (writeDictInt [79] m.relayOrder).seq (writeEntry [83] m.location.toList)
    else (writeEntry [78] m.tagName.toList).seq (writeDictInt [79] m.relayOrder))).seq
    (writeDictInt [84] m.txid)).seq
    (writeDictInt [86] recordVersion)).seq
    endDict)

def decodeKey (m : FindIntro) (key b : Bytes) : Except MemFault (Option (FindIntro × Bytes)) :=
  if startsWith [78] key then bufferEntry (fun x => { m with tagName := x }) b
  else if startsWith [79] key then intEntry (fun i => some { m with relayOrder := i }) b
  else if startsWith [83] key then bufferEntry (fun x => { m with location := x }) b
  else if startsWith [84] key then intEntry (fun i => some { m with txid := i }) b
  else if startsWith [86] key then verifyVersion m b
  else .ok none

end FindIntro

structure FindRouter where
  exploritory : Bool := false
  iterative : Bool := false
  targetKey : RouterID := .zero 32
  txid : UInt64 := 0
  version : UInt64 := 0

namespace FindRouter

def bencode (m : FindRouter) : Writer :=
  ((((((startDict.seq (writeEntry [65] [82])).seq (writeDictInt [69] (if m.exploritory then 1 else 0))).seq
    (writeDictInt [73] (if m.iterative then 1 else 0))).seq
    (writeEntry [75] m.targetKey.toList)).seq
    (writeDictInt [84] m.txid)).seq
    (writeDictInt [86] m.version)).seq
    endDict

def decodeKey (m : FindRouter) (key b : Bytes) : Except MemFault (Option (FindRouter × Bytes)) :=
  if startsWith [69] key then intEntry (fun i => some { m with exploritory := i ≠ 0 }) b
  else if startsWith [73] key then intEntry (fun i => some { m with iterative := i ≠ 0 }) b
  else if startsWith [75] key then bufferEntry (fun x => { m with targetKey := x }) b
  else if startsWith [84] key then intEntry (fun i => some { m with txid := i }) b
  else if startsWith [86] key then intEntry (fun i => some { m with version := i }) b
  else .ok none

end FindRouter

structure GotRouter where
  closerTarget : Option Key := none
  nearKeys : List RouterID := []
  foundRCs : List RouterContact := []
  txid : UInt64 := 0
  version : UInt64 := recordVersion

namespace GotRouter
variable (lib : ContactLibs)

def bencode (m : GotRouter) : Writer :=
  ((((((startDict.seq (writeEntry [65] [83])).seq (match m.closerTarget with
      | some k => writeEntry [75] k.toList
      | none => skip)).seq
    (if m.nearKeys = [] then skip
      else writeDictList [78] (fun k : RouterID => writeBytestring k.toList) m.nearKeys)).seq
    (writeDictList [82] (RouterContact.bencode lib) m.foundRCs)).seq
    (writeDictInt [84] m.txid)).seq
    (writeDictInt [86] m.version)).seq
    endDict

def decodeKey (net : Contact.NetID) (m : GotRouter) (key b : Bytes) : Except MemFault (Option (GotRouter × Bytes)) :=
  if startsWith [75] key then
    -- duplicate key?
    if m.closerTarget.isSome then .ok none else bufferEntry (fun x => { m with closerTarget := some x }) b
  else if startsWith [78] key then do
    return (← readVector (fun b => .ok (readBuffer 32 b)) m.nearKeys b).map fun x => ({ m with nearKeys := x.1 }, x.2)
  else if startsWith [82] key then do
    return (← readVector (RouterContact.bdecode lib { netID := net }) m.foundRCs b).map fun x =>
      ({ m with foundRCs := x.1 }, x.2)
  else if startsWith [84] key then intEntry (fun i => some { m with txid := i }) b
  else if startsWith [86] key then
    intEntry (fun i => if i = recordVersion then some { m with version := i } else none) b
  else .ok none

end GotRouter

structure PublishIntro where
  introset : EncryptedIntroSet := {}
  relayOrder : UInt64 := 0
  relayed : Bool := false
  txid : UInt64 := 0

namespace PublishIntro

def bencode (m : PublishIntro) : Writer :=
  ((((((startDict.seq (writeEntry [65] [73])).seq ((writeBytestring [73]).seq m.introset.bencode)).seq
    (writeDictInt [79] m.relayOrder)).seq
    (writeDictInt [82] (if m.relayed then 1 else 0))).seq
    (writeDictInt [84] m.txid)).seq
    (writeDictInt [86] recordVersion)).seq
    endDict

def decodeKey (m : PublishIntro) (key b : Bytes) : Except MemFault (Option (PublishIntro × Bytes)) :=
  if startsWith [73] key then do
    return (← readDict (loggedSink EncryptedIntroSet.decodeKey) m.introset b).map fun x =>
      ({ m with introset := x.1 }, x.2)
  else if startsWith [79] key then intEntry (fun i => some { m with relayOrder := i }) b
  else if startsWith [82] key then intEntry (fun i => some { m with relayed := i ≠ 0 }) b
  else if startsWith [84] key then intEntry (fun i => some { m with txid := i }) b
  else if startsWith [86] key then intEntry (fun _ => some m) b
  else .ok none

end PublishIntro

structure GotIntro where
  found : List EncryptedIntroSet := []
  closer : Option Key := none
  txid : UInt64 := 0
  version : UInt64 := recordVersion

namespace GotIntro

def bencode (m : GotIntro) : Writer :=
  (((((startDict.seq (writeEntry [65] [71])).seq (writeDictList [73] EncryptedIntroSet.bencode m.found)).seq
    (match m.closer with
      | some k => writeEntry [75] k.toList
      | none => skip)).seq
    (writeDictInt [84] m.txid)).seq
    (writeDictInt [86] m.version)).seq
    endDict

def decodeKey (m : GotIntro) (key b : Bytes) : Except MemFault (Option (GotIntro × Bytes)) :=
  if startsWith [73] key then do
    return (← readVector readIntroSet m.found b).map fun x => ({ m with found := x.1 }, x.2)
  else if startsWith [75] key then
    -- duplicate key?
    if m.closer.isSome then .ok none else bufferEntry (fun x => { m with closer := some x }) b
  else if startsWith [84] key then intEntry (fun i => some { m with txid := i }) b
  else if startsWith [86] key then intEntry (fun i => some { m with version := i }) b
  else .ok none

end GotIntro

inductive DhtMessage where
  | findName (m : FindName)
  | gotName (m : GotName)
  | findIntro (m : FindIntro)
  | findRouter (m : FindRouter)
  | gotRouter (m : GotRouter)
  | publishIntro (m : PublishIntro)
  | gotIntro (m : GotIntro)

namespace DhtMessage
variable (lib : ContactLibs) (net : Contact.NetID)

def decodeKey (m : DhtMessage) (key b : Bytes) : Except MemFault (Option (DhtMessage × Bytes)) :=
  match m with
  | findName m => onState findName (m.decodeKey key b)
  | gotName m => onState gotName (m.decodeKey key b)
  | findIntro m => onState findIntro (m.decodeKey key b)
  | findRouter m => onState findRouter (m.decodeKey key b)
  | gotRouter m => onState gotRouter (m.decodeKey lib net key b)
  | publishIntro m => onState publishIntro (m.decodeKey key b)
  | gotIntro m => onState gotIntro (m.decodeKey key b)

def new : UInt8 → Option DhtMessage
  | 78 => some (findName {})
  | 77 => some (gotName {})
  | 70 => some (findIntro {})
  | 82 => some (findRouter {})
  | 83 => some (gotRouter {})
  | 73 => some (publishIntro {})
  | 71 => some (gotIntro {})
  | _ => none

def sink : Sink (Option DhtMessage) := fun m key b =>
  match m, key with
  -- empty dict
  | none, none => .ok none
  | some m, none => .ok (some (some m, b))
  | none, some key =>
    if !startsWith [65] key then .ok none
    else .ok (match readString b with
      | some ([x], b) => (new x).map fun m => (some m, b)
      | _ => none)
  | some m, some key => onState some (m.decodeKey lib net key b)

def decode (b : Bytes) : Except MemFault (Option (DhtMessage × Bytes)) := do
  match ← readDict (sink lib net) none b with
  | some (some m, b) => return some (m, b)
  | _ => return none

def decodeList (source : Key) (l : List (Key × DhtMessage)) (b : Bytes) :
    Except MemFault (Option (List (Key × DhtMessage) × Bytes)) :=
  readVector (fun b => do return (← decode lib net b).map fun x => ((source, x.1), x.2)) l b

def bencode : DhtMessage → Writer
  | findIntro m => m.bencode
  | findRouter m => m.bencode
  | gotRouter m => m.bencode lib
  | publishIntro m => m.bencode
  | gotIntro m => m.bencode
  | _ => fun b => (false, b)

end DhtMessage

/-!
## link messages and their parser

`LinkMessageParser` has an object for every kind of message, which a message's first entry chooses; at the end it is
handed over and cleared.
-/

abbrev relaySize : ℕ := maxLinkMsgSize - 128

/-- `RelayUpstreamMessage` and `RelayDownstreamMessage`; of the encrypted part only its bytes are read -/
structure Relay where
  pathid : PathID := .zero 16
  x : Bytes := []
  y : TunnelNonce := .zero 32
  x_le : x.length ≤ relaySize := by simp

namespace Relay

/-- `Encrypted::BDecode` of `X`: `sizeof` of the storage counts a pointer and the padding behind it -/
def readX (b : Bytes) : Except MemFault (Option ({ x : Bytes // x.length ≤ relaySize } × Bytes)) :=
  match readString b with
  | none => .ok none
  | some (x, b) =>
    if relaySize + 16 < x.length then .ok none
    else if h : x.length ≤ relaySize then .ok (some (⟨x, h⟩, b))
    else .error (.outside 0 x.length)

def putX (m : Relay) (x : { x : Bytes // x.length ≤ relaySize }) : Relay := { m with x := x.1, x_le := x.2 }

def decodeX (m : Relay) (b : Bytes) : Except MemFault (Option (Relay × Bytes)) := onState m.putX (readX b)

def decodeKey (m : Relay) (key b : Bytes) : Except MemFault (Option (Relay × Bytes)) :=
  if startsWith [112] key then bufferEntry (fun x => { m with pathid := x }) b
  else if startsWith [118] key then verifyVersion m b
  else if startsWith [120] key then m.decodeX b
  else if startsWith [121] key then bufferEntry (fun x => { m with y := x }) b
  else .ok none

def bencode (type : UInt8) (m : Relay) : Writer :=
  (((((startDict.seq (writeEntry [97] [type])).seq (writeEntry [112] m.pathid.toList)).seq
    (writeDictInt [118] recordVersion)).seq
    (writeEntry [120] m.x)).seq
    (writeEntry [121] m.y.toList)).seq
    endDict

end Relay

def EncryptedFrame.bencode (f : EncryptedFrame) : Writer := writeBytestring (f.bytes 0 f.sz)

/-- `LR_CommitMessage::DecodeKey`; the path id filled here is for the queue of messages only -/
def decodeCommit (frames : Frames) (key b : Bytes) : Except MemFault (Option (Frames × Bytes)) :=
  if startsWith [99] key then readArray EncryptedFrame.read frames b
  else if startsWith [118] key then verifyVersion frames b
  else .ok none

def bencodeCommit (frames : Frames) : Writer :=
  (((startDict.seq (writeEntry [97] [99])).seq (writeDictList [99] EncryptedFrame.bencode frames.toList)).seq
    (writeDictInt [118] recordVersion)).seq
    endDict

def bencodeStatus (m : LRStatusMessage) : Writer :=
  (((((startDict.seq (writeEntry [97] [115])).seq (writeDictList [99] EncryptedFrame.bencode m.frames.toList)).seq
    (writeEntry [112] m.pathid.toList)).seq
    (writeDictInt [115] m.status)).seq
    (writeDictInt [118] recordVersion)).seq
    endDict

structure LinkIntro where
  rc : RouterContact
  n : AlignedBuffer 32 := .zero 32
  z : Signature := .zero 64
  p : UInt64

/-- `DecodeKey`; the first byte of a key that nobody knows goes into the log, also when it has none -/
def LinkIntro.decodeKey (lib : ContactLibs) (m : LinkIntro) (key b : Bytes) :
    Except MemFault (Option (LinkIntro × Bytes)) :=
  if startsWith [97] key then
    .ok (match readString b with
      | some ([x], b) => if x = 105 then some (m, b) else none
      | _ => none)
  else if startsWith [110] key then bufferEntry (fun x => { m with n := x }) b
  else if startsWith [112] key then intEntry (fun i => some { m with p := i }) b
  else if startsWith [114] key then do
    return (← m.rc.bdecode lib b).map fun x => ({ m with rc := x.1 }, x.2)
  else if startsWith [118] key then verifyVersion m b
  else if startsWith [122] key then bufferEntry (fun x => { m with z := x }) b
  else if key = [] ∧ b = [] then .error .pastEnd
  else .ok none

def bencodeImmediate (lib : ContactLibs) (l : List DhtMessage) : Writer :=
  (((startDict.seq (writeEntry [97] [109])).seq (writeDictList [109] (DhtMessage.bencode lib) l)).seq
    (writeDictInt [118] recordVersion)).seq
    endDict

def decodeImmediate (lib : ContactLibs) (net : Contact.NetID) (source : Key) (l : List (Key × DhtMessage))
    (key b : Bytes) : Except MemFault (Option (List (Key × DhtMessage) × Bytes)) :=
  if startsWith [109] key then DhtMessage.decodeList lib net source l b
  else if startsWith [118] key then verifyVersion l b
  else .ok none

inductive Kind where
  | intro
  | downstream
  | upstream
  | immediate
  | commit
  | status
  | discard
deriving DecidableEq, Repr

def Kind.ofType : UInt8 → Option Kind
  | 105 => some .intro
  | 100 => some .downstream
  | 117 => some .upstream
  | 109 => some .immediate
  | 99 => some .commit
  | 115 => some .status
  | 120 => some .discard
  | _ => none

structure Holder where
  i : LinkIntro
  d : Relay
  u : Relay
  m : List (Key × DhtMessage)
  c : Frames
  s : LRStatusMessage

namespace Holder

/-- new objects: frames have their full size, and the number `p` of a link intro, which nothing sets, is zero -/
def fresh (net : Contact.NetID) (p : UInt64) : Holder where
  i := { rc := { netID := net }, p }
  d := {}
  u := {}
  m := []
  c := .replicate 8 (.new encryptedFrameBodySize)
  s := ⟨.replicate 8 (.new encryptedFrameBodySize), .zero 16, 0⟩

def clear (h : Holder) : Kind → Holder
  | .intro => { h with i := { rc := h.i.rc.clear, p := 0 } }
  | .downstream => { h with d := {} }
  | .upstream => { h with u := {} }
  | .immediate => { h with m := [] }
  | .commit => { h with c := Path.Frames.clear h.c }
  | .status => { h with s := { h.s with frames := Path.Frames.clear h.s.frames, status := 0 } }
  | .discard => h

variable (lib : ContactLibs) (net : Contact.NetID) (source : Key)

def decodeKey (k : Kind) (h : Holder) (key b : Bytes) : Except MemFault (Option (Holder × Bytes)) :=
  match k with
  | .intro => onState (fun x => { h with i := x }) (h.i.decodeKey lib key b)
  | .downstream => onState (fun x => { h with d := x }) (h.d.decodeKey key b)
  | .upstream => onState (fun x => { h with u := x }) (h.u.decodeKey key b)
  | .immediate => onState (fun x => { h with m := x }) (decodeImmediate lib net source h.m key b)
  | .commit => onState (fun x => { h with c := x }) (decodeCommit h.c key b)
  | .status => onState (fun x => { h with s := x }) (h.s.decodeKey key b)
  | .discard => .ok (match readString b with
    | some ([x], b) => if startsWith [97] key ∧ x = 120 then some (h, b) else none
    | _ => none)

def sink : Sink (Holder × Option Kind) := fun s key b =>
  match s.2, key with
  -- empty dict
  | none, none => .ok none
  | some _, none => .ok (some (s, b))
  | none, some key =>
    -- we are expecting the first key to be 'a'
    if !startsWith [97] key then .ok none
    else .ok (match readString b with
      | some ([x], b) => (Kind.ofType x).map fun k => ((s.1, some k), b)
      | _ => none)
  | some k, some key => onState (fun h => (h, some k)) (decodeKey lib net source k s.1 key b)

def parse (h : Holder) (b : Bytes) : Except MemFault (Option (Holder × Kind)) := do
  match ← readDict (sink lib net source) (h, none) b with
  | some ((h, some k), _) => return some (h, k)
  | _ => return none

end Holder

end Belnet.Messages
