import Belnet.Util.Record
import Belnet.Messages.Link

/-!
# Routing messages

Models `routing/message_parser.cpp` with the messages of its `MessageHolder`.
-/

namespace Belnet.Routing
open Iwp hiding RouterContact
open Util Decimal Function
open Belnet.Path (recordVersion isZero)
open Messages (readVector loggedSink)

/-- `sizeof` of the bytes of an `Encrypted<n>`: with a pointer to their virtual functions, a multiple of 16 -/
def storage (n : ℕ) : ℕ := (n + 8 + 15) / 16 * 16

def readEncrypted (n : ℕ) (b : Bytes) : Except MemFault (Option ({ x : Bytes // x.length ≤ n } × Bytes)) :=
  match readString b with
  | none => .ok none
  | some (x, b) =>
    if storage n < x.length then .ok none
    else if h : x.length ≤ n then .ok (some (⟨x, h⟩, b))
    else .error (.outside 0 x.length)

def encrypted (n : ℕ) : Format where
  Val := { x : Bytes // x.length ≤ n }
  new := ⟨[], Nat.zero_le n⟩
  cleared := fun _ => ⟨[], Nat.zero_le n⟩
  read := fun _ b => readEncrypted n b
  write := fun x => writeBytestring x.1
  leftOut := fun x => x.1.isEmpty

def tag (x : Bytes) : Format where
  Val := Unit
  new := ()
  cleared := id
  read := fun _ b => .ok ((readString b).bind fun r => if r.1 = x then some ((), r.2) else none)
  write := fun _ => writeBytestring x
  leftOut := fun _ => false

def vector {α : Type} (read : Bytes → Except MemFault (Option (α × Bytes))) (write : α → Writer) : Format where
  Val := List α
  new := []
  cleared := fun _ => []
  read := readVector read
  write := fun l => (startList.seq (writeAll write l)).seq endDict
  leftOut := fun _ => false

def nested (s : Schema) : Format where
  Val := s.Object
  new := s.new
  cleared := s.clear
  read := fun o b => readDict (loggedSink s.decodeKey) o b
  write := s.bencode
  leftOut := fun _ => false

inductive Flat where
  | nothing
  | int
  | optionalInt
  | protocol
  | buffer (n : ℕ)
  | optionalBuffer (n : ℕ)
  | encrypted (n : ℕ)
  | tag (x : Bytes)

def Flat.format : Flat → Format
  | .nothing => .nothing
  | .int => .int
  | .optionalInt => { Format.int with leftOut := fun i : UInt64 => i == 0 }
  | .protocol => { Format.int with cleared := fun _ => (1 : UInt64) }
  | .buffer n => .buffer n
  | .optionalBuffer n => { Format.buffer n with leftOut := fun x : AlignedBuffer n => isZero x }
  | .encrypted n => Routing.encrypted n
  | .tag x => Routing.tag x

def flats (l : List (UInt8 × Flat)) (c : UInt8) : Format := ((l.lookup c).getD .nothing).format

def refused : Bytes → Except MemFault (Option Bytes) := fun _ => .ok none

def policy : Schema where
  slot := flats [(97, .int), (98, .int), (100, .int)]
  version := some
  reads := [(97, 97), (98, 98), (100, 100), (118, versionField)]
  other := refused
  clears := []
  writes := [.field 97 97, .field 98 98, .field 100 100, .field 118 versionField]

def readPolicy (b : Bytes) : Except MemFault (Option (policy.Object × Bytes)) := (nested policy).read policy.new b

def protocolFrame (pq : ℕ) : Schema where
  slot := flats [(65, .tag [72]), (67, .optionalBuffer pq), (68, .encrypted 2048), (70, .buffer 16),
    (78, .optionalBuffer 32), (82, .optionalInt), (83, .int), (84, .optionalBuffer 16), (90, .buffer 64)]
  version := fun i => if i = recordVersion then some i else none
  reads := [(65, 65), (68, 68), (70, 70), (67, 67), (78, 78), (83, 83), (82, 82), (84, 84), (86, versionField), (90, 90)]
  other := refused
  clears := [67, 68, 70, 84, 78, 90, 82, versionField]
  writes := [.text 65 [72], .field 67 67, .field 68 68, .field 70 70, .field 78 78, .field 82 82, .field 84 84,
    .field 86 versionField, .field 90 90]

structure DhtCodec where
  Msg : Type
  read : Bytes → Except MemFault (Option (Msg × Bytes))
  write : Msg → Writer

def Sample.dht : DhtCodec where
  Msg := Unit
  read := fun _ => .ok none
  write := fun _ => skip

inductive Ty where
  | flat (f : Flat)
  | policies
  | packets
  | dht
  | frame

inductive Kind where
  | discard | latency | dht | confirm | transfer | frame | traffic | grant | reject | obtain | update | close
deriving DecidableEq

/-- the fields of the messages by their letters -/
def fieldList : Kind → List (UInt8 × Ty)
  | .discard => [(80, .flat (.buffer 16)), (83, .flat .int)]
  | .latency => [(76, .flat .optionalInt), (83, .flat .int), (84, .flat .optionalInt)]
  | .dht => [(77, .dht), (83, .flat .int), (86, .flat .int)]
  | .confirm => [(76, .flat .int), (83, .flat .int), (84, .flat .int)]
  | .transfer => [(80, .flat (.buffer 16)), (83, .flat .int), (84, .frame), (89, .flat (.buffer 32))]
  | .frame => []
  | .traffic => [(80, .flat .protocol), (83, .flat .int), (88, .packets)]
  | .grant => [(83, .flat .int), (84, .flat .int), (89, .flat (.buffer 16)), (90, .flat (.buffer 64))]
  | .reject => [(66, .flat .int), (82, .policies), (83, .flat .int), (84, .flat .int), (89, .flat (.buffer 16)),
    (90, .flat (.buffer 64))]
  | .obtain => [(66, .policies), (69, .flat .int), (73, .flat (.buffer 32)), (83, .flat .int), (84, .flat .int),
    (87, .policies), (88, .flat .int), (90, .flat (.buffer 64))]
  | .update => [(80, .flat (.buffer 16)), (83, .flat .int), (84, .flat .int), (89, .flat (.buffer 16)),
    (90, .flat (.buffer 64))]
  | .close => [(83, .flat .int), (89, .flat (.buffer 16)), (90, .flat (.buffer 64))]

def fieldTy (k : Kind) (c : UInt8) : Ty := ((fieldList k).lookup c).getD (.flat .nothing)

section
variable (pq : ℕ) (dht : DhtCodec)

def Ty.format : Ty → Format
  | .flat f => f.format
  | .policies => vector readPolicy policy.bencode
  | .packets => vector (readEncrypted 1508) fun x => writeBytestring x.1
  | .dht => vector dht.read dht.write
  | .frame => nested (protocolFrame pq)

def slots (k : Kind) (c : UInt8) : Format := (fieldTy k c).format pq dht

def dataDiscardMessage : Schema where
  slot := slots pq dht .discard
  version := some
  reads := [(80, 80), (83, 83), (86, versionField)]
  other := refused
  clears := [versionField]
  writes := [.text 65 [68], .field 80 80, .field 83 83, .field 86 versionField]

def pathLatencyMessage : Schema where
  slot := slots pq dht .latency
  version := some
  reads := [(76, 76), (83, 83), (84, 84)]
  other := refused
  clears := [84, 76, versionField]
  writes := [.text 65 [76], .field 76 76, .field 84 84, .field 83 83]

def dhtMessage : Schema where
  slot := slots pq dht .dht
  version := some
  reads := [(77, 77), (83, 83), (86, 86)]
  other := refused
  clears := [77, 86]
  writes := [.text 65 [77], .field 77 77, .field 83 83, .int 86 recordVersion]

def pathConfirmMessage : Schema where
  slot := slots pq dht .confirm
  version := some
  reads := [(76, 76), (83, 83), (84, 84), (86, versionField)]
  other := refused
  clears := [76, 84, versionField]
  writes := [.text 65 [80], .field 76 76, .field 83 83, .field 84 84, .field 86 versionField]

def pathTransferMessage : Schema where
  slot := slots pq dht .transfer
  version := some
  reads := [(80, 80), (83, 83), (84, 84), (86, versionField), (89, 89)]
  other := refused
  clears := [80, 84, 89, versionField]
  writes := [.text 65 [84], .field 80 80, .field 83 83, .field 84 84, .int 86 recordVersion, .field 89 89]

def transferTrafficMessage : Schema where
  slot := slots pq dht .traffic
  version := some
  reads := [(83, 83), (80, 80), (86, versionField), (88, 88)]
  other := discard
  clears := [88, versionField, 80]
  writes := [.text 65 [73], .field 80 80, .field 83 83, .field 86 versionField, .field 88 88]

def obtainExitMessage : Schema where
  slot := slots pq dht .obtain
  version := some
  reads := [(66, 66), (69, 69), (73, 73), (83, 83), (84, 84), (86, versionField), (87, 87), (88, 88), (90, 90)]
  other := refused
  clears := [66, 69, 73, 84, 87, 88, 90]
  writes := [.text 65 [79], .field 66 66, .field 69 69, .field 73 73, .field 83 83, .field 84 84,
    .field 86 versionField, .field 87 87, .field 88 88, .field 90 90]

def grantExitMessage : Schema where
  slot := slots pq dht .grant
  version := some
  reads := [(83, 83), (84, 84), (86, versionField), (89, 89), (90, 90)]
  other := refused
  clears := [84, 89, 90]
  writes := [.text 65 [71], .field 83 83, .field 84 84, .field 86 versionField, .field 89 89, .field 90 90]

def rejectExitMessage : Schema where
  slot := slots pq dht .reject
  version := some
  reads := [(66, 66), (82, 82), (83, 83), (84, 84), (86, versionField), (89, 89), (90, 90)]
  other := refused
  clears := [66, 82, 84, 89, 90]
  writes := [.text 65 [74], .field 66 66, .field 82 82, .field 83 83, .field 84 84, .field 86 versionField,
    .field 89 89, .field 90 90]

/-- it is written with the type of `UpdateExitVerifyMessage`, and its `Y` is neither written nor read -/
def updateExitMessage : Schema where
  slot := slots pq dht .update
  version := some
  reads := [(83, 83), (84, 84), (86, versionField), (80, 80), (90, 90)]
  other := refused
  clears := [80, 84, 89, 90]
  writes := [.text 65 [86], .field 80 80, .field 83 83, .field 84 84, .field 86 versionField, .field 90 90]

def closeExitMessage : Schema where
  slot := slots pq dht .close
  version := some
  reads := [(83, 83), (86, versionField), (89, 89), (90, 90)]
  other := refused
  clears := [89, 90]
  writes := [.text 65 [67], .field 83 83, .field 86 versionField, .field 89 89, .field 90 90]

def Kind.ofType : UInt8 → Option Kind
  | 68 => some .discard
  | 76 => some .latency
  | 77 => some .dht
  | 80 => some .confirm
  | 84 => some .transfer
  | 72 => some .frame
  | 73 => some .traffic
  | 71 => some .grant
  | 74 => some .reject
  | 79 => some .obtain
  | 85 => some .update
  | 67 => some .close
  | _ => none

def schema : Kind → Schema
  | .discard => dataDiscardMessage pq dht
  | .latency => pathLatencyMessage pq dht
  | .dht => dhtMessage pq dht
  | .confirm => pathConfirmMessage pq dht
  | .transfer => pathTransferMessage pq dht
  | .frame => protocolFrame pq
  | .traffic => transferTrafficMessage pq dht
  | .grant => grantExitMessage pq dht
  | .reject => rejectExitMessage pq dht
  | .obtain => obtainExitMessage pq dht
  | .update => updateExitMessage pq dht
  | .close => closeExitMessage pq dht

abbrev Holder := ∀ k, (schema pq dht k).Object

abbrev Message := (k : Kind) × (schema pq dht k).Object

def fresh : Holder pq dht := fun k => (schema pq dht k).new

def versionSink : Sink UInt64 := fun v key b => match key with
  | none => .ok (some (v, b))
  | some key => if key = [86] then intEntry some b else Schema.keep v (discard b)

def seekVersion (b : Bytes) : Except MemFault UInt64 := do
  return (← readDict versionSink 0 b).elim 0 Prod.fst

def sink (h : Holder pq dht) (version : UInt64) : Sink (Option (Message pq dht)) := fun msg key b =>
  match msg, key with
  | none, none => .ok none
  | some m, none => .ok (some (some m, b))
  | none, some key => if !startsWith [65] key then .ok none
    else .ok (match readString b with
      | some ([x], b) => (Kind.ofType x).map fun k => (some ⟨k, (schema pq dht k).setVersion (h k) version⟩, b)
      | _ => none)
  | some ⟨k, o⟩, some key => onState (fun o => some ⟨k, o⟩) ((schema pq dht k).decodeKey o key b)

def parse (h : Holder pq dht) (b : Bytes) : Except MemFault (Option (Message pq dht)) := do
  let version ← seekVersion b
  return (← readDict (sink pq dht h version) none b).bind Prod.fst

/-- Behind every buffer its object is cleared and the parser's version is 0; of a refused message some fields may have
been read. -/
inductive Step : Holder pq dht → Holder pq dht → Prop
  | handled {h : Holder pq dht} {k : Kind} {o : (schema pq dht k).Object} (b : Bytes) :
      parse pq dht h b = .ok (some ⟨k, o⟩) → Step h (update h k ((schema pq dht k).clear o))
  | unread {h : Holder pq dht} (b : Bytes) : header 65 Kind.ofType b = none → Step h h
  | refused {h : Holder pq dht} {k : Kind} {rest : Bytes} (o : (schema pq dht k).Object) (b : Bytes) :
      header 65 Kind.ofType b = some (k, rest) → parse pq dht h b = .ok none →
        Step h (update h k ((schema pq dht k).clear o))

end

/-! ## signatures of exit messages -/

structure ExitCrypto where
  toPublic : SecretKey → PubKey
  sign : SecretKey → Bytes → Option Signature
  verify : PubKey → Bytes → Signature → Bool

def signInto {α : Type} (bencode : α → Writer) (put : α → Signature → α) (size : ℕ) (sign : Bytes → Option Signature)
    (o : α) : Option α := ((bencode o).into size).bind fun buf => (sign buf).map (put o)

def verifyFrom {α : Type} (bencode : α → Writer) (put : α → Signature → α) (get : α → Signature) (size : ℕ)
    (verify : Bytes → Signature → Bool) (o : α) : Bool :=
  (((bencode (put o (.zero 64))).into size).map fun buf => verify buf (get o)).getD false

section
variable (pq : ℕ) (dht : DhtCodec) (c : ExitCrypto)

def obtainExitMessage.setZ (o : (obtainExitMessage pq dht).Object) (z : Signature) : (obtainExitMessage pq dht).Object :=
  update o 90 z

variable (sk : SecretKey)

def obtainExitMessage.sign (o : (obtainExitMessage pq dht).Object) : Option (obtainExitMessage pq dht).Object :=
  signInto (obtainExitMessage pq dht).bencode (setZ pq dht) 1024 (c.sign sk)
    (setZ pq dht (update o 73 (c.toPublic sk)) (.zero 64))

def obtainExitMessage.verify (o : (obtainExitMessage pq dht).Object) : Bool :=
  verifyFrom (obtainExitMessage pq dht).bencode (setZ pq dht) (fun o => o 90) 1024 (c.verify (o 73)) o

def grantExitMessage.setZ (o : (grantExitMessage pq dht).Object) (z : Signature) : (grantExitMessage pq dht).Object :=
  update o 90 z

variable (Y : AlignedBuffer 16)

def grantExitMessage.sign (o : (grantExitMessage pq dht).Object) : Option (grantExitMessage pq dht).Object :=
  signInto (grantExitMessage pq dht).bencode (setZ pq dht) 512 (c.sign sk) (update (setZ pq dht o (.zero 64)) 89 Y)

variable (pk : PubKey)

def grantExitMessage.verify (o : (grantExitMessage pq dht).Object) : Bool :=
  verifyFrom (grantExitMessage pq dht).bencode (setZ pq dht) (fun o => o 90) 512 (c.verify pk) o

variable (o : (rejectExitMessage pq dht).Object)

def rejectExitMessage.setZ (z : Signature) : (rejectExitMessage pq dht).Object := update o 90 z

def rejectExitMessage.sign : Option (rejectExitMessage pq dht).Object :=
  signInto (rejectExitMessage pq dht).bencode (setZ pq dht) 512 (c.sign sk) (update (setZ pq dht o (.zero 64)) 89 Y)

def rejectExitMessage.verify : Bool :=
  verifyFrom (rejectExitMessage pq dht).bencode (setZ pq dht) (fun o => o 90) 512 (c.verify pk) o

variable (o : (updateExitMessage pq dht).Object)

def updateExitMessage.setZ (z : Signature) : (updateExitMessage pq dht).Object := update o 90 z

def updateExitMessage.sign : Option (updateExitMessage pq dht).Object :=
  signInto (updateExitMessage pq dht).bencode (setZ pq dht) 512 (c.sign sk) (update o 89 Y)

def updateExitMessage.verify : Bool :=
  verifyFrom (updateExitMessage pq dht).bencode (setZ pq dht) (fun o => o 90) 512 (c.verify pk) o

variable (o : (closeExitMessage pq dht).Object)

def closeExitMessage.setZ (z : Signature) : (closeExitMessage pq dht).Object := update o 90 z

def closeExitMessage.sign : Option (closeExitMessage pq dht).Object :=
  signInto (closeExitMessage pq dht).bencode (setZ pq dht) 512 (c.sign sk) (update (setZ pq dht o (.zero 64)) 89 Y)

def closeExitMessage.verify : Bool :=
  verifyFrom (closeExitMessage pq dht).bencode (setZ pq dht) (fun o => o 90) 512 (c.verify pk) o

def sign : (k : Kind) → (schema pq dht k).Object → Option (schema pq dht k).Object
  | .obtain => obtainExitMessage.sign pq dht c sk
  | .grant => grantExitMessage.sign pq dht c sk Y
  | .reject => rejectExitMessage.sign pq dht c sk Y
  | .update => updateExitMessage.sign pq dht c sk Y
  | .close => closeExitMessage.sign pq dht c sk Y
  | _ => fun _ => none

def verify : (k : Kind) → (schema pq dht k).Object → Bool
  | .obtain => obtainExitMessage.verify pq dht c
  | .grant => grantExitMessage.verify pq dht c pk
  | .reject => rejectExitMessage.verify pq dht c pk
  | .update => updateExitMessage.verify pq dht c pk
  | .close => closeExitMessage.verify pq dht c pk
  | _ => fun _ => false

end

end Belnet.Routing
