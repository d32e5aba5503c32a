import Belnet.Dns.SRVData
import Belnet.Net.Ranges
import Belnet.Service.Codec

/-!
# Router contacts on the wire

`RouterContact`, `NetID`, `RouterVersion` and `AddressInfo` of `llarp/router_contact.cpp`, `llarp/router_version.cpp`
and `llarp/net/address_info.cpp`.
-/

namespace Belnet.Contact
open Iwp hiding RouterContact
open Util Decimal Net Dns List AlignedBuffer
open Service (decodeDict keySink dict_reads reads_entry reads_setBuffer reads_int prints_entry Timestamp entry writeEntry)
open Belnet.Path (recordVersion)

structure AddressInfo where
  rank : UInt16 := 0
  dialect : Bytes := []
  pubkey : PubKey := .zero 32
  ip : BitVec 128 := 0
  port : UInt16 := 0
  version : UInt64 := recordVersion

namespace AddressInfo

def small (i : UInt64) : Option UInt16 := if 65536 < i ∨ i ≤ 0 then none else some i.toUInt16

variable (lib : Libs)

section
variable (a : AddressInfo)

def decodeKey (key b : Bytes) : Except MemFault (Option (AddressInfo × Bytes)) :=
  if startsWith [99] key then intEntry (fun i => (small i).map fun n => { a with rank := n }) b
  else if startsWith [100] key then
    match readString b with
    | none => .ok none
    | some (x, b) =>
      if 128 < x.length then .ok none
      -- the terminator goes behind a text of 128 bytes, which is all of the local buffer
      else if x.length = 128 then .error (.outside 128 1)
      else .ok (some ({ a with dialect := cStr x }, b))
  else if startsWith [101] key then bufferEntry (fun x => { a with pubkey := x }) b
  else if startsWith [105] key then
    match readString b with
    | none => .ok none
    | some (x, b) =>
      if 128 ≤ x.length then .ok none
      else .ok ((lib.pton6 (cStr x)).map fun ip => ({ a with ip := ip }, b))
  else if startsWith [112] key then intEntry (fun i => (small i).map fun n => { a with port := n }) b
  else if startsWith [118] key then intEntry (fun i => if i = recordVersion then some a else none) b
  -- bad key, whose first byte goes into the log, also when it has none
  else if key = [] ∧ b = [] then .error .pastEnd
  else .ok none

def bdecode (b : Bytes) : Except MemFault (Option (AddressInfo × Bytes)) := decodeDict (decodeKey lib) a b

def bencode : Writer :=
  ((((((startDict.seq (writeDictInt [99] a.rank.toUInt64)).seq (writeEntry [100] a.dialect)).seq
    (writeEntry [101] a.pubkey.toList)).seq
    (writeEntry [105] (cStr (lib.ntop6 a.ip)))).seq
    (writeDictInt [112] a.port.toUInt64)).seq
    (writeDictInt [118] recordVersion)).seq
    endDict

def fields : Bytes :=
  (str [99] ++ int a.rank.toUInt64) ++ entry [100] a.dialect ++ entry [101] a.pubkey.toList ++
    entry [105] (cStr (lib.ntop6 a.ip)) ++ (str [112] ++ int a.port.toUInt64) ++ (str [118] ++ int recordVersion)

def encoding : Bytes := 100 :: (a.fields lib ++ [101])

lemma prints_bencode : Prints (a.bencode lib) (a.encoding lib) := by
  have head := ((prints_write [100]).seq (prints_dictInt [99] a.rank.toUInt64)).seq
    (prints_entry [100] a.dialect)
  have keys := (head.seq (prints_entry [101] a.pubkey.toList)).seq
    (prints_entry [105] (cStr (lib.ntop6 a.ip)))
  have body := (keys.seq (prints_dictInt [112] a.port.toUInt64)).seq (prints_dictInt [118] recordVersion)
  exact body.seq (prints_write [101])

lemma encoding_cons : Opens (a.encoding lib) := ⟨100, _, rfl, by decide⟩

def Sendable : Prop := a.rank ≠ 0 ∧ a.port ≠ 0 ∧ a.dialect.length ≤ 127 ∧ 0 ∉ a.dialect

end

instance (a : AddressInfo) : Decidable a.Sendable := inferInstanceAs (Decidable (_ ∧ _))

def received (a : AddressInfo) : AddressInfo := { a with version := recordVersion }

lemma small_toUInt64 {n : UInt16} (hn : n ≠ 0) : small n.toUInt64 = some n := by
  have hlt : n.toNat < 65536 := n.toNat_lt
  have hpos : n.toNat ≠ 0 := fun h => hn (UInt16.toNat_inj.mp h)
  have hsmall : ¬ (65536 < n.toUInt64 ∨ n.toUInt64 ≤ 0) := by
    rw [UInt64.lt_iff_toNat_lt, UInt64.le_iff_toNat_le, UInt16.toNat_toUInt64]
    show ¬ (65536 < n.toNat ∨ n.toNat ≤ 0)
    omega
  unfold small
  rw [if_neg hsmall, UInt16.toUInt16_toUInt64]

variable {a : AddressInfo} {lib : Libs}

lemma reads_fields (hlib : lib.Lawful) (ha : a.Sendable) :
    Reads (keySink (decodeKey lib)) {} (a.fields lib) a.received := by
  obtain ⟨hrank, hport, _, hzero⟩ := ha
  obtain ⟨_, hzero6, -, -⟩ := hlib.text6 a.ip
  have hc (s : AddressInfo) : Reads (keySink (decodeKey lib)) s (str [99] ++ int a.rank.toUInt64)
      { s with rank := a.rank } := by
    refine reads_int _ (fun i => (small i).map fun n => { s with rank := n }) (fun _ => rfl) ?_
    rw [small_toUInt64 hrank]
    rfl
  have hd (s : AddressInfo) : Reads (keySink (decodeKey lib)) s (entry [100] a.dialect)
      { s with dialect := a.dialect } := by
    apply reads_entry
    intro rest
    unfold decodeKey
    rw [if_neg (by decide), if_pos (by decide), readString_str (by omega)]
    dsimp only
    rw [if_neg (by omega), if_neg (by omega), cStr_eq hzero]
  have he (s) := reads_setBuffer (decodeKey lib) s 101 (fun s x => { s with pubkey := x }) a.pubkey
  have hi (s : AddressInfo) : Reads (keySink (decodeKey lib)) s (entry [105] (cStr (lib.ntop6 a.ip)))
      { s with ip := a.ip } := by
    rw [cStr_eq hzero6]
    apply reads_entry
    intro rest
    unfold decodeKey
    rw [if_neg (by decide), if_neg (by decide), if_neg (by decide), if_pos (by decide), readString_str (by omega)]
    dsimp only
    rw [if_neg (by omega), cStr_eq hzero6, hlib.pton6_ntop6]
    rfl
  have hp (s : AddressInfo) : Reads (keySink (decodeKey lib)) s (str [112] ++ int a.port.toUInt64)
      { s with port := a.port } := by
    refine reads_int _ (fun i => (small i).map fun n => { s with port := n }) (fun _ => rfl) ?_
    rw [small_toUInt64 hport]
    rfl
  have hv (s : AddressInfo) : Reads (keySink (decodeKey lib)) s (str [118] ++ int recordVersion) s :=
    reads_int _ (fun i => if i = recordVersion then some s else none) (fun _ => rfl) rfl
  exact (((((hc _).append (hd _)).append (he _)).append (hi _)).append (hp _)).append (hv _)

lemma bdecode_encoding (hlib : lib.Lawful) (ha : a.Sendable) (rest : Bytes) :
    bdecode lib {} (a.encoding lib ++ rest) = .ok (some (a.received, rest)) := by
  unfold bdecode
  exact dict_reads (reads_fields hlib ha) rest

end AddressInfo

abbrev NetID := AlignedBuffer 8

namespace NetID
variable (n : NetID)

def text : Bytes := cStr n.toList

def bencode : Writer := writeBytestring n.text

def bdecode (b : Bytes) : Option (NetID × Bytes) :=
  match readString b with
  | none => none
  | some (x, b) => if 8 < x.length then none else some (ofBytes 8 x, b)

lemma text_length : n.text.length ≤ 8 := by
  have h : n.text.length ≤ n.toList.length := ( takeWhile_prefix _).length_le
  rw [Vector.toList_length] at h
  exact h

lemma bdecode_text (rest : Bytes) : bdecode (str n.text ++ rest) = some (ofBytes 8 n.text, rest) := by
  have hlen := n.text_length
  unfold bdecode
  rw [readString_str (by omega)]
  dsimp only
  rw [if_neg (by omega)]

end NetID

lemma cStr_ofBytes {n : ℕ} {x : Bytes} (hx : 0 ∉ x) (hlen : x.length ≤ n) : cStr (ofBytes n x).toList = x := by
  have hzeros : cStr (replicate (n - x.length) 0) = [] := by
    cases n - x.length with
    | zero => rfl
    | succ => rfl
  have htake : (ofBytes n x).toList = x ++ replicate (n - x.length) 0 := by
    show (x ++ replicate n 0).take n = _
    rw [take_append, take_of_length_le hlen, take_replicate, min_eq_left (Nat.sub_le _ _)]
  have hall : ∀ y ∈ x, decide (y ≠ 0) = true := fun y hy => decide_eq_true fun h => hx (h ▸ hy)
  rw [htake, cStr, takeWhile_append_of_pos hall]
  show x ++ cStr _ = x
  rw [hzeros, append_nil]

lemma zero_notMem_cStr (x : Bytes) : 0 ∉ cStr x := by
  intro h
  have := mem_takeWhile_imp h
  simp at this

/-- `RouterVersion`: the protocol version is signed in the source, and -1 here is the largest number -/
structure RouterVersion where
  version : UInt16 × UInt16 × UInt16 := (0, 0, 0)
  proto : UInt64 := recordVersion
deriving DecidableEq

namespace RouterVersion

def empty : RouterVersion := ⟨(0, 0, 0), 18446744073709551615⟩

def ints (v : RouterVersion) : List UInt64 :=
  if v = empty then []
  else [v.proto, v.version.1.toUInt64, v.version.2.1.toUInt64, v.version.2.2.toUInt64]

def bencode (v : RouterVersion) : Writer := (startList.seq (writeAll writeUint64 v.ints)).seq endDict

def encoding (v : RouterVersion) : Bytes := 108 :: (v.ints.flatMap int ++ [101])

def put (s : RouterVersion × ℕ) (i : UInt64) : Option (RouterVersion × ℕ) :=
  match s with
  | (v, 0) => some ({ v with proto := i }, 1)
  | (v, 1) => some ({ v with version := (i.toUInt16, v.version.2) }, 2)
  | (v, 2) => some ({ v with version := (v.version.1, i.toUInt16, v.version.2.2) }, 3)
  | (v, 3) => some ({ v with version := (v.version.1, v.version.2.1, i.toUInt16) }, 4)
  -- prevent overflow
  | (_, _ + 4) => none

def item (s : RouterVersion × ℕ) (b : Bytes) : Except MemFault (Option ((RouterVersion × ℕ) × Bytes)) := do
  match ← readInteger b with
  | none => return none
  | some (i, b) => return (put s i).map fun s => (s, b)

def bdecode (b : Bytes) : Except MemFault (Option (RouterVersion × Bytes)) := do
  match ← readList item (empty, 0) b with
  | none => return none
  | some ((v, idx), b) => return if idx = 4 ∨ idx = 0 then some (v, b) else none

lemma prints_bencode (v : RouterVersion) : Prints v.bencode v.encoding :=
  ((prints_write [108]).seq (prints_writeAll prints_writeUint64 v.ints)).seq (prints_write [101])

lemma bdecode_encoding (v : RouterVersion) (rest : Bytes) : bdecode (v.encoding ++ rest) = .ok (some (v, rest)) := by
  have hread : readList item (empty, 0) (v.encoding ++ rest)
      = .ok ((v.ints.foldlM put (empty, 0)).map fun s => (s, rest)) := by
    apply readList_foldlM int_opens
    intro i _ s rest
    unfold item
    rw [readInteger_int]
    rfl
  unfold bdecode
  rw [hread]
  by_cases hv : v = empty
  · rw [ints, if_pos hv, hv]
    rfl
  · rw [ints, if_neg hv]
    simp [foldlM, put, bind, Except.bind, pure, Except.pure]

end RouterVersion

/-! ## contacts -/

structure RouterContact where
  addrs : List AddressInfo := []
  netID : NetID
  enckey : PubKey := .zero 32
  pubkey : PubKey := .zero 32
  signature : Signature := .zero 64
  nickname : AlignedBuffer 32 := .zero 32
  lastUpdated : Millis := 0
  version : UInt64 := recordVersion
  routerVersion : Option RouterVersion := none
  signedBtDict : Bytes := []
  srvRecords : List SRVData := []

/-- what `oxenc::bt_list_consumer` gives: version, signature, dictionary, whether the list ends there, and the rest -/
structure ContactList where
  version : UInt64
  signature : Bytes
  dict : Bytes
  finished : Bool
  rest : Bytes

structure ContactLibs where
  net : Libs
  bt : BtLibs
  list : Bytes → Option ContactList

namespace RouterContact

def maxRCSize : ℕ := 1024

def clear (r : RouterContact) : RouterContact := { netID := r.netID, signedBtDict := r.signedBtDict }

def nick (r : RouterContact) : Bytes := cStr r.nickname.toList

variable (lib : ContactLibs)

def writeVersion : Option RouterVersion → Writer
  | none => skip
  | some v => (writeBytestring [114]).seq v.bencode

def versionEntry : Option RouterVersion → Bytes
  | none => []
  | some v => str [114] ++ v.encoding

def bencodeSignedSection (r : RouterContact) : Writer :=
  (((((((((((startDict.seq (writeDictList [97] (AddressInfo.bencode lib.net) r.addrs)).seq
    ((writeBytestring [105]).seq r.netID.bencode)).seq
    (writeEntry [107] r.pubkey.toList)).seq
    (if r.nick = [] then skip else writeEntry [110] r.nick)).seq
    (writeEntry [112] r.enckey.toList)).seq
    (writeVersion r.routerVersion)).seq
    (if 0 < r.version then writeDictList [115] SRVData.bencode r.srvRecords else skip)).seq
    (writeDictInt [117] (UInt64.ofInt r.lastUpdated))).seq
    (writeDictInt [118] r.version)).seq
    -- no exits anymore in RCs
    (writeDictList [120] (fun _ : Unit => skip) [])).seq
    (if r.version = 0 then writeEntry [122] r.signature.toList else skip)).seq
    endDict

def firstFields (r : RouterContact) : Bytes :=
  (str [97] ++ 108 :: (r.addrs.flatMap (AddressInfo.encoding lib.net) ++ [101])) ++ entry [105] r.netID.text ++
    entry [107] r.pubkey.toList ++ (if r.nick = [] then [] else entry [110] r.nick) ++
    entry [112] r.enckey.toList ++ versionEntry r.routerVersion

def srvEntry (r : RouterContact) : Bytes :=
  if 0 < r.version then str [115] ++ 108 :: (r.srvRecords.flatMap SRVData.encoding ++ [101]) else []

def lastFields (r : RouterContact) : Bytes :=
  (str [117] ++ int (UInt64.ofInt r.lastUpdated)) ++ (str [118] ++ int r.version) ++ (str [120] ++ [108, 101]) ++
    (if r.version = 0 then entry [122] r.signature.toList else [])

def signedEncoding (r : RouterContact) : Bytes := 100 :: (r.firstFields lib ++ r.srvEntry ++ r.lastFields ++ [101])

def bencode (r : RouterContact) : Writer :=
  if r.version = 0 then r.bencodeSignedSection lib
  else if r.version = 1 then
    (((writef ([108, 105, 49, 101] ++ decimal 64 ++ [58])).seq (write r.signature.toList)).seq
      (write r.signedBtDict)).seq
      (writef [101])
  else fun b => (false, b)

def decodeKey (r : RouterContact) (key b : Bytes) : Except MemFault (Option (RouterContact × Bytes)) :=
  if startsWith [97] key then do
    return (← readList (fun l b => do
      return (← AddressInfo.bdecode lib.net {} b).map fun a => (l ++ [a.1], a.2)) r.addrs b).map fun x =>
        ({ r with addrs := x.1 }, x.2)
  else if startsWith [105] key then .ok ((NetID.bdecode b).map fun x => ({ r with netID := x.1 }, x.2))
  else if startsWith [107] key then bufferEntry (fun x => { r with pubkey := x }) b
  else if startsWith [114] key then do
    return (← RouterVersion.bdecode b).map fun x => ({ r with routerVersion := some x.1 }, x.2)
  else if startsWith [110] key then
    .ok (match readString b with
      | none => none
      | some (x, b) => if 32 < x.length then none else some ({ r with nickname := ofBytes 32 x }, b))
  else if startsWith [115] key then do
    return (← readList (fun l b => do
      return (← SRVData.bdecode lib.bt b).map fun s => (l ++ [s.1], s.2)) r.srvRecords b).map fun x =>
        ({ r with srvRecords := x.1 }, x.2)
  else if startsWith [112] key then bufferEntry (fun x => { r with enckey := x }) b
  else if startsWith [117] key then intEntry (fun i => some { r with lastUpdated := i.toInt64.toInt }) b
  else if startsWith [118] key then intEntry (fun i => some { r with version := i }) b
  else if startsWith [122] key then bufferEntry (fun x => { r with signature := x }) b
  -- the key x, and those that nobody knows
  else do return (← discard b).map fun b => (r, b)

def atTerminator {α : Type} : Except MemFault (Option α) → Except MemFault (Option α)
  | .error .pastEnd => .ok none
  | x => x

def decodeVersion1 (r : RouterContact) (l : ContactList) : Except MemFault (Option (RouterContact × Bytes)) :=
  let r := { r with signedBtDict := l.dict }
  if !l.finished then .ok none
  else if l.signature.length ≠ 64 then .ok none
  else do
    return (← atTerminator (decodeDict (decodeKey lib) { r with signature := ofBytes 64 l.signature }
      l.dict)).map fun x => (x.1, l.rest)

def bdecode (r : RouterContact) (b : Bytes) : Except MemFault (Option (RouterContact × Bytes)) :=
  match b with
  -- the first byte is looked at before anything is checked
  | [] => .error .pastEnd
  | x :: _ =>
    -- old format
    if x = 100 then decodeDict (decodeKey lib) r.clear b
    else if x ≠ 108 then .ok none
    else match lib.list b with
      | none => .ok none
      | some l => if l.version = 1 then decodeVersion1 lib r.clear l else .ok none

end RouterContact

end Belnet.Contact
