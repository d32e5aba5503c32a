import Belnet.Contact.Codec

/-!
# Signed router contacts

`RouterContact::Sign` and `VerifySignature`, and what `BDecode` makes of a signed contact.
-/

namespace Belnet.Contact
open Iwp hiding RouterContact
open Util Decimal Net Dns List AddressInfo SRVData AlignedBuffer BtLibs
open Service (decodeDict keySink dict_reads reads_entry reads_setBuffer reads_setInt reads_buffer reads_int
  prints_entry Timestamp entry writeEntry toInt64_ofInt)
open Belnet.Path (recordVersion)

/-- the libraries take a list of version, signature and dictionary apart, and do not finish one without its end -/
structure ContactLibs.Lawful (lib : ContactLibs) : Prop where
  net : lib.net.Lawful
  bt : lib.bt.Lawful
  list_eq : ∀ sig dict rest : Bytes, sig.length = 64 → Bencoded dict → dict.head? = some 100 → dict.length < 10^9 →
    lib.list ([108, 105, 49, 101] ++ str sig ++ dict ++ 101 :: rest) = some ⟨1, sig, dict, true, rest⟩
  list_open : ∀ (sig dict : Bytes) (x : UInt8) (rest : Bytes), sig.length = 64 → Bencoded dict →
    dict.head? = some 100 → dict.length < 10^9 → x ≠ 101 →
    ∀ l, lib.list ([108, 105, 49, 101] ++ str sig ++ dict ++ x :: rest) = some l → l.finished = false

namespace RouterContact
variable (lib : ContactLibs)

def sign (pub : PubKey) (sign : Bytes → Option Signature) (now : Millis) (r : RouterContact) : Option RouterContact :=
  let r := { r with pubkey := pub, signature := .zero 64, lastUpdated := now }
  match (r.bencodeSignedSection lib).into maxRCSize with
  | none => none
  | some d =>
    if r.version = 0 ∨ r.version = 1 then (sign d).map fun z => { r with signedBtDict := d, signature := z }
    else none

def verifySignature (c : Crypto) (r : RouterContact) : Bool :=
  if r.version = 0 then
    match (RouterContact.bencode lib { r with signature := .zero 64 }).into maxRCSize with
    | none => false
    | some b => c.verify r.pubkey b r.signature
  else if r.version = 1 then c.verify r.pubkey r.signedBtDict r.signature
  else false

variable (r : RouterContact)

lemma prints_signed : PrintsDict (r.bencodeSignedSection lib) (r.signedEncoding lib) := by
  have addrs := ((prints_write [100]).seq (prints_dictList [97] (prints_bencode lib.net) r.addrs)).seq
    ((prints_writeBytestring [105]).seq (prints_writeBytestring r.netID.text))
  have keys := ((addrs.seq (prints_entry [107] r.pubkey.toList)).seq
    (prints_unless (p := r.nick = []) (prints_entry [110] r.nick))).seq (prints_entry [112] r.enckey.toList)
  have hversion : Prints (writeVersion r.routerVersion) (versionEntry r.routerVersion) := by
    cases r.routerVersion with
    | none => exact prints_skip
    | some v => exact (prints_writeBytestring [114]).seq v.prints_bencode
  have srvs := (keys.seq hversion).seq (prints_when (p := 0 < r.version)
    (prints_dictList [115] (fun s : SRVData => prints_write s.encoding) r.srvRecords))
  have times := (srvs.seq (prints_dictInt [117] (UInt64.ofInt r.lastUpdated))).seq
    (prints_dictInt [118] r.version)
  have exits := times.seq (prints_dictList [120] (fun _ : Unit => prints_skip) [])
  have all := (exits.seq (prints_when (p := r.version = 0) (prints_entry [122] r.signature.toList))).dict
  simp only [signedEncoding, firstFields, srvEntry, lastFields, append_assoc, cons_append, nil_append,
    flatMap_nil] at all ⊢
  exact all

lemma bencoded_flatMap {α : Type} {x : α → Bytes} (h : ∀ a, Bencoded (x a)) (l : List α) :
    Bencoded (108 :: (l.flatMap x ++ [101])) := by
  apply Bencoded.list
  intro y hy
  obtain ⟨a, -, rfl⟩ := mem_map.mp hy
  exact h a

lemma bencoded_address (a : AddressInfo) : Bencoded (a.encoding lib.net) := by
  have hdict : Bencoded (100 :: (([([99], int a.rank.toUInt64), ([100], str a.dialect), ([101], str a.pubkey.toList),
      ([105], str (cStr (lib.net.ntop6 a.ip))), ([112], int a.port.toUInt64), ([118], int recordVersion)] :
      List (Bytes × Bytes)).flatMap (fun e => str e.1 ++ e.2) ++ [101])) := by
    apply Bencoded.dict
    intro e he
    simp only [mem_cons, not_mem_nil, or_false] at he
    rcases he with rfl | rfl | rfl | rfl | rfl | rfl
    · exact .int _
    · exact .str _
    · exact .str _
    · exact .str _
    · exact .int _
    · exact .int _
  simpa [AddressInfo.encoding, AddressInfo.fields, entry] using hdict

lemma bencoded_record (s : SRVData) : Bencoded s.encoding := by
  apply bencoded_flatMap
  intro a
  cases a with
  | inl x => exact .str x
  | inr i => exact .int i

def entries : List (Bytes × Bytes) :=
  [([97], 108 :: (r.addrs.flatMap (encoding lib.net) ++ [101])), ([105], str r.netID.text),
    ([107], str r.pubkey.toList)] ++
  (if r.nick = [] then [] else [([110], str r.nick)]) ++ [([112], str r.enckey.toList)] ++
  (r.routerVersion.map fun v => (([114], v.encoding) : Bytes × Bytes)).toList ++
  (if 0 < r.version then [([115], 108 :: (r.srvRecords.flatMap encoding ++ [101]))] else []) ++
  [([117], int (UInt64.ofInt r.lastUpdated)), ([118], int r.version), ([120], [108, 101])] ++
  (if r.version = 0 then [([122], str r.signature.toList)] else [])

lemma signedEncoding_entries :
    r.signedEncoding lib = 100 :: ((r.entries lib).flatMap (fun e => str e.1 ++ e.2) ++ [101]) := by
  unfold signedEncoding firstFields srvEntry lastFields entries versionEntry
  cases r.routerVersion <;> split_ifs <;> simp [entry]

lemma bencoded_signed : Bencoded (r.signedEncoding lib) := by
  rw [signedEncoding_entries]
  apply Bencoded.dict
  intro e he
  simp only [entries, mem_append, mem_cons, not_mem_nil, or_false, Option.mem_toList,
    Option.map_eq_some_iff, mem_ite_nil_left, mem_ite_nil_right] at he
  rcases he with (((((((rfl | rfl | rfl) | ⟨-, rfl⟩) | rfl) | ⟨v, -, rfl⟩) | ⟨-, rfl⟩) | (rfl | rfl | rfl)) | ⟨-, rfl⟩)
  · exact bencoded_flatMap (bencoded_address lib) r.addrs
  · exact .str _
  · exact .str _
  · exact .str _
  · exact .str _
  · exact bencoded_flatMap Bencoded.int v.ints
  · exact bencoded_flatMap bencoded_record r.srvRecords
  · exact .int _
  · exact .int _
  · exact .list [] fun x hx => absurd hx not_mem_nil
  · exact .str _

def received : RouterContact :=
  { r with
    addrs := r.addrs.map AddressInfo.received, netID := ofBytes 8 r.netID.text,
    nickname := ofBytes 32 r.nick }

section
variable {lib : ContactLibs} {r s : RouterContact}

lemma nick_length (r : RouterContact) : r.nick.length ≤ 32 := by
  have h : r.nick.length ≤ r.nickname.toList.length := ( takeWhile_prefix _).length_le
  rw [Vector.toList_length] at h
  exact h

lemma readAddrs (hlib : lib.net.Lawful) {l : List AddressInfo} (h : ∀ a ∈ l, a.Sendable) (rest : Bytes) :
    readList (fun l b => do return (← AddressInfo.bdecode lib.net {} b).map fun a => (l ++ [a.1], a.2)) []
      (108 :: (l.flatMap (AddressInfo.encoding lib.net) ++ [101]) ++ rest)
      = .ok (some (l.map AddressInfo.received, rest)) := by
  exact readList_collect (encoding_cons lib.net) l (fun a ha => bdecode_encoding hlib (h a ha)) [] rest

lemma reads_first (hlib : lib.Lawful) (hs : s.addrs = []) (hnick : s.nickname = .zero 32)
    (hv : s.routerVersion = none) (haddrs : ∀ a ∈ r.addrs, a.Sendable) :
    Reads (keySink (decodeKey lib)) s (r.firstFields lib)
      { s with
        addrs := r.addrs.map AddressInfo.received, netID := ofBytes 8 r.netID.text,
        pubkey := r.pubkey, nickname := ofBytes 32 r.nick, enckey := r.enckey,
        routerVersion := r.routerVersion } := by
  have ha : Reads (keySink (decodeKey lib)) s
      (str [97] ++ 108 :: (r.addrs.flatMap (AddressInfo.encoding lib.net) ++ [101]))
      { s with addrs := r.addrs.map AddressInfo.received } := by
    apply reads_entry
    intro rest
    show (do return (← readList _ s.addrs
      (108 :: (r.addrs.flatMap (AddressInfo.encoding lib.net) ++ [101]) ++ rest)).map _) = _
    rw [hs, readAddrs hlib.net haddrs]
    rfl
  have hi (s : RouterContact) : Reads (keySink (decodeKey lib)) s (entry [105] r.netID.text)
      { s with netID := ofBytes 8 r.netID.text } := by
    apply reads_entry
    intro rest
    show Except.ok ((NetID.bdecode (str r.netID.text ++ rest)).map _) = _
    rw [NetID.bdecode_text]
    rfl
  have hk (s) := reads_setBuffer (decodeKey lib) s 107 (fun s x => { s with pubkey := x }) r.pubkey
  have hn (s : RouterContact) (hnick : s.nickname = .zero 32) : Reads (keySink (decodeKey lib)) s
      (if r.nick = [] then [] else entry [110] r.nick) { s with nickname := ofBytes 32 r.nick } := by
    have hlen := r.nick_length
    apply Reads.unless
    · intro _
      apply reads_entry
      intro rest
      unfold decodeKey
      rw [if_neg (by decide), if_neg (by decide), if_neg (by decide), if_neg (by decide), if_pos (by decide),
        readString_str (by omega)]
      dsimp only
      rw [if_neg (by omega)]
    · intro hempty
      have hzero : ofBytes 32 r.nick = s.nickname := by
        rw [hempty, hnick]
        rfl
      rw [hzero]
  have hp (s) := reads_setBuffer (decodeKey lib) s 112 (fun s x => { s with enckey := x }) r.enckey
  have hr (s : RouterContact) (hv : s.routerVersion = none) : Reads (keySink (decodeKey lib)) s
      (versionEntry r.routerVersion) { s with routerVersion := r.routerVersion } := by
    cases r.routerVersion with
    | none =>
      have hsame : { s with routerVersion := none } = s := by rw [← hv]
      rw [hsame]
      exact .nil
    | some v =>
      apply reads_entry
      intro rest
      show (do return (← RouterVersion.bdecode (v.encoding ++ rest)).map _) = _
      rw [RouterVersion.bdecode_encoding]
      rfl
  exact ((((ha.append (hi _)).append (hk _)).append (hn _ hnick)).append (hp _)).append (hr _ hv)

lemma takeRecords (l : List SRVData) : ∀ s : List SRVData,
    l.foldlM (fun s (a : SRVData) => if a.isValid then some (s ++ [a]) else none) s
      = if l.all isValid then some (s ++ l) else none := by
  induction l with
  | nil =>
    intro s
    simp
  | cons a l ih =>
    intro s
    rw [foldlM_cons, all_cons]
    cases ha : a.isValid with
    | false => rfl
    | true =>
      refine (ih (s ++ [a])).trans ?_
      simp

lemma decodeKey_records (hlib : lib.Lawful) (hs : s.srvRecords = []) {l : List SRVData}
    (hlen : (l.flatMap encoding).length < 10^9) (rest : Bytes) :
    decodeKey lib s [115] (108 :: (l.flatMap SRVData.encoding ++ [101]) ++ rest)
      = .ok (if l.all SRVData.isValid then some ({ s with srvRecords := l }, rest) else none) := by
  have hne : ∀ a : SRVData, Opens a.encoding := fun a => SRVTuple.serialize_cons a.toTuple
  have hread : readList (fun l b => do return (← SRVData.bdecode lib.bt b).map fun a => (l ++ [a.1], a.2)) []
      (108 :: (l.flatMap SRVData.encoding ++ [101]) ++ rest)
      = .ok ((l.foldlM (fun s (a : SRVData) => if a.isValid then some (s ++ [a]) else none) []).map fun s => (s, rest)) := by
    apply readList_foldlM hne l
    intro a ha s rest
    have hle := le_of_mem_flatMap encoding ha
    rw [bdecode_encoding hlib.bt (by omega)]
    cases a.isValid with
    | false => rfl
    | true => rfl
  show (do return (← readList _ s.srvRecords (108 :: (l.flatMap encoding ++ [101]) ++ rest)).map _) = _
  rw [hs, hread, takeRecords]
  cases l.all isValid with
  | false => rfl
  | true => rfl

variable (lib) in
lemma reads_last (hsig : r.version = 0 → s.signature = r.signature) (htime : Timestamp r.lastUpdated) :
    Reads (keySink (decodeKey lib)) s r.lastFields
      { s with lastUpdated := r.lastUpdated, version := r.version } := by
  have hu (s : RouterContact) : Reads (keySink (decodeKey lib)) s (str [117] ++ int (UInt64.ofInt r.lastUpdated))
      { s with lastUpdated := r.lastUpdated } := by
    refine reads_int _ (fun i => some { s with lastUpdated := i.toInt64.toInt }) (fun _ => rfl) ?_
    rw [toInt64_ofInt htime]
  have hv (s) := reads_setInt (decodeKey lib) s 118 (fun s x => { s with version := x }) r.version
  have hx (s : RouterContact) : Reads (keySink (decodeKey lib)) s (str [120] ++ [108, 101]) s := by
    apply reads_entry
    intro rest
    show (do return (← Util.discard ([108, 101] ++ rest)).map _) = _
    rfl
  have hz (s : RouterContact) (hsig : r.version = 0 → s.signature = r.signature) : Reads (keySink (decodeKey lib)) s
      (if r.version = 0 then entry [122] r.signature.toList else []) s := by
    apply Reads.when
    · intro hversion
      have hread : Reads (keySink (decodeKey lib)) s (entry [122] s.signature.toList) s :=
        reads_buffer s.signature (fun x => { s with signature := x })
      rw [← hsig hversion]
      exact hread
    · intro _
      rfl
  exact (((hu _).append (hv _)).append (hx _)).append (hz _ hsig)

lemma decode_signed (hlib : lib.Lawful) (hversion : r.version = 1) (haddrs : ∀ a ∈ r.addrs, a.Sendable)
    (htime : Timestamp r.lastUpdated) (hlen : (r.signedEncoding lib).length < 10^9) (p : NetID) :
    decodeDict (decodeKey lib) { netID := p, signedBtDict := r.signedBtDict, signature := r.signature }
      (r.signedEncoding lib)
      = .ok (if r.srvRecords.all SRVData.isValid then some (r.received, []) else none) := by
  have hpos : 0 < r.version := by rw [hversion]; decide
  have hfirst := reads_first (s := { netID := p, signedBtDict := r.signedBtDict, signature := r.signature }) hlib
    rfl rfl rfl haddrs
  have hsrv : r.srvEntry = str [115] ++ 108 :: (r.srvRecords.flatMap encoding ++ [101]) := if_pos hpos
  have hlenSrv : (r.srvRecords.flatMap encoding).length < 10^9 := by
    simp only [signedEncoding, hsrv, length_cons, length_append] at hlen
    omega
  cases hvalid : r.srvRecords.all isValid with
  | false =>
    have hassoc : r.signedEncoding lib = 100 :: (r.firstFields lib ++
        (str [115] ++ 108 :: (r.srvRecords.flatMap encoding ++ [101])) ++ (r.lastFields ++ [101])) := by
      simp [signedEncoding, hsrv]
    rw [hassoc]
    refine hfirst.dict_none (fun _ => ?_) _
    show decodeKey lib _ [115] _ = _
    rw [decodeKey_records hlib rfl hlenSrv, hvalid]
    rfl
  | true =>
    have hentry : Reads (keySink (decodeKey lib))
        { r.received with lastUpdated := 0, version := recordVersion, srvRecords := [] }
        (str [115] ++ 108 :: (r.srvRecords.flatMap encoding ++ [101]))
        { r.received with lastUpdated := 0, version := recordVersion } := by
      apply reads_entry
      intro _
      rw [decodeKey_records hlib rfl hlenSrv, hvalid]
      rfl
    have hlast := reads_last lib (r := r) (s := { r.received with lastUpdated := 0, version := recordVersion })
      (fun _ => rfl) htime
    have all := (hfirst.append hentry).append hlast
    rw [← hsrv] at all
    rw [← append_nil (r.signedEncoding lib)]
    exact dict_reads all []

def wire (r : RouterContact) : Bytes := [108, 105, 49, 101] ++ str r.signature.toList ++ r.signedBtDict

lemma wire_eq (r : RouterContact) :
    r.wire = [108, 105, 49, 101] ++ decimal 64 ++ [58] ++ r.signature.toList ++ r.signedBtDict := by simp [wire, str]

lemma bencode_ok (hversion : r.version = 1) {b b' : Buf} (hb : b.cur ≤ b.data.length)
    (hok : r.bencode lib b = (true, b')) :
    (b'.data.take b'.cur).drop b.cur = r.wire ++ [if b.cur + r.wire.length + 1 < b.data.length then 101 else 0] := by
  have hbody : Prints (((writef ([108, 105, 49, 101] ++ decimal 64 ++ [58])).seq (write r.signature.toList)).seq
      (write r.signedBtDict)) r.wire := by
    rw [wire_eq]
    exact ((prints_writef (by simp)).seq (prints_write _)).seq (prints_write _)
  unfold bencode at hok
  rw [if_neg (by rw [hversion]; decide), if_pos hversion] at hok
  obtain ⟨b1, h1, h2⟩ := seq_ok hok
  obtain ⟨_, _, _⟩ := hbody.fits h1 hb
  unfold writef Buf.sizeLeft at h2
  dsimp only at h2
  split at h2
  · cases h2
  have hleft : b.cur + r.wire.length < b.data.length := by omega
  obtain ⟨d, hd, _, htake⟩ := hbody.emits b hleft
  have hb1 : b1 = ⟨d, b.cur + r.wire.length⟩ := (Prod.mk.inj (h1.symm.trans hd)).2
  have hstart : (b.data.take b.cur).length = b.cur := by rw [length_take]; omega
  subst hb1
  rw [if_neg (by show ¬ d.length - (b.cur + r.wire.length) = 0; omega)] at h2
  cases h2
  have hone : ([101] : Bytes).take (d.length - (b.cur + r.wire.length) - 1) ++ [0]
      = (if b.cur + r.wire.length + 1 < b.data.length then [101, 0] else [0]) := by
    split
    · rw [take_of_length_le (by simp; omega)]
      rfl
    · rw [show d.length - (b.cur + r.wire.length) - 1 = 0 by omega]
      rfl
  show ((Bytes.overwrite d (b.cur + r.wire.length)
    (([101] : Bytes).take (d.length - (b.cur + r.wire.length) - 1) ++ [0])).take
      (b.cur + r.wire.length + 1)).drop b.cur = _
  rw [take_overwrite (by omega) (by simp), htake, hone]
  rw [append_assoc, drop_left' hstart]
  split <;> rfl

section
variable (hlib : lib.Lawful) (hdict : r.signedBtDict = r.signedEncoding lib)
include hlib hdict

lemma bdecode_wire (hversion : r.version = 1)
    (haddrs : ∀ a ∈ r.addrs, a.Sendable) (htime : Timestamp r.lastUpdated) (hlen : (r.signedEncoding lib).length < 10^9)
    (p : RouterContact) :
    bdecode lib p (r.wire ++ [101])
      = .ok (if r.srvRecords.all SRVData.isValid then some (r.received, []) else none) := by
  have hlist : lib.list (r.wire ++ [101]) = some ⟨1, r.signature.toList, r.signedBtDict, true, []⟩ := by
    refine hlib.list_eq r.signature.toList r.signedBtDict [] (by simp) ?_ ?_ ?_
    · rw [hdict]
      exact bencoded_signed lib r
    · rw [hdict]
      rfl
    · rw [hdict]
      exact hlen
  have hcons : r.wire ++ [101] = 108 :: (r.wire ++ [101]).tail := rfl
  have hsig : ofBytes 64 r.signature.toList = r.signature := by
    have h := ofBytes_append r.signature []
    rw [append_nil] at h
    exact h
  have hdecode := decode_signed hlib hversion haddrs htime hlen p.netID
  rw [← hdict] at hdecode
  unfold bdecode
  rw [hcons]
  dsimp only
  rw [if_neg (by decide), if_neg (by simp), ← hcons, hlist]
  dsimp only
  rw [if_pos rfl]
  unfold decodeVersion1
  dsimp only [clear]
  rw [if_neg (by simp), if_neg (by simp), hsig, hdecode]
  cases r.srvRecords.all isValid with
  | false => rfl
  | true => rfl

lemma bdecode_open
    (hlen : (r.signedEncoding lib).length < 10^9) (p : RouterContact) : bdecode lib p (r.wire ++ [0]) = .ok none := by
  have hcons : r.wire ++ [0] = 108 :: (r.wire ++ [0]).tail := rfl
  unfold bdecode
  rw [hcons]
  dsimp only
  rw [if_neg (by decide), if_neg (by simp), ← hcons]
  cases hl : lib.list (r.wire ++ [0]) with
  | none => rfl
  | some l =>
    have hopen : l.finished = false := by
      refine hlib.list_open r.signature.toList r.signedBtDict 0 [] (by simp) ?_ ?_ ?_ (by decide) l hl
      · rw [hdict]
        exact bencoded_signed lib r
      · rw [hdict]
        rfl
      · rw [hdict]
        exact hlen
    dsimp only
    split
    · unfold decodeVersion1
      rw [hopen]
      rfl
    · rfl

end

def Same (q r : RouterContact) : Prop :=
  q.addrs = r.addrs ∧ q.netID.text = r.netID.text ∧ q.enckey = r.enckey ∧ q.pubkey = r.pubkey ∧
    q.signature = r.signature ∧ q.nickname = r.nickname ∧ q.lastUpdated = r.lastUpdated ∧ q.version = r.version ∧
    q.routerVersion = r.routerVersion ∧ q.srvRecords = r.srvRecords ∧ q.signedBtDict = r.signedBtDict

lemma received_same_iff (r : RouterContact) : r.received.Same r ↔
    (∀ a ∈ r.addrs, a.version = recordVersion) ∧ ofBytes 32 r.nick = r.nickname := by
  have htext : r.received.netID.text = r.netID.text := cStr_ofBytes (zero_notMem_cStr _) r.netID.text_length
  have haddr : ∀ a : AddressInfo, a.received = a ↔ a.version = recordVersion := by
    intro a
    constructor
    · intro h
      exact (congrArg AddressInfo.version h).symm
    · intro h
      unfold AddressInfo.received
      rw [← h]
  have haddrs : r.addrs.map AddressInfo.received = r.addrs ↔ ∀ a ∈ r.addrs, a.version = recordVersion := by
    have hid : r.addrs.map AddressInfo.received = r.addrs.map id ↔ ∀ a ∈ r.addrs, a.received = a := map_inj_left
    rw [map_id] at hid
    rw [hid]
    exact forall₂_congr fun a _ => haddr a
  rw [← haddrs]
  constructor
  · rintro ⟨h, -, -, -, -, hnick, -⟩
    exact ⟨h, hnick⟩
  · rintro ⟨h, hnick⟩
    exact ⟨h, htext, rfl, rfl, rfl, hnick, rfl, rfl, rfl, rfl, rfl⟩

variable (lib) in
lemma signed_unsigned (h : r.version ≠ 0) (z : Signature) (d : Bytes) :
    signedEncoding lib { r with signature := z, signedBtDict := d } = signedEncoding lib r := by
  have hlast : lastFields { r with signature := z, signedBtDict := d } = lastFields r := by
    unfold lastFields
    rw [if_neg h, if_neg h]
  unfold signedEncoding
  rw [hlast]
  rfl

lemma sign_eq {pub : PubKey} {sgn : Bytes → Option Signature} {now : Millis} {r' : RouterContact}
    (hversion : r.version = 1) (h : r.sign lib pub sgn now = some r') :
    r'.signedBtDict = r'.signedEncoding lib ∧ r'.signedBtDict.length ≤ maxRCSize ∧
    sgn r'.signedBtDict = some r'.signature ∧
    r' = { r with
      pubkey := pub, lastUpdated := now, signedBtDict := r'.signedBtDict, signature := r'.signature } := by
  obtain ⟨r0, hr0⟩ : ∃ r0 : RouterContact,
    r0 = { r with pubkey := pub, signature := .zero 64, lastUpdated := now } := ⟨_, rfl⟩
  have hversion0 : r0.version = 1 := by rw [hr0]; exact hversion
  have h' : (match (r0.bencodeSignedSection lib).into maxRCSize with
      | none => none
      | some d =>
        if r0.version = 0 ∨ r0.version = 1 then (sgn d).map fun z => { r0 with signedBtDict := d, signature := z }
        else none) = some r' := by
    unfold sign at h
    rw [hr0]
    dsimp only at h ⊢
    exact h
  rw [(prints_signed lib r0).into_eq] at h'
  split at h'
  · cases h'
  rename_i d hd
  split at hd
  · rename_i hfits
    rw [if_pos (.inr hversion0)] at h'
    obtain ⟨z, hz, rfl⟩ := Option.map_eq_some_iff.mp h'
    have hd' : r0.signedEncoding lib = d := Option.some.inj hd
    have hnot : r0.version ≠ 0 := by rw [hversion0]; decide
    have hencoding := signed_unsigned lib hnot z d
    rw [hd'] at hencoding hfits
    refine ⟨hencoding.symm, hfits, hz, ?_⟩
    rw [hr0]
  · cases hd

/-- A signed contact of version 1 survives exactly when a byte was left behind it, its SRV records are valid, its
addresses are current and nothing is behind the first zero of its nickname. -/
theorem contacts_survive {c : Crypto} (hlib : lib.Lawful) {pub : PubKey} {sgn : Bytes → Option Signature}
    (hsign : ∀ b z, sgn b = some z → c.verify pub b z = true) {now : Millis} (hnow : Timestamp now)
    (hversion : r.version = 1) (haddrs : ∀ a ∈ r.addrs, a.Sendable) {r' : RouterContact}
    (hr : r.sign lib pub sgn now = some r') {b b' : Buf} (hb : b.cur ≤ b.data.length)
    (hok : r'.bencode lib b = (true, b')) (p : RouterContact) :
    (∃ q, bdecode lib p ((b'.data.take b'.cur).drop b.cur) = .ok (some (q, [])) ∧ q.Same r' ∧
      q.verifySignature lib c = true) ↔
    b.cur + r'.wire.length + 1 < b.data.length ∧ (∀ s ∈ r.srvRecords, s.isValid = true) ∧
      (∀ a ∈ r.addrs, a.version = recordVersion) ∧ ofBytes 32 r.nick = r.nickname := by
  obtain ⟨hdict, hfits, hz, hr'⟩ := sign_eq hversion hr
  have hversion' : r'.version = 1 := by rw [hr']; exact hversion
  have haddrs' : r'.addrs = r.addrs := by rw [hr']
  have hsrvs' : r'.srvRecords = r.srvRecords := by rw [hr']
  have hnick' : r'.nickname = r.nickname := by rw [hr']
  have htime' : r'.lastUpdated = now := by rw [hr']
  have hpub' : r'.pubkey = pub := by rw [hr']
  have hlen : (r'.signedEncoding lib).length < 10^9 := by
    rw [← hdict]
    exact lt_of_le_of_lt hfits (by decide)
  have hsame := r'.received_same_iff
  have htext : r'.nick = r.nick := congrArg (fun n : AlignedBuffer 32 => cStr n.toList) hnick'
  rw [haddrs', hnick', htext] at hsame
  have hall : r'.srvRecords.all isValid = true ↔ ∀ s ∈ r.srvRecords, s.isValid = true := by rw [hsrvs', all_eq_true]
  have hverify : r'.received.verifySignature lib c = true := by
    have hv : r'.received.version = 1 := hversion'
    unfold verifySignature
    rw [if_neg (by rw [hv]; decide), if_pos hv]
    show c.verify r'.pubkey r'.signedBtDict r'.signature = true
    rw [hpub']
    exact hsign _ _ hz
  rw [bencode_ok hversion' hb hok]
  by_cases hroom : b.cur + r'.wire.length + 1 < b.data.length
  · rw [if_pos hroom, bdecode_wire hlib hdict hversion' (by rw [haddrs']; exact haddrs) (by rw [htime']; exact hnow) hlen]
    constructor
    · rintro ⟨q, hq, hq', -⟩
      cases hvalid : r'.srvRecords.all isValid with
      | false =>
        rw [hvalid] at hq
        cases hq
      | true =>
        rw [hvalid] at hq
        cases hq
        exact ⟨hroom, hall.mp hvalid, hsame.mp hq'⟩
    · rintro ⟨-, hvalid, hfaithful⟩
      rw [hall.mpr hvalid]
      exact ⟨r'.received, rfl, hsame.mpr hfaithful, hverify⟩
  · rw [if_neg hroom, bdecode_open hlib hdict hlen]
    constructor
    · rintro ⟨q, hq, -⟩
      cases hq
    · rintro ⟨h, -⟩
      exact absurd h hroom

end

end RouterContact

def takeContact (b : Bytes) : Option ContactList :=
  match readInteger (b.drop 1) with
  | .ok (some (v, b)) =>
    match Util.discard (takeString b).2 with
    | .ok (some rest) =>
      some ⟨v, (takeString b).1,
        (takeString b).2.take ((takeString b).2.length - rest.length), rest.head? = some 101, rest.drop 1⟩
    | _ => none
  | _ => none

lemma takeContact_eq (sig : Bytes) {dict : Bytes} (hdict : Bencoded dict) (hlen : dict.length < 10^9) (rest : Bytes) :
    takeContact ([108, 105, 49, 101] ++ str sig ++ dict ++ rest)
      = some ⟨1, sig, dict, rest.head? = some 101, rest.drop 1⟩ := by
  have hdrop : ([108, 105, 49, 101] ++ str sig ++ dict ++ rest).drop 1 = int 1 ++ (str sig ++ (dict ++ rest)) := by
    have hint : int 1 = [105, 49, 101] := by simp [int, decimal, digit]
    rw [hint]
    simp
  have htaken : (dict ++ rest).take ((dict ++ rest).length - rest.length) = dict := by
    rw [length_append, Nat.add_sub_cancel, take_left]
  unfold takeContact
  rw [hdrop, readInteger_int]
  dsimp only
  rw [takeString_str]
  rw [hdict.discard hlen]
  dsimp only
  rw [htaken]

namespace Sample

def libs : ContactLibs := ⟨Libs.decimals, taking, takeContact⟩

lemma libs_lawful : libs.Lawful where
  net := Libs.decimals_lawful
  bt := taking_lawful
  list_eq sig dict rest _ hdict _ hlen := takeContact_eq sig hdict hlen (101 :: rest)
  list_open sig dict x rest _ hdict _ hlen hx l hl := by
    have h := takeContact_eq sig hdict hlen (x :: rest)
    rw [show libs.list = takeContact from rfl, h] at hl
    cases hl
    simp [hx]

def pub : PubKey := ofBytes 32 [1]

def sgn (_ : Bytes) : Option Signature := some (ofBytes 64 [1])

lemma sgn_verifies (b : Bytes) (z : Signature) (h : sgn b = some z) :
    Service.Sample.crypto.toCrypto.verify pub b z = true := by
  cases h
  rfl

def relay (target : Bytes) : RouterContact where
  addrs := [{ rank := 1, dialect := [105, 119, 112], ip := 0xffff0a000001, port := 1090 }]
  netID := ofBytes 8 [98, 101, 108, 110, 101, 116]
  version := 1
  routerVersion := some ⟨(0, 9, 7), 0⟩
  srvRecords := [⟨[95, 120, 109, 112, 112, 46, 95, 116, 99, 112], 0, 0, 5222, target⟩]

end Sample

open Sample

namespace RouterContact

theorem contacts_survive_mnode : ∃ r' b',
    (relay [97, 46, 109, 110, 111, 100, 101]).sign libs pub sgn 1700000000000 = some r' ∧
    r'.bencode libs ⟨replicate maxRCSize 0, 0⟩ = (true, b') ∧
    ∀ p, ∃ q, bdecode libs p ((b'.data.take b'.cur).drop 0) = .ok (some (q, [])) ∧ q.Same r' ∧
      q.verifySignature libs Service.Sample.crypto.toCrypto = true := by
  obtain ⟨r', hr, hfits, hwire⟩ : ∃ r', (relay [97, 46, 109, 110, 111, 100, 101]).sign libs pub sgn 1700000000000 = some r' ∧
      (r'.bencode libs ⟨replicate maxRCSize 0, 0⟩).1 = true ∧ r'.wire.length + 1 < maxRCSize :=
    Run.some_sat
  obtain ⟨b', hb'⟩ : ∃ b', r'.bencode libs ⟨replicate maxRCSize 0, 0⟩ = (true, b') := ⟨_, Prod.ext hfits rfl⟩
  refine ⟨r', b', hr, hb', fun p => ?_⟩
  refine (contacts_survive libs_lawful sgn_verifies (by decide) rfl (by decide) hr (Nat.zero_le _) hb'
    p).mpr ⟨?_, by decide, by decide, by decide⟩
  rw [length_replicate, Nat.zero_add]
  exact hwire

/-- a relay with a record for `a.bdx` is signed and written, and cannot be read -/
theorem contact_unreadable_bdx : ∃ r' b', (relay [97, 46, 98, 100, 120]).sign libs pub sgn 1700000000000 = some r' ∧
    r'.bencode libs ⟨replicate maxRCSize 0, 0⟩ = (true, b') ∧
    ∀ p, bdecode libs p ((b'.data.take b'.cur).drop 0) = .ok none := by
  obtain ⟨r', hr, hwrites, hwire, hinvalid, haddrs, htime⟩ : ∃ r',
      (relay [97, 46, 98, 100, 120]).sign libs pub sgn 1700000000000 = some r' ∧
      (r'.bencode libs ⟨replicate maxRCSize 0, 0⟩).1 = true ∧ r'.wire.length + 1 < maxRCSize ∧
      r'.srvRecords.all isValid = false ∧ (∀ a ∈ r'.addrs, a.Sendable) ∧ Timestamp r'.lastUpdated :=
    Run.some_sat
  obtain ⟨b', hb'⟩ : ∃ b', r'.bencode libs ⟨replicate maxRCSize 0, 0⟩ = (true, b') := ⟨_, Prod.ext hwrites rfl⟩
  obtain ⟨hdict, hfits, -, hr'⟩ := sign_eq rfl hr
  have hversion : r'.version = 1 := by rw [hr']; rfl
  refine ⟨r', b', hr, hb', fun p => ?_⟩
  have hwritten := bencode_ok hversion (Nat.zero_le _) hb'
  rw [if_pos (by rw [length_replicate, Nat.zero_add]; exact hwire)] at hwritten
  have hread := bdecode_wire libs_lawful hdict hversion haddrs htime (lt_of_le_of_lt (hdict ▸ hfits) (by decide)) p
  rw [hinvalid] at hread
  rw [← hwritten] at hread
  exact hread

end RouterContact

end Belnet.Contact
