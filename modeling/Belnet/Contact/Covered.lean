import Belnet.Contact.Signed
import Belnet.Util.Entries

/-!
# What the signature of a contact covers

`BDecode` leaves the network id and signed dictionary of what was decoded before; `VerifySignature` looks at the
dictionary in version 1, at the fields in version 0.
-/

namespace Belnet.Contact
open Iwp hiding RouterContact
open Util Decimal Net Dns List AddressInfo RouterContact Option
open Service (decodeDict keySink dict_reads reads_entry Timestamp entry toInt64_ofInt)
open Belnet.Path (recordVersion)

namespace RouterContact

/-- A network id and a signature until they are read, records in front of those read, and a signed dictionary. -/
structure Frame where
  netID : Option NetID
  signature : Option Signature
  records : List SRVData
  dict : Bytes

variable {key : Bytes} {f : Frame} {x : UInt8}

namespace Frame

def put (f : Frame) (r : RouterContact) : RouterContact :=
  { r with
    netID := f.netID.getD r.netID, signature := f.signature.getD r.signature,
    srvRecords := f.records ++ r.srvRecords, signedBtDict := f.dict }

def after (f : Frame) (key : Bytes) : Frame :=
  { f with
    netID := if startsWith [105] key then none else f.netID
    signature := if startsWith [122] key then none else f.signature }

lemma after_eq (hi : startsWith [105] key ≠ true) (hz : startsWith [122] key ≠ true) : f.after key = f := by
  unfold after
  rw [if_neg hi, if_neg hz]

lemma after_netID (h : startsWith [105] key = true) : f.after key = { f with netID := none } := by
  have hz : startsWith [122] key ≠ true := fun h' => absurd (startsWith_unique h h') (by decide)
  unfold after
  rw [if_pos h, if_neg hz]

lemma after_signature (h : startsWith [122] key = true) : f.after key = { f with signature := none } := by
  have hi : startsWith [105] key ≠ true := fun h' => absurd (startsWith_unique h h') (by decide)
  unfold after
  rw [if_neg hi, if_pos h]

end Frame

variable (lib : ContactLibs)

lemma readRecords_append (pre l : List SRVData) (b : Bytes) :
    readList (fun l b => do return (← SRVData.bdecode lib.bt b).map fun s => (l ++ [s.1], s.2)) (pre ++ l) b
      = onState (pre ++ ·) (readList (fun l b => do
          return (← SRVData.bdecode lib.bt b).map fun s => (l ++ [s.1], s.2)) l b) := by
  refine readList_map (f := (pre ++ ·)) (fun l b => onState_do (fun s => ?_) _) l b
  rw [append_assoc]

lemma frame_other {e e' d d' : Decoded RouterContact} (hx : x ≠ 105 ∧ x ≠ 122) (h : d = onState f.put e)
    (h' : startsWith [x] key ≠ true → d' = onState (f.after key).put e') :
    (if startsWith [x] key then d else d') = onState (f.after key).put (if startsWith [x] key then e else e') := by
  refine onState_ite (fun hkey => ?_) h'
  rw [Frame.after_eq (fun h' => hx.1 (startsWith_unique hkey h')) fun h' => hx.2 (startsWith_unique hkey h')]
  exact h

lemma decodeKey_frame (f : Frame) (r : RouterContact) (key b : Bytes) :
    decodeKey lib (f.put r) key b = onState (f.after key).put (decodeKey lib r key b) := by
  refine frame_other (by decide) (onState_do (fun _ => by rfl) _) fun _ => onState_ite (fun hi => ?_) fun hi => ?_
  · rw [Frame.after_netID hi]
    exact onState_do (fun _ => by rfl) (.ok (NetID.bdecode b))
  refine frame_other (by decide) (onState_buffer (fun _ => by rfl) b) fun _ =>
    frame_other (by decide) (onState_do (fun _ => by rfl) _) fun _ => frame_other (by decide) ?_ fun _ =>
    frame_other (by decide) ?_ fun _ => frame_other (by decide) (onState_buffer (fun _ => by rfl) b) fun _ =>
    frame_other (by decide) (onState_intEntry (fun _ => by rfl) b) fun _ =>
    frame_other (by decide) (onState_intEntry (fun _ => by rfl) b) fun _ => onState_ite (fun hz => ?_) fun hz => ?_
  · cases readString b with
    | none => rfl
    | some x =>
      dsimp only
      split <;> rfl
  · show (do return (← readList _ (f.records ++ r.srvRecords) b).map _) = _
    rw [readRecords_append]
    rcases readList _ r.srvRecords b with e | _ | x <;> rfl
  · rw [Frame.after_signature hz]
    exact onState_buffer (fun _ => by rfl) b
  · rw [Frame.after_eq hi hz]
    exact onState_do (fun _ => by rfl) _

def blank : RouterContact := { netID := .zero 8 }

def keysOf (b : Bytes) : List Bytes := dictKeys (keySink (decodeKey lib)) blank b

lemma decode_frame (f : Frame) (b : Bytes) : decodeDict (decodeKey lib) (f.put blank) b
      = onState ((keysOf lib b).foldl Frame.after f).put (decodeDict (decodeKey lib) blank b) := by
  have hkey := decodeKey_frame lib
  exact readDict_frame hkey (fun f r b => rfl) f blank b

end RouterContact

lemma str_one (x : UInt8) : str [x] = [49, 58, x] := by simp [str, decimal, digit]

variable {r t : Bytes}

lemma AddressInfo.encoding_cancel {lib : Libs} (hlib : lib.Lawful) {a b : AddressInfo} (hversion : a.version = b.version)
    (ha : a.dialect.length < 10^9) (hb : b.dialect.length < 10^9)
    (h : a.encoding lib ++ r = b.encoding lib ++ t) : a = b ∧ r = t := by
  have hip : ∀ a : AddressInfo, cStr (lib.ntop6 a.ip) = lib.ntop6 a.ip := fun a => cStr_eq (hlib.text6 a.ip).2.1
  have hshort : ∀ a : AddressInfo, (lib.ntop6 a.ip).length < 10^9 := fun a =>
    (hlib.text6 a.ip).1.trans (by norm_num)
  have hkey : ∀ k : PubKey, k.toList.length < 10^9 := fun k => by rw [Vector.toList_length]; norm_num
  simp only [encoding, fields, entry, hip, append_assoc, cons_append] at h
  have h1 := append_cancel_left (cons.inj h).2
  obtain ⟨hrank, h2⟩ := int_cancel h1
  obtain ⟨hdialect, h3⟩ := str_cancel ha hb (append_cancel_left h2)
  obtain ⟨hpub, h4⟩ := str_cancel (hkey a.pubkey) (hkey b.pubkey) (append_cancel_left h3)
  obtain ⟨htext, h5⟩ := str_cancel (hshort a) (hshort b) (append_cancel_left h4)
  obtain ⟨hport, h6⟩ := int_cancel (append_cancel_left h5)
  obtain ⟨-, h7⟩ := int_cancel (append_cancel_left h6)
  have hipeq : a.ip = b.ip := by
    have hback := hlib.pton6_ntop6 a.ip
    rw [htext, hlib.pton6_ntop6] at hback
    exact (some.inj hback).symm
  have hsmall : ∀ {m n : UInt16}, m.toUInt64 = n.toUInt64 → m = n := by
    intro m n h
    rw [← m.toUInt16_toUInt64, h, n.toUInt16_toUInt64]
  refine ⟨?_, (cons.inj h7).2⟩
  obtain ⟨_, _, _, _, _, _⟩ := a
  obtain ⟨_, _, _, _, _, _⟩ := b
  dsimp only at hrank hdialect hpub hipeq hport hversion
  rw [hsmall hrank, hdialect, Vector.toList_injective hpub, hipeq, hsmall hport, hversion]

variable {lib : ContactLibs} {q : RouterContact} {x : Bytes} {q' : RouterContact}

namespace RouterContact

lemma optional_cancel {k k' : UInt8} (hk : k ≠ k') {y : Bytes} (hx : x.length < 10^9) (hy : y.length < 10^9)
    (h : (if x = [] then [] else entry [k] x) ++ (str [k'] ++ r)
      = (if y = [] then [] else entry [k] y) ++ (str [k'] ++ t)) : x = y ∧ r = t := by
  simp only [entry, str_one k, str_one k'] at h
  by_cases hx0 : x = []
  · by_cases hy0 : y = []
    · rw [if_pos hx0, if_pos hy0] at h
      exact ⟨hx0.trans hy0.symm, append_cancel_left (append_cancel_left h)⟩
    rw [if_pos hx0, if_neg hy0] at h
    simp only [nil_append, cons_append, cons.injEq] at h
    exact absurd h.2.2.1.symm hk
  · by_cases hy0 : y = []
    · rw [if_neg hx0, if_pos hy0] at h
      simp only [nil_append, cons_append, cons.injEq] at h
      exact absurd h.2.2.1 hk
    · rw [if_neg hx0, if_neg hy0, append_assoc, append_assoc] at h
      obtain ⟨hxy, h'⟩ := str_cancel hx hy (append_cancel_left h)
      exact ⟨hxy, append_cancel_left h'⟩

lemma version_cancel {v w : Option RouterVersion} {k : UInt8} (hk : k ≠ 114)
    (h : versionEntry v ++ (str [k] ++ r) = versionEntry w ++ (str [k] ++ t)) : v = w ∧ r = t := by
  cases v with
  | none =>
    cases w with
    | none => exact ⟨rfl, append_cancel_left h⟩
    | some w =>
      simp only [versionEntry, str_one, nil_append, cons_append, cons.injEq] at h
      exact absurd h.2.2.1 hk
  | some v =>
    cases w with
    | none =>
      simp only [versionEntry, str_one, nil_append, cons_append, cons.injEq] at h
      exact absurd h.2.2.1.symm hk
    | some w =>
      have h' : v.encoding ++ (str [k] ++ r) = w.encoding ++ (str [k] ++ t) := by
        simp only [versionEntry, append_assoc] at h
        exact append_cancel_left h
      have hread := v.bdecode_encoding (str [k] ++ r)
      rw [h', w.bdecode_encoding] at hread
      simp only [Except.ok.injEq, some.injEq, Prod.mk.injEq] at hread
      exact ⟨congrArg some hread.1.symm, (append_cancel_left hread.2).symm⟩

/-- what `==` says of two contacts that have the same key: network ids are compared by their texts -/
structure Agree (q q' : RouterContact) : Prop where
  addrs : q.addrs = q'.addrs
  netID : q.netID.text = q'.netID.text
  enckey : q.enckey = q'.enckey
  routerVersion : q.routerVersion = q'.routerVersion
  srvRecords : q.srvRecords = q'.srvRecords
  lastUpdated : q.lastUpdated = q'.lastUpdated
  version : q.version = q'.version

structure Decoded (q : RouterContact) : Prop where
  addrs : ∀ a ∈ q.addrs, a.version = recordVersion
  lastUpdated : Timestamp q.lastUpdated

lemma dialects_short {r : RouterContact} (hr : (r.signedEncoding lib).length < 10^9) :
    ∀ a ∈ r.addrs, a.dialect.length < 10^9 := by
  intro a ha
  have hle := le_of_mem_flatMap (encoding lib.net) ha
  have hdialect : a.dialect.length ≤ (a.encoding lib.net).length := by
    simp only [encoding, fields, entry, str, length_cons, length_append]
    omega
  simp only [signedEncoding, firstFields, length_cons, length_append] at hr
  omega

lemma agree_of_encoding (hlib : lib.net.Lawful) (hq : q.Decoded)
    (hq' : q'.Decoded) (hversion : q.version = 0) (hversion' : q'.version = 0) (hsrvs : q.srvRecords = q'.srvRecords)
    (hlen : (q.signedEncoding lib).length < 10^9) (h : q.signedEncoding lib = q'.signedEncoding lib) : Agree q q' := by
  have hkey : ∀ k : PubKey, k.toList.length < 10^9 := fun k => by rw [Vector.toList_length]; norm_num
  have htext : ∀ n : NetID, n.text.length < 10^9 := fun n => n.text_length.trans_lt (by norm_num)
  have hnick : ∀ r : RouterContact, r.nick.length < 10^9 := fun r => r.nick_length.trans_lt (by norm_num)
  have hlen' := h ▸ hlen
  have hzero : ¬ (0 : UInt64) < 0 := by decide
  have hparts := (cons.inj h).2
  simp only [firstFields, srvEntry, lastFields, hversion, hversion', if_neg hzero, append_assoc, cons_append,
    nil_append] at hparts
  obtain ⟨haddrs, h1⟩ := flatMap_cancel (encoding_cons lib.net) (fun a ha b hb r t hab =>
    encoding_cancel hlib ((hq.addrs a ha).trans (hq'.addrs b hb).symm) (dialects_short hlen a ha)
      (dialects_short hlen' b hb) hab) (cons.inj (append_cancel_left hparts)).2
  simp only [entry, append_assoc] at h1
  obtain ⟨hnet, h2⟩ := str_cancel (htext q.netID) (htext q'.netID) (append_cancel_left h1)
  obtain ⟨-, h3⟩ := str_cancel (hkey q.pubkey) (hkey q'.pubkey) (append_cancel_left h2)
  obtain ⟨-, h4⟩ := optional_cancel (by decide) (hnick q) (hnick q') h3
  obtain ⟨henc, h5⟩ := str_cancel (hkey q.enckey) (hkey q'.enckey) h4
  obtain ⟨hrouter, h6⟩ := version_cancel (by decide) h5
  obtain ⟨htime, -⟩ := int_cancel h6
  refine ⟨haddrs, hnet, Vector.toList_injective henc, hrouter, hsrvs, ?_, hversion.trans hversion'.symm⟩
  rw [← toInt64_ofInt hq.lastUpdated, htime, toInt64_ofInt hq'.lastUpdated]

end RouterContact

lemma AddressInfo.decodeKey_version (lib : Libs) (a : AddressInfo) (key b : Bytes) :
    Gives (fun a' _ => a'.version = a.version) (decodeKey lib a key b) := by
  have hsmall : ∀ f : UInt16 → AddressInfo, (∀ n, (f n).version = a.version) →
      Gives (fun a' _ => a'.version = a.version) (intEntry (fun i => (small i).map f) b) := by
    intro f hf
    refine gives_intEntry fun i r s _ hs => ?_
    obtain ⟨n, -, rfl⟩ := map_eq_some_iff.mp hs
    exact hf n
  refine .ite (fun _ => hsmall _ fun _ => rfl) fun _ => .ite (fun _ => ?_) fun _ =>
    .ite (fun _ => gives_buffer fun _ _ _ => rfl) fun _ => .ite (fun _ => ?_) fun _ =>
    .ite (fun _ => hsmall _ fun _ => rfl) fun _ => .ite (fun _ => gives_intEntry fun i r s _ hs => ?_) fun _ =>
    .ite (fun _ => gives_error _) fun _ => gives_none
  · cases readString b with
    | none => exact gives_none
    | some x => exact .ite (fun _ => gives_none) fun _ => .ite (fun _ => gives_error _) fun _ => gives_some rfl
  · cases readString b with
    | none => exact gives_none
    | some x => exact .ite (fun _ => gives_none) fun _ => gives_map fun _ _ => rfl
  split at hs
  · cases hs
    rfl
  · cases hs

variable {b : Bytes}

lemma AddressInfo.bdecode_version {lib : Libs} {a a' : AddressInfo}
    (h : bdecode lib a b = .ok (some (a', r))) : a'.version = a.version := by
  have hkeeps : ∀ s key b s' r, s.version = a.version → keySink (decodeKey lib) s key b = .ok (some (s', r)) →
      s'.version = a.version := by
    intro s key b s' r hs hsink
    cases key with
    | none =>
      cases hsink
      exact hs
    | some key => exact (decodeKey_version lib s key b s' r hsink).trans hs
  exact readDict_inv hkeeps rfl h

namespace RouterContact

lemma decodeKey_decoded (lib : ContactLibs) (hq : q.Decoded) (key b : Bytes) :
    Gives (fun q' _ => q'.Decoded) (decodeKey lib q key b) := by
  refine .ite (fun _ => gives_do fun x hx => ⟨?_, hq.lastUpdated⟩) fun _ =>
    .ite (fun _ => gives_map fun _ _ => ⟨hq.addrs, hq.lastUpdated⟩) fun _ =>
    .ite (fun _ => gives_buffer fun _ _ _ => ⟨hq.addrs, hq.lastUpdated⟩) fun _ =>
    .ite (fun _ => gives_do fun _ _ => ⟨hq.addrs, hq.lastUpdated⟩) fun _ => .ite (fun _ => ?_) fun _ =>
    .ite (fun _ => gives_do fun _ _ => ⟨hq.addrs, hq.lastUpdated⟩) fun _ =>
    .ite (fun _ => gives_buffer fun _ _ _ => ⟨hq.addrs, hq.lastUpdated⟩) fun _ =>
    .ite (fun _ => gives_intEntry fun i _ s _ hs => ?_) fun _ => .ite (fun _ => gives_intEntry fun i _ s _ hs => ?_) fun _ =>
    .ite (fun _ => gives_buffer fun _ _ _ => ⟨hq.addrs, hq.lastUpdated⟩) fun _ => gives_do fun _ _ => hq
  · refine readList_inv (P := fun l : List AddressInfo => ∀ a ∈ l, a.version = recordVersion) ?_ hq.addrs hx
    intro l b l' r hl
    refine gives_do (P := fun l' _ => ∀ a ∈ l', a.version = recordVersion) (fun a ha c hc => ?_) l' r
    rcases mem_concat.mp hc with hc | rfl
    · exact hl c hc
    · exact bdecode_version ha
  · cases readString b with
    | none => exact gives_none
    | some x =>
      dsimp only
      split
      · exact gives_none
      · exact gives_some ⟨hq.addrs, hq.lastUpdated⟩
  · cases hs
    exact ⟨hq.addrs, Int64.le_toInt _, Int64.toInt_lt _⟩
  · cases hs
    exact ⟨hq.addrs, hq.lastUpdated⟩

lemma decodeDict_decoded (hq : q.Decoded)
    (h : decodeDict (decodeKey lib) q b = .ok (some (q', r))) : q'.Decoded := by
  have hkeeps : ∀ s key b s' r, Decoded s → keySink (decodeKey lib) s key b = .ok (some (s', r)) → s'.Decoded := by
    intro s key b s' r hs hsink
    cases key with
    | none =>
      cases hsink
      exact hs
    | some key => exact decodeKey_decoded lib hs key b s' r hsink
  exact readDict_inv hkeeps hq h

end RouterContact

section
variable {σ : Type} {decodeKey : σ → Bytes → Bytes → Decoded σ} {R : σ → σ → Prop} {c : UInt8}

lemma passes_entry {val : Bytes} (h : ∀ s rest, Gives (fun _ r => r = rest) (decodeKey s [c] (val ++ rest))) :
    Passes (keySink decodeKey) (fun _ _ => True) (str [c] ++ val) :=
  Passes.entry (by simp) fun s rest s' r hread => ⟨h s rest s' r hread, trivial⟩

lemma passes_buffer {n : ℕ} (hx : x.length < 10^9)
    (f : σ → AlignedBuffer n → σ) (h : ∀ s b, decodeKey s [c] b = bufferEntry (f s) b) (hR : ∀ s x, R s (f s x)) :
    Passes (keySink decodeKey) R (entry [c] x) := by
  refine Passes.entry (by simp) fun s rest => ?_
  show Gives _ (decodeKey s [c] (str x ++ rest))
  rw [h]
  refine gives_buffer fun y r hy => ⟨?_, hR s y⟩
  unfold readBuffer at hy
  rw [readString_str hx] at hy
  dsimp only at hy
  split at hy
  · cases hy
    rfl
  · cases hy

lemma passes_int {i : UInt64} (f : σ → UInt64 → Option σ)
    (h : ∀ s b, decodeKey s [c] b = intEntry (f s) b) (hR : ∀ s s', f s i = some s' → R s s') :
    Passes (keySink decodeKey) R (str [c] ++ int i) := by
  refine Passes.entry (by simp) fun s rest => ?_
  show Gives _ (decodeKey s [c] (int i ++ rest))
  rw [h, intEntry_int]
  exact gives_map fun s' hs' => ⟨rfl, hR s s' hs'⟩

end

lemma AddressInfo.bdecode_passes {lib : Libs} (hlib : lib.Lawful) {a s s' : AddressInfo} (ha : a.dialect.length < 10^9)
    {rest : Bytes} (h : bdecode lib s (a.encoding lib ++ rest) = .ok (some (s', r))) : r = rest := by
  have hip : (cStr (lib.ntop6 a.ip)).length < 10^9 := by
    rw [cStr_eq (hlib.text6 a.ip).2.1]
    exact (hlib.text6 a.ip).1.trans (by norm_num)
  have hsmall (c : UInt8) (n : UInt16) (f : AddressInfo → UInt16 → AddressInfo)
      (h : ∀ s b, decodeKey lib s [c] b = intEntry (fun i => (small i).map (f s)) b) :
      Passes (keySink (decodeKey lib)) (fun _ _ => True) (str [c] ++ int n.toUInt64) :=
    passes_int (fun s i => (small i).map (f s)) h fun _ _ _ => trivial
  have hd : Passes (keySink (decodeKey lib)) (fun _ _ => True) (entry [100] a.dialect) := by
    refine passes_entry fun s rest => ?_
    unfold decodeKey
    rw [if_neg (by decide), if_pos (by decide), readString_str ha]
    exact .ite (fun _ => gives_none) fun _ => .ite (fun _ => gives_error _) fun _ => gives_some rfl
  have hi : Passes (keySink (decodeKey lib)) (fun _ _ => True) (entry [105] (cStr (lib.ntop6 a.ip))) := by
    refine passes_entry fun s rest => ?_
    unfold decodeKey
    rw [if_neg (by decide), if_neg (by decide), if_neg (by decide), if_pos (by decide), readString_str hip]
    exact .ite (fun _ => gives_none) fun _ => gives_map fun _ _ => rfl
  have hv : Passes (keySink (decodeKey lib)) (fun _ _ => True) (str [118] ++ int recordVersion) :=
    passes_int (fun a i => if i = recordVersion then some a else none) (fun _ _ => rfl) fun _ _ _ => trivial
  have hT : ∀ a b c : AddressInfo, True → True → True := fun _ _ _ _ _ => trivial
  have hall := (((((hsmall 99 a.rank (fun s n => { s with rank := n }) fun _ _ => rfl).append hd hT).append
    (passes_buffer (c := 101) (x := a.pubkey.toList) (by simp) (fun s x => { s with pubkey := x }) (fun _ _ => rfl)
      fun _ _ => trivial) hT).append hi hT).append
    (hsmall 112 a.port (fun s n => { s with port := n }) fun _ _ => rfl) hT).append hv hT
  obtain ⟨_, -, hend⟩ := hall.dict h
  cases hend
  rfl

namespace RouterContact

lemma passes_last (hversion : q.version = 0) :
    Passes (keySink (decodeKey lib)) (fun _ s' => s'.version = 0) q.lastFields := by
  have hu : Passes (keySink (decodeKey lib)) (fun _ _ => True) (str [117] ++ int (.ofInt q.lastUpdated)) :=
    passes_int (fun s i => some { s with lastUpdated := i.toInt64.toInt }) (fun _ _ => rfl) fun _ _ _ => trivial
  have hv : Passes (keySink (decodeKey lib)) (fun _ s' => s'.version = 0) (str [118] ++ int q.version) := by
    refine passes_int (fun s i => some { s with version := i }) (fun _ _ => rfl) fun s s' h => ?_
    cases h
    exact hversion
  have hx : Passes (keySink (decodeKey lib)) (fun s s' => s'.version = s.version) (str [120] ++ [108, 101]) := by
    refine Passes.entry (by simp) fun s rest => ?_
    show Gives _ (do return (← Util.discard ([108, 101] ++ rest)).map fun b => (s, b))
    exact gives_some ⟨rfl, rfl⟩
  have hz : Passes (keySink (decodeKey lib)) (fun s s' => s'.version = s.version) (entry [122] q.signature.toList) :=
    passes_buffer (by simp) (fun s x => { s with signature := x }) (fun _ _ => rfl) fun _ _ => rfl
  unfold lastFields
  rw [if_pos hversion]
  have huv := hu.append hv (T := fun _ s' => s'.version = 0) fun _ _ _ _ h => h
  have huvx := huv.append hx (T := fun _ s' => s'.version = 0) fun _ _ _ h h' => h'.trans h
  exact huvx.append hz fun _ _ _ h h' => h'.trans h

lemma passes_first (hlib : lib.net.Lawful) (hlen : ∀ a ∈ q.addrs, a.dialect.length < 10^9) :
    Passes (keySink (decodeKey lib)) (fun _ _ => True) (q.firstFields lib) := by
  have hT : ∀ a b c : RouterContact, True → True → True := fun _ _ _ _ _ => trivial
  have ha : Passes (keySink (decodeKey lib)) (fun _ _ => True)
      (str [97] ++ 108 :: (q.addrs.flatMap (encoding lib.net) ++ [101])) := by
    refine passes_entry fun s rest => gives_do fun x hx => ?_
    have hattach : q.addrs.flatMap (encoding lib.net)
        = q.addrs.attach.flatMap fun a => a.1.encoding lib.net := by simp [flatMap_def]
    rw [hattach] at hx
    refine readList_passes (α := { a // a ∈ q.addrs }) (fun a => encoding_cons lib.net a.1) ?_ _ hx
    intro a l rest
    exact gives_do fun y hy => bdecode_passes hlib (hlen a.1 a.2) hy
  have hi : Passes (keySink (decodeKey lib)) (fun _ _ => True) (entry [105] q.netID.text) := by
    refine passes_entry fun s rest => ?_
    show Gives _ (.ok ((NetID.bdecode (str q.netID.text ++ rest)).map _))
    rw [NetID.bdecode_text]
    exact gives_some rfl
  have hkey (c : UInt8) (k : PubKey) (f : RouterContact → PubKey → RouterContact)
      (h : ∀ s b, decodeKey lib s [c] b = bufferEntry (f s) b) :
      Passes (keySink (decodeKey lib)) (fun _ _ => True) (entry [c] k.toList) :=
    passes_buffer (by simp) f h fun _ _ => trivial
  have hn : Passes (keySink (decodeKey lib)) (fun _ _ => True) (entry [110] q.nick) := by
    refine passes_entry fun s rest => ?_
    unfold decodeKey
    rw [if_neg (by decide), if_neg (by decide), if_neg (by decide), if_neg (by decide), if_pos (by decide),
      readString_str (q.nick_length.trans_lt (by norm_num))]
    dsimp only
    split
    · exact gives_none
    · exact gives_some rfl
  have hr : Passes (keySink (decodeKey lib)) (fun _ _ => True) (versionEntry q.routerVersion) := by
    cases q.routerVersion with
    | none => exact .nil fun _ => trivial
    | some v =>
      refine passes_entry fun s rest => gives_do fun x hx => ?_
      rw [v.bdecode_encoding] at hx
      cases hx
      rfl
  have hk := hkey 107 q.pubkey (fun s x => { s with pubkey := x }) fun _ _ => rfl
  have hp := hkey 112 q.enckey (fun s x => { s with enckey := x }) fun _ _ => rfl
  exact ((((ha.append hi hT).append hk hT).append (hn.when fun _ => trivial) hT).append hp hT).append hr hT

lemma version_of_encoding (hlib : lib.net.Lawful) {s s' : RouterContact}
    (hversion : q.version = 0) (hlen : ∀ a ∈ q.addrs, a.dialect.length < 10^9)
    (h : decodeDict (decodeKey lib) s (q.signedEncoding lib) = .ok (some (s', r))) : s'.version = 0 := by
  have hsrv : q.srvEntry = [] := by
    unfold srvEntry
    rw [hversion]
    rfl
  have hassoc : q.signedEncoding lib = 100 :: (q.firstFields lib ++ q.lastFields ++ [101]) ++ [] := by
    unfold signedEncoding
    rw [hsrv, append_nil, append_nil]
  have hlast : Passes (keySink (decodeKey lib)) (fun _ s' => s'.version = 0) q.lastFields := passes_last hversion
  have hall := (passes_first hlib hlen).append hlast (T := fun _ s' => s'.version = 0) fun _ _ _ _ h => h
  rw [hassoc] at h
  obtain ⟨_, hs1, hend⟩ := hall.dict h
  cases hend
  exact hs1

lemma foldl_after (keys : List Bytes) : ∀ f : Frame, keys.foldl Frame.after f = { f with
    netID := if keys.any (startsWith [105]) then none else f.netID
    signature := if keys.any (startsWith [122]) then none else f.signature } := by
  induction keys with
  | nil =>
    intro f
    rfl
  | cons k keys ih =>
    intro f
    rw [foldl_cons, ih]
    unfold Frame.after
    rw [any_cons, any_cons]
    cases startsWith [105] k <;> cases startsWith [122] k <;> simp

/-- Accepted bytes are a dictionary `m`, read into a contact with the object's network id, `z` and `d`. -/
structure ReadAs (lib : ContactLibs) (p : RouterContact) (b : Bytes) (q : RouterContact) (z : Signature) (d m : Bytes) :
    Prop where
  decode : ∃ r, decodeDict (decodeKey lib) (Frame.put ⟨some p.netID, some z, [], d⟩ blank) m = .ok (some (q, r))
  format : (b.head? = some 100 ∧ m = b) ∨ (b.head? = some 108 ∧ d = m ∧ ∃ l, lib.list b = some l ∧ m = l.dict)

lemma atTerminator_ok {α : Type} {e : Except MemFault (Option α)} {x : α} (h : atTerminator e = .ok (some x)) :
    e = .ok (some x) := by
  unfold atTerminator at h
  split at h
  · cases h
  · exact h

variable {p : RouterContact}

lemma readAs_bdecode
    (h : bdecode lib p b = .ok (some (q, r))) : ∃ z d m, ReadAs lib p b q z d m := by
  unfold bdecode at h
  split at h
  · cases h
  rename_i x tail
  by_cases hd : x = 100
  · rw [if_pos hd] at h
    exact ⟨.zero 64, p.signedBtDict, x :: tail, ⟨r, h⟩, .inl ⟨by rw [hd]; rfl, rfl⟩⟩
  rw [if_neg hd] at h
  by_cases hl : x = 108
  · rw [if_neg (by simp [hl])] at h
    cases hlist : lib.list (x :: tail) with
    | none => rw [hlist] at h; cases h
    | some l =>
      rw [hlist] at h
      dsimp only at h
      by_cases hv : l.version = 1
      · rw [if_pos hv] at h
        unfold decodeVersion1 at h
        split at h
        · cases h
        split at h
        · cases h
        obtain ⟨y, hy, heq⟩ := do_eq_some h
        obtain ⟨_, r1⟩ := y
        cases heq
        refine ⟨.ofBytes 64 l.signature, l.dict, l.dict, ⟨r1, atTerminator_ok hy⟩, .inr ?_⟩
        exact ⟨by rw [hl]; rfl, rfl, l, hlist, rfl⟩
      · rw [if_neg hv] at h
        cases h
  · rw [if_pos hl] at h
    cases h

section
variable {lib : ContactLibs} {p q : RouterContact} {b m d : Bytes} {z : Signature}

lemma ReadAs.eq (h : ReadAs lib p b q z d m) : ∃ q0 r, decodeDict (decodeKey lib) blank m = .ok (some (q0, r)) ∧
      q = Frame.put ⟨if (keysOf lib m).any (startsWith [105]) then none else some p.netID,
        if (keysOf lib m).any (startsWith [122]) then none else some z, [], d⟩ q0 := by
  obtain ⟨r, hdecode⟩ := h.decode
  rw [decode_frame, foldl_after] at hdecode
  obtain ⟨q0, hq0, heq⟩ := onState_eq_some hdecode
  exact ⟨q0, r, hq0, heq.symm⟩

lemma ReadAs.decoded (h : ReadAs lib p b q z d m) : q.Decoded := by
  obtain ⟨r, hdecode⟩ := h.decode
  refine decodeDict_decoded ⟨fun a ha => absurd ha not_mem_nil, ?_⟩ hdecode
  exact (by decide : Timestamp 0)

end

lemma verifySignature_iff {c : Crypto} : q.verifySignature lib c = true ↔
      (q.version = 0 ∧ (signedEncoding lib { q with signature := .zero 64 }).length ≤ maxRCSize ∧
        c.verify q.pubkey (signedEncoding lib { q with signature := .zero 64 }) q.signature = true) ∨
      (q.version = 1 ∧ c.verify q.pubkey q.signedBtDict q.signature = true) := by
  obtain ⟨q0, hq0⟩ : ∃ q0 : RouterContact, q0 = { q with signature := .zero 64 } := ⟨_, rfl⟩
  have hinto := (prints_signed lib q0).into_eq maxRCSize
  have hversion : q0.version = q.version := by rw [hq0]
  unfold verifySignature
  rw [← hq0]
  by_cases h0 : q.version = 0
  · have hb : q0.bencode lib = q0.bencodeSignedSection lib := by
      unfold bencode
      rw [if_pos (hversion.trans h0)]
    rw [if_pos h0, hb, hinto]
    by_cases hlen : (q0.signedEncoding lib).length ≤ maxRCSize <;> simp [h0, hlen]
  · by_cases h1 : q.version = 1
    · simp [h1]
    · simp [h0]

/-- version 1 in the list format with the network named, or version 0 without SRV records -/
def Covered (lib : ContactLibs) (b : Bytes) (q : RouterContact) : Prop :=
  (q.version = 1 ∧ b.head? = some 108 ∧ ∃ l, lib.list b = some l ∧ (keysOf lib l.dict).any (startsWith [105]) = true) ∨
    (q.version = 0 ∧ q.srvRecords = [])

section
variable {lib : ContactLibs} {c : Crypto} {p p' q q' : RouterContact} {b b' r r' : Bytes}

lemma covered_listed (h : bdecode lib p b = .ok (some (q, r))) (hversion : q.version = 1) (hcovered : Covered lib b q) :
    ∃ q0 x z, decodeDict (decodeKey lib) blank q.signedBtDict = .ok (some (q0, x)) ∧
      q = Frame.put ⟨none, z, [], q.signedBtDict⟩ q0 := by
  obtain ⟨-, hhead, l, hlist, hnamed⟩ | ⟨h0, -⟩ := hcovered
  · obtain ⟨z, d, m, hread⟩ := readAs_bdecode h
    obtain ⟨q0, x, hq0, heq⟩ := hread.eq
    obtain ⟨hd, -⟩ | ⟨-, hdm, _, hlist', hm⟩ := hread.format
    · rw [hhead] at hd
      cases hd
    rw [hlist] at hlist'
    cases hlist'
    have hdict : q.signedBtDict = m := by rw [heq]; exact hdm
    rw [← hm] at hnamed
    rw [hnamed, if_pos rfl] at heq
    rw [hdict]
    refine ⟨q0, x, if (keysOf lib m).any (startsWith [122]) then none else some z, hq0, ?_⟩
    rw [← hdm] at heq ⊢
    exact heq
  · rw [h0] at hversion
    cases hversion

lemma mixed_absurd (hlib : lib.net.Lawful) (h : bdecode lib p b = .ok (some (q, r))) (hversion : q.version = 1)
    (hcovered : Covered lib b q) (q0 : RouterContact) (hversion0 : q0.version = 0)
    (hlen : (q0.signedEncoding lib).length ≤ maxRCSize) (hsame : q.signedBtDict = q0.signedEncoding lib) : False := by
  obtain ⟨s, x, z, hdecode, heq⟩ := covered_listed h hversion hcovered
  rw [hsame] at hdecode
  have h0 := version_of_encoding hlib hversion0 (dialects_short (lt_of_le_of_lt hlen (by decide))) hdecode
  rw [heq] at hversion
  change s.version = 1 at hversion
  rw [h0] at hversion
  cases hversion

lemma agree_of_covered (hlib : lib.net.Lawful)
    (hideal : ∀ k x y z, c.verify k x z = true → c.verify k y z = true → x = y)
    (h : bdecode lib p b = .ok (some (q, r))) (hverify : q.verifySignature lib c = true) (hcovered : Covered lib b q)
    (h' : bdecode lib p' b' = .ok (some (q', r'))) (hverify' : q'.verifySignature lib c = true)
    (hcovered' : Covered lib b' q') (hkey : q'.pubkey = q.pubkey) (hsig : q'.signature = q.signature) : Agree q q' := by
  obtain ⟨z, d, m, hread⟩ := readAs_bdecode h
  obtain ⟨_, _, _, hread'⟩ := readAs_bdecode h'
  have hdecoded := hread.decoded
  have hdecoded' := hread'.decoded
  have hsigned : ∀ x y, c.verify q.pubkey x q.signature = true → c.verify q'.pubkey y q'.signature = true → x = y := by
    intro x y hx hy
    rw [hkey, hsig] at hy
    exact hideal _ x y _ hx hy
  obtain ⟨hv, hlen, hmsg⟩ | ⟨hv, hmsg⟩ := verifySignature_iff.mp hverify
  · obtain ⟨hv', hlen', hmsg'⟩ | ⟨hv', hmsg'⟩ := verifySignature_iff.mp hverify'
    · have hsame := hsigned _ _ hmsg hmsg'
      have hrecords : ∀ {b q}, Covered lib b q → q.version = 0 → q.srvRecords = [] := by
        rintro b q (⟨h1, -⟩ | ⟨-, h⟩) h0
        · rw [h0] at h1
          cases h1
        · exact h
      have hagree : Agree { q with signature := .zero 64 } { q' with signature := .zero 64 } :=
        agree_of_encoding hlib ⟨hdecoded.addrs, hdecoded.lastUpdated⟩ ⟨hdecoded'.addrs, hdecoded'.lastUpdated⟩ hv hv'
          ((hrecords hcovered hv).trans (hrecords hcovered' hv').symm) (lt_of_le_of_lt hlen (by decide)) hsame
      exact ⟨hagree.addrs, hagree.netID, hagree.enckey, hagree.routerVersion, hagree.srvRecords, hagree.lastUpdated,
        hagree.version⟩
    · exact (mixed_absurd hlib h' hv' hcovered' { q with signature := .zero 64 } hv hlen
        (hsigned _ _ hmsg hmsg').symm).elim
  · obtain ⟨hv', hlen', hmsg'⟩ | ⟨hv', hmsg'⟩ := verifySignature_iff.mp hverify'
    · exact (mixed_absurd hlib h hv hcovered { q' with signature := .zero 64 } hv' hlen' (hsigned _ _ hmsg hmsg')).elim
    have hsame := hsigned _ _ hmsg hmsg'
    obtain ⟨s, x, w, hdecode, heq⟩ := covered_listed h hv hcovered
    obtain ⟨_, _, _, hdecode', heq'⟩ := covered_listed h' hv' hcovered'
    rw [← hsame, hdecode] at hdecode'
    cases hdecode'
    rw [heq, heq']
    exact ⟨rfl, rfl, rfl, rfl, rfl, rfl, rfl⟩

end

def anyRecord : SRVData := ⟨[], 0, 0, 0, []⟩

def forgery (z : Signature) : Bytes := entry [122] z.toList ++ (str [115] ++ 108 :: (anyRecord.encoding ++ [101]))

lemma reads_forgery (hbt : lib.bt.Lawful) (n : NetID) (z : Signature) (d : Bytes) :
    Reads (keySink (decodeKey lib)) (Frame.put ⟨some n, some (.zero 64), [], d⟩ blank) (forgery z)
      (Frame.put ⟨some n, some z, [anyRecord], d⟩ blank) := by
  have hz : Reads (keySink (decodeKey lib)) (Frame.put ⟨some n, some (.zero 64), [], d⟩ blank)
      (entry [122] z.toList) (Frame.put ⟨some n, some z, [], d⟩ blank) :=
    Service.reads_buffer z (fun x => Frame.put ⟨some n, some x, [], d⟩ blank)
  refine hz.append ?_
  apply reads_entry
  intro rest
  have hrecord : ∀ a ∈ [anyRecord], ∀ rest, SRVData.bdecode lib.bt (a.encoding ++ rest) = .ok (some (id a, rest)) := by
    intro a ha rest
    rw [mem_singleton.mp ha, SRVData.bdecode_encoding hbt (by decide)]
    rfl
  have hread := readList_collect (x := SRVData.encoding) (fun a => SRVTuple.serialize_cons a.toTuple) [anyRecord] hrecord
    [] rest
  show (do return (← readList _ [] (108 :: (anyRecord.encoding ++ [101]) ++ rest)).map _) = _
  rw [← flatMap_singleton SRVData.encoding anyRecord, hread]
  rfl

lemma forged {c : Crypto} (hbt : lib.bt.Lawful)
    (h : bdecode lib p b = .ok (some (q, r))) (hverify : q.verifySignature lib c = true) :
    ∃ b' q' r', bdecode lib q b' = .ok (some (q', r')) ∧ q'.verifySignature lib c = true ∧ q'.pubkey = q.pubkey ∧
      q'.signature = q.signature ∧ q'.srvRecords = anyRecord :: q.srvRecords := by
  obtain ⟨z, d, m, hread⟩ := readAs_bdecode h
  obtain ⟨q0, x, hq0, heq⟩ := hread.eq
  obtain ⟨tail, rfl⟩ : ∃ tail, m = 100 :: tail := by
    cases m with
    | nil => cases hq0
    | cons y tail =>
      by_cases hy : y = 100
      · exact ⟨tail, by rw [hy]⟩
      unfold decodeDict readDict at hq0
      rw [if_pos (by simpa using hy : (y :: tail).head? ≠ some 100)] at hq0
      split at hq0 <;> cases hq0
  have hdict : q.signedBtDict = d := by rw [heq]; rfl
  have hnet : (if (keysOf lib (100 :: tail)).any (startsWith [105]) then none else some q.netID).getD q0.netID
      = q.netID := by
    split
    · rename_i hany
      rw [heq, hany]
      rfl
    · rfl
  have hdecode : decodeDict (decodeKey lib) (Frame.put ⟨some q.netID, some z, [anyRecord], d⟩ blank) (100 :: tail)
      = .ok (some ({ q with srvRecords := anyRecord :: q.srvRecords }, x)) := by
    rw [decode_frame, foldl_after, hq0, onState_some]
    dsimp only [Frame.put]
    rw [hnet, ← hdict]
    rw [heq]
    rfl
  refine ⟨100 :: (forgery z ++ tail), { q with srvRecords := anyRecord :: q.srvRecords }, x, ?_, ?_, rfl, rfl, rfl⟩
  · unfold bdecode
    dsimp only
    rw [if_pos rfl]
    have hstart : q.clear = Frame.put ⟨some q.netID, some (.zero 64), [], d⟩ blank := by
      rw [← hdict]
      rfl
    rw [hstart]
    exact (reads_forgery hbt q.netID z d).dict_front hdecode
  · obtain ⟨hv, hlen, hmsg⟩ | ⟨hv, hmsg⟩ := verifySignature_iff.mp hverify
    · have hsame : signedEncoding lib { q with
          signature := .zero 64, srvRecords := anyRecord :: q.srvRecords }
          = signedEncoding lib { q with signature := .zero 64 } := by
        rw [hv]
        rfl
      refine verifySignature_iff.mpr (.inl ⟨hv, ?_, ?_⟩)
      · exact (congrArg length hsame).trans_le hlen
      · exact (congrArg (fun x => c.verify q.pubkey x q.signature) hsame).trans hmsg
    · exact verifySignature_iff.mpr (.inr ⟨hv, hmsg⟩)

/-- Covered contacts with one key and signature agree; beside every accepted contact there is one, decoded into the
same object, with its key and signature, that differs. -/
theorem signature_covers {lib : ContactLibs} {c : Crypto} (hlib : lib.net.Lawful) (hbt : lib.bt.Lawful)
    (hideal : ∀ k x y z, c.verify k x z = true → c.verify k y z = true → x = y) {p q : RouterContact} {b r : Bytes}
    (h : bdecode lib p b = .ok (some (q, r))) (hverify : q.verifySignature lib c = true) :
    (Covered lib b q → ∀ p' b' q' r', bdecode lib p' b' = .ok (some (q', r')) → q'.verifySignature lib c = true →
      q'.pubkey = q.pubkey → q'.signature = q.signature → Covered lib b' q' → Agree q q') ∧
    ∃ b' q' r', bdecode lib q b' = .ok (some (q', r')) ∧ q'.verifySignature lib c = true ∧ q'.pubkey = q.pubkey ∧
      q'.signature = q.signature ∧ ¬ Agree q q' := by
  refine ⟨?_, ?_⟩
  · intro hcovered p' b' q' r' h' hverify' hkey hsig hcovered'
    exact agree_of_covered hlib hideal h hverify hcovered h' hverify' hcovered' hkey hsig
  obtain ⟨b', q', r', h', hverify', hkey, hsig, hrecords⟩ := forged hbt h hverify
  refine ⟨b', q', r', h', hverify', hkey, hsig, fun hagree => ?_⟩
  have hlen := congrArg length (hagree.srvRecords.trans hrecords)
  rw [length_cons] at hlen
  omega

end RouterContact

namespace Sample

def only (m : Bytes) : Crypto := { Service.Sample.crypto.toCrypto with verify := fun _ x _ => decide (x = m) }

lemma only_ideal (m : Bytes) (k : PubKey) (x y : Bytes) (z : Signature) (hx : (only m).verify k x z = true)
    (hy : (only m).verify k y z = true) : x = y := (of_decide_eq_true hx).trans (of_decide_eq_true hy).symm

def signed : RouterContact :=
  { relay [97, 46, 109, 110, 111, 100, 101] with
    signedBtDict := signedEncoding libs (relay [97, 46, 109, 110, 111, 100, 101]) }

lemma signed_dict : signed.signedBtDict = signed.signedEncoding libs :=
  (signed_unsigned libs (r := relay [97, 46, 109, 110, 111, 100, 101]) (by decide) _ _).symm

lemma signed_length : (signed.signedEncoding libs).length < 10^9 := by decide +kernel

lemma signed_decode (p : RouterContact) : bdecode libs p (signed.wire ++ [101]) = .ok (some (signed.received, [])) :=
  bdecode_wire libs_lawful signed_dict rfl (by decide) (by decide) signed_length p

lemma only_verify (m : Bytes) (k : PubKey) (z : Signature) : (only m).verify k m z = true := decide_eq_true rfl

lemma signed_verifies : signed.received.verifySignature libs (only signed.signedBtDict) = true := by
  refine verifySignature_iff.mpr (.inr ⟨rfl, ?_⟩)
  exact only_verify _ _ _

lemma signed_covered : RouterContact.Covered libs (signed.wire ++ [101]) signed.received := by
  refine .inl ⟨rfl, rfl, ⟨1, signed.signature.toList, signed.signedBtDict, true, []⟩, ?_, by decide +kernel⟩
  refine libs_lawful.list_eq signed.signature.toList signed.signedBtDict [] (by simp) ?_ rfl ?_
  · exact bencoded_signed libs signed
  · exact signed_length

end Sample

open Sample

namespace RouterContact

theorem signature_covers_relay : Covered libs (signed.wire ++ [101]) signed.received ∧
    (Covered libs (signed.wire ++ [101]) signed.received → ∀ p' b' q' r', bdecode libs p' b' = .ok (some (q', r')) →
      q'.verifySignature libs (only signed.signedBtDict) = true →
      q'.pubkey = signed.received.pubkey → q'.signature = signed.received.signature →
      Covered libs b' q' → Agree signed.received q') ∧
    ∃ b' q' r', bdecode libs signed.received b' = .ok (some (q', r')) ∧
      q'.verifySignature libs (only signed.signedBtDict) = true ∧
      q'.pubkey = signed.received.pubkey ∧ q'.signature = signed.received.signature ∧
      ¬ Agree signed.received q' :=
  ⟨signed_covered, signature_covers libs_lawful.net libs_lawful.bt
    (only_ideal signed.signedBtDict) (signed_decode blank) signed_verifies⟩

/-- The second contact is decoded into the object of the first, and has a record that nobody signed. -/
theorem record_not_covered : ∃ c : Crypto, (∀ k x y z, c.verify k x z = true → c.verify k y z = true → x = y) ∧
    ∃ b q r b' q' r', bdecode libs blank b = .ok (some (q, r)) ∧ q.verifySignature libs c = true ∧
      bdecode libs q b' = .ok (some (q', r')) ∧ q'.verifySignature libs c = true ∧
      q'.pubkey = q.pubkey ∧ q'.signature = q.signature ∧ q'.srvRecords = anyRecord :: q.srvRecords := by
  refine ⟨only signed.signedBtDict, only_ideal _, signed.wire ++ [101], signed.received, [], ?_⟩
  obtain ⟨b', q', r', h', hverify', hkey, hsig, hrecords⟩ := forged libs_lawful.bt (signed_decode blank) signed_verifies
  exact ⟨b', q', r', signed_decode blank, signed_verifies, h', hverify', hkey, hsig, hrecords⟩

end RouterContact

end Belnet.Contact
