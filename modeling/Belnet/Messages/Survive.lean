import Belnet.Messages.Independence
import Belnet.Contact.Signed
import Belnet.Util.Objects

/-!
# Link and DHT messages survive the wire

What the encoders write, and when the parser hands over what was written.

* `appends_body`  the bytes that every encoder writes;
* `reads_message`  what the parser's object holds after these bytes;
* `link_messages_survive_iff`  a message arrives as it was sent, unless DHT messages of a refused one are
  left in the object.
-/

namespace Belnet.Messages
open Iwp hiding RouterContact LinkIntroMessage
open Util Decimal List DhtMessage Reads Contact.Sample Holder Path.EncryptedFrame FindRouter FindIntro
open Service (entry writeEntry prints_entry EncryptedIntroSet)
open Belnet.Path (recordVersion RouterID PathID EncryptedFrame Frames LRStatusMessage)
open Contact (RouterContact ContactLibs)
open Dht (Key)
variable (lib : ContactLibs)

def contactEncoding (rc : RouterContact) : Bytes :=
  if rc.version = 0 then rc.signedEncoding lib else rc.wire ++ [101]

lemma appends_contact (rc : RouterContact) : Appends (rc.bencode lib) (contactEncoding lib rc) := by
  unfold RouterContact.bencode contactEncoding
  by_cases h0 : rc.version = 0
  · rw [if_pos h0, if_pos h0]
    exact (RouterContact.prints_signed lib rc).prints.appends
  rw [if_neg h0, if_neg h0]
  by_cases h1 : rc.version = 1
  · rw [if_pos h1, RouterContact.wire_eq]
    exact ((((prints_writef (by simp)).seq (prints_write _)).seq (prints_write _)).seq
      (prints_writef (by simp))).appends
  · rw [if_neg h1]
    exact appends_refused _

def ContactTravels (net : Contact.NetID) (rc : RouterContact) : Prop :=
  ∀ rest, RouterContact.bdecode lib { netID := net } (contactEncoding lib rc ++ rest) = .ok (some (rc, rest))

def IntroSetTravels (e : EncryptedIntroSet) : Prop := ∀ rest, readIntroSet (e.encoding ++ rest) = .ok (some (e, rest))

lemma contactEncoding_cons (rc : RouterContact) : Opens (contactEncoding lib rc) := by
  unfold contactEncoding
  split
  · exact ⟨100, _, rfl, by decide⟩
  · exact ⟨108, _, rfl, by decide⟩

lemma readVector_all {α : Type} (read : Bytes → Decoded α) {x : α → Bytes}
    (hne : ∀ a, Opens (x a)) (l : List α) (hread : ∀ a ∈ l, ∀ rest, read (x a ++ rest) = .ok (some (a, rest)))
    (rest : Bytes) : readVector read [] (108 :: (l.flatMap x ++ [101]) ++ rest) = .ok (some (l, rest)) := by
  refine (readList_collect (f := id) hne l hread [] rest).trans ?_
  rw [map_id]
  rfl

lemma appends_head (c : UInt8) : Appends (startDict.seq (writeEntry [65] [c])) (100 :: entry [65] [c]) :=
  ((prints_write [100]).seq (prints_entry [65] [c])).appends

lemma appends_tail {w : Writer} {x : Bytes} (h : Appends w x) (txid version : UInt64) :
    Appends (((w.seq (writeDictInt [84] txid)).seq (writeDictInt [86] version)).seq endDict)
      (x ++ (str [84] ++ int txid) ++ (str [86] ++ int version) ++ [101]) :=
  ((h.seq (prints_dictInt [84] txid).appends).seq (prints_dictInt [86] version).appends).seq (prints_write [101]).appends

section
variable {σ τ : Type} {sink : Sink τ} {g : σ → τ} {dk : σ → Bytes → Bytes → Decoded σ} (hlift : Lifts sink g dk)
include hlift

lemma setVector (s : σ) (c : UInt8) {α : Type} (read : Bytes → Decoded α) {x : α → Bytes} (hne : ∀ a, Opens (x a))
    {l old : List α} (hread : ∀ a ∈ l, ∀ rest, read (x a ++ rest) = .ok (some (a, rest))) (hold : old = []) (set : List α → σ) (h : ∀ b, dk s [c] b =
      (do return (← readVector read old b).map fun x => (set x.1, x.2) : Except MemFault (Option (σ × Bytes)))) :
    Reads sink (g s) (str [c] ++ 108 :: (l.flatMap x ++ [101])) (g (set l)) := by
  refine lift hlift fun rest => ?_
  rw [h, hold, readVector_all read hne l hread]
  rfl

lemma setFlag (s : σ) (c : UInt8) (set : σ → Bool → σ) (x : Bool)
    (h : ∀ b, dk s [c] b = intEntry (fun i => some (set s (i ≠ 0))) b := by intro _; rfl) :
    Reads sink (g s) (str [c] ++ int (if x then 1 else 0)) (g (set s x)) := by
  refine .liftInt hlift _ _ h ?_
  cases x with
  | false => rfl
  | true => rfl

end

variable {τ : Type}

namespace FindIntro

def fields (m : FindIntro) : Bytes :=
  (str [79] ++ int m.relayOrder) ++ entry [83] m.location.toList ++ (str [84] ++ int m.txid) ++
    (str [86] ++ int recordVersion)

variable {m : FindIntro}

lemma appends_bencode (htag : m.tagName = .zero 16) :
    Appends m.bencode (100 :: (entry [65] [70] ++ m.fields ++ [101])) := by
  have hempty : m.tagName.toList.head? = some 0 := by rw [htag]; rfl
  have body := (prints_dictInt [79] m.relayOrder).seq (prints_entry [83] m.location.toList)
  unfold bencode
  rw [if_pos hempty]
  exact (appends_tail ((appends_head 70).seq body.appends) m.txid recordVersion).cast (by simp [fields])

lemma reads_fields {sink : Sink τ} {g : FindIntro → τ} (hlift : Lifts sink g decodeKey)
    (htag : m.tagName = .zero 16) : Reads sink (g {}) m.fields (g m) := by
  have horder (s) := Reads.setInt s 79 hlift (fun s x => { s with relayOrder := x }) m.relayOrder
  have hlocation (s) := Reads.setBuffer s 83 hlift (fun s x => { s with location := x }) m.location
  have htx (s) := Reads.setInt s 84 hlift (fun s x => { s with txid := x }) m.txid
  have hversion := Reads.liftVersion hlift (c := 86) (v := recordVersion) fun _ _ => rfl
  have hm : m = { tagName := .zero 16, relayOrder := m.relayOrder, location := m.location, txid := m.txid } := by
    rw [← htag]
  rw [hm]
  exact (((horder _).append (hlocation _)).append (htx _)).append (hversion _)

end FindIntro

namespace FindRouter

def fields (m : FindRouter) : Bytes :=
  (str [69] ++ int (if m.exploritory then 1 else 0)) ++ (str [73] ++ int (if m.iterative then 1 else 0)) ++
    entry [75] m.targetKey.toList ++ (str [84] ++ int m.txid) ++ (str [86] ++ int m.version)

lemma appends_bencode (m : FindRouter) : Appends m.bencode (100 :: (entry [65] [82] ++ m.fields ++ [101])) := by
  have flags := ((appends_head 82).seq (prints_dictInt [69] (if m.exploritory then 1 else 0)).appends).seq
    (prints_dictInt [73] (if m.iterative then 1 else 0)).appends
  have body := flags.seq (prints_entry [75] m.targetKey.toList).appends
  exact (appends_tail body m.txid m.version).cast (by simp [fields])

lemma reads_fields {sink : Sink τ} {g : FindRouter → τ} (hlift : Lifts sink g decodeKey) (m : FindRouter) :
    Reads sink (g {}) m.fields (g m) := by
  have he (s) := setFlag hlift s 69 (fun s x => { s with exploritory := x }) m.exploritory
  have hi (s) := setFlag hlift s 73 (fun s x => { s with iterative := x }) m.iterative
  have hk (s) := Reads.setBuffer s 75 hlift (fun s x => { s with targetKey := x }) m.targetKey
  have ht (s) := Reads.setInt s 84 hlift (fun s x => { s with txid := x }) m.txid
  have hv (s) := Reads.setInt s 86 hlift (fun s x => { s with version := x }) m.version
  exact ((((he _).append (hi _)).append (hk _)).append (ht _)).append (hv _)

end FindRouter

/-- the entry of the key that is closer -/
def closerEntry : Option Key → Bytes
  | some k => entry [75] k.toList
  | none => []

lemma appends_closer (closer : Option Key) : Appends (match closer with
    | some k => writeEntry [75] k.toList
    | none => skip) (closerEntry closer) := by
  cases closer with
  | none => exact prints_skip.appends
  | some k => exact (prints_entry [75] k.toList).appends

namespace GotRouter
variable (lib : ContactLibs)

def nearEntry (m : GotRouter) : Bytes :=
  if m.nearKeys = [] then [] else str [78] ++ 108 :: (m.nearKeys.flatMap (fun k => str k.toList) ++ [101])

def fields (m : GotRouter) : Bytes :=
  closerEntry m.closerTarget ++ m.nearEntry ++ (str [82] ++ 108 :: (m.foundRCs.flatMap (contactEncoding lib) ++ [101])) ++
    (str [84] ++ int m.txid) ++ (str [86] ++ int m.version)

lemma appends_bencode (m : GotRouter) :
    Appends (m.bencode lib) (100 :: (entry [65] [83] ++ m.fields lib ++ [101])) := by
  have hcloser := appends_closer m.closerTarget
  have hnear := appends_unless (p := m.nearKeys = [])
    (appends_dictList (l := m.nearKeys) [78] fun k _ => (prints_writeBytestring k.toList).appends)
  have found := (((appends_head 83).seq hcloser).seq hnear).seq
    (appends_dictList (l := m.foundRCs) [82] fun rc _ => appends_contact lib rc)
  exact (appends_tail found m.txid m.version).cast (by simp [fields, nearEntry])

lemma reads_fields {sink : Sink τ} {net : Contact.NetID} {g : GotRouter → τ}
    (hlift : Lifts sink g (decodeKey lib net)) {m : GotRouter}
    (hrcs : ∀ rc ∈ m.foundRCs, ContactTravels lib net rc) (hversion : m.version = recordVersion) :
    Reads sink (g {}) (m.fields lib) (g m) := by
  have hcloser : Reads sink (g {}) (closerEntry m.closerTarget) (g { closerTarget := m.closerTarget }) := by
    cases m.closerTarget with
    | none => exact .nil
    | some k => exact .liftBuffer hlift k (fun x => { closerTarget := some x })
  have hnear (s : GotRouter) (hs : s.nearKeys = []) : Reads sink (g s) m.nearEntry
      (g { s with nearKeys := m.nearKeys }) := by
    refine .unless (fun _ => ?_) fun hempty => by rw [hempty, ← hs]
    exact setVector hlift s 78 (fun b => .ok (readBuffer 32 b)) (fun k => str_opens k.toList) (fun k _ rest => congrArg
      Except.ok (readBuffer_str k (by norm_num) rest)) hs (fun l => { s with nearKeys := l }) fun _ => rfl
  have hfound (s : GotRouter) (hs : s.foundRCs = []) :=
    setVector hlift s 82 (RouterContact.bdecode lib { netID := net }) (contactEncoding_cons lib) hrcs hs
      (fun l => { s with foundRCs := l }) fun _ => rfl
  have ht (s) := Reads.setInt s 84 hlift (fun s x => { s with txid := x }) m.txid
  have hv (s : GotRouter) : Reads sink (g s) (str [86] ++ int m.version) (g { s with version := m.version }) :=
    .liftInt hlift _ (fun i => if i = recordVersion then some { s with version := i } else none) (fun _ => rfl)
      (if_pos hversion)
  exact (((hcloser.append (hnear _ rfl)).append (hfound _ rfl)).append (ht _)).append (hv _)

end GotRouter

lemma appends_introset (e : EncryptedIntroSet) : Appends e.bencode e.encoding := e.prints_bencode.prints.appends

namespace PublishIntro

def fields (m : PublishIntro) : Bytes :=
  (str [73] ++ m.introset.encoding) ++ (str [79] ++ int m.relayOrder) ++
    (str [82] ++ int (if m.relayed then 1 else 0)) ++ (str [84] ++ int m.txid) ++ (str [86] ++ int recordVersion)

lemma appends_bencode (m : PublishIntro) : Appends m.bencode (100 :: (entry [65] [73] ++ m.fields ++ [101])) := by
  have body := (appends_head 73).seq ((prints_writeBytestring [73]).appends.seq (appends_introset m.introset))
  have order := (body.seq (prints_dictInt [79] m.relayOrder).appends).seq
    (prints_dictInt [82] (if m.relayed then 1 else 0)).appends
  exact (appends_tail order m.txid recordVersion).cast (by simp [fields])

lemma reads_fields {sink : Sink τ} {g : PublishIntro → τ} (hlift : Lifts sink g decodeKey) {m : PublishIntro}
    (hintro : IntroSetTravels m.introset) : Reads sink (g {}) m.fields (g m) := by
  have hi : Reads sink (g {}) (str [73] ++ m.introset.encoding) (g { introset := m.introset }) := by
    refine lift hlift fun _ => ?_
    show (do return (← readIntroSet _).map _) = _
    rw [hintro]
    rfl
  have ho (s) := Reads.setInt s 79 hlift (fun s x => { s with relayOrder := x }) m.relayOrder
  have hr (s) := setFlag hlift s 82 (fun s x => { s with relayed := x }) m.relayed
  have ht (s) := Reads.setInt s 84 hlift (fun s x => { s with txid := x }) m.txid
  have hv (s : PublishIntro) : Reads sink (g s) (str [86] ++ int recordVersion) (g s) :=
    .liftInt hlift _ (fun i => some s) (fun _ => rfl) rfl
  exact (((hi.append (ho _)).append (hr _)).append (ht _)).append (hv _)

end PublishIntro

namespace GotIntro

def fields (m : GotIntro) : Bytes :=
  (str [73] ++ 108 :: (m.found.flatMap EncryptedIntroSet.encoding ++ [101])) ++ closerEntry m.closer ++
    (str [84] ++ int m.txid) ++ (str [86] ++ int m.version)

lemma appends_bencode (m : GotIntro) : Appends m.bencode (100 :: (entry [65] [71] ++ m.fields ++ [101])) := by
  have body := ((appends_head 71).seq (appends_dictList (l := m.found) [73] fun e _ => appends_introset e)).seq
    (appends_closer m.closer)
  exact (appends_tail body m.txid m.version).cast (by simp [fields])

lemma reads_fields {sink : Sink τ} {g : GotIntro → τ} (hlift : Lifts sink g decodeKey) {m : GotIntro}
    (hintros : ∀ e ∈ m.found, IntroSetTravels e) : Reads sink (g {}) m.fields (g m) := by
  have hne : ∀ e : EncryptedIntroSet, Opens e.encoding := fun e => ⟨100, _, rfl, by decide⟩
  have hfound (s : GotIntro) (hs : s.found = []) :=
    setVector hlift s 73 readIntroSet hne hintros hs (fun l => { s with found := l }) fun _ => rfl
  have hcloser : Reads sink (g { found := m.found }) (closerEntry m.closer)
      (g { found := m.found, closer := m.closer }) := by
    cases m.closer with
    | none => exact .nil
    | some k => exact .liftBuffer hlift k (fun x => { found := m.found, closer := some x })
  have ht (s) := Reads.setInt s 84 hlift (fun s x => { s with txid := x }) m.txid
  have hv (s) := Reads.setInt s 86 hlift (fun s x => { s with version := x }) m.version
  have all := (((hfound {} rfl).append hcloser).append (ht _)).append (hv _)
  exact all

end GotIntro

namespace DhtMessage
variable (lib : ContactLibs) (net : Contact.NetID)

def type : DhtMessage → UInt8
  | findName _ => 78
  | gotName _ => 77
  | findIntro _ => 70
  | findRouter _ => 82
  | gotRouter _ => 83
  | publishIntro _ => 73
  | gotIntro _ => 71

def fields : DhtMessage → Bytes
  | findIntro m => m.fields
  | findRouter m => m.fields
  | gotRouter m => m.fields lib
  | publishIntro m => m.fields
  | gotIntro m => m.fields
  | _ => []

def encoding (m : DhtMessage) : Bytes := 100 :: (entry [65] [m.type] ++ m.fields lib ++ [101])

def Plain : DhtMessage → Prop
  | findName _ => False
  | gotName _ => False
  | findIntro m => m.tagName = .zero 16
  | findRouter _ => True
  | gotRouter m => (∀ rc ∈ m.foundRCs, ContactTravels lib net rc) ∧ m.version = recordVersion
  | publishIntro m => IntroSetTravels m.introset
  | gotIntro m => ∀ e ∈ m.found, IntroSetTravels e

variable {m : DhtMessage}

lemma appends_bencode (h : m.Plain lib net) : Appends (m.bencode lib) (m.encoding lib) := by
  cases m with
  | findName m | gotName m => exact h.elim
  | findIntro m => exact appends_bencode h
  | findRouter m | publishIntro m | gotIntro m => exact m.appends_bencode
  | gotRouter m => exact m.appends_bencode lib

lemma onState_onState {α β γ : Type} (f : α → β) (g : β → γ) (e : Decoded α) :
    onState g (onState f e) = onState (g ∘ f) e := by rcases e with e | _ | x <;> rfl

lemma reads_fields (h : m.Plain lib net) :
    ∃ m0, new m.type = some m0 ∧ Reads (sink lib net) (some m0) (m.fields lib) (some m) := by
  cases m with
  | findName m | gotName m => exact h.elim
  | findIntro m =>
    refine ⟨findIntro {}, rfl, reads_fields (g := some ∘ findIntro) (fun _ _ _ => ?_) h⟩
    exact onState_onState findIntro some _
  | findRouter m =>
    refine ⟨findRouter {}, rfl, reads_fields (g := some ∘ findRouter) (fun _ _ _ => ?_) m⟩
    exact onState_onState findRouter some _
  | gotRouter m =>
    refine ⟨gotRouter {}, rfl, GotRouter.reads_fields lib (g := some ∘ gotRouter) (fun _ _ _ => ?_) h.1 h.2⟩
    exact onState_onState gotRouter some _
  | publishIntro m =>
    refine ⟨publishIntro {}, rfl, PublishIntro.reads_fields (g := some ∘ publishIntro) (fun _ _ _ => ?_) h⟩
    exact onState_onState publishIntro some _
  | gotIntro m =>
    refine ⟨gotIntro {}, rfl, GotIntro.reads_fields (g := some ∘ gotIntro) (fun _ _ _ => ?_) h⟩
    exact onState_onState gotIntro some _

lemma decode_encoding (h : m.Plain lib net) (rest : Bytes) :
    decode lib net (m.encoding lib ++ rest) = .ok (some (m, rest)) := by
  obtain ⟨m0, hm0, hfields⟩ := reads_fields lib net h
  have htype : Reads (sink lib net) none (entry [65] [m.type]) (some m0) := by
    apply entry (by simp)
    intro rest
    unfold sink
    dsimp only
    rw [if_neg (by decide), readString_str (by simp)]
    dsimp only
    rw [hm0]
    rfl
  unfold decode encoding
  rw [(htype.append hfields).dict rest]
  rfl

lemma encoding_cons (m : DhtMessage) : Opens (m.encoding lib) := ⟨100, _, rfl, by decide⟩

end DhtMessage

/-! ## link messages -/

inductive LinkMessage where
  | downstream (m : Relay)
  | upstream (m : Relay)
  | immediate (l : List DhtMessage)
  | commit (frames : Frames)
  | status (m : LRStatusMessage)

namespace LinkMessage
variable (lib : ContactLibs) (net : Contact.NetID)

def kind : LinkMessage → Kind
  | downstream _ => .downstream
  | upstream _ => .upstream
  | immediate _ => .immediate
  | commit _ => .commit
  | status _ => .status

def type : LinkMessage → UInt8
  | downstream _ => 100
  | upstream _ => 117
  | immediate _ => 109
  | commit _ => 99
  | status _ => 115

lemma ofType_type (m : LinkMessage) : Kind.ofType m.type = some m.kind := by cases m <;> rfl

def bencode : LinkMessage → Writer
  | downstream m => m.bencode 100
  | upstream m => m.bencode 117
  | immediate l => bencodeImmediate lib l
  | commit frames => bencodeCommit frames
  | status m => bencodeStatus m

def Plain : LinkMessage → Prop
  | immediate l => ∀ m ∈ l, DhtMessage.Plain lib net m
  | _ => True

end LinkMessage

def frameString (f : EncryptedFrame) : Bytes := str (f.bytes 0 f.sz)

lemma frameString_cons (f : EncryptedFrame) : Opens (frameString f) := str_opens (f.bytes 0 f.sz)

lemma read_frameString (f g : EncryptedFrame) (rest : Bytes) :
    g.read (frameString f ++ rest) = .ok (some (g.assign f, rest)) := by
  have hsz := f.sz_le
  have hlen := f.whole_length
  have hshort : (f.bytes 0 f.sz).length < 10^9 := by
    rw [hlen]
    exact lt_of_le_of_lt hsz (by norm_num)
  unfold EncryptedFrame.read frameString
  rw [readString_str hshort]
  dsimp only
  rw [bdecode_bytes]
  rfl

lemma readArray_frames (frames old : Frames) (rest : Bytes) :
    readArray EncryptedFrame.read old (108 :: (frames.toList.flatMap frameString ++ [101]) ++ rest)
      = .ok (some (putAll EncryptedFrame.assign 0 frames.toList old, rest)) := by
  exact readArray_all frameString_cons read_frameString (by simp) old rest

lemma putAll_same (frames old : Frames) (i : Fin 8) :
    (frames.get i).Same ((putAll EncryptedFrame.assign 0 frames.toList old).get i) := by
  have hget : frames.toList[i.1 - 0]? = some (frames.get i) := by
    rw [Nat.sub_zero, getElem?_eq_getElem (by simp)]
    rfl
  rw [putAll_get frames.toList 0 old i (frames.get i) (Nat.zero_le _) hget]
  exact assign_same _ _

namespace Relay

def fields (m : Relay) : Bytes :=
  entry [112] m.pathid.toList ++ (str [118] ++ int recordVersion) ++ entry [120] m.x ++ entry [121] m.y.toList

lemma appends_body (type : UInt8) (m : Relay) : Appends (((((startDict.seq (writeEntry [97] [type])).seq
    (writeEntry [112] m.pathid.toList)).seq (writeDictInt [118] recordVersion)).seq (writeEntry [120] m.x)).seq
    (writeEntry [121] m.y.toList)) (100 :: (entry [97] [type] ++ m.fields)) := by
  have head := ((prints_write [100]).seq (prints_entry [97] [type])).seq (prints_entry [112] m.pathid.toList)
  have all := ((head.seq (prints_dictInt [118] recordVersion)).seq (prints_entry [120] m.x)).seq
    (prints_entry [121] m.y.toList)
  exact all.appends.cast (by simp [fields])

lemma reads_fields {sink : Sink τ} {g : Relay → τ} (hlift : Lifts sink g decodeKey) (m old : Relay) :
    Reads sink (g old) m.fields (g m) := by
  have hp (s) := Reads.setBuffer s 112 hlift (fun s x => { s with pathid := x }) m.pathid
  have hv := Reads.liftVersion hlift (c := 118) (v := recordVersion) fun _ _ => rfl
  have hx (s : Relay) : Reads sink (g s) (entry [120] m.x) (g { s with x := m.x, x_le := m.x_le }) := by
    refine lift hlift fun rest => ?_
    have hle : m.x.length ≤ relaySize := m.x_le
    have hshort : m.x.length < 10^9 := lt_of_le_of_lt hle (by norm_num)
    show decodeX _ (str m.x ++ rest) = _
    unfold decodeX readX
    rw [readString_str hshort]
    dsimp only
    rw [if_neg (by omega), dif_pos hle]
    rfl
  have hy (s) := Reads.setBuffer s 121 hlift (fun s x => { s with y := x }) m.y
  exact (((hp _).append (hv _)).append (hx _)).append (hy _)

end Relay

variable {l : List DhtMessage} {m : LinkMessage}

namespace LinkMessage
variable (lib : ContactLibs) (net : Contact.NetID)

def framesEntry (frames : Frames) : Bytes := str [99] ++ 108 :: (frames.toList.flatMap frameString ++ [101])

def fields : LinkMessage → Bytes
  | downstream m => m.fields
  | upstream m => m.fields
  | immediate l => (str [109] ++ 108 :: (l.flatMap (encoding lib) ++ [101])) ++ (str [118] ++ int recordVersion)
  | commit frames => framesEntry frames ++ (str [118] ++ int recordVersion)
  | status m => framesEntry m.frames ++ entry [112] m.pathid.toList ++ (str [115] ++ int m.status) ++
    (str [118] ++ int recordVersion)

lemma appends_frames (frames : Frames) :
    Appends (writeDictList [99] EncryptedFrame.bencode frames.toList) (framesEntry frames) := by
  have hframe : ∀ f : EncryptedFrame, Appends (EncryptedFrame.bencode f) (frameString f) := by
    intro f
    exact (prints_writeBytestring (f.bytes 0 f.sz)).appends
  exact appends_dictList [99] fun f _ => hframe f

lemma appends_immediate (h : ∀ m ∈ l, DhtMessage.Plain lib net m) :
    Appends (writeDictList [109] (DhtMessage.bencode lib) l)
      (str [109] ++ 108 :: (l.flatMap (DhtMessage.encoding lib) ++ [101])) := by
  apply appends_dictList
  intro m hm
  exact appends_bencode lib net (h m hm)

lemma appends_body (h : m.Plain lib net) :
    ∃ w : Writer, m.bencode lib = w.seq endDict ∧ Appends w (100 :: (entry [97] [m.type] ++ m.fields lib)) := by
  have head : ∀ t : UInt8, Appends (startDict.seq (writeEntry [97] [t])) ([100] ++ entry [97] [t]) := fun t =>
    ((prints_write [100]).seq (prints_entry [97] [t])).appends
  have version := (prints_dictInt [118] recordVersion).appends
  cases m with
  | downstream m => exact ⟨_, rfl, m.appends_body 100⟩
  | upstream m => exact ⟨_, rfl, m.appends_body 117⟩
  | immediate =>
    refine ⟨_, rfl, ?_⟩
    exact (((head 109).seq (appends_immediate lib net h)).seq version).cast (by simp [type, fields])
  | commit frames =>
    refine ⟨_, rfl, ?_⟩
    exact (((head 99).seq (appends_frames frames)).seq version).cast (by simp [type, fields])
  | status m =>
    refine ⟨_, rfl, ?_⟩
    have body := ((head 115).seq (appends_frames m.frames)).seq (prints_entry [112] m.pathid.toList).appends
    exact ((body.seq (prints_dictInt [115] m.status).appends).seq version).cast (by simp [type, fields])

end LinkMessage

namespace Holder
variable (lib : ContactLibs) (net : Contact.NetID) (source : Key)

def Has (h : Holder) : LinkMessage → Prop
  | .downstream m => h.d = m
  | .upstream m => h.u = m
  | .immediate l => h.m = l.map fun m => (source, m)
  | .commit frames => ∀ i, (frames.get i).Same (h.c.get i)
  | .status m => (∀ i, (m.frames.get i).Same (h.s.frames.get i)) ∧ h.s.pathid = m.pathid ∧ h.s.status = m.status

lemma reads_immediate (hl : ∀ m ∈ l, Plain lib net m) (h : Holder) :
    Reads (sink lib net source) (h, some .immediate) ((LinkMessage.immediate l).fields lib)
      ({ h with m := h.m ++ l.map fun m => (source, m) }, some .immediate) := by
  have hlift : ∀ m key b, sink lib net source ({ h with m := m }, some .immediate) (some key) b
      = onState (fun m => ({ h with m := m }, some .immediate)) (decodeImmediate lib net source m key b) :=
    fun m key b => onState_onState _ _ _
  have hlist : Reads (sink lib net source) (h, some .immediate)
      (str [109] ++ 108 :: (l.flatMap (encoding lib) ++ [101]))
      ({ h with m := h.m ++ l.map fun m => (source, m) }, some .immediate) := by
    refine lift hlift (s := h.m) fun rest => ?_
    refine readList_collect (f := fun m => (source, m)) (fun m => m.encoding_cons lib) l
      (fun m hm rest => ?_) h.m rest
    rw [decode_encoding lib net (hl m hm)]
    rfl
  exact hlist.append (.liftVersion hlift (fun _ _ => rfl) _)

/-- New DHT messages are put behind those that the object has; every other field is overwritten. -/
lemma reads_message (hplain : m.Plain lib net) (h : Holder) : ∃ h' : Holder,
      Reads (sink lib net source) (h, some m.kind) (m.fields lib) (h', some m.kind) ∧
      (h'.Has source m ↔ (m.kind = .immediate → h.m = [])) := by
  have hother {P : Prop} {k : Kind} (hP : P) (hk : k ≠ .immediate) :
      P ↔ (k = .immediate → h.m = []) := iff_of_true hP fun heq => absurd heq hk
  cases m with
  | downstream m =>
    have hlift : Lifts (sink lib net source) (fun m => ({ h with d := m }, some .downstream)) Relay.decodeKey :=
      fun _ _ _ => onState_onState _ _ _
    exact ⟨{ h with d := m }, Relay.reads_fields hlift m h.d, hother (k := .downstream) rfl (by decide)⟩
  | upstream m =>
    have hlift : Lifts (sink lib net source) (fun m => ({ h with u := m }, some .upstream)) Relay.decodeKey :=
      fun _ _ _ => onState_onState _ _ _
    exact ⟨{ h with u := m }, Relay.reads_fields hlift m h.u, hother (k := .upstream) rfl (by decide)⟩
  | immediate =>
    refine ⟨_, reads_immediate lib net source hplain h, ?_⟩
    exact append_left_eq_self.trans ⟨fun hm _ => hm, fun hm => hm rfl⟩
  | commit frames =>
    have hlift : Lifts (sink lib net source) (fun c => ({ h with c := c }, some .commit)) decodeCommit :=
      fun _ _ _ => onState_onState _ _ _
    have hversion := Reads.liftVersion hlift (c := 118) (v := recordVersion) fun _ _ => rfl
    have hframes : Reads (sink lib net source) (h, some .commit) (LinkMessage.framesEntry frames)
        ({ h with c := putAll EncryptedFrame.assign 0 frames.toList h.c }, some .commit) :=
      lift hlift (s := h.c) (readArray_frames frames h.c)
    exact ⟨_, hframes.append (hversion _), hother (k := .commit) (putAll_same frames h.c) (by decide)⟩
  | status m =>
    have hlift : Lifts (sink lib net source) (fun s => ({ h with s := s }, some .status)) LRStatusMessage.decodeKey :=
      fun _ _ _ => onState_onState _ _ _
    have hframes (s : LRStatusMessage) : Reads (sink lib net source) ({ h with s := s }, some .status)
        (LinkMessage.framesEntry m.frames)
        ({ h with s := { s with frames := putAll EncryptedFrame.assign 0 m.frames.toList s.frames } }, some .status) := by
      refine lift hlift fun _ => ?_
      show (do return (← readArray _ s.frames _).map _) = _
      rw [readArray_frames]
      rfl
    have hp (s : LRStatusMessage) : Reads (sink lib net source) ({ h with s := s }, some .status)
        (entry [112] m.pathid.toList) ({ h with s := { s with pathid := m.pathid } }, some .status) :=
      .liftBuffer hlift m.pathid (fun x => { s with pathid := x })
    have hs (s : LRStatusMessage) : Reads (sink lib net source) ({ h with s := s }, some .status)
        (str [115] ++ int m.status) ({ h with s := { s with status := m.status } }, some .status) :=
      .liftInt hlift _ (fun i => some { s with status := i }) (fun _ => rfl) rfl
    have hv := Reads.liftVersion hlift (c := 118) (v := recordVersion) fun _ _ => rfl
    exact ⟨_, (((hframes h.s).append (hp _)).append (hs _)).append (hv _),
      hother (k := .status) ⟨putAll_same m.frames h.s.frames, rfl, rfl⟩ (by decide)⟩

end Holder

lemma parse_written (lib : ContactLibs) (net : Contact.NetID) (source : Key) {m : LinkMessage}
    (hplain : m.Plain lib net) {b b' : Buf} (hb : b.cur ≤ b.data.length) (hok : m.bencode lib b = (true, b'))
    (h : Holder) (rest : Bytes) : ∃ h' : Holder,
      h.parse lib net source ((b'.data.take b'.cur).drop b.cur ++ rest) = .ok (some (h', m.kind)) ∧
      (h'.Has source m ↔ (m.kind = .immediate → h.m = [])) := by
  obtain ⟨w, hw, happends⟩ := LinkMessage.appends_body lib net hplain
  rw [hw] at hok
  obtain ⟨h', hreads, hhas⟩ := reads_message lib net source hplain h
  have htype : Reads (sink lib net source) (h, none) (entry [97] [m.type]) (h, some m.kind) := by
    apply entry (by simp)
    intro rest
    unfold Holder.sink
    dsimp only
    rw [if_neg (by decide), readString_str (by simp)]
    dsimp only
    rw [m.ofType_type]
    rfl
  have hdict : readDict (sink lib net source) (h, none)
      (100 :: (entry [97] [m.type] ++ m.fields lib) ++ [101] ++ rest) = _ := (htype.append hreads).dict rest
  refine ⟨h', ?_, hhas⟩
  rw [happends.written hb hok]
  unfold parse
  rw [hdict]
  rfl

/-- A written message, with any bytes behind it, is handed over with the same kind and fields, whatever
the parser's objects have, exactly if it has no DHT messages or none are left in the object for them. -/
theorem link_messages_survive_iff (lib : ContactLibs) (net : Contact.NetID) (source : Key) {m : LinkMessage}
    (hplain : m.Plain lib net) {b b' : Buf} (hb : b.cur ≤ b.data.length) (hok : m.bencode lib b = (true, b'))
    (h : Holder) (rest : Bytes) :
    (∃ h' : Holder, h.parse lib net source ((b'.data.take b'.cur).drop b.cur ++ rest) = .ok (some (h', m.kind)) ∧
      h'.Has source m) ↔ (m.kind = .immediate → h.m = []) := by
  obtain ⟨h', hparse, hhas⟩ := parse_written lib net source hplain hb hok h rest
  refine Iff.trans ⟨?_, fun hin => ⟨h', hparse, hin⟩⟩ hhas
  rintro ⟨h'', hparse', hin⟩
  rw [hparse] at hparse'
  cases hparse'
  exact hin

lemma written_of_fst {p : Bool × Buf} (h : p.1 = true) : ∃ b', p = (true, b') := ⟨p.2, Prod.ext h rfl⟩

namespace Survive

def requests : LinkMessage := .immediate [.findIntro { relayOrder := 2, location := .ofBytes 32 [5], txid := 7 },
  .findRouter { iterative := true, targetKey := .ofBytes 32 [6], txid := 8 },
  .gotRouter { closerTarget := some (.ofBytes 32 [3]), nearKeys := [.ofBytes 32 [1], .ofBytes 32 [2]], txid := 9 }]

lemma requests_plain : requests.Plain libs (.zero 8) := by
  intro m hm
  simp only [mem_cons, not_mem_nil, or_false] at hm
  obtain rfl | rfl | rfl := hm
  · rfl
  · trivial
  · exact ⟨fun rc hrc => (nomatch hrc), rfl⟩

lemma requests_written : ∃ b', requests.bencode libs ⟨List.replicate 600 0, 0⟩ = (true, b') :=
  written_of_fst (by decide +kernel)

/-- a message with one `FindRouterMessage` and a key that there is not -/
def cutShort : Bytes := [100, 49, 58, 97, 49, 58, 109] ++
  [49, 58, 109, 108, 100, 49, 58, 65, 49, 58, 82, 101, 101] ++ [49, 58, 113]

end Survive

open Survive in
theorem link_messages_survive_iff_requests : ∃ b' h', requests.bencode libs ⟨List.replicate 600 0, 0⟩ = (true, b') ∧
    (fresh (.zero 8) 0).parse libs (.zero 8) (.ofBytes 32 [1]) ((b'.data.take b'.cur).drop 0 ++ [1, 2, 3])
      = .ok (some (h', .immediate)) ∧ h'.Has (.ofBytes 32 [1]) requests := by
  obtain ⟨b', hb'⟩ := requests_written
  obtain ⟨h', hparse, hhas⟩ := (link_messages_survive_iff libs (.zero 8) (.ofBytes 32 [1]) requests_plain
    (Nat.zero_le _) hb' (fresh (.zero 8) 0) [1, 2, 3]).mpr fun _ => rfl
  exact ⟨b', h', hb', hparse, hhas⟩

open Survive in
/-- After a refused message of another session the messages are handed over behind what it left. -/
theorem messages_behind_refused : ∃ b' h h', requests.bencode libs ⟨List.replicate 600 0, 0⟩ = (true, b') ∧
    Step libs (.zero 8) (fresh (.zero 8) 0) h ∧ h.m = [(.ofBytes 32 [4], .findRouter {})] ∧
    h.parse libs (.zero 8) (.ofBytes 32 [1]) ((b'.data.take b'.cur).drop 0 ++ [])
      = .ok (some (h', .immediate)) ∧ ¬ h'.Has (.ofBytes 32 [1]) requests := by
  obtain ⟨b', hb'⟩ := requests_written
  have hstep : Step libs (.zero 8) (fresh (.zero 8) 0)
      { fresh (.zero 8) 0 with m := [(.ofBytes 32 [4], .findRouter {})] } :=
    .refused (.ofBytes 32 [4]) cutShort rfl rfl rfl
  obtain ⟨h', hparse, hhas⟩ := parse_written libs (.zero 8) (.ofBytes 32 [1]) requests_plain
    (Nat.zero_le _) hb' { fresh (.zero 8) 0 with m := [(.ofBytes 32 [4], .findRouter {})] } []
  exact ⟨b', _, h', hb', hstep, rfl, hparse, fun hin => nomatch hhas.mp hin rfl⟩

end Belnet.Messages
