import Belnet.Path.Messages
import Belnet.Util.Dict

/-!
# A path is confirmed by all of its hops

* `path_confirmed_by_all_hops`  a path is confirmed when every hop has written that it succeeded.
-/

namespace Belnet.Path
open Iwp Util EncryptedFrame List LRStatusRecord LRStatusMessage List.Vector Run Decimal

namespace LRStatusRecord

def Succeeded (status : UInt64) : Prop := status &&& success = success

instance (status : UInt64) : Decidable (Succeeded status) := inferInstanceAs (Decidable (_ = _))

def encoding (status : UInt64) : Bytes :=
  [100] ++ (str [115] ++ int status) ++ (str [118] ++ int recordVersion) ++ [101]

lemma emits_bencode (r : LRStatusRecord) : Emits r.bencode (encoding r.status) := by
  apply Emits.seq
  · apply Emits.seq
    · exact (emits_write [100]).seq (emits_dictInt [115] r.status)
    · exact emits_dictInt [118] recordVersion
  · exact emits_write [101]

lemma str_one_length (x : UInt8) : (str [x]).length = 3 := by
  unfold str
  simp [decimal]

lemma encoding_length (status : UInt64) : (encoding status).length ≤ 33 := by
  have h20 := decimal_length_le (n := status.toNat) (k := 20) (by norm_num) (by have := status.toNat_lt; omega)
  have hver : (int recordVersion).length = 3 := by
    unfold int
    simp [decimal]
  have hint : (int status).length = (decimal status.toNat).length + 2 := by simp [int]
  unfold encoding
  simp only [length_append, length_singleton, str_one_length]
  omega

lemma bdecode_encoding (status : UInt64) (rest : Bytes) :
    bdecode (encoding status ++ rest) = .ok (some { status := status, version := recordVersion }) := by
  have hs : Reads onKey {} (str [115] ++ int status) { status := status } :=
    .entry (by simp) fun rest => intEntry_int (fun i => some ({ status := i } : LRStatusRecord)) status rest
  have hv : Reads onKey { status := status } (str [118] ++ int recordVersion)
      { status := status, version := recordVersion } :=
    .entry (by simp) fun rest => intEntry_int (fun i => if i = recordVersion then
      some ({ status := status, version := i } : LRStatusRecord) else none) recordVersion rest
  unfold bdecode
  have hb : encoding status = 100 :: (str [115] ++ int status ++ (str [118] ++ int recordVersion) ++ [101]) := by
    simp [encoding]
  rw [hb, (hs.append hv).dict rest]
  rfl

end LRStatusRecord

open LRStatusRecord (Succeeded)
variable {frames : Frames} {l : List (SharedSecret × UInt64)} {fs : List EncryptedFrame} {f : EncryptedFrame}

section
variable {c : Crypto} {k : SharedSecret} {st : UInt64} {f g : EncryptedFrame}

def Carries (c : Crypto) (k : SharedSecret) (st : UInt64) (f : EncryptedFrame) : Prop :=
  ∃ g, f.doDecrypt c k = .ok (true, g) ∧ bdecode g.body = .ok (some { status := st, version := recordVersion })

lemma Carries.same (h : Carries c k st f) (hs : Same f g) : Carries c k st g := by
  obtain ⟨_, hf, hbody⟩ := h
  obtain ⟨g', hg, hbody'⟩ := hs.accepts hf
  exact ⟨g', hg, by rw [hbody']; exact hbody⟩

lemma writeRecord_status (st : UInt64) (hsz : f.sz = encryptedFrameSize) :
    ∃ g rest, f.writeRecord (bencode { status := st, version := recordVersion }) = (true, g) ∧
      g.sz = encryptedFrameSize ∧ g.body = encoding st ++ rest := by
  have hlen := encoding_length st
  obtain ⟨_, _⟩ := frame_sizes
  have hdata := f.whole_length
  obtain ⟨d, hw, hd, htake⟩ := emits_bencode { status := st, version := recordVersion }
    ⟨f.bytes 0 f.sz, encryptedFrameOverheadSize⟩ (by
      show encryptedFrameOverheadSize + (encoding st).length < (f.bytes 0 f.sz).length
      omega)
  obtain ⟨g, rest, hrec, hsz', hbody⟩ := writeRecord_body (by omega) hw (hd.trans hdata) htake
  exact ⟨g, rest, hrec, hsz'.trans hsz, hbody⟩

lemma carries_encrypt {noise : Option (TunnelNonce × PubKey)} {rest : Bytes}
    (hsz : f.sz = encryptedFrameSize) (hbody : f.body = encoding st ++ rest)
    (henc : f.doEncrypt c k noise = .ok (true, g)) : g.sz = encryptedFrameSize ∧ Carries c k st g := by
  obtain ⟨_, _⟩ := frame_sizes
  obtain ⟨hsz', -, g', hdec, -, hbody'⟩ := decrypt_encrypt (by omega) henc
  refine ⟨hsz'.trans hsz, g', hdec, ?_⟩
  rw [hbody', hbody]
  exact bdecode_encoding st rest

lemma addFrame_carries (k : SharedSecret) (st : UInt64) (noise : FrameNoise)
    (htotal : ∀ b k, c.hmac b k ≠ none) (hsz : frames.head.sz = encryptedFrameSize) :
    ∃ f, addFrame c k st noise frames = .ok (true, f ::ᵥ frames.shiftBack) ∧
      f.sz = encryptedFrameSize ∧ Carries c k st f := by
  have hsz₀ : (frames.head.randomize noise.fill).sz = encryptedFrameSize := hsz
  obtain ⟨f₁, _, hrec, hsz₁, hbody⟩ := writeRecord_status st hsz₀
  have hfits : encryptedFrameOverheadSize ≤ f₁.sz := by
    rw [hsz₁]
    decide
  obtain ⟨f, henc⟩ : ∃ f, f₁.doEncrypt c k (some (noise.nonce, noise.pubkey)) = .ok (true, f) :=
    doEncrypt_total hfits htotal
  refine ⟨f, ?_, carries_encrypt hsz₁ hbody henc⟩
  unfold addFrame
  dsimp only
  rw [hrec]
  rw [henc]
  rfl

def Layers (c : Crypto) : List (SharedSecret × UInt64) → List EncryptedFrame → Prop
  | [], _ => True
  | _ :: _, [] => False
  | (k, st) :: l, f :: fs => Carries c k st f ∧ Layers c l fs

lemma Layers.same {gs : List EncryptedFrame} (h : Layers c l fs) (hs : Forall₂ Same fs gs) : Layers c l gs := by
  induction l generalizing fs gs with
  | nil => trivial
  | cons e l ih =>
    cases hs with
    | nil => exact absurd h id
    | cons hfg hs => exact ⟨h.1.same hfg, ih h.2 hs⟩

lemma Layers.take (h : Layers c l fs) {n : ℕ} (hn : l.length ≤ n) : Layers c l (fs.take n) := by
  induction l generalizing fs n with
  | nil => trivial
  | cons e l ih =>
    obtain ⟨n, rfl⟩ : ∃ m, n = m + 1 := ⟨n - 1, by simp at hn; omega⟩
    cases fs with
    | nil => exact absurd h id
    | cons f fs => exact ⟨h.1, ih h.2 (Nat.le_of_succ_le_succ hn)⟩

lemma assign_forall₂ {n : ℕ} (dst src : List.Vector EncryptedFrame n) :
    List.Forall₂ Same src.toList (List.Vector.map₂ assign dst src).toList := by
  obtain ⟨dst, hdst⟩ := dst
  obtain ⟨src, hsrc⟩ := src
  show Forall₂ Same src (zipWith assign dst src)
  have hlen : dst.length = src.length := hdst.trans hsrc.symm
  clear hdst hsrc
  induction src generalizing dst with
  | nil =>
    cases dst with
    | nil => exact .nil
    | cons => cases hlen
  | cons g src ih =>
    cases dst with
    | nil => cases hlen
    | cons f dst => exact .cons (assign_same f g) (ih dst (Nat.succ.inj hlen))

lemma copied_forall₂ (frames : Frames) : Forall₂ Same frames.toList frames.copied.toList := by
  obtain ⟨frames, hlen⟩ := frames
  show Forall₂ Same frames (frames.map copied)
  clear hlen
  induction frames with
  | nil => exact .nil
  | cons f frames ih => exact .cons (copied_same f) ih

lemma layers_shiftBack (h : Layers c l frames.toList)
    (hl : l.length ≤ 7) (hf : Carries c k st f) : Layers c ((k, st) :: l) (f ::ᵥ frames.shiftBack).toList := by
  refine ⟨hf, Layers.same (h.take hl) ?_⟩
  exact assign_forall₂ frames.tail ⟨frames.toList.take 7, by simp⟩

end

section
variable {c : Crypto} {path : Path} {hops : List PathHopConfig} {index : ℕ}

lemma status_carries {cur st : UInt64} {hop : PathHopConfig} (h : Carries c hop.shared st f) :
    (Succeeded st → statusLoop c index cur (hop :: hops) (f :: fs) = statusLoop c (index + 1) st hops fs) ∧
      (¬ Succeeded st → ∃ at', statusLoop c index cur (hop :: hops) (f :: fs) = .ok (st, at')) := by
  obtain ⟨g, hdec, hrec⟩ := h
  rw [statusLoop, hdec, ok_bind_eq]
  simp only [Bool.not_true, Bool.false_eq_true, if_false]
  rw [hrec, ok_bind_eq]
  constructor
  · intro hst
    exact if_neg (not_not.mpr hst)
  · intro hst
    have hne : st &&& success ≠ success := hst
    dsimp only
    rw [if_pos hne]
    split <;> exact ⟨_, rfl⟩

lemma statusLoop_layers (index : ℕ) (cur : UInt64) {keys : List SharedSecret} {key : SharedSecret}
    {rest : List SharedSecret} {st : UInt64}
    (hkeys : hops.map (fun hop => hop.shared) = keys ++ key :: rest) (hlast : rest ≠ [] → ¬ Succeeded st)
    (h : Layers c (keys.map (fun k => (k, success)) ++ [(key, st)]) fs) :
    ∃ s at', statusLoop c index cur hops fs = .ok (s, at') ∧ (Succeeded s ↔ rest = [] ∧ Succeeded st) := by
  induction hops generalizing index cur keys fs with
  | nil => cases keys <;> cases hkeys
  | cons hop hops ih =>
    cases fs with
    | nil => cases keys <;> exact absurd h id
    | cons f fs =>
      cases keys with
      | nil =>
        obtain ⟨hkey, hrest⟩ := cons.inj hkeys
        have hf : Carries c hop.shared st f := by rw [show hop.shared = _ from hkey]; exact h.1
        by_cases hst : Succeeded st
        · have hnil : rest = [] := by
            by_contra hne
            exact hlast hne hst
          rw [hnil, map_eq_nil_iff] at hrest
          subst hrest
          refine ⟨st, none, ?_, ⟨fun hs => ⟨hnil, hs⟩, fun hs => hs.2⟩⟩
          rw [(status_carries hf).1 hst, statusLoop]
        · obtain ⟨at', heq⟩ := (status_carries hf).2 hst
          exact ⟨st, at', heq, fun hs => absurd hs hst, fun hs => hs.2⟩
      | cons k keys =>
        obtain ⟨hkey, hrest⟩ := cons.inj hkeys
        have hf : Carries c hop.shared success f := by rw [show hop.shared = _ from hkey]; exact h.1
        rw [(status_carries hf).1 (by decide)]
        exact ih (index + 1) success hrest h.2

variable {at' : Option RouterID}

lemma statusLoop_confirm {cur s : UInt64} (h : statusLoop c index cur hops fs = .ok (s, at')) (hs : Succeeded s) :
    ∀ hop ∈ hops, ∃ f ∈ fs, ∃ g r, f.doDecrypt c hop.shared = .ok (true, g) ∧
      bdecode g.body = .ok (some r) ∧ Succeeded r.status := by
  induction hops generalizing index cur fs with
  | nil =>
    intro hop hmem
    cases hmem
  | cons hop hops ih =>
    cases fs with
    | nil => cases h
    | cons f fs =>
      obtain ⟨⟨ok, g⟩, hdec, h⟩ := ok_bind.mp h
      cases ok with
      | false =>
        cases h
        exact absurd hs (by decide)
      | true =>
        obtain ⟨record, hrec, h⟩ := ok_bind.mp h
        cases record with
        | none =>
          cases h
          exact absurd hs (by decide)
        | some r =>
          dsimp only at h
          by_cases hr : Succeeded r.status
          · have hno : ¬ r.status &&& success ≠ success := not_not.mpr hr
            rw [if_neg hno] at h
            intro x hx
            rcases mem_cons.mp hx with rfl | hx
            · exact ⟨f, mem_cons_self, g, r, hdec, hrec, hr⟩
            · obtain ⟨f', hf', hrest⟩ := ih h x hx
              exact ⟨f', mem_cons_of_mem f hf', hrest⟩
          · have hne : r.status &&& success ≠ success := hr
            rw [if_pos hne] at h
            split at h
            all_goals
              cases h
              exact absurd hs hr

lemma handleLRSM_eq {status s : UInt64} (h : statusLoop c 0 status path.hops frames.toList = .ok (s, at')) :
    path.handleLRSM c status frames = .ok (if Succeeded s then .confirm else .failed at' s) := by
  unfold Path.handleLRSM
  rw [h, ok_bind_eq]
  by_cases hs : Succeeded s
  · rw [if_pos hs]
    exact if_pos hs
  · rw [if_neg hs]
    exact if_neg hs

lemma statusLoop_of_confirm {status : UInt64} (h : path.handleLRSM c status frames = .ok .confirm) :
    ∃ s at', statusLoop c 0 status path.hops frames.toList = .ok (s, at') ∧ Succeeded s := by
  obtain ⟨⟨s, at'⟩, hloop, -⟩ := ok_bind.mp h
  refine ⟨s, at', hloop, ?_⟩
  rw [handleLRSM_eq hloop] at h
  by_contra hs
  rw [if_neg hs] at h
  cases h

end

/-- the frames that a handler gets: decoded into the message object's frames, which are used again and again, then
copied -/
def received (parsed frames : Frames) : Frames := (Frames.assign parsed frames).copied

lemma Layers.received {c : Crypto} (parsed : Frames)
    (h : Layers c l frames.toList) : Layers c l (received parsed frames).toList :=
  (h.same (assign_forall₂ parsed frames)).same (copied_forall₂ _)

lemma received_head (parsed frames : Frames) : Same frames.head (received parsed frames).head := by
  obtain ⟨p, _, rfl⟩ := exists_eq_cons parsed
  obtain ⟨f, _, rfl⟩ := exists_eq_cons frames
  exact (assign_same p f).trans (copied_same _)

structure Creator where
  hop : TransitHop
  status : UInt64
  dummy : ℕ → Bytes
  noise : FrameNoise

structure Relay where
  hop : TransitHop
  parsed : Frames
  noise : FrameNoise

def statusAt (c : Crypto) (creator : Creator) : List Relay → Except MemFault LRStatusMessage
  | [] => create c creator.hop.info.rxID creator.hop.pathKey creator.status creator.dummy creator.noise
  | r :: relays => do
    let m ← statusAt c creator relays
    r.hop.handleLRSM c r.noise m.status (received r.parsed m.frames)

section
variable {c : Crypto} {path : Path}

lemma statusAt_layers (htotal : ∀ b k, c.hmac b k ≠ none) (creator : Creator) {relays : List Relay}
    (hlen : relays.length ≤ 7) :
    ∃ m, statusAt c creator relays = .ok m ∧ m.frames.head.sz = encryptedFrameSize ∧
      Layers c ((relays.map fun r => r.hop.pathKey).map (fun k => (k, success))
        ++ [(creator.hop.pathKey, creator.status)]) m.frames.toList := by
  induction relays with
  | nil =>
    obtain ⟨f, hadd, hsz, hf⟩ := addFrame_carries creator.hop.pathKey creator.status creator.noise htotal
      (show (dummyFrames creator.dummy).head.sz = encryptedFrameSize by rfl)
    refine ⟨⟨f ::ᵥ (dummyFrames creator.dummy).shiftBack, creator.hop.info.rxID, creator.status⟩, ?_, hsz, ?_⟩
    · unfold statusAt create
      rw [hadd]
      rfl
    · exact layers_shiftBack (l := []) trivial (by simp) hf
  | cons r relays ih =>
    obtain ⟨m, hm, hsz, hl⟩ := ih (by simp at hlen; omega)
    have hhead : (received r.parsed m.frames).copied.head.sz = encryptedFrameSize := by
      have hs := received_head r.parsed m.frames
      obtain ⟨f, _, hfs⟩ := exists_eq_cons (received r.parsed m.frames)
      rw [hfs] at hs ⊢
      exact hs.1.symm.trans hsz
    obtain ⟨f, hadd, hsz', hf⟩ := addFrame_carries r.hop.pathKey success r.noise htotal hhead
    refine ⟨⟨f ::ᵥ (received r.parsed m.frames).copied.shiftBack, r.hop.info.rxID, m.status⟩, ?_, hsz', ?_⟩
    · unfold statusAt TransitHop.handleLRSM
      rw [hm, ok_bind_eq, hadd]
      rfl
    · refine layers_shiftBack ((hl.received r.parsed).same (copied_forall₂ _)) ?_ hf
      simp at hlen ⊢
      omega

end

def reports (creator : Creator) (relays : List Relay) : List UInt64 := relays.map (fun _ => success) ++ [creator.status]

structure FrameEncryption where
  key : SharedSecret
  frame : EncryptedFrame
  noise : Option (TunnelNonce × PubKey)

def FrameEncryption.Made (c : Crypto) (e : FrameEncryption) (f : EncryptedFrame) : Prop :=
  ∃ g, e.frame.doEncrypt c e.key e.noise = .ok (true, g) ∧ Same g f

def Unforgeable (c : Crypto) (calls : List FrameEncryption) (path : Path) (frames : Frames) : Prop :=
  ∀ f ∈ frames.toList, ∀ hop ∈ path.hops, MacOk c hop.shared f → ∃ e ∈ calls, e.key = hop.shared ∧ e.Made c f

section
variable {c : Crypto} {f g : EncryptedFrame} {e : FrameEncryption}

lemma FrameEncryption.Made.fits (h : e.Made c f) : encryptedFrameOverheadSize ≤ e.frame.sz := by
  obtain ⟨g, hg, -⟩ := h
  by_contra hlt
  rw [doEncrypt_short (by omega)] at hg
  cases hg

lemma FrameEncryption.Made.body (h : e.Made c f) (hdec : f.doDecrypt c e.key = .ok (true, g)) :
    g.body = e.frame.body := by
  have hfits := h.fits
  obtain ⟨_, hf', hs⟩ := h
  obtain ⟨-, -, _, hg', -, hbody⟩ := decrypt_encrypt hfits hf'
  obtain ⟨_, hg'', hbody'⟩ := hs.accepts hg'
  rw [hdec] at hg''
  cases hg''
  rw [hbody', hbody]

end

/-- **The client confirms a path only if a status record with the success bit was encrypted under every hop's key; with
honest hops, exactly when every hop reported success.** -/
theorem path_confirmed_by_all_hops (c : Crypto) (path : Path) :
    (∀ (calls : List FrameEncryption) (status : UInt64) (frames : Frames),
      Unforgeable c calls path frames → path.handleLRSM c status frames = .ok .confirm →
        ∀ hop ∈ path.hops, ∃ e ∈ calls, e.key = hop.shared ∧
          ∃ r, LRStatusRecord.bdecode e.frame.body = .ok (some r) ∧ Succeeded r.status) ∧
    (∀ (creator : Creator) (relays : List Relay) (rest : List SharedSecret) (parsed : Frames),
      (∀ b k, c.hmac b k ≠ none) →
      path.hops.map (fun hop => hop.shared) = relays.map (fun r => r.hop.pathKey) ++ creator.hop.pathKey :: rest →
      (rest ≠ [] → ¬ Succeeded creator.status) → ∃ m result, statusAt c creator relays = .ok m ∧
          path.handleLRSM c m.status (received parsed m.frames) = .ok result ∧
          (result = .confirm ↔ (reports creator relays).length = path.hops.length ∧
            ∀ st ∈ reports creator relays, Succeeded st)) := by
  constructor
  · intro calls status frames hunforged hconfirm hop hmem
    obtain ⟨s, at', hloop, hs⟩ := statusLoop_of_confirm hconfirm
    obtain ⟨f, hf, g, r, hdec, hrec, hr⟩ := statusLoop_confirm hloop hs hop hmem
    obtain ⟨-, hmac, -⟩ := doDecrypt_accepts hdec
    obtain ⟨e, he, hkey, hmade⟩ := hunforged f hf hop hmem hmac
    rw [← hkey] at hdec
    refine ⟨e, he, hkey, r, ?_, hr⟩
    rw [← hmade.body hdec]
    exact hrec
  · intro creator relays rest parsed htotal hkeys hlast
    have hlen := congrArg List.length hkeys
    have hmax : path.hops.length ≤ 8 := path.hops_le
    simp only [length_map, length_append, length_cons] at hlen
    obtain ⟨m, hm, -, hl⟩ := statusAt_layers htotal creator (show relays.length ≤ 7 by omega)
    obtain ⟨s, at', hloop, hiff⟩ := statusLoop_layers 0 m.status hkeys hlast (hl.received parsed)
    refine ⟨m, _, hm, handleLRSM_eq hloop, ?_⟩
    have hall : ((reports creator relays).length = path.hops.length ∧
        ∀ st ∈ reports creator relays, Succeeded st) ↔ rest = [] ∧ Succeeded creator.status := by
      unfold reports
      constructor
      · rintro ⟨hn, hst⟩
        refine ⟨?_, hst _ (by simp)⟩
        simp only [length_append, length_map, length_singleton] at hn
        exact length_eq_zero_iff.mp (by omega)
      · rintro ⟨rfl, hst⟩
        refine ⟨by simpa using hlen.symm, ?_⟩
        intro st hmem
        rcases mem_concat.mp hmem with hmem | rfl
        · obtain ⟨r, -, rfl⟩ := mem_map.mp hmem
          decide
        · exact hst
    rw [hall, ← hiff]
    by_cases hs : Succeeded s <;> simp [hs]

namespace Sample

def crypto : Crypto where
  shorthash _ := .zero 32
  hmac _ _ := some (.zero 32)
  keystream _ _ _ := 0
  verify _ _ _ := true
  transportDhClient _ _ _ := some (.zero 32)
  transportDhServer _ _ _ := some (.zero 32)

def rc : RouterContact where
  pubkey := .zero 32
  addrs := []
  routerVersion := none
  rest := []
  enckey := .zero 32

def hop : PathHopConfig where
  txID := .zero 16
  rxID := .zero 16
  rc := rc
  commkey := .zero 64
  shared := .zero 32
  nonceXOR := .zero 32
  upstream := .zero 32
  nonce := .zero 32

def path : Path where
  hops := [hop]
  hops_ne := by simp
  hops_le := by simp

def twoHops : Path where
  hops := [hop, hop]
  hops_ne := by simp
  hops_le := by decide

def creator : Creator where
  hop :=
    { info := ⟨.zero 16, .zero 16, .zero 32, .zero 32⟩
      pathKey := .zero 32
      nonceXOR := .zero 32
      started := 0
      lifetime := defaultLifetime }
  status := success
  dummy _ := []
  noise := ⟨[], .zero 32, .zero 32⟩

lemma hmac_total (b : Bytes) (k : SharedSecret) : crypto.hmac b k ≠ none := by
  intro h
  cases h

lemma exists_confirming : ∃ calls frames, Unforgeable crypto calls path frames ∧
    path.handleLRSM crypto 0 frames = .ok .confirm := by
  obtain ⟨f, _, -, hsz, hbody⟩ := writeRecord_status success
    (show (new encryptedFrameBodySize).sz = encryptedFrameSize by rfl)
  obtain ⟨g, henc⟩ : ∃ g, f.doEncrypt crypto hop.shared none = .ok (true, g) :=
    doEncrypt_total (by rw [hsz]; decide) hmac_total
  have hg := (carries_encrypt hsz hbody henc).2
  refine ⟨[⟨hop.shared, f, none⟩], replicate 8 g, ?_, ?_⟩
  · intro x hx hop hmem _
    rw [eq_of_mem_replicate hx]
    rw [mem_singleton.mp hmem]
    exact ⟨_, mem_singleton.mpr rfl, rfl, g, henc, Same.refl g⟩
  · have hsucc : Succeeded LRStatusRecord.success := by decide
    have hloop : statusLoop crypto 0 0 path.hops (List.Vector.replicate 8 g).toList
        = .ok (LRStatusRecord.success, none) := by
      show statusLoop crypto 0 0 (hop :: []) (g :: List.replicate 7 g) = _
      rw [(status_carries hg).1 hsucc, statusLoop]
    exact handleLRSM_eq hloop

end Sample

open Belnet.Path.Sample

theorem path_confirmed_by_two_hops : (∃ calls frames, Unforgeable crypto calls path frames ∧
      path.handleLRSM crypto 0 frames = .ok .confirm ∧
      ∀ hop ∈ path.hops, ∃ e ∈ calls, e.key = hop.shared ∧
        ∃ r, bdecode e.frame.body = .ok (some r) ∧ Succeeded r.status) ∧
    ∃ relay m, statusAt crypto creator [relay] = .ok m ∧
      twoHops.handleLRSM crypto m.status (received relay.parsed m.frames) = .ok .confirm := by
  obtain ⟨calls, frames, hun, hconfirm⟩ := exists_confirming
  refine ⟨⟨calls, frames, hun, hconfirm, (path_confirmed_by_all_hops crypto path).1 calls 0 frames hun hconfirm⟩, ?_⟩
  let relay : Relay := ⟨creator.hop, frames, creator.noise⟩
  obtain ⟨m, result, hm, hresult, hiff⟩ :=
    (path_confirmed_by_all_hops crypto twoHops).2 creator [relay] [] frames hmac_total rfl (fun h => absurd rfl h)
  have hsucc : Succeeded success := by decide
  rw [hiff.mpr ⟨rfl, forall_mem_cons.mpr ⟨hsucc, forall_mem_singleton.mpr hsucc⟩⟩] at hresult
  exact ⟨relay, m, hm, hresult⟩

end Belnet.Path
