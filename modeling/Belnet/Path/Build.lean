import Belnet.Path.CommitRecord
import Belnet.Path.Confirm

/-!
# Path building

The client's side of `llarp/path/pathbuilder.cpp`, and the way of a commit message from hop to hop.
-/

namespace Belnet.Path
open Iwp Util EncryptedFrame List List.Vector LRCommitRecord LRStatusRecord PathContext Frames Emits Run Same Nat

def RCCodec.Fits (codec : RCCodec) (rc : RouterContact) : Prop :=
  ∃ x : Bytes, x.length ≤ 599 ∧ Emits (codec.bencode rc) x ∧ ∀ rest, codec.bdecode (x ++ rest) = .ok (some (rc, rest))

variable {x : Bytes}

namespace LRCommitRecord
variable {codec : RCCodec} {r : LRCommitRecord}

def Plain (r : LRCommitRecord) : Prop := r.lifetime = defaultLifetime ∧ r.work = none ∧ r.version = recordVersion

lemma Plain.not_short (h : r.Plain) : ¬ Short r.lifetime := by
  rw [h.1]
  decide

/-- the record of a hop, with the entry `x` of the next contact -/
def encoding (r : LRCommitRecord) (x : Bytes) : Bytes := text r x []

structure RCBytes (codec : RCCodec) (r : LRCommitRecord) (x : Bytes) : Prop where
  length : x.length ≤ 602
  emits : Emits (writeOption 117 codec.bencode r.nextRC) x
  reads : ∀ s : LRCommitRecord, s.nextRC = none →
    Reads (onKeyWith codec PoW.codec) s x { s with nextRC := r.nextRC }

lemma exists_rcBytes (h : ∀ rc, r.nextRC = some rc → codec.Fits rc) : ∃ x, RCBytes codec r x := by
  obtain ⟨x, hx, hemits, hreads⟩ := exists_rcEntry PoW.codec h
  refine ⟨x, ?_, hemits, hreads⟩
  rcases hx with rfl | ⟨t, ht, rfl⟩
  · exact zero_le _
  · rw [length_append, str_one_length]
    omega

lemma bencode_writes (hr : r.Plain) (hx : RCBytes codec r x) {b : Buf}
    (hb : b.cur + (encoding r x).length ≤ b.data.length) :
    ∃ d, r.bencode codec b = (true, ⟨d, b.cur + (encoding r x).length⟩) ∧ d.length = b.data.length ∧
      d.take (b.cur + (encoding r x).length) = b.data.take b.cur ++ encoding r x := by
  refine bencodeWith_writes hx.emits ?_ hb
  rw [hr.2.1]
  exact emits_skip

lemma str_length {n k : ℕ} (x : AlignedBuffer n) (hk : 0 < k) (hn : n < 10^k) : (str x.toList).length ≤ n + k + 1 := by
  have hlen : x.toList.length = n := x.toList_length
  have hd := Decimal.decimal_length_le hk hn
  unfold str
  rw [length_append, length_append, length_singleton, hlen]
  omega

lemma encoding_length (hr : r.Plain) (h : RCBytes codec r x) :
    (encoding r x).length ≤ encryptedFrameBodySize := by
  have hc := str_length (k := 2) r.commkey (by omega) (by norm_num)
  have hi := str_length (k := 2) r.nextHop (by omega) (by norm_num)
  have hn := str_length (k := 2) r.tunnelNonce (by omega) (by norm_num)
  have hrx := str_length (k := 2) r.rxid (by omega) (by norm_num)
  have htx := str_length (k := 2) r.txid (by omega) (by norm_num)
  have hu := h.length
  have hv : (int recordVersion).length = 3 := by
    unfold int
    simp [Decimal.decimal]
  show _ ≤ 768
  simp only [encoding, text, front, lifetimeEntry, if_neg hr.not_short, back, length_append, length_cons,
    length_nil, str_one_length]
  omega

lemma bdecode_encoding (hr : r.Plain) (hx : RCBytes codec r x) (rest : Bytes) :
    bdecode codec (encoding r x ++ rest) = .ok (some { r with lifetime := 0 }) := by
  have hwork : ∀ s : LRCommitRecord, s.work = none →
      Reads (onKeyWith codec PoW.codec) s [] { s with work := r.work } := by
    intro s hs
    rw [hr.2.1, ← hs]
    exact .nil
  have hback := bdecodeWith_text hr.not_short hx.reads hwork rest
  rw [← hr.2.2] at hback
  exact hback

end LRCommitRecord

abbrev FreshID := { id : PathID // isZero id = false }

def newHops (h : List RouterContact) (ids : ℕ → FreshID × FreshID) : List PathHopConfig :=
  h.mapIdx fun idx rc =>
    { txID := if idx + 1 < h.length then (ids (idx + 1)).2 else (ids idx).1
      rxID := (ids idx).2
      rc := rc
      commkey := .zero 64
      shared := .zero 32
      nonceXOR := .zero 32
      upstream := .zero 32
      nonce := .zero 32 }

structure HopNoise where
  commkey : SecretKey
  nonce : TunnelNonce
  framekey : SecretKey
  frameNonce : TunnelNonce

section
variable (c : PathCrypto) (codec : RCCodec)

def PathHopConfig.keyed (noise : HopNoise) (next : Option PathHopConfig) (shared : SharedSecret)
    (hop : PathHopConfig) : PathHopConfig :=
  { hop with
    commkey := noise.commkey
    nonce := noise.nonce
    shared := shared
    nonceXOR := c.shorthash shared.toList
    upstream := match next with
      | none => hop.rc.pubkey
      | some next => next.rc.pubkey }

def PathHopConfig.record (hop : PathHopConfig) (next : Option PathHopConfig) : LRCommitRecord where
  nextRC := next.map fun next => next.rc
  lifetime := defaultLifetime
  version := recordVersion
  txid := hop.txID
  rxid := hop.rxID
  tunnelNonce := hop.nonce
  nextHop := hop.upstream
  commkey := c.toPublic hop.commkey

def generateNextKey (noise : HopNoise) (hop : PathHopConfig) (next : Option PathHopConfig)
    (frame : EncryptedFrame) : Except MemFault (Option (PathHopConfig × EncryptedFrame)) :=
  -- do key exchange
  match c.dhClient hop.rc.enckey noise.commkey noise.nonce with
  | none => .ok none
  | some shared =>
    let hop := hop.keyed c noise next shared
    -- encode record
    let (ok, frame) := frame.writeRecord ((hop.record c next).bencode codec)
    if !ok then .ok none
    else do
      -- use ephemeral keypair for frame
      let (ok, frame) ← frame.encryptInPlace c noise.framekey hop.rc.enckey noise.frameNonce
      if !ok then return none
      else return some (hop, frame)

def generateKeys (noise : ℕ → HopNoise) : ℕ → List PathHopConfig → Frames →
    Except MemFault (Option (List PathHopConfig × Frames))
  | _, [], frames => .ok (some ([], frames))
  | idx, hop :: hops, frames =>
    if h : idx < 8 then do
      match ← generateNextKey c codec (noise idx) hop hops.head? (frames.get ⟨idx, h⟩) with
      | none => return none
      | some (hop, frame) =>
        match ← generateKeys noise (idx + 1) hops (frames.set ⟨idx, h⟩ frame) with
        | none => return none
        | some (hops, frames) => return some (hop :: hops, frames)
    else .error (.outside idx 1)

/-- `AsyncGenerateKeys`: the hops of the path with their keys, and the frames of the commit message -/
def asyncGenerateKeys (noise : ℕ → HopNoise) (fill : ℕ → Bytes) (hops : List PathHopConfig) :
    Except MemFault (Option (List PathHopConfig × Frames)) :=
  generateKeys c codec noise 0 hops (LRStatusMessage.dummyFrames fill)

end

def PathCrypto.Agrees (c : PathCrypto) : Prop :=
  ∀ sk sk' n, c.dhClient (c.toPublic sk') sk n = c.dhServer (c.toPublic sk) sk' n

variable {frames frames' : Frames} {hop : PathHopConfig}

section
variable {c : PathCrypto} {codec : RCCodec} {sk : SecretKey} {record : LRCommitRecord} {f g : EncryptedFrame}

def Sealed (c : PathCrypto) (codec : RCCodec) (sk : SecretKey) (record : LRCommitRecord) (f : EncryptedFrame) : Prop :=
  f.sz = encryptedFrameSize ∧ ∃ g, f.decryptInPlace c sk = .ok (true, g) ∧ bdecode codec g.body = .ok (some record)

lemma Sealed.same (h : Sealed c codec sk record f) (hs : Same f g) : Sealed c codec sk record g := by
  obtain ⟨hsz, _, hdec, hrec⟩ := h
  have hsize : encryptedFrameSize = 864 := rfl
  refine ⟨hs.1.symm.trans hsz, ?_⟩
  unfold decryptInPlace at hdec ⊢
  rw [← hs.pubkey (by omega), ← hs.nonce (by omega)]
  cases hdh : c.dhServer f.pubkey sk f.nonce with
  | none =>
    rw [hdh] at hdec
    cases hdec
  | some =>
    rw [hdh] at hdec
    obtain ⟨g', hg, hbody⟩ := hs.accepts hdec
    exact ⟨g', hg, by rw [hbody]; exact hrec⟩

lemma writeRecord_commit (hplain : record.Plain) (hx : RCBytes codec record x) (hsz : f.sz = encryptedFrameSize) :
    ∃ g rest, f.writeRecord (record.bencode codec) = (true, g) ∧ g.sz = encryptedFrameSize ∧
      g.body = encoding record x ++ rest := by
  have hlen := encoding_length hplain hx
  obtain ⟨_, _⟩ := frame_sizes
  have hbody : encryptedFrameBodySize = 768 := rfl
  have hdata := f.whole_length
  obtain ⟨d, hw, hd, htake⟩ := bencode_writes hplain hx (b := ⟨f.bytes 0 f.sz, encryptedFrameOverheadSize⟩) (by
      show encryptedFrameOverheadSize + (encoding record x).length ≤ (f.bytes 0 f.sz).length
      omega)
  obtain ⟨g, rest, hrec, hsz', hbody⟩ := writeRecord_body (by omega) hw (hd.trans hdata) htake
  exact ⟨g, rest, hrec, hsz'.trans hsz, hbody⟩

lemma PathHopConfig.record_plain (hop : PathHopConfig) (next : Option PathHopConfig) :
    (hop.record c next).Plain := ⟨rfl, rfl, rfl⟩

variable {next : Option PathHopConfig}

lemma PathHopConfig.exists_rcBytes (hfits : ∀ n, next = some n → codec.Fits n.rc) :
    ∃ x, LRCommitRecord.RCBytes codec (hop.record c next) x := by
  apply LRCommitRecord.exists_rcBytes
  intro _ hrc
  obtain ⟨n, hn, rfl⟩ := Option.map_eq_some_iff.mp hrc
  exact hfits n hn

lemma nextKey_sealed (hagree : c.Agrees) {noise : HopNoise} {hop' : PathHopConfig}
    (hkey : c.toPublic sk = hop.rc.enckey) (hsz : f.sz = encryptedFrameSize)
    (hfits : ∀ n, next = some n → codec.Fits n.rc)
    (hgen : generateNextKey c codec noise hop next f = .ok (some (hop', g))) :
    ∃ shared, c.dhServer (c.toPublic noise.commkey) sk noise.nonce = some shared ∧
      hop' = hop.keyed c noise next shared ∧
      Sealed c codec sk { hop'.record c next with lifetime := 0 } g := by
  obtain ⟨_, _⟩ := frame_sizes
  unfold generateNextKey at hgen
  cases hdh : c.dhClient hop.rc.enckey noise.commkey noise.nonce with
  | none =>
    rw [hdh] at hgen
    cases hgen
  | some shared =>
    rw [hdh] at hgen
    dsimp only at hgen
    have hplain := (hop.keyed c noise next shared).record_plain (c := c) next
    obtain ⟨x, hx⟩ := (hop.keyed c noise next shared).exists_rcBytes (c := c) hfits
    obtain ⟨f₁, rest, hrec, hsz₁, hbody⟩ := writeRecord_commit hplain hx hsz
    rw [hrec] at hgen
    obtain ⟨⟨ok, g'⟩, henc, hgen⟩ := ok_bind.mp hgen
    cases ok with
    | false => cases hgen
    | true =>
      cases hgen
      obtain ⟨hgsz, g', hdec, hgbody⟩ := decrypt_encryptInPlace
        (show encryptedFrameOverheadSize ≤ f₁.sz by omega)
        (by rw [show (hop.keyed c noise next shared).rc.enckey = c.toPublic sk from hkey.symm]
            exact hagree _ _ _) henc
      refine ⟨shared, ?_, rfl, hgsz.trans hsz₁, g', hdec, ?_⟩
      · rw [← hagree, hkey]
        exact hdh
      · rw [hgbody, hbody]
        exact bdecode_encoding hplain hx rest

variable {noise : ℕ → HopNoise} {idx : ℕ} {hops hops' : List PathHopConfig}

lemma generateKeys_length (hgen : generateKeys c codec noise idx hops frames = .ok (some (hops', frames'))) :
    hops'.length = hops.length := by
  induction hops generalizing idx hops' frames with
  | nil =>
    cases hgen
    rfl
  | cons hop hops ih =>
    rw [generateKeys] at hgen
    split at hgen
    · obtain ⟨r, -, hgen⟩ := ok_bind.mp hgen
      cases r with
      | none => cases hgen
      | some r =>
        obtain ⟨r, hrest, hgen⟩ := ok_bind.mp hgen
        cases r with
        | none => cases hgen
        | some r =>
          cases hgen
          exact congrArg succ (ih hrest)
    · cases hgen

lemma generateKeys_sealed (hagree : c.Agrees) (hsz : ∀ i, (frames.get i).sz = encryptedFrameSize)
    (hfits : ∀ hop ∈ hops, codec.Fits hop.rc) (hkeys : ∀ hop ∈ hops, ∃ sk, c.toPublic sk = hop.rc.enckey)
    (hgen : generateKeys c codec noise idx hops frames = .ok (some (hops', frames'))) :
    (∀ i : Fin 8, i.val < idx → frames'.get i = frames.get i) ∧
      ∀ j hop, hops[j]? = some hop → ∀ sk, c.toPublic sk = hop.rc.enckey →
        ∃ shared, c.dhServer (c.toPublic (noise (idx + j)).commkey) sk (noise (idx + j)).nonce = some shared ∧
          hops'[j]? = some (hop.keyed c (noise (idx + j)) hops[j + 1]? shared) ∧
          ∃ h : idx + j < 8, Sealed c codec sk
            { (hop.keyed c (noise (idx + j)) hops[j + 1]? shared).record c hops[j + 1]? with lifetime := 0 }
            (frames'.get ⟨idx + j, h⟩) := by
  induction hops generalizing idx hops' frames with
  | nil =>
    cases hgen
    refine ⟨fun _ _ => rfl, fun j hop hj => ?_⟩
    cases hj
  | cons hop hops ih =>
    rw [generateKeys] at hgen
    split at hgen
    · rename_i h8
      obtain ⟨r, hnext, hgen⟩ := ok_bind.mp hgen
      cases r with
      | none => cases hgen
      | some r =>
        obtain ⟨_, f₁⟩ := r
        obtain ⟨r, hrest, hgen⟩ := ok_bind.mp hgen
        cases r with
        | none => cases hgen
        | some r =>
          obtain ⟨_, _⟩ := r
          cases hgen
          obtain ⟨_, hsk₀⟩ := hkeys hop mem_cons_self
          have hfits' : ∀ n, hops.head? = some n → codec.Fits n.rc := fun n hn =>
            hfits n (mem_cons_of_mem hop (mem_of_mem_head? hn))
          obtain ⟨-, -, -, hf₁, -⟩ := nextKey_sealed hagree hsk₀ (hsz _) hfits' hnext
          have hsz' : ∀ i, ((frames.set ⟨idx, h8⟩ f₁).get i).sz = encryptedFrameSize := by
            intro i
            by_cases hi : (⟨idx, h8⟩ : Fin 8) = i
            · rw [← hi, get_set_same]
              exact hf₁
            · rw [get_set_of_ne hi]
              exact hsz i
          obtain ⟨hbefore, hafter⟩ := ih hsz' (fun x hx => hfits x (mem_cons_of_mem hop hx))
            (fun x hx => hkeys x (mem_cons_of_mem hop hx)) hrest
          refine ⟨?_, ?_⟩
          · intro i hi
            rw [hbefore i (by omega), get_set_of_ne]
            intro heq
            rw [← heq] at hi
            exact absurd hi (lt_irrefl _)
          · intro j x hx sk hsk
            cases j with
            | zero =>
              cases hx
              obtain ⟨shared, hdh, hhop, hsealed⟩ := nextKey_sealed hagree hsk (hsz _) hfits' hnext
              have hget : frames'.get ⟨idx, h8⟩ = f₁ := by
                rw [hbefore ⟨idx, h8⟩ (by show idx < idx + 1; omega), get_set_same]
              have hhead : (hop :: hops)[0 + 1]? = hops.head? := by cases hops <;> rfl
              rw [hhead]
              refine ⟨shared, hdh, ?_, h8, ?_⟩
              · rw [getElem?_cons_zero, hhop]
                rfl
              show Sealed c codec sk _ (frames'.get ⟨idx, h8⟩)
              rw [hget]
              rw [hhop] at hsealed
              exact hsealed
            | succ j =>
              obtain ⟨shared, hdh, hhop, h, hsealed⟩ := hafter j x hx sk hsk
              have hidx : idx + 1 + j = idx + (j + 1) := by omega
              simp only [hidx] at hdh hhop hsealed
              exact ⟨shared, hdh, hhop, by omega, hsealed⟩
    · cases hgen

end

section
variable {env : RelayEnv} {ctx ctx' : PathContext} {now : Millis} {junk : Bytes} {m : LRCommitMessage}

def transitHop (env : RelayEnv) (now : Millis) (m : LRCommitMessage) (record : LRCommitRecord)
    (pathKey : SharedSecret) : TransitHop where
  info :=
    { txID := record.txid
      rxID := record.rxid
      upstream := record.nextHop
      downstream := m.downstream }
  pathKey := pathKey
  nonceXOR := env.crypto.shorthash pathKey.toList
  started := now
  lifetime := defaultLifetime

def finish (ctx : PathContext) (m : LRCommitMessage) (hop : TransitHop) (frames : Frames) : PathContext × LRCMResult :=
  if hop.info.upstream = ctx.us then sendPathConfirm ctx hop else sendLRCM ctx m hop frames

lemma handleLRCM_sealed {record : LRCommitRecord} {pathKey : SharedSecret} (hallow : ctx.allowTransit = true)
    (hsealed : Sealed env.crypto env.codec ctx.encryption record m.frames.head)
    (hrecord : record.work = none ∧ record.lifetime = 0)
    (hids : isZero record.txid = false ∧ isZero record.rxid = false)
    (hdh : env.crypto.dhServer record.commkey ctx.encryption record.tunnelNonce = some pathKey) :
    handleLRCM env ctx now junk m = .ok (finish ctx m (transitHop env now m record pathKey)
      (shiftFrames m.frames.copied junk)) := by
  obtain ⟨f, _, hfs⟩ := exists_eq_cons m.frames
  have htarget : Same m.frames.head (decryptTarget m.frames.copied) := by
    rw [hfs]
    exact (copied_same f).trans (assign_same _ _)
  obtain ⟨-, g, hdec, hrec⟩ := hsealed.same htarget
  have hdecrypted : handleDecrypted env ctx now junk { m with frames := m.frames.copied } g.body
      = .ok (some (transitHop env now m record pathKey, shiftFrames m.frames.copied junk)) := by
    unfold handleDecrypted
    rw [hrec, ok_bind_eq]
    dsimp only
    rw [hids.1, hids.2, hdh, hrecord.1, hrecord.2]
    rfl
  unfold handleLRCM
  dsimp only
  rw [hallow, hdec]
  show (handleDecrypted env ctx now junk { m with frames := m.frames.copied } g.body >>= _) = _
  rw [hdecrypted, ok_bind_eq]
  unfold finish
  dsimp only
  by_cases hus : (transitHop env now m record pathKey).info.upstream = ctx.us
  · rw [if_pos hus, if_pos hus]
    rfl
  · rw [if_neg hus, if_neg hus]
    rfl

def Admits (ctx : PathContext) (m : LRCommitMessage) (hop : TransitHop) : Prop :=
  ctx.hasTransitHop hop.info = false ∧ (hop.info.upstream ≠ ctx.us →
      (∀ ip, m.fromAddr = some ip → ip ∉ ctx.pathLimits) ∧ ctx.pathToRouterAllowed hop.info.upstream = true)

variable {hop : TransitHop}

lemma finish_of_admits (h : Admits ctx m hop) : (finish ctx m hop frames).1.transitPaths
        = (hop.info.txID, hop) :: (hop.info.rxID, hop) :: ctx.transitPaths ∧
      (finish ctx m hop frames).2 = if hop.info.upstream = ctx.us
        then .sendStatus hop.info.rxID hop.info.downstream hop.pathKey success
        else .forward hop.info.upstream frames := by
  obtain ⟨hnew, hmay⟩ := h
  unfold finish
  by_cases hus : hop.info.upstream = ctx.us
  · rw [if_pos hus, if_pos hus]
    unfold sendPathConfirm
    simp [hnew, putTransitHop]
  obtain ⟨hlimit, hallowed⟩ := hmay hus
  rw [if_neg hus, if_neg hus]
  unfold sendLRCM
  cases haddr : m.fromAddr with
  | none => simp [hnew, hallowed, putTransitHop]
  | some ip => simp [hnew, hallowed, putTransitHop, checkPathLimitHitByIP, hlimit ip haddr]

lemma finish_of_not_admits (h : ¬ Admits ctx m hop) : (finish ctx m hop frames).1.transitPaths = ctx.transitPaths := by
  unfold finish
  by_cases hnew : ctx.hasTransitHop hop.info = true
  · split <;> simp [sendPathConfirm, sendLRCM, hnew]
  have hnew : ctx.hasTransitHop hop.info = false := by simpa using hnew
  have hus : hop.info.upstream ≠ ctx.us := by
    intro hus
    exact h ⟨hnew, fun hne => absurd hus hne⟩
  rw [if_neg hus]
  by_cases hallowed : ctx.pathToRouterAllowed hop.info.upstream = true
  · -- only the limit is left
    obtain ⟨ip, haddr, hlimit⟩ : ∃ ip, m.fromAddr = some ip ∧ ip ∈ ctx.pathLimits := by
      by_contra hno
      push Not at hno
      exact h ⟨hnew, fun _ => ⟨hno, hallowed⟩⟩
    simp [sendLRCM, hnew, haddr, checkPathLimitHitByIP, hlimit]
  · cases haddr : m.fromAddr with
    | none => simp [sendLRCM, hnew, haddr, hallowed]
    | some ip =>
      by_cases hlimit : ip ∈ ctx.pathLimits
      · simp [sendLRCM, hnew, haddr, checkPathLimitHitByIP, hlimit]
      · simp [sendLRCM, hnew, haddr, checkPathLimitHitByIP, hlimit, hallowed]

variable {up : RouterID}

lemma sendLRCM_forward (h : (sendLRCM ctx m hop frames).2 = .forward up frames') : frames' = frames := by
  unfold sendLRCM at h
  split at h
  · cases h
  split at h
  all_goals
    split at h
    · cases h
    split at h
    · cases h
    · cases h
      rfl

lemma handleLRCM_forward (h : handleLRCM env ctx now junk m = .ok (ctx', .forward up frames')) :
    frames' = shiftFrames m.frames.copied junk := by
  unfold handleLRCM at h
  cases hallow : ctx.allowTransit with
  | false =>
    rw [hallow] at h
    cases h
  | true =>
    rw [hallow] at h
    obtain ⟨⟨ok, _⟩, -, h⟩ := ok_bind.mp h
    cases ok with
    | false => cases h
    | true =>
      obtain ⟨r, hdec, h⟩ := ok_bind.mp h
      cases r with
      | none => cases h
      | some r =>
        obtain ⟨_, frames⟩ := r
        -- the frames of `HandleDecrypted`
        have hframes : frames = shiftFrames m.frames.copied junk := by
          obtain ⟨record, -, hdec⟩ := ok_bind.mp hdec
          cases record with
          | none => cases hdec
          | some record =>
            dsimp only at hdec
            split at hdec
            · cases hdec
            split at hdec
            · cases hdec
            · cases hdec
              rfl
        dsimp only at h
        split at h
        · unfold sendPathConfirm at h
          split at h <;> cases h
        · rw [← hframes]
          exact sendLRCM_forward (congrArg Prod.snd (Except.ok.inj h))

end

structure RelayAt where
  ctx : PathContext
  now : Millis
  junk : Bytes
  parsed : Frames
  downstream : RouterID
  fromAddr : Option (BitVec 128)

def RelayAt.receive (r : RelayAt) (frames : Frames) : LRCommitMessage where
  frames := assign r.parsed frames
  downstream := r.downstream
  fromAddr := r.fromAddr

def RelayAt.handle (env : RelayEnv) (r : RelayAt) (frames : Frames) : Except MemFault (PathContext × LRCMResult) :=
  handleLRCM env r.ctx r.now r.junk (r.receive frames)

inductive Travels (env : RelayEnv) (relays : ℕ → RelayAt) (lrcm : Frames) : ℕ → Frames → Prop where
  | start : Travels env relays lrcm 0 lrcm
  | forward {i : ℕ} {frames frames' : Frames} {ctx' : PathContext} {up : RouterID}
      (h : Travels env relays lrcm i frames)
      (hforward : (relays i).handle env frames = .ok (ctx', .forward up frames')) :
      Travels env relays lrcm (i + 1) frames'

lemma Frames.assign_get (dst src : Frames) (i : Fin 8) : Same (src.get i) ((assign dst src).get i) := by
  unfold assign
  rw [get_map₂]
  exact assign_same _ _

lemma Frames.copied_get (frames : Frames) (i : Fin 8) : Same (frames.get i) (frames.copied.get i) := by
  unfold copied
  rw [get_map]
  exact copied_same _

lemma shiftFrames_get (frames : Frames) (junk : Bytes) {j : ℕ} (h : j + 1 < 8) :
    Same (frames.get ⟨j + 1, h⟩) ((shiftFrames frames junk).get ⟨j, by omega⟩) := by
  obtain ⟨l, hl⟩ := frames
  refine trans ?_ (assign_get _ _ _)
  refine trans ?_ (assign_get _ _ _)
  have hget : ∀ (x : EncryptedFrame) (h' : (l.tail ++ [x]).length = 8), get (⟨l.tail ++ [x], h'⟩ : Frames) ⟨j, by omega⟩
        = get (⟨l, hl⟩ : Frames) ⟨j + 1, h⟩ := by
    intro x h'
    have htail : j < l.tail.length := by
      rw [length_tail, hl]
      omega
    show (l.tail ++ [x])[j] = l[j + 1]
    rw [getElem_append_left htail, getElem_tail]
  rw [← hget]
  exact refl _

lemma Travels.same {env : RelayEnv} {relays : ℕ → RelayAt} {lrcm : Frames} {i : ℕ}
    (ht : Travels env relays lrcm i frames) {j : ℕ} (h : i + j < 8) :
    Same (lrcm.get ⟨i + j, h⟩) (frames.get ⟨j, by omega⟩) := by
  induction ht generalizing j with
  | start =>
    simp only [zero_add]
    exact refl _
  | @forward i frames frames' ctx' up _ hforward ih =>
    have hidx : i + (j + 1) = i + 1 + j := by omega
    have hprev := ih (j := j + 1) (by omega)
    simp only [hidx] at hprev
    rw [handleLRCM_forward hforward]
    refine hprev.trans (trans ?_ (shiftFrames_get _ _ (by omega)))
    exact (assign_get _ _ _).trans (copied_get _ _)

/-! ## agreement -/

structure Serves (c : PathCrypto) (ctx : PathContext) (rc : RouterContact) : Prop where
  us : ctx.us = rc.pubkey
  key : c.toPublic ctx.encryption = rc.enckey
  transit : ctx.allowTransit = true

structure HopAgrees (env : RelayEnv) (h : List RouterContact) (hops : List PathHopConfig) (r : RelayAt) (i : ℕ)
    (frames : Frames) (hop : PathHopConfig) (transit : TransitHop) : Prop where
  decodes : ∃ g record,
    (decryptTarget (r.receive frames).frames.copied).decryptInPlace env.crypto r.ctx.encryption = .ok (true, g) ∧
      bdecode env.codec g.body = .ok (some record) ∧
      record.commkey = env.crypto.toPublic hop.commkey ∧ record.nextHop = hop.upstream ∧
      record.tunnelNonce = hop.nonce ∧ record.txid = hop.txID ∧ record.rxid = hop.rxID
  pathKey : transit.pathKey = hop.shared
  nonceXOR : transit.nonceXOR = hop.nonceXOR
  ids : transit.info.txID = hop.txID ∧ transit.info.rxID = hop.rxID
  upstream : transit.info.upstream = hop.upstream ∧ some hop.upstream = (h[i + 1]? <|> h[i]?).map fun rc => rc.pubkey
  chained : ∀ next, hops[i + 1]? = some next → transit.info.txID = next.rxID
  installs : Admits r.ctx (r.receive frames) transit → ∃ ctx' result, r.handle env frames = .ok (ctx', result) ∧
    ctx'.transitPaths = (transit.info.txID, transit) :: (transit.info.rxID, transit) :: r.ctx.transitPaths ∧
    (transit.info.upstream ≠ r.ctx.us → ∃ frames', result = .forward transit.info.upstream frames')
  refuses : ¬ Admits r.ctx (r.receive frames) transit → ∃ ctx' result,
    r.handle env frames = .ok (ctx', result) ∧ ctx'.transitPaths = r.ctx.transitPaths

lemma newHops_get (h : List RouterContact) (ids : ℕ → FreshID × FreshID) {i : ℕ} {rc : RouterContact}
    (hi : h[i]? = some rc) : ∃ hop, (newHops h ids)[i]? = some hop ∧ hop.rc = rc ∧
      hop.rxID = (ids i).2 ∧ hop.txID = if i + 1 < h.length then ((ids (i + 1)).2 : PathID) else (ids i).1 := by
  unfold newHops
  rw [getElem?_mapIdx, hi]
  exact ⟨_, rfl, rfl, rfl, rfl⟩

lemma newHops_rc {h : List RouterContact} {ids : ℕ → FreshID × FreshID} (hmem : hop ∈ newHops h ids) : hop.rc ∈ h := by
  obtain ⟨i, hi, hget⟩ := getElem_of_mem hmem
  unfold newHops at hi hget
  rw [getElem_mapIdx] at hget
  rw [← hget]
  exact getElem_mem _

/-- **Every hop that the commit message comes to opens its frame to what the client wrote, and installs the client's
keys and ids.** -/
theorem path_building_agrees (env : RelayEnv) (hagree : env.crypto.Agrees) (h : List RouterContact)
    (ids : ℕ → FreshID × FreshID) (noise : ℕ → HopNoise) (fill : ℕ → Bytes) (relays : ℕ → RelayAt)
    (hops : List PathHopConfig) (lrcm : Frames) (hfits : ∀ rc ∈ h, env.codec.Fits rc)
    (hrelays : ∀ i rc, h[i]? = some rc → Serves env.crypto (relays i).ctx rc)
    (hgen : asyncGenerateKeys env.crypto env.codec noise fill (newHops h ids) = .ok (some (hops, lrcm)))
    (i : ℕ) (hi : i < h.length) (frames : Frames) (htravels : Travels env relays lrcm i frames) :
    ∃ hop transit, hops[i]? = some hop ∧ HopAgrees env h hops (relays i) i frames hop transit := by
  have hkeys : ∀ hop ∈ newHops h ids, ∃ sk, env.crypto.toPublic sk = hop.rc.enckey := by
    intro hop hmem
    obtain ⟨j, hj, hget⟩ := getElem_of_mem (newHops_rc hmem)
    exact ⟨_, (hrelays j hop.rc (by rw [List.getElem?_eq_getElem hj, hget])).key⟩
  obtain ⟨-, hsealed⟩ := generateKeys_sealed hagree (fun i => by
      rw [LRStatusMessage.dummyFrames, List.Vector.get_ofFn]; rfl)
    (fun _ hmem => hfits _ (newHops_rc hmem)) hkeys hgen
  obtain ⟨rc, hrc⟩ : ∃ rc, h[i]? = some rc := ⟨_, List.getElem?_eq_getElem hi⟩
  obtain ⟨hop₀, hhop₀, hrc₀, hrx₀, htx₀⟩ := newHops_get h ids hrc
  have hserves := hrelays i rc hrc
  obtain ⟨shared, hdh, hhop, h8, hseal⟩ := hsealed i hop₀ hhop₀ (relays i).ctx.encryption
    (by rw [hrc₀]; exact hserves.key)
  simp only [Nat.zero_add] at hdh hhop hseal
  obtain ⟨hop, hhop_eq⟩ : ∃ hop, hop = hop₀.keyed env.crypto (noise i) (newHops h ids)[i + 1]? shared := ⟨_, rfl⟩
  rw [← hhop_eq] at hhop hseal
  -- the frame is still the first one when it comes to the hop
  have hfirst : Same (lrcm.get ⟨i, by omega⟩) ((relays i).receive frames).frames.head := by
    have hsame := htravels.same (j := 0) (by omega)
    rw [← get_zero]
    exact hsame.trans (assign_get _ _ _)
  have hopen := hseal.same hfirst
  have hids : isZero hop.txID = false ∧ isZero hop.rxID = false := by
    rw [hhop_eq]
    show isZero hop₀.txID = false ∧ isZero hop₀.rxID = false
    rw [htx₀, hrx₀]
    constructor
    · split
      · exact (ids (i + 1)).2.2
      · exact (ids i).1.2
    · exact (ids i).2.2
  have hexchange : env.crypto.dhServer (env.crypto.toPublic hop.commkey) (relays i).ctx.encryption hop.nonce
      = some shared := by
    rw [hhop_eq]
    exact hdh
  obtain ⟨record, hrecord⟩ : ∃ r : LRCommitRecord,
    r = { hop.record env.crypto (newHops h ids)[i + 1]? with lifetime := 0 } := ⟨_, rfl⟩
  have hhandle : (relays i).handle env frames = .ok (finish (relays i).ctx ((relays i).receive frames)
      (transitHop env (relays i).now ((relays i).receive frames) record shared)
      (shiftFrames ((relays i).receive frames).frames.copied (relays i).junk)) := by
    rw [hrecord]
    exact handleLRCM_sealed hserves.transit hopen ⟨rfl, rfl⟩ hids hexchange
  refine ⟨hop, transitHop env (relays i).now ((relays i).receive frames) record shared, hhop, ?_⟩
  constructor
  · have htarget : Same ((relays i).receive frames).frames.head
        (decryptTarget ((relays i).receive frames).frames.copied) := by
      unfold decryptTarget
      rw [← get_zero, ← get_zero]
      exact (copied_get _ _).trans (assign_same _ _)
    obtain ⟨-, g, hdec, hrec⟩ := hopen.same htarget
    exact ⟨g, _, hdec, hrec, rfl, rfl, rfl, rfl, rfl⟩
  · rw [hhop_eq]
    rfl
  · rw [hhop_eq]
    rfl
  · rw [hrecord]
    exact ⟨rfl, rfl⟩
  · refine ⟨by rw [hrecord]; rfl, ?_⟩
    rw [hhop_eq, hrc]
    cases hnext : h[i + 1]? with
    | none =>
      have hnone : (newHops h ids)[i + 1]? = none := by
        unfold newHops
        rw [getElem?_mapIdx, hnext]
        rfl
      rw [hnone]
      show some hop₀.rc.pubkey = some rc.pubkey
      rw [hrc₀]
    | some rc' =>
      obtain ⟨hop', hhop', hrc', -, -⟩ := newHops_get h ids hnext
      rw [hhop']
      show some hop'.rc.pubkey = some rc'.pubkey
      rw [hrc']
  · intro next hnext
    have hlen : i + 1 < h.length := by
      have hlt := (List.getElem?_eq_some_iff.mp hnext).1
      rw [generateKeys_length hgen] at hlt
      simpa [newHops] using hlt
    obtain ⟨hop', hhop', hrc', hrx', -⟩ := newHops_get h ids (getElem?_eq_getElem hlen)
    obtain ⟨shared', -, hkeyed, -⟩ := hsealed (i + 1) hop' hhop' (relays (i + 1)).ctx.encryption
      (by rw [hrc']; exact (hrelays (i + 1) _ (getElem?_eq_getElem hlen)).key)
    rw [hnext] at hkeyed
    cases hkeyed
    rw [hrecord, hhop_eq]
    show hop₀.txID = hop'.rxID
    rw [htx₀, if_pos hlen, hrx']
  · intro hadmits
    obtain ⟨hpaths, hresult⟩ := finish_of_admits hadmits
    refine ⟨_, _, hhandle, hpaths, ?_⟩
    intro hus
    exact ⟨_, hresult.trans (if_neg hus)⟩
  · intro hno
    exact ⟨_, _, hhandle, finish_of_not_admits hno⟩

namespace Sample

def pathCrypto : PathCrypto where
  toCrypto := crypto
  dhClient _ _ _ := some (.zero 32)
  dhServer _ _ _ := some (.zero 32)
  toPublic _ := .zero 32

def rc' : RouterContact := { rc with pubkey := .ofBytes 32 [1] }

def codec : RCCodec where
  bencode rc := write [rc.pubkey.head]
  bdecode b := .ok (b.head?.map fun x => ({ rc with pubkey := .ofBytes 32 [x] }, b.tail))
  bdecode_inside _ _ _ h := nomatch h

def env : RelayEnv where
  crypto := pathCrypto
  codec := codec
  powIsValid _ _ := false

def id : FreshID := ⟨.ofBytes 16 [1], by decide⟩

def noise : HopNoise := ⟨.zero 64, .zero 32, .zero 64, .zero 32⟩

def relay (rc : RouterContact) : RelayAt where
  ctx :=
    { us := rc.pubkey
      encryption := .zero 64
      allowTransit := true
      pathToRouterAllowed := fun _ => true
      transitPaths := []
      pathLimits := [] }
  now := 0
  junk := []
  parsed := replicate 8 (new encryptedFrameBodySize)
  downstream := .zero 32
  fromAddr := none

def contacts : List RouterContact := [rc', rc]

def relays : ℕ → RelayAt
  | 0 => relay rc'
  | _ => relay rc

lemma codec_fits : ∀ x ∈ contacts, codec.Fits x := by
  intro x hx
  refine ⟨[x.pubkey.head], by simp, emits_write _, ?_⟩
  intro _
  rcases mem_cons.mp hx with rfl | hx
  · rfl
  · rw [mem_singleton.mp hx]
    rfl

lemma relays_serve (i : ℕ) (x : RouterContact) (h : contacts[i]? = some x) : Serves env.crypto (relays i).ctx x := by
  match i, h with
  | 0, h | 1, h =>
    cases h
    exact ⟨rfl, rfl, rfl⟩

end Sample

open Sample

theorem path_building_agrees_two_hops : ∃ hops lrcm frames hop transit,
    asyncGenerateKeys env.crypto env.codec (fun _ => noise) (fun _ => [])
        (newHops contacts fun _ => (id, id)) = .ok (some (hops, lrcm)) ∧
      Travels env relays lrcm 1 frames ∧ hops[1]? = some hop ∧
      HopAgrees env contacts hops (relays 1) 1 frames hop transit := by
  have hagree : env.crypto.Agrees := fun _ _ _ => rfl
  obtain ⟨r, hr, hsome⟩ : ∃ r, asyncGenerateKeys env.crypto env.codec (fun _ => noise) (fun _ => [])
      (newHops contacts fun _ => (id, id)) = .ok r ∧ r.isSome = true := ok_sat
  obtain ⟨⟨hops, lrcm⟩, rfl⟩ := Option.isSome_iff_exists.mp hsome
  have hall := path_building_agrees env hagree contacts (fun _ => (id, id))
    (fun _ => noise) (fun _ => []) relays hops lrcm codec_fits relays_serve hr
  obtain ⟨hop₀, transit₀, -, h₀⟩ := hall 0 (by decide) lrcm .start
  have hadmits : Admits (relays 0).ctx ((relays 0).receive lrcm) transit₀ :=
    ⟨rfl, fun _ => ⟨fun _ h => (nomatch h), rfl⟩⟩
  have hus : transit₀.info.upstream ≠ (relays 0).ctx.us := by
    have hup := h₀.upstream.2
    rw [h₀.upstream.1, Option.some.inj hup]
    decide
  obtain ⟨ctx', result, hhandle, -, hforward⟩ := h₀.installs hadmits
  obtain ⟨frames, rfl⟩ := hforward hus
  have htravels : Travels env relays lrcm 1 frames := .forward .start hhandle
  obtain ⟨hop, transit, hhop, h₁⟩ := hall 1 (by decide) frames htravels
  exact ⟨hops, lrcm, frames, hop, transit, hr, htravels, hhop, h₁⟩

end Belnet.Path
