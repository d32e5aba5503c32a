import Belnet.Path.Confirm

/-!
# Buffers inside of frames

The buffers of `DoDecrypt` and `DoEncrypt` have unsigned differences as sizes.  `InBounds x`: `x` makes no buffer
outside of a frame.
-/

set_option linter.dupNamespace false

namespace Belnet.Path
open Iwp Util EncryptedFrame LRStatusRecord LRCommitRecord Run LRStatusMessage

open LRStatusRecord (Succeeded)

def InBounds {α : Type} (x : Except MemFault α) : Prop := ∀ off n, x ≠ .error (.outside off n)

section
variable {α β σ : Type} {x : Except MemFault α}

lemma InBounds.ok (a : α) : InBounds (.ok a : Except MemFault α) := fun _ _ h => (nomatch h)

lemma InBounds.pastEnd : InBounds (.error .pastEnd : Except MemFault α) := fun _ _ h => (nomatch h)

lemma InBounds.bind {f : α → Except MemFault β} (hx : InBounds x) (hf : ∀ a, x = .ok a → InBounds (f a)) :
    InBounds (x >>= f) := by
  intro off n h
  rcases error_bind.mp h with h | ⟨a, ha, h⟩
  · exact hx off n h
  · exact hf a ha off n h

lemma InBounds.ite {p : Prop} [Decidable p] {y : Except MemFault α} (hx : InBounds x) (hy : InBounds y) :
    InBounds (if p then x else y) := by
  split
  · exact hx
  · exact hy

lemma inBounds_of_ok {a : α} (h : x = .ok a) : InBounds x := h ▸ .ok a

lemma int_inBounds (f : UInt64 → Option σ) (b : Bytes) : InBounds (intEntry f b) := by
  refine .bind ?_ fun r _ => ?_
  · cases b with
    | nil => exact InBounds.pastEnd
    | cons x b =>
      rw [readInteger]
      split
      · exact .ok _
      · split <;> exact .ok _
  · cases r <;> exact .ok _

variable {sink : Sink σ}

lemma entries_inBounds (hsink : ∀ s key b, InBounds (sink s key b)) (n : ℕ) (s : σ)
    (b : Bytes) : InBounds (readEntries sink n s b) := by
  induction n generalizing s b with
  | zero => exact .ok _
  | succ n ih =>
    cases b with
    | nil => exact InBounds.pastEnd
    | cons x b =>
      rw [readEntries]
      split
      · exact hsink s none b
      split
      · exact .ok _
      refine .bind (hsink _ _ _) fun r _ => ?_
      cases r with
      | none => exact .ok _
      | some r => exact ih r.1 r.2

lemma readDict_inBounds (hsink : ∀ s key b, InBounds (sink s key b)) (s : σ) (b : Bytes) :
    InBounds (readDict sink s b) := by
  unfold readDict
  split
  · exact .ok _
  split
  · exact .ok _
  · exact entries_inBounds hsink _ _ _

end

lemma LRStatusRecord.bdecode_inBounds (b : Bytes) : InBounds (bdecode b) := by
  refine .bind (readDict_inBounds ?_ _ _) fun r _ => .ok _
  intro s key b
  unfold onKey
  cases key with
  | none => exact .ok _
  | some key =>
    apply InBounds.ite (int_inBounds _ _)
    exact InBounds.ite (int_inBounds _ _) (InBounds.ok _)

lemma PoW.decodeKey_inBounds (w : PoW) (key : Option Bytes) (b : Bytes) : InBounds (PoW.decodeKey w key b) := by
  cases key <;> exact .ok _

lemma LRCommitRecord.bdecode_inBounds (codec : RCCodec) (b : Bytes) : InBounds (bdecode codec b) := by
  refine .bind (readDict_inBounds ?_ _ _) fun r _ => .ok _
  intro s key b
  unfold onKeyWith
  cases key with
  | none => exact .ok _
  | some key =>
    -- the keys in the order of the source
    apply InBounds.ite (InBounds.ok _)
    apply InBounds.ite (InBounds.ok _)
    apply InBounds.ite (int_inBounds _ _)
    apply InBounds.ite (InBounds.ok _)
    apply InBounds.ite (InBounds.ok _)
    apply InBounds.ite (InBounds.ok _)
    apply InBounds.ite (InBounds.bind (codec.bdecode_inside b) fun r _ => InBounds.ok _)
    apply InBounds.ite (int_inBounds _ _)
    refine InBounds.ite (InBounds.ite (InBounds.ok _) ?_) (InBounds.ok _)
    exact InBounds.bind (readDict_inBounds PoW.decodeKey_inBounds _ _) fun r _ => InBounds.ok _

lemma LRStatusRecord.bencode_room {r : LRStatusRecord} {b : Buf} (h : (r.bencode b).1 = true) :
    b.cur < b.data.length := by
  by_contra hno
  have hfull : ¬ [(100 : UInt8)].length ≤ b.sizeLeft := by
    show ¬ 1 ≤ b.data.length - b.cur
    omega
  have hstart : startDict b = (false, b) := if_neg hfull
  have hfalse : r.bencode b = (false, b) := by
    unfold bencode Writer.seq
    rw [hstart]
  rw [hfalse] at h
  cases h

variable {f : EncryptedFrame}

lemma doEncrypt_inBounds {c : Crypto} {k : SharedSecret} {noise : Option (TunnelNonce × PubKey)}
    (h : encryptedFrameOverheadSize ≤ f.sz) : InBounds (f.doEncrypt c k noise) :=
  inBounds_of_ok (doEncrypt_eq h)

lemma addFrame_inBounds (c : Crypto) (k : SharedSecret) (st : UInt64) (noise : FrameNoise) (frames : Frames) :
    InBounds (addFrame c k st noise frames) := by
  obtain ⟨⟨ok, f⟩, hrec⟩ : ∃ r, (frames.head.randomize noise.fill).writeRecord
    (bencode { status := st, version := recordVersion }) = r := ⟨_, rfl⟩
  unfold addFrame
  dsimp only
  rw [hrec]
  cases ok with
  | false => exact .ok _
  | true =>
    refine .bind (doEncrypt_inBounds ?_) fun r _ => .ok _
    have hroom : encryptedFrameOverheadSize < ((frames.head.randomize noise.fill).bytes 0 _).length :=
      bencode_room (congrArg Prod.fst hrec)
    have hsz := (frames.head.randomize noise.fill).sz_le
    rw [bytes_length (by omega)] at hroom
    have hf : f.sz = (frames.head.randomize noise.fill).sz := by
      rw [← show ((frames.head.randomize noise.fill).writeRecord _).2 = f from congrArg Prod.snd hrec]
      rfl
    show encryptedFrameOverheadSize ≤ f.sz
    omega

def LoopFits (c : Crypto) : List PathHopConfig → List EncryptedFrame → Prop
  | [], _ => True
  | _ :: _, [] => False
  | hop :: hops, f :: fs =>
    Fits c hop.shared f ∧ (MacOk c hop.shared f → (∃ r, bdecode (c.xchacha20 f.body hop.shared f.nonce) = .ok (some r) ∧
          Succeeded r.status) → LoopFits c hops fs)

section
variable {c : Crypto}

lemma status_inBounds_iff (index : ℕ) (cur : UInt64) {hops : List PathHopConfig} {fs : List EncryptedFrame}
    (hlen : hops.length ≤ fs.length) : InBounds (statusLoop c index cur hops fs) ↔ LoopFits c hops fs := by
  induction hops generalizing index cur fs with
  | nil =>
    rw [statusLoop]
    exact ⟨fun _ => trivial, fun _ => .ok _⟩
  | cons hop hops ih =>
    cases fs with
    | nil => cases hlen
    | cons f fs =>
      rw [statusLoop]
      by_cases hfit : Fits c hop.shared f
      · obtain ⟨⟨ok, g⟩, hdec⟩ := doDecrypt_ok_iff.mpr hfit
        rw [hdec, ok_bind_eq]
        cases ok with
        | false =>
          have hmac : ¬ MacOk c hop.shared f := by
            intro hok
            rw [doDecrypt_eq (hfit.2 hok), if_pos hok] at hdec
            cases hdec
          exact ⟨fun _ => ⟨hfit, fun hok => absurd hok hmac⟩, fun _ => .ok _⟩
        | true =>
          obtain ⟨h96, hmac, rfl⟩ := doDecrypt_accepts hdec
          have hbody := crypted_body (c := c) (k := hop.shared) h96
          simp only [Bool.not_true, Bool.false_eq_true, if_false]
          rw [hbody]
          have hrest := fun st => ih (index + 1) st (Nat.le_of_succ_le_succ hlen)
          constructor
          · intro hin
            refine ⟨hfit, fun _ => ?_⟩
            rintro ⟨r, hr, hst⟩
            rw [hr, ok_bind_eq] at hin
            dsimp only at hin
            rw [if_neg (show ¬ r.status &&& success ≠ success from not_not.mpr hst)] at hin
            exact (hrest r.status).mp hin
          · intro hloop
            refine .bind (bdecode_inBounds _) fun record hrec => ?_
            cases record with
            | none => exact .ok _
            | some r =>
              dsimp only
              by_cases hst : Succeeded r.status
              · rw [if_neg (show ¬ r.status &&& success ≠ success from not_not.mpr hst)]
                exact (hrest r.status).mpr (hloop.2 hmac ⟨r, hrec, hst⟩)
              · rw [if_pos (show r.status &&& success ≠ success from hst)]
                split <;> exact .ok _
      · -- the frame is too short, and decryption makes a buffer outside of it
        obtain ⟨off, n, herr⟩ := doDecrypt_outside hfit
        rw [herr]
        exact ⟨fun hin => absurd rfl (hin off n), fun hloop => absurd hloop.1 hfit⟩

lemma Path.handleLRSM_inBounds_iff (path : Path) (status : UInt64) (frames : Frames) :
    InBounds (path.handleLRSM c status frames) ↔ LoopFits c path.hops frames.toList := by
  have hlen : path.hops.length ≤ frames.toList.length := by
    rw [frames.toList_length]
    exact path.hops_le
  rw [← status_inBounds_iff 0 status hlen]
  constructor
  · intro hin off n herr
    exact hin off n (error_bind.mpr (.inl herr))
  · intro hin
    refine .bind hin fun r _ => ?_
    exact .ite (.ok _) (.ok _)

end

lemma decryptInPlace_inBounds_iff {c : PathCrypto} {sk : SecretKey} :
    InBounds (f.decryptInPlace c sk) ↔ ∀ k, c.dhServer f.pubkey sk f.nonce = some k → Fits c.toCrypto k f := by
  unfold decryptInPlace
  cases hdh : c.dhServer f.pubkey sk f.nonce with
  | none => exact ⟨fun _ k hk => (nomatch hk), fun _ => .ok _⟩
  | some k =>
    constructor
    · intro hin _ hk'
      cases hk'
      by_contra hno
      obtain ⟨off, n, herr⟩ := doDecrypt_outside hno
      exact hin off n herr
    · intro hfit
      obtain ⟨r, hr⟩ := doDecrypt_ok_iff.mpr (hfit k rfl)
      exact inBounds_of_ok hr

section
variable (env : RelayEnv) (ctx : PathContext) (now : Millis) (junk : Bytes) (m : LRCommitMessage)
include env ctx now junk m

lemma decrypted_inBounds (buf : Bytes) : InBounds (handleDecrypted env ctx now junk m buf) := by
  refine .bind (bdecode_inBounds _ _) fun record _ => ?_
  cases record with
  | none => exact .ok _
  | some record =>
    refine .ite (.ok _) ?_
    split <;> exact .ok _

lemma handleLRCM_inBounds_iff : InBounds (handleLRCM env ctx now junk m) ↔ (ctx.allowTransit = true →
        InBounds ((decryptTarget m.frames.copied).decryptInPlace env.crypto ctx.encryption)) := by
  unfold handleLRCM
  cases ctx.allowTransit with
  | false => exact ⟨fun _ h => (nomatch h), fun _ => .ok _⟩
  | true =>
    constructor
    · intro hin _ off n herr
      exact hin off n (error_bind.mpr (.inl herr))
    · intro hin
      refine .bind (hin rfl) fun r _ => ?_
      refine .ite (.ok _) ?_
      refine .bind (decrypted_inBounds _ _ _ _ _ _) fun r _ => ?_
      cases r with
      | none => exact .ok _
      | some r => exact .ite (.ok _) (.ok _)

end

/-- **Exactly which messages make a buffer outside of a frame**: a relay of a commit message, or the client of a status
message, comes to a frame of less than 32 bytes, or of less than its overhead with an accepted keyed hash; a hop with a
status message never does. -/
theorem frame_buffers_inside_iff (c : Crypto) :
    (∀ (env : RelayEnv) (ctx : PathContext) (now : Millis) (junk : Bytes) (m : LRCommitMessage),
      InBounds (handleLRCM env ctx now junk m) ↔ (ctx.allowTransit = true → ∀ k,
          env.crypto.dhServer (decryptTarget m.frames.copied).pubkey ctx.encryption
              (decryptTarget m.frames.copied).nonce = some k →
            Fits env.crypto.toCrypto k (decryptTarget m.frames.copied))) ∧
    (∀ (path : Path) (status : UInt64) (frames : Frames),
      InBounds (path.handleLRSM c status frames) ↔ LoopFits c path.hops frames.toList) ∧
    (∀ (hop : TransitHop) (noise : FrameNoise) (status : UInt64) (frames : Frames),
      InBounds (hop.handleLRSM c noise status frames)) ∧
    (∀ (pathid : PathID) (pathKey : SharedSecret) (status : UInt64) (dummy : ℕ → Bytes)
      (noise : FrameNoise), InBounds (LRStatusMessage.create c pathid pathKey status dummy noise)) := by
  refine ⟨?_, ?_, ?_, ?_⟩
  · intro env ctx now junk m
    rw [handleLRCM_inBounds_iff, decryptInPlace_inBounds_iff]
  · intro path status frames
    exact path.handleLRSM_inBounds_iff status frames
  · intro hop noise status frames
    exact .bind (addFrame_inBounds _ _ _ _ _) fun r _ => .ok _
  · intro pathid pathKey status dummy noise
    exact .bind (addFrame_inBounds _ _ _ _ _) fun r _ => .ok _

namespace Sample

def statusMessage : LRStatusMessage where
  frames := Frames.clear (.replicate 8 (new encryptedFrameBodySize))
  pathid := .zero 16
  status := success

end Sample

open Belnet.Path.Sample

/-- the client is handed a status message with an empty frame: `DoDecrypt` hashes `2^64 - 32` bytes -/
theorem frame_buffer_outside_empty_frame : ∃ m, statusMessage.decodeKey [99] [108, 48, 58, 101] = .ok (some (m, [])) ∧
      path.handleLRSM crypto m.status m.frames.copied = .error (.outside 32 (2^64 - 32)) := by
  refine ⟨_, rfl, ?_⟩
  rfl

end Belnet.Path
