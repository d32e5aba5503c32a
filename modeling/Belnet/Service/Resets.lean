import Belnet.Service.Keys

/-!
# How sessions end

A discard frame, expiry or `ResetConvoTag` removes a session, the last at once or after a worker has refused a frame.
-/

namespace Belnet.Service
open Iwp Util Belnet.Path List Option Endpoint ProtocolFrame Run Job

structure Reset where
  frame : ProtocolFrame
  si : ServiceInfo
deriving DecidableEq

def Job.reset (cfg : Config) : Job → Option Reset
  | .handshake _ _ => none
  | .data _ frame si shared =>
    if !frame.verify cfg.crypto.toCrypto si then some ⟨frame, si⟩
    else match frame.decryptPayload cfg.crypto.toCrypto shared with
      | .ok none => some ⟨frame, si⟩
      | _ => none

def Op.resets (cfg : Config) (s : Endpoint) : Op → List Reset
  | .work i _ _ => (s.jobs[i]?.bind (Job.reset cfg)).toList
  | _ => []

/-- `OutboundContext::HandleHiddenServiceFrame`, which also reads the reason of a discard message -/
def Endpoint.handleOutboundFrame (cfg : Config) (s : Endpoint) (path : RouterID) (frame : ProtocolFrame) :
    Except MemFault Endpoint :=
  if frame.R ≠ 0 then
    match s.sessions.lookup frame.T with
    | none => .ok s
    | some x =>
      if frame.verify cfg.crypto.toCrypto x.remote.updateAddr then do
        let _ ← frame.decryptPayload cfg.crypto.toCrypto x.sharedKey
        return s.removeConvoTag frame.T
      else .ok s
  else .ok (s.handleHiddenServiceFrame cfg path frame)

@[ext] structure Loop where
  endpoint : Endpoint := {}
  resets : List Reset := []

namespace Loop

inductive Op where
  | run (op : Service.Op)
  | outboundFrame (path : RouterID) (f : ProtocolFrame)
  | reset (i : ℕ)

def step (cfg : Config) : Op → Loop → Except MemFault Loop
  | .run op, m => do
    let s ← m.endpoint.step cfg op
    return ⟨s, m.resets ++ op.resets cfg m.endpoint⟩
  | .outboundFrame path f, m => do
    let s ← m.endpoint.handleOutboundFrame cfg path f
    return { m with endpoint := s }
  | .reset i, m =>
    match m.resets[i]? with
    | none => .ok m
    | some r => .ok ⟨m.endpoint.removeConvoTag r.frame.T, m.resets.eraseIdx i⟩

def Op.cause (m : Loop) : Op → Option ProtocolFrame
  | .run op => op.cause m.endpoint
  | .outboundFrame _ f => some f
  | .reset i => m.resets[i]?.map Reset.frame

def Signed (cfg : Config) (s : Endpoint) (f : ProtocolFrame) : Prop :=
  f.R = 0 → isZero f.T = false → ∀ x ∈ s.sessions.lookup f.T, f.verify cfg.crypto.toCrypto x.remote = true

/-- a session's frame is signed by its peer, and a reset finds no session or one with the peer its frame was checked
against -/
def Genuine (cfg : Config) (op : Op) (m : Loop) : Prop :=
  match op with
  | .run (.frame _ f) => Signed cfg m.endpoint f
  | .run _ => True
  | .outboundFrame _ f => Signed cfg m.endpoint f
  | .reset i => ∀ r ∈ m.resets[i]?, ∀ x ∈ m.endpoint.sessions.lookup r.frame.T, x.remote.signkey = r.si.signkey

end Loop

namespace Endpoint
variable {cfg : Config} {s s' : Endpoint} {path : RouterID} {f : ProtocolFrame} {t : ConvoTag} {x : Session}

lemma removeTag_lookup (hx : s.sessions.lookup t = some x)
    (hgone : (s.removeConvoTag f.T).sessions.lookup t = none) : t = f.T := by
  by_contra ht
  unfold removeConvoTag at hgone
  rw [AList.lookup_erase_ne ht, hx] at hgone
  cases hgone

lemma frame_removes (hx : s.sessions.lookup t = some x)
    (hgone : (s.handleHiddenServiceFrame cfg path f).sessions.lookup t = none) :
    t = f.T ∧ (f.verify cfg.crypto.toCrypto x.remote = true ∨ f.R = 0 ∧ isZero f.T = false) := by
  have hstay : s.sessions.lookup t ≠ none := by rw [hx]; exact some_ne_none x
  unfold handleHiddenServiceFrame at hgone
  split at hgone
  · split at hgone
    · exact absurd hgone hstay
    rename_i si hsi
    split at hgone
    · rename_i hverify
      have ht := removeTag_lookup hx hgone
      refine ⟨ht, .inl ?_⟩
      unfold getSenderFor at hsi
      rw [← ht, hx] at hsi
      cases hsi
      rw [verify_congr (show x.remote.signkey = x.remote.updateAddr.signkey from rfl)]
      exact hverify
    · exact absurd hgone hstay
  · rename_i hR
    have hR : f.R = 0 := not_not.mp hR
    unfold asyncDecryptAndVerify at hgone
    cases hzero : isZero f.T with
    | true =>
      rw [hzero, if_pos rfl] at hgone
      exact absurd hgone hstay
    | false =>
      refine ⟨?_, .inr ⟨hR, rfl⟩⟩
      by_contra ht
      rw [hzero, if_neg Bool.false_ne_true] at hgone
      split at hgone
      · rename_i s1 h1
        split at h1
        · cases h1
        split at h1
        · cases h1
        · cases h1
          exact hstay hgone
      · exact ht (removeTag_lookup hx hgone)

lemma frame_jobs {j : Job} (hj : j ∈ (s.handleHiddenServiceFrame cfg path f).jobs) :
    j ∈ s.jobs ∨ j = .handshake path f ∨ f.R = 0 ∧ isZero f.T = false ∧ ∃ x ∈ s.sessions.lookup f.T,
      j = .data path f x.remote.updateAddr x.sharedKey := by
  unfold handleHiddenServiceFrame at hj
  split at hj
  · split at hj
    · exact .inl hj
    split at hj <;> exact .inl hj
  rename_i hR
  have hR : f.R = 0 := not_not.mp hR
  unfold asyncDecryptAndVerify at hj
  cases hzero : isZero f.T with
  | true =>
    rw [hzero, if_pos rfl] at hj
    rcases mem_concat.mp hj with hj | heq
    · exact .inl hj
    · exact .inr (.inl heq)
  | false =>
    rw [hzero, if_neg Bool.false_ne_true] at hj
    cases hx : s.sessions.lookup f.T with
    | none => rw [hx] at hj; exact .inl hj
    | some x =>
      rw [hx] at hj
      dsimp only at hj
      split at hj
      · rename_i s1 h1
        split at h1
        · cases h1
        cases h1
        rcases mem_concat.mp hj with hj | heq
        · exact .inl hj
        · exact .inr (.inr ⟨hR, rfl, x, rfl, heq⟩)
      · exact .inl hj

lemma outboundFrame_eq (h : s.handleOutboundFrame cfg path f = .ok s') :
    s' = s.handleHiddenServiceFrame cfg path f := by
  unfold handleOutboundFrame at h
  split at h
  · rename_i hR
    unfold handleHiddenServiceFrame getSenderFor
    rw [if_pos hR]
    cases hx : s.sessions.lookup f.T with
    | none => rw [hx] at h; cases h; rfl
    | some =>
      rw [hx] at h
      dsimp only [Option.map] at h ⊢
      split at h
      · rename_i hverify
        obtain ⟨_, -, h⟩ := ok_bind.mp h
        cases h
        rw [if_pos hverify]
      · rename_i hverify
        cases h
        rw [if_neg hverify]
  · cases h
    rfl

end Endpoint

variable {r : Reset}

namespace Loop
variable {cfg : Config} {op : Op} {m m' : Loop}

/-- the frames in work and those that resets wait for verify for the peer they were checked against -/
structure Checked (cfg : Config) (m : Loop) : Prop where
  jobs : ∀ path f si shared, Job.data path f si shared ∈ m.endpoint.jobs → f.verify cfg.crypto.toCrypto si = true
  resets : ∀ r ∈ m.resets, r.frame.verify cfg.crypto.toCrypto r.si = true

lemma reset_of_job {j : Job} (h : j.reset cfg = some r) : ∃ path shared, j = .data path r.frame r.si shared := by
  cases j with
  | handshake path f => cases h
  | data path f si shared =>
    unfold reset at h
    dsimp only at h
    split at h
    · cases h
      exact ⟨path, shared, rfl⟩
    split at h
    · cases h
      exact ⟨path, shared, rfl⟩
    · cases h

variable {s : Endpoint}

lemma mem_resets {op : Service.Op} (h : r ∈ op.resets cfg s) :
    ∃ path shared, data path r.frame r.si shared ∈ s.jobs := by
  cases op with
  | work =>
    obtain ⟨j, hj, hr⟩ := bind_eq_some_iff.mp (mem_toList.mp h)
    obtain ⟨path, shared, rfl⟩ := reset_of_job hr
    exact ⟨path, shared, mem_of_getElem? hj⟩
  | _ => cases h

lemma Signed.jobs {path path' : RouterID} {f f' : ProtocolFrame} {si : ServiceInfo}
    {shared : SharedSecret} (hs : Signed cfg s f)
    (hjobs : ∀ path f si shared, data path f si shared ∈ s.jobs → f.verify cfg.crypto.toCrypto si = true)
    (hj : data path' f' si shared ∈ (s.handleHiddenServiceFrame cfg path f).jobs) :
    f'.verify cfg.crypto.toCrypto si = true := by
  rcases frame_jobs hj with hj | hj | ⟨hR, hT, x, hx, hj⟩
  · exact hjobs path' f' si shared hj
  · cases hj
  cases hj
  rw [verify_congr (show x.remote.updateAddr.signkey = x.remote.signkey from rfl)]
  exact hs hR hT x hx

lemma Checked.step (hm : Checked cfg m) (hg : Genuine cfg op m) (h : step cfg op m = .ok m') : Checked cfg m' := by
  cases op with
  | run op =>
    obtain ⟨s, hs, h⟩ := ok_bind.mp h
    cases h
    constructor
    · intro path f si shared hj
      rcases (step_keeps hs).jobs with ⟨path', f', rfl⟩ | hold
      · cases hs
        exact Signed.jobs hg hm.jobs hj
      · exact hm.jobs path f si shared (hold _ hj)
    · intro r hr
      rcases mem_append.mp hr with hr | hr
      · exact hm.resets r hr
      · obtain ⟨path, shared, hj⟩ := mem_resets hr
        exact hm.jobs path r.frame r.si shared hj
  | outboundFrame path f =>
    obtain ⟨s, hs, h⟩ := ok_bind.mp h
    cases h
    rw [outboundFrame_eq hs]
    exact ⟨fun path' f' si shared hj => Signed.jobs hg hm.jobs hj, hm.resets⟩
  | reset =>
    unfold Loop.step at h
    dsimp only at h
    split at h
    · cases h
      exact hm
    · cases h
      exact ⟨hm.jobs, fun r hr => hm.resets r (mem_of_mem_eraseIdx hr)⟩

def EndedByPeer (cfg : Config) (op : Op) (m : Loop) (x : Session) : Prop :=
  (∃ tag, op = .run (.remove tag)) ∨ ∃ f ∈ op.cause m, f.verify cfg.crypto.toCrypto x.remote = true

variable {t : ConvoTag} {x : Session}

lemma frame_ends {path : RouterID} {f : ProtocolFrame} (hs : Signed cfg s f) (hx : s.sessions.lookup t = some x)
    (hgone : (s.handleHiddenServiceFrame cfg path f).sessions.lookup t = none) :
    f.verify cfg.crypto.toCrypto x.remote = true := by
  obtain ⟨rfl, hverify | ⟨hR, hT⟩⟩ := frame_removes hx hgone
  · exact hverify
  · exact hs hR hT x hx

lemma step_ends (hm : Checked cfg m) (hg : Genuine cfg op m)
    (h : step cfg op m = .ok m') (hx : m.endpoint.sessions.lookup t = some x)
    (hgone : m'.endpoint.sessions.lookup t = none) : EndedByPeer cfg op m x := by
  cases op with
  | run op =>
    obtain ⟨s, hs, h⟩ := ok_bind.mp h
    cases h
    rcases (step_keeps hs).records with hkeeps | ⟨-, ⟨path, f, rfl⟩ | ⟨tag, rfl⟩⟩
    · obtain ⟨_, hx', -⟩ := hkeeps t x hx
      rw [hgone] at hx'
      cases hx'
    · cases hs
      exact .inr ⟨f, rfl, frame_ends hg hx hgone⟩
    · exact .inl ⟨tag, rfl⟩
  | outboundFrame path f =>
    obtain ⟨s, hs, h⟩ := ok_bind.mp h
    cases h
    rw [outboundFrame_eq hs] at hgone
    exact .inr ⟨f, rfl, frame_ends hg hx hgone⟩
  | reset i =>
    unfold Loop.step at h
    dsimp only at h
    cases hr : m.resets[i]? with
    | none =>
      rw [hr] at h
      cases h
      rw [hx] at hgone
      cases hgone
    | some r =>
      rw [hr] at h
      cases h
      have ht := removeTag_lookup hx hgone
      subst ht
      refine .inr ⟨r.frame, ?_, ?_⟩
      · show r.frame ∈ m.resets[i]?.map Reset.frame
        rw [hr]
        rfl
      · rw [verify_congr (hg r hr x hx)]
        exact hm.resets r (mem_of_getElem? hr)

end Loop

/-- in a run of genuine steps a session ends by expiry, by a local decision, or by a frame its peer signed -/
theorem sessions_ended_by_peer (cfg : Config) {m m' : Loop} {op : Loop.Op}
    (hr : Run.Reaches (Loop.step cfg) (Loop.Genuine cfg) {} m) (hg : Loop.Genuine cfg op m)
    (h : Loop.step cfg op m = .ok m') (t : ConvoTag) (x : Session) (hx : m.endpoint.sessions.lookup t = some x)
    (hgone : m'.endpoint.sessions.lookup t = none) : Loop.EndedByPeer cfg op m x := by
  have hm : Loop.Checked cfg m := by
    refine hr.inv (fun _ _ _ ha => ha.step) ⟨?_, ?_⟩
    · intro path f si shared hj
      cases hj
    · intro r hr
      cases hr
  exact Loop.step_ends hm hg h hx hgone

instance (cfg : Config) (s : Endpoint) (f : ProtocolFrame) : Decidable (Loop.Signed cfg s f) :=
  inferInstanceAs (Decidable (_ → _ → _))

instance (cfg : Config) (op : Loop.Op) (m : Loop) : Decidable (Loop.Genuine cfg op m) := by
  unfold Loop.Genuine
  split <;> infer_instance

namespace Sample

def talking : Loop := ⟨opened {} 1, []⟩

lemma talking_reaches : Run.Reaches (Loop.step config) (Loop.Genuine config) {} talking := by
  obtain ⟨m, hrun, hsessions, houtbound, hjobs, hauths, hqueue, hdelivered, hresets⟩ : ∃ m,
      execWhile (Loop.step config) (Loop.Genuine config) ((hello 1).map .run) {} = some m ∧
      m.endpoint.sessions.entries = talking.endpoint.sessions.entries ∧ m.endpoint.outbound = [] ∧
      m.endpoint.jobs = [] ∧ m.endpoint.auths = [] ∧ m.endpoint.recvQueue = [] ∧
      m.endpoint.delivered = talking.endpoint.delivered ∧ m.resets = [] := some_sat
  have hm : m = talking :=
    Loop.ext (Endpoint.ext (AList.ext hsessions) houtbound hjobs hauths hqueue hdelivered) hresets
  exact hm ▸ execWhile_reaches hrun

def discard : ProtocolFrame := { frame (tag 1) 1 1 with R := 1 }

end Sample

open Sample

theorem sessions_ended_by_peer_discard : ∃ m m', Run.Reaches (Loop.step config) (Loop.Genuine config) {} m ∧
      Loop.step config (.run (.frame path discard)) m = .ok m' ∧
      m'.endpoint.sessions.lookup (tag 1) = none ∧
      ∃ x ∈ m.endpoint.sessions.lookup (tag 1), Loop.EndedByPeer config (.run (.frame path discard)) m x := by
  obtain ⟨m', hstep, hgone⟩ : ∃ m', Loop.step config (.run (.frame path discard)) talking = .ok m' ∧
        m'.endpoint.sessions.lookup (tag 1) = none := ok_sat
  have hx : talking.endpoint.sessions.lookup (tag 1) = some (session 1) := by decide +kernel
  exact ⟨_, m', talking_reaches, hstep, hgone, _, hx,
    sessions_ended_by_peer config talking_reaches (by decide +kernel) hstep _ _ hx hgone⟩

namespace Sample

def forged : ProtocolFrame := frame (tag 1) 2 2

end Sample

/-- anyone who knows the tag of the conversation of `1` ends it with a frame that has a bad signature -/
theorem session_ended_by_other : ∃ m m',
    exec (Loop.step config) [.run (.frame path forged), .run (.work 0 false false)] talking = .ok m ∧
      Loop.step config (.reset 0) m = .ok m' ∧
      m.endpoint.sessions.lookup (tag 1) = some (session 1) ∧
      m'.endpoint.sessions.lookup (tag 1) = none ∧
      ¬ Loop.EndedByPeer config (.reset 0) m (session 1) ∧
      Run.Reaches (Loop.step config) (fun _ _ => True) {} talking := by
  obtain ⟨m, hm, hx, hforged, m', hm', hgone⟩ : ∃ m, exec (Loop.step config)
      [.run (.frame path forged), .run (.work 0 false false)] talking = .ok m ∧
      m.endpoint.sessions.lookup (tag 1) = some (session 1) ∧
      (∀ f ∈ Loop.Op.cause m (.reset 0), f.verify config.crypto.toCrypto (session 1).remote = false) ∧
      ∃ m' ∈ (Loop.step config (.reset 0) m).toOption, m'.endpoint.sessions.lookup (tag 1) = none :=
    ok_sat
  have hreset : Loop.step config (.reset 0) m = .ok m' := by
    cases hs : Loop.step config (.reset 0) m with
    | error e => rw [hs] at hm'; cases hm'
    | ok s => rw [hs] at hm'; cases hm'; rfl
  refine ⟨m, m', hm, hreset, hx, hgone, ?_, talking_reaches.mono fun _ _ _ => trivial⟩
  rintro (⟨tag, h⟩ | ⟨f, hf, hverify⟩)
  · cases h
  · exact absurd ((hforged f hf).symm.trans hverify) Bool.false_ne_true

end Belnet.Service
