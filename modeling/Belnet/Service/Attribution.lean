import Belnet.Service.Convos

/-!
# Who a hidden-service payload is from

A frame names its conversation outside, for which the signature is checked, and its message names one inside, for which
the table is written.
-/

namespace Belnet.Service
open Iwp Util Belnet.Path List AList Option Endpoint ProtocolFrame AlignedBuffer

def ServiceInfo.Proper (info : ServiceInfo) : Prop := info.addr = info.signkey

instance (info : ServiceInfo) : Decidable info.Proper := inferInstanceAs (Decidable (_ = _))

/-- the sender inside is a service, and for a conversation the one that the frame was checked against -/
def Job.Careful (cfg : Config) : Job → Prop
  | .handshake _ f => ∀ K ∈ cfg.crypto.pqeDecrypt f.C cfg.identity.pq,
    ∀ msg ∈ (f.decryptPayload cfg.crypto.toCrypto K).toOption.join, msg.sender.Proper
  | .data _ f si shared => ∀ msg ∈ (f.decryptPayload cfg.crypto.toCrypto shared).toOption.join,
    msg.sender.Proper ∧ msg.sender.signkey = si.signkey

def Endpoint.Names (s : Endpoint) (msg : ProtocolMessage) (inbound : Bool) : Prop :=
  match s.sessions.lookup msg.tag with
  | some x => x.remote.signkey = msg.sender.signkey
  | none => isZero msg.sender.addr = false ∧ (s.wantsOutboundSession msg.sender.addr && inbound) = false

def Careful (cfg : Config) (op : Op) (s : Endpoint) : Prop :=
  match op with
  | .work i _ _ => ∀ job ∈ s.jobs[i]?, job.Careful cfg
  | .auth i _ => ∀ h ∈ s.auths[i]?, s.Names h.msg false
  | .flush => ∀ ev ∈ s.recvQueue.head?, s.Names ev.msg true
  | .ensureSelf _ => cfg.identity.pub.Proper
  | .swapIntros _ info _ => info.Proper
  | .genIntro _ info => info.Proper
  | .keyExchanged _ info _ _ _ => info.Proper
  | _ => True

instance (cfg : Config) (job : Job) : Decidable (job.Careful cfg) :=
  match job with
  -- over the option, since the keys are a finite type that must not be searched
  | .handshake _ f => decidable_of_iff ((cfg.crypto.pqeDecrypt f.C cfg.identity.pq).all fun K =>
      decide (∀ msg ∈ (f.decryptPayload cfg.crypto.toCrypto K).toOption.join, msg.sender.Proper)) (by
    unfold Job.Careful
    simp only [Option.all_eq_true, decide_eq_true_eq, Option.mem_def])
  | .data _ f _ shared =>
    inferInstanceAs (Decidable (∀ msg ∈ (f.decryptPayload cfg.crypto.toCrypto shared).toOption.join, _ ∧ _))

instance (s : Endpoint) (msg : ProtocolMessage) (inbound : Bool) : Decidable (s.Names msg inbound) := by
  unfold Names
  split <;> infer_instance

instance (cfg : Config) (op : Op) (s : Endpoint) : Decidable (Careful cfg op s) := by
  unfold Careful
  split <;> infer_instance

def Attributed (cfg : Config) (f : ProtocolFrame) (info : ServiceInfo) : Prop :=
  f.verify cfg.crypto.toCrypto info = true ∧ info.Proper

variable {f : ProtocolFrame}

lemma ProtocolFrame.verify_congr {c : Crypto} {info info' : ServiceInfo}
    (h : info'.signkey = info.signkey) : f.verify c info' = f.verify c info := by
  unfold verify
  rw [h]

variable {cfg : Config}

lemma Attributed.congr {info info' : ServiceInfo} (h : Attributed cfg f info)
    (hkey : info'.signkey = info.signkey) (hp : info'.Proper) : Attributed cfg f info' := by
  refine ⟨?_, hp⟩
  rw [verify_congr hkey]
  exact h.1

def Touched (old : Option Session) (new : Session) : Prop :=
  ∀ x ∈ old, x.replyIntro ≠ new.replyIntro ∨ x.sharedKey ≠ new.sharedKey

variable {x : Session}

namespace Endpoint

def remoteOf (s : Endpoint) (tag : ConvoTag) : Option ServiceInfo := (s.sessions.lookup tag).map Session.remote

/-- only the session of `tag` is written; its record stays, or is `info` or empty when it is new -/
structure Writes (tag : ConvoTag) (info : ServiceInfo) (s s' : Endpoint) : Prop where
  only : s' = { s with sessions := s'.sessions }
  others : ∀ t, t ≠ tag → s'.sessions.lookup t = s.sessions.lookup t
  kept : ∀ r, s.remoteOf tag = some r → s'.remoteOf tag = some r
  made : s.remoteOf tag = none → ∀ r, s'.remoteOf tag = some r → r = info ∨ r = {}

variable {tag : ConvoTag} {info : ServiceInfo} {s s' s'' : Endpoint}

lemma Writes.refl (tag : ConvoTag) (info : ServiceInfo) (s : Endpoint) : Writes tag info s s where
  only := rfl
  others _ _ := rfl
  kept _ h := h
  made h _ h' := by rw [h] at h'; cases h'

lemma Writes.trans (h : Writes tag info s s') (h' : Writes tag info s' s'') : Writes tag info s s'' where
  only := by rw [h'.only, h.only]
  others t ht := (h'.others t ht).trans (h.others t ht)
  kept r hr := h'.kept r (h.kept r hr)
  made hnone r hr := by
    cases hmid : s'.remoteOf tag with
    | none => exact h'.made hmid r hr
    | some r' =>
      have hsame := h'.kept r' hmid
      rw [hr] at hsame
      rw [some.inj hsame]
      exact h.made hnone r' hmid

lemma Writes.insert (x : Session) (hkept : ∀ r, s.remoteOf tag = some r → x.remote = r)
    (hmade : s.remoteOf tag = none → x.remote = info ∨ x.remote = {}) :
    Writes tag info s { s with sessions := s.sessions.insert tag x } where
  only := rfl
  others t ht := lookup_insert_ne ht
  kept r hr := by
    unfold remoteOf
    rw [lookup_insert, ← hkept r hr]
    rfl
  made hnone r hr := by
    unfold remoteOf at hr
    rw [lookup_insert] at hr
    cases hr
    exact hmade hnone

lemma Writes.update (f : Session → Session) (hf : ∀ x, (f x).remote = x.remote) :
    Writes tag info s { s with sessions := s.sessions.insert tag (f ((s.sessions.lookup tag).getD {})) } := by
  apply Writes.insert
  · intro r hr
    rw [hf]
    unfold remoteOf at hr
    cases hx : s.sessions.lookup tag with
    | none => rw [hx] at hr; cases hr
    | some x => rw [hx] at hr; cases hr; rfl
  · intro hnone
    rw [hf]
    unfold remoteOf at hnone
    rw [map_eq_none_iff.mp hnone]
    exact .inr rfl

lemma putSender_writes (s : Endpoint) (tag : ConvoTag) (info : ServiceInfo) (inbound : Bool) :
    Writes tag info s (s.putSenderFor tag info inbound) := by
  unfold putSenderFor
  split
  · exact .refl tag info s
  cases hx : s.sessions.lookup tag with
  | some => exact .refl tag info s
  | none =>
    dsimp only
    split
    · exact .refl tag info s
    apply Writes.insert
    · intro r hr
      rw [remoteOf, hx] at hr
      cases hr
    · exact fun _ => .inl rfl

lemma putIntro_writes (s : Endpoint) (tag : ConvoTag) (info : ServiceInfo) (intro : Introduction) :
    Writes tag info s (s.putIntroFor tag intro) := Writes.update (fun x => { x with intro := intro }) fun _ => rfl

lemma putCachedKey_writes (s : Endpoint) (tag : ConvoTag) (info : ServiceInfo) (k : SharedSecret) :
    Writes tag info s (s.putCachedSessionKeyFor tag k) :=
  Writes.update (fun x => { x with sharedKey := k }) fun _ => rfl

lemma putReply_writes (s : Endpoint) (tag : ConvoTag) (info : ServiceInfo) (intro : Introduction) :
    Writes tag info s (s.putReplyIntroFor tag intro) := by
  unfold putReplyIntroFor
  cases hx : s.sessions.lookup tag with
  | none => exact .refl tag info s
  | some =>
    apply Writes.insert
    · intro r hr
      rw [remoteOf, hx] at hr
      cases hr
      rfl
    · intro hnone
      rw [remoteOf, hx] at hnone
      cases hnone

variable {msg : ProtocolMessage}

lemma putSender_records {inbound : Bool} (h : s.Names msg inbound) :
    ∃ r, (s.putSenderFor msg.tag msg.sender inbound).remoteOf msg.tag = some r ∧ r.signkey = msg.sender.signkey := by
  unfold Names at h
  cases hx : s.sessions.lookup msg.tag with
  | some x =>
    rw [hx] at h
    refine ⟨x.remote, ?_, h⟩
    exact (putSender_writes s msg.tag msg.sender inbound).kept _ (by rw [remoteOf, hx]; rfl)
  | none =>
    rw [hx] at h
    refine ⟨msg.sender, ?_, rfl⟩
    unfold putSenderFor
    rw [h.1, hx, h.2]
    show ((s.sessions.insert msg.tag _).lookup msg.tag).map Session.remote = _
    rw [lookup_insert]
    rfl

lemma names_of_remoteOf {r : ServiceInfo} (h : s.remoteOf msg.tag = some r)
    (hkey : r.signkey = msg.sender.signkey) (inbound : Bool) : s.Names msg inbound := by
  obtain ⟨x, hx, rfl⟩ := map_eq_some_iff.mp h
  unfold Names
  rw [hx]
  exact hkey

def Delivers (frame : ProtocolFrame) (msg : ProtocolMessage) (s s' : Endpoint) : Prop :=
  ∃ mid r, Writes msg.tag msg.sender s mid ∧ mid.remoteOf msg.tag = some r ∧
    r.signkey = msg.sender.signkey ∧ s' = { mid with delivered := s.delivered ++ [⟨frame, msg, some r⟩] }

lemma dataMessage_delivers (path : RouterID) (frame : ProtocolFrame)
    (h : s.Names msg true) : Delivers frame msg s (s.handleDataMessage path frame msg) := by
  obtain ⟨r, hr, hkey⟩ := putSender_records h
  have hput := putSender_writes s msg.tag msg.sender true
  unfold handleDataMessage
  dsimp only
  generalize hintro : (if (s.putSenderFor msg.tag msg.sender true).hasInboundConvo msg.sender.addr
    then { msg.introReply with pathID := frame.F, router := path } else msg.introReply) = intro
  have hreply := putReply_writes (s.putSenderFor msg.tag msg.sender true) msg.tag msg.sender intro
  have hremote := hreply.kept r hr
  have hall := hput.trans hreply
  refine ⟨_, r, hall, hremote, hkey, ?_⟩
  have hsame : (putReplyIntroFor (s.putSenderFor msg.tag msg.sender true) msg.tag intro).delivered
      = s.delivered := by rw [hall.only]
  unfold remoteOf at hremote
  rw [hremote, hsame]

lemma authResult_delivers (cfg : Config) (accepted : Bool) {h : Handshake} (hnames : s.Names h.msg false) :
    authResult cfg accepted s h = s ∨ Delivers h.frame h.msg s (authResult cfg accepted s h) := by
  unfold authResult
  split
  case isFalse => exact .inl rfl
  right
  dsimp only
  generalize hin : (!s.wantsOutboundSession h.msg.sender.addr) = inbound
  have hnames' : s.Names h.msg inbound := by
    unfold Names at hnames ⊢
    cases hx : s.sessions.lookup h.msg.tag with
    | some => rw [hx] at hnames; exact hnames
    | none =>
      rw [hx] at hnames
      refine ⟨hnames.1, ?_⟩
      rw [← hin]
      exact Bool.and_not_self _
  obtain ⟨r, hr, hkey⟩ := putSender_records hnames'
  have hput := putSender_writes s h.msg.tag h.msg.sender inbound
  generalize s.putSenderFor h.msg.tag h.msg.sender inbound = s1 at hr hput ⊢
  have hset := (putReply_writes s1 h.msg.tag h.msg.sender h.msg.introReply).trans
    (putCachedKey_writes _ h.msg.tag h.msg.sender h.sharedKey)
  generalize (s1.putReplyIntroFor h.msg.tag h.msg.introReply).putCachedSessionKeyFor h.msg.tag h.sharedKey = s2
    at hset ⊢
  obtain ⟨mid, r', hmid, hr', hkey', heq⟩ := dataMessage_delivers h.path h.frame
    (names_of_remoteOf (hset.kept r hr) hkey true)
  have hall := hput.trans hset
  refine ⟨mid, r', hall.trans hmid, hr', hkey', ?_⟩
  rw [heq, hall.only]

structure Shrinks (s s' : Endpoint) : Prop where
  only : s' = { s with sessions := s'.sessions, jobs := s'.jobs }
  fewer : ∀ t x, s'.sessions.lookup t = some x → s.sessions.lookup t = some x

lemma removeTag_shrinks (s : Endpoint) (tag : ConvoTag) : Shrinks s (s.removeConvoTag tag) where
  only := rfl
  fewer t x h := by
    unfold removeConvoTag at h
    by_cases ht : t = tag
    · subst ht
      rw [lookup_erase] at h
      cases h
    · rwa [lookup_erase_ne ht] at h

lemma frame_shrinks (cfg : Config) (s : Endpoint) (path : RouterID) (f : ProtocolFrame) :
    Shrinks s (s.handleHiddenServiceFrame cfg path f) := by
  have hrefl : Shrinks s s := ⟨rfl, fun _ _ h => h⟩
  unfold handleHiddenServiceFrame
  split
  · split
    · exact hrefl
    split
    · exact removeTag_shrinks s f.T
    · exact hrefl
  · split
    · rename_i s1 h1
      unfold asyncDecryptAndVerify at h1
      split at h1
      · cases h1
        exact ⟨rfl, fun _ _ h => h⟩
      split at h1
      · cases h1
      split at h1
      · cases h1
      · cases h1
        exact ⟨rfl, fun _ _ h => h⟩
    · exact removeTag_shrinks s f.T

/-- what a worker leaves: nothing, a handshake or a message, checked against the sender that it names -/
inductive Works (cfg : Config) (s : Endpoint) : Endpoint → Prop where
  | drop : Works cfg s s
  | handshake (h : Handshake) : Attributed cfg h.frame h.msg.sender → Works cfg s { s with auths := s.auths ++ [h] }
  | data (ev : RecvDataEvent) : Attributed cfg ev.frame ev.msg.sender →
      Works cfg s { s with recvQueue := s.recvQueue ++ [ev] }

lemma work_works {busy full : Bool} {job : Job} (hjob : job.Careful cfg)
    (h : work cfg busy full s job = .ok s') : Works cfg s s' := by
  cases job with
  | handshake path frame =>
    unfold work at h
    dsimp only at h
    cases hK : cfg.crypto.pqeDecrypt frame.C cfg.identity.pq with
    | none => rw [hK] at h; cases h; exact .drop
    | some K =>
      rw [hK] at h
      obtain ⟨msg, hmsg, h⟩ := Run.ok_bind.mp h
      cases msg with
      | none => cases h; exact .drop
      | some msg =>
        have hproper : msg.sender.Proper := by
          apply hjob K hK msg
          rw [hmsg]
          rfl
        dsimp only at h
        split at h
        · cases h; exact .drop
        rename_i hverify
        split at h
        · cases h; exact .drop
        split at h
        · cases h; exact .drop
        split at h
        · cases h; exact .drop
        cases h
        refine .handshake _ ⟨?_, hproper⟩
        simpa using hverify
  | data path frame si =>
    unfold work at h
    dsimp only at h
    split at h
    · cases h; exact .drop
    rename_i hverify
    obtain ⟨msg, hmsg, h⟩ := Run.ok_bind.mp h
    cases msg with
    | none => cases h; exact .drop
    | some msg =>
      obtain ⟨hproper, hkey⟩ : msg.sender.Proper ∧ msg.sender.signkey = si.signkey := by
        apply hjob msg
        rw [hmsg]
        rfl
      dsimp only at h
      split at h
      · cases h; exact .drop
      cases h
      refine .data _ ⟨?_, hproper⟩
      rw [verify_congr hkey]
      simpa using hverify

structure Honest (cfg : Config) (s : Endpoint) : Prop where
  proper : ∀ t r, s.remoteOf t = some r → r.Proper
  auths : ∀ h ∈ s.auths, Attributed cfg h.frame h.msg.sender
  queue : ∀ ev ∈ s.recvQueue, Attributed cfg ev.frame ev.msg.sender
  delivered : ∀ d ∈ s.delivered, Attributed cfg d.frame d.msg.sender ∧ ∃ r ∈ d.remote, Attributed cfg d.frame r

variable {cfg : Config}

section
variable (h : Writes tag info s s') (hs : Honest cfg s) (hinfo : info.Proper)
include h hs hinfo

lemma Writes.proper : ∀ t r, s'.remoteOf t = some r → r.Proper := by
  intro t r hr
  by_cases ht : t = tag
  · subst ht
    cases hold : s.remoteOf t with
    | some r' =>
      have hkept := h.kept r' hold
      rw [hr] at hkept
      cases hkept
      exact hs.proper t r hold
    | none =>
      rcases h.made hold r hr with rfl | rfl
      · exact hinfo
      · show (zero 32) = _
        rfl
  · apply hs.proper t r
    unfold remoteOf at hr ⊢
    rwa [← h.others t ht]

lemma Writes.honest : Honest cfg s' where
  proper := h.proper hs hinfo
  auths := by rw [h.only]; exact hs.auths
  queue := by rw [h.only]; exact hs.queue
  delivered := by rw [h.only]; exact hs.delivered

end

lemma Shrinks.honest (h : Shrinks s s') (hs : Honest cfg s) : Honest cfg s' where
  proper t r hr := by
    obtain ⟨x, hx, rfl⟩ := map_eq_some_iff.mp hr
    exact hs.proper t _ (map_eq_some_iff.mpr ⟨x, h.fewer t x hx, rfl⟩)
  auths := by rw [h.only]; exact hs.auths
  queue := by rw [h.only]; exact hs.queue
  delivered := by rw [h.only]; exact hs.delivered

lemma Works.honest (h : Works cfg s s') (hs : Honest cfg s) : Honest cfg s' := by
  cases h with
  | drop => exact hs
  | handshake x hx =>
    refine ⟨hs.proper, ?_, hs.queue, hs.delivered⟩
    intro y hy
    rcases mem_concat.mp hy with hy | rfl
    · exact hs.auths y hy
    · exact hx
  | data ev hev =>
    refine ⟨hs.proper, hs.auths, ?_, hs.delivered⟩
    intro y hy
    rcases mem_concat.mp hy with hy | rfl
    · exact hs.queue y hy
    · exact hev

variable {frame : ProtocolFrame}

lemma Delivers.honest (h : Delivers frame msg s s')
    (hs : Honest cfg s) (hmsg : Attributed cfg frame msg.sender) : Honest cfg s' := by
  obtain ⟨_, r, hw, hr, hkey, rfl⟩ := h
  have hmid := hw.honest hs hmsg.2
  refine ⟨hmid.proper, hmid.auths, hmid.queue, ?_⟩
  intro d hd
  rcases mem_concat.mp hd with hd | rfl
  · exact hs.delivered d hd
  · exact ⟨hmsg, r, rfl, hmsg.congr hkey (hmid.proper _ r hr)⟩

structure Pops (s s' : Endpoint) : Prop where
  sessions : s'.sessions = s.sessions
  auths : ∀ h ∈ s'.auths, h ∈ s.auths
  queue : ∀ ev ∈ s'.recvQueue, ev ∈ s.recvQueue
  delivered : s'.delivered = s.delivered

lemma Pops.honest (h : Pops s s') (hs : Honest cfg s) : Honest cfg s' where
  proper t r hr := by
    unfold remoteOf at hr
    rw [h.sessions] at hr
    exact hs.proper t r hr
  auths x hx := hs.auths x (h.auths x hx)
  queue x hx := hs.queue x (h.queue x hx)
  delivered := by rw [h.delivered]; exact hs.delivered

inductive Moves (cfg : Config) (s : Endpoint) (f : Option ProtocolFrame) (s' : Endpoint) : Prop where
  | pops : Pops s s' → Moves cfg s f s'
  | shrinks : Shrinks s s' → Moves cfg s f s'
  | works (mid : Endpoint) : Pops s mid → Works cfg mid s' → Moves cfg s f s'
  | writes (tag : ConvoTag) (info : ServiceInfo) : f = none → Writes tag info s s' → info.Proper → Moves cfg s f s'
  | delivers (mid : Endpoint) (frame : ProtocolFrame) (msg : ProtocolMessage) : f = some frame → Pops s mid →
      Attributed cfg frame msg.sender → Delivers frame msg mid s' → Moves cfg s f s'

lemma step_moves {op : Op} (hs : Honest cfg s) (hc : Careful cfg op s) (h : step cfg op s = .ok s') :
    Moves cfg s (op.cause s) s' := by
  have hsame : Pops s s := ⟨rfl, fun _ h => h, fun _ h => h, rfl⟩
  cases op with
  | frame path f =>
    cases h
    exact .shrinks (frame_shrinks cfg s path f)
  | work i =>
    unfold step at h
    dsimp only at h
    cases hj : s.jobs[i]? with
    | none => rw [hj] at h; cases h; exact .pops hsame
    | some job =>
      rw [hj] at h
      have hpops : Pops s { s with jobs := s.jobs.eraseIdx i } := ⟨rfl, fun _ h => h, fun _ h => h, rfl⟩
      exact .works _ hpops (work_works (hc job hj) h)
  | auth i accepted =>
    unfold step at h
    dsimp only at h
    cases ha : s.auths[i]? with
    | none => rw [ha] at h; cases h; exact .pops hsame
    | some x =>
      rw [ha] at h
      cases h
      have hpops : Pops s { s with auths := s.auths.eraseIdx i } :=
        ⟨rfl, fun _ h => mem_of_mem_eraseIdx h, fun _ h => h, rfl⟩
      have hnames : Names { s with auths := s.auths.eraseIdx i } x.msg false := hc x ha
      rcases authResult_delivers cfg accepted hnames with heq | hd
      · rw [heq]
        exact .pops hpops
      · exact .delivers _ x.frame x.msg (by simp [Op.cause, ha]) hpops (hs.auths x (mem_of_getElem? ha)) hd
  | flush =>
    unfold step at h
    dsimp only at h
    cases hq : s.recvQueue with
    | nil => rw [hq] at h; cases h; exact .pops hsame
    | cons ev rest =>
      rw [hq] at h
      cases h
      have hpops : Pops s { s with recvQueue := rest } :=
        ⟨rfl, fun _ h => h, fun _ h => by rw [hq]; exact mem_cons_of_mem _ h, rfl⟩
      have hnames : Names { s with recvQueue := rest } ev.msg true := hc ev (by rw [hq]; rfl)
      exact .delivers _ ev.frame ev.msg (by simp [Op.cause, hq]) hpops (hs.queue ev (by simp [hq]))
        (dataMessage_delivers ev.fromPath ev.frame hnames)
  | remove tag => cases h; exact .shrinks (removeTag_shrinks s tag)
  | markAddressOutbound => cases h; exact .pops ⟨rfl, fun _ h => h, fun _ h => h, rfl⟩
  | ensureSelf tag =>
    cases h
    exact .writes tag cfg.identity.pub rfl ((putSender_writes s tag cfg.identity.pub true).trans
      (Writes.update (fun x => x) fun _ => rfl)) hc
  | swapIntros tag info intro =>
    cases h
    exact .writes tag info rfl ((putSender_writes s tag info false).trans (putIntro_writes _ tag info intro)) hc
  | genIntro tag info =>
    cases h
    exact .writes tag info rfl (putSender_writes s tag info false) hc
  | keyExchanged tag info key intro reply =>
    cases h
    exact .writes tag info rfl ((((putSender_writes s tag info false).trans
      (putCachedKey_writes _ tag info key)).trans (putIntro_writes _ tag info intro)).trans
      (putReply_writes _ tag info reply)) hc

lemma Moves.honest {f : Option ProtocolFrame} (h : Moves cfg s f s') (hs : Honest cfg s) : Honest cfg s' := by
  cases h with
  | pops hp | shrinks hp => exact hp.honest hs
  | works mid hp hw => exact hw.honest (hp.honest hs)
  | writes tag info _ hw hinfo => exact hw.honest hs hinfo
  | delivers mid frame msg _ hp hmsg hd => exact hd.honest (hp.honest hs) hmsg

variable {t : ConvoTag}

lemma Delivers.touched (h : Delivers frame msg s s') (hs : Honest cfg s) (hmsg : Attributed cfg frame msg.sender)
    (hx : s'.sessions.lookup t = some x) (ht : Touched (s.sessions.lookup t) x) :
    Attributed cfg frame x.remote ∧ ∀ y ∈ s.sessions.lookup t, y.remote = x.remote := by
  have hs' := h.honest hs hmsg
  obtain ⟨mid, r, hw, hr, hkey, rfl⟩ := h
  have hremote : mid.remoteOf t = some x.remote := map_eq_some_iff.mpr ⟨x, hx, rfl⟩
  by_cases htag : t = msg.tag
  · subst htag
    have hxr : x.remote = r := by
      rw [hremote] at hr
      exact some.inj hr
    refine ⟨hmsg.congr (by rw [hxr, hkey]) (hs'.proper _ _ hremote), ?_⟩
    intro y hy
    have hkept := hw.kept y.remote (map_eq_some_iff.mpr ⟨y, hy, rfl⟩)
    rw [hremote] at hkept
    exact (some.inj hkept).symm
  · have hold := hw.others t htag
    rw [show mid.sessions.lookup t = some x from hx] at hold
    rcases ht x hold.symm with h | h <;> exact absurd rfl h

lemma not_touched {old : Option Session} (h : old = some x) : ¬ Touched old x := by
  intro ht
  rcases ht x h with h | h <;> exact h rfl

lemma Moves.touched (h : Moves cfg s (some f) s') (hs : Honest cfg s)
    (hx : s'.sessions.lookup t = some x) (ht : Touched (s.sessions.lookup t) x) :
    Attributed cfg f x.remote ∧ ∀ y ∈ s.sessions.lookup t, y.remote = x.remote := by
  cases h with
  | pops hp =>
    rw [hp.sessions] at hx
    exact absurd ht (not_touched hx)
  | shrinks hp => exact absurd ht (not_touched (hp.fewer t x hx))
  | works mid hp hw =>
    have hmid : mid.sessions.lookup t = some x := by cases hw <;> exact hx
    rw [hp.sessions] at hmid
    exact absurd ht (not_touched hmid)
  | writes tag info hf => cases hf
  | delivers mid frame msg hf hp hmsg hd =>
    cases hf
    rw [← hp.sessions] at ht ⊢
    exact hd.touched (hp.honest hs) hmsg hx ht

end Endpoint

/-- in a run of careful steps a delivered message was signed by the sender it names and by its conversation's service,
and a frame creates or changes only sessions of its signer -/
theorem payloads_attributed (cfg : Config) {s : Endpoint} (h : Run.Reaches (step cfg) (Careful cfg) {} s) :
    (∀ d ∈ s.delivered, Attributed cfg d.frame d.msg.sender ∧ ∃ r ∈ d.remote, Attributed cfg d.frame r) ∧
      ∀ op s', Careful cfg op s → step cfg op s = .ok s' → ∀ f ∈ op.cause s, ∀ t x,
        s'.sessions.lookup t = some x → Touched (s.sessions.lookup t) x →
          Attributed cfg f x.remote ∧ ∀ y ∈ s.sessions.lookup t, y.remote = x.remote := by
  have hs : Honest cfg s := by
    refine h.inv (fun _ _ _ ha hc hstep => (step_moves ha hc hstep).honest ha) ?_
    refine ⟨?_, ?_, ?_, ?_⟩
    · intro t r hr
      cases hr
    · intro x hx
      cases hx
    · intro x hx
      cases hx
    · intro x hx
      cases hx
  refine ⟨hs.delivered, ?_⟩
  intro op s' hc hstep f hf t x hx ht
  have hmoves := step_moves hs hc hstep
  rw [mem_def.mp hf] at hmoves
  exact hmoves.touched hs hx ht

namespace Sample

def config : Config := ⟨crypto, ⟨.zero 64, [], {}⟩, false⟩

def tag (n : UInt8) : ConvoTag := ofBytes 16 [n]

def message (n : UInt8) : Bytes :=
  [100, 49, 58, 115, 100, 49, 58, 115, 51, 50, 58] ++ (key n).toList ++
    [101, 49, 58, 116, 49, 54, 58] ++ (tag n).toList ++ [101]

def frame (T : ConvoTag) (n m : UInt8) : ProtocolFrame :=
  { C := [], D := message m, F := ofBytes 16 [n], N := .zero 32, R := 0, T := T,
    Z := ofBytes 64 [n] }

def path : RouterID := .zero 32

def hello (n : UInt8) : List Op := [.frame path (frame (tag 0) n n), .work 0 false false, .auth 0 true]

def talk (n m : UInt8) : List Op := [.frame path (frame (tag n) n m), .work 0 false false, .flush]

def info (n : UInt8) : ServiceInfo := { signkey := key n, cachedAddr := key n }

def msg (n : UInt8) : ProtocolMessage := { sender := info n, tag := tag n }

def handshake (n : UInt8) : Handshake := ⟨path, frame (tag 0) n n, msg n, ofBytes 32 [1]⟩

def opened (s : Endpoint) (n : UInt8) : Endpoint := authResult config true s (handshake n)

def session (n : UInt8) : Session where
  replyIntro := { pathID := ofBytes 16 [n] }
  sharedKey := ofBytes 32 [1]
  remote := info n
  inbound := true

end Sample

open Sample

/-- `1` sends a message that names `2` and the conversation of `2` inside: it is delivered as a message of `2`, and
answers to `2` go to `1` -/
theorem payload_attributed_to_other : ∃ s, Run.exec (step config) (hello 1 ++ (hello 2 ++ talk 1 2)) {} = .ok s ∧
      (∃ d ∈ s.delivered, d.frame.verify config.crypto.toCrypto d.msg.sender = false ∧
        ∃ r ∈ d.remote, d.frame.verify config.crypto.toCrypto r = false) ∧
      ∃ x ∈ s.sessions.lookup (tag 2), x.remote.signkey = key 2 ∧ x.replyIntro.pathID = (frame (tag 1) 1 2).F :=
  Run.ok_sat

theorem payloads_attributed_self : ∃ s, Run.Reaches (step config) (Careful config) {} s ∧ s.delivered.length = 2 ∧
      ∀ d ∈ s.delivered, Attributed config d.frame d.msg.sender := by
  obtain ⟨s, hrun, hlen⟩ : ∃ s, Run.execWhile (step config) (Careful config) (hello 1 ++ talk 1 1) {} = some s ∧
      s.delivered.length = 2 := Run.some_sat
  have hreach := Run.execWhile_reaches hrun
  exact ⟨s, hreach, hlen, fun d hd => ((payloads_attributed config hreach).1 d hd).1⟩

end Belnet.Service
