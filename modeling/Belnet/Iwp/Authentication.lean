import Belnet.Iwp.Closing
import Belnet.Iwp.Reassembly

/-!
# Who an established session talks to

Inbound, `Ready` means that an Introduction was accepted and the token came back under its key; outbound, that link
intros went both ways.
-/

namespace Belnet.Iwp
open World Relation List Sample Run State Bytes

section
variable {σ : Type} {env : Env σ} {t : Clock}

def Env.introKey (env : Env σ) : SharedSecret := env.crypto.shorthash env.ourRC.pubkey.toList

/-- an Introduction with the session's identity and key was verified, and the session key comes from its key exchange
-/
def World.IntroAccepted (env : Env σ) (w : World σ) : Prop :=
  ∃ c ∈ w.inq.received, ∃ p n, decryptMessageInPlace env.crypto env.introKey c = some p ∧
    IsIntroduction env.crypto p w.ctl.expectedIdent w.ctl.remoteOnionKey n ∧
    env.crypto.transportDhServer w.ctl.remoteOnionKey env.transportSecretKey n = some w.ctl.sessionKey

def World.TokenEchoed (env : Env σ) (w : World σ) : Prop :=
  ∃ c ∈ w.inq.received, ∃ p, decryptMessageInPlace env.crypto w.ctl.sessionKey c = some p ∧
    readBuf 24 p packetOverhead = .ok w.ctl.token

structure World.Admitted (env : Env σ) (token : AlignedBuffer 24) (w : World σ) : Prop where
  inbound : w.inbound = true
  token_eq : w.ctl.token = token
  hook : w.ctl.gotLIM ≠ .outbound
  handlers : ∀ (id : UInt64) msg, w.tx.txMsgs[id]? = some msg → msg.completed ≠ some .outboundLIM
  key : w.ctl.state = .initial → w.ctl.sessionKey = env.introKey
  accepted : w.ctl.state ≠ .initial → w.ctl.state ≠ .closed → w.IntroAccepted env
  echoed : w.ctl.state = .linkIntro ∨ w.ctl.state = .ready → w.TokenEchoed env
  ident : w.ctl.state = .ready → w.ctl.remoteRC.pubkey = w.ctl.expectedIdent

section
variable {w w' : World σ} (hinq : w'.inq.received = w.inq.received) (hon : w.Onward w')
include hinq hon

lemma IntroAccepted.onward (h : w.IntroAccepted env) : w'.IntroAccepted env := by
  unfold IntroAccepted
  rw [hinq, hon.ident, hon.onion, hon.key]
  exact h

lemma TokenEchoed.onward (h : w.TokenEchoed env) : w'.TokenEchoed env := by
  unfold TokenEchoed
  rw [hinq, hon.key, hon.token]
  exact h

end

lemma Move.plain_handlers {cause : Cause σ} {w w' : World σ} (h : Move env t cause w w')
    (hook : w.ctl.gotLIM ≠ .outbound)
    (hw : ∀ (id : UInt64) msg, w.tx.txMsgs[id]? = some msg → msg.completed ≠ some .outboundLIM) :
    ∀ (id : UInt64) msg, w'.tx.txMsgs[id]? = some msg → msg.completed ≠ some .outboundLIM := by
  cases h with
  | tx h hk =>
    intro id msg hmsg
    rcases h.entry hmsg with ⟨m₀, hm₀, hc, _⟩ | ⟨rfl, _⟩
    · rw [hc]
      exact hw id m₀ hm₀
    · exact hk
  | limOut hp hlim hout => exact absurd hout hook
  | limAcked hp hby hst h hc => exact absurd hc (hw _ _ h.acked.1)
  | _ => exact hw

lemma establish_state (env : Env σ) (w : World σ) (inbound : Bool) :
    (w.establish env inbound).ctl.state = .closed ∨ (w.establish env inbound).ctl.state = w.ctl.state := by
  unfold establish
  dsimp only
  split
  · exact .inl rfl
  · exact .inr rfl

lemma establish_remoteRC (env : Env σ) (w : World σ) (inbound : Bool) :
    (w.establish env inbound).ctl.remoteRC = w.ctl.remoteRC ∧ (w.establish env inbound).ctl.gotLIM = w.ctl.gotLIM := by
  unfold establish
  dsimp only
  split <;> exact ⟨rfl, rfl⟩

variable {token : AlignedBuffer 24}

lemma Move.admitted {cause : Cause σ} {w w' : World σ} (h : Move env t cause w w')
    (hgood : ∀ p w₀, cause = .packet p w₀ → w₀.ctl.state.early = false ∧ NotRevived env t p w₀)
    (hw : w.Admitted env token) : w'.Admitted env token := by
  have hon := h.onward
  have hrec : w'.inq.received = w.inq.received := by rw [h.inq_eq]
  have hhandlers := h.plain_handlers hw.hook hw.handlers
  -- the state is the same, or the session was closed
  have hkeep : w'.ctl.gotLIM = w.ctl.gotLIM → w'.ctl.remoteRC = w.ctl.remoteRC →
      w'.ctl.state = w.ctl.state ∨ w'.ctl.state = .closed → w'.Admitted env token := by
    intro hhook hrc hst
    refine ⟨hon.inbound.trans hw.inbound, hon.token.trans hw.token_eq, hhook ▸ hw.hook, hhandlers, fun h => ?_, fun h1 h2 => ?_,
      fun h => ?_, fun h => ?_⟩
    · rcases hst with hst | hst
      · rw [hon.key]
        exact hw.key (hst ▸ h)
      · rw [hst] at h
        cases h
    · rcases hst with hst | hst
      · exact IntroAccepted.onward hrec hon (hw.accepted (hst ▸ h1) (hst ▸ h2))
      · exact absurd hst h2
    · rcases hst with hst | hst
      · exact TokenEchoed.onward hrec hon (hw.echoed (hst ▸ h))
      · rw [hst] at h
        rcases h with h | h <;> cases h
    · rcases hst with hst | hst
      · rw [hrc, hon.ident]
        exact hw.ident (hst ▸ h)
      · rw [hst] at h
        cases h
  cases h with
  | shut hst => exact hkeep rfl rfl (.inr rfl)
  | @limIn p w₀ lim hp hctl hlim hook hpk =>
    obtain ⟨hlate, hrevive⟩ := hgood p w₀ hp
    rw [← hctl] at hlate
    -- not early, and not closed: the state is `LinkIntro` or `Ready`
    have hst : w.ctl.state = .linkIntro ∨ w.ctl.state = .ready := by
      cases hcase : w.ctl.state with
      | initial | introduction =>
        rw [hcase] at hlate
        cases hlate
      | linkIntro => exact .inl rfl
      | ready => exact .inr rfl
      | closed => exact absurd (.inr ⟨lim, hlim, hctl ▸ hook, hctl ▸ hpk⟩) (hrevive (hctl ▸ hcase))
    have hacc : w.IntroAccepted env := by
      refine hw.accepted ?_ ?_ <;> rcases hst with hst | hst <;> rw [hst] <;> exact noConfusion
    have hest (v : World σ) := And.intro (establish_remoteRC env v true) (establish_state env v true)
    obtain ⟨⟨hrc, hhook⟩, hstate⟩ := hest (w.introduced lim.rc)
    refine ⟨hw.inbound, hon.token.trans hw.token_eq, ?_, hhandlers, fun h => ?_, fun _ _ => IntroAccepted.onward hrec hon hacc,
      fun _ => TokenEchoed.onward hrec hon (hw.echoed hst), fun _ => ?_⟩
    · rw [hhook]
      exact Hook.noConfusion
    · rcases hstate with hs | hs <;> rw [hs] at h <;> cases h
    · rw [hrc, hon.ident]
      exact hpk
  | limOut hp hlim hout hpk => exact absurd hout hw.hook
  | limAcked hp hby hst h hc => exact absurd hc (hw.handlers _ _ h.acked.1)
  | _ => exact hkeep rfl rfl (.inl rfl)

lemma IntroAccepted.took {w : World σ} (h : w.IntroAccepted env) (c : Packet) (x : Io) :
    (w.took c x).IntroAccepted env := by
  obtain ⟨d, hd, hrest⟩ := h
  exact ⟨d, mem_append_left _ hd, hrest⟩

lemma TokenEchoed.took {w : World σ} (h : w.TokenEchoed env) (c : Packet) (x : Io) : (w.took c x).TokenEchoed env := by
  obtain ⟨d, hd, hrest⟩ := h
  exact ⟨d, mem_append_left _ hd, hrest⟩

lemma Receipt.admitted {c : Packet} {w w' : World σ}
    (h : Receipt env t c w w') (hw : w.Admitted env token) : w'.Admitted env token := by
  have htook : ∀ x, (w.took c x).Admitted env token := fun x =>
    ⟨hw.inbound, hw.token_eq, hw.hook, hw.handlers, hw.key, fun h1 h2 => IntroAccepted.took (hw.accepted h1 h2) c x,
      fun h => TokenEchoed.took (hw.echoed h) c x, hw.ident⟩
  have hself : ∀ x, c ∈ (w.took c x).inq.received := fun x => mem_append_right _ mem_cons_self
  cases h with
  | ignored x => exact htook x
  | queued x hst =>
    obtain ⟨h1, h2, h3, h4, h5, h6, h7, h8⟩ := htook x
    exact ⟨h1, h2, h3, h4, h5, h6, h7, h8⟩
  | named x ident onion hst hin =>
    have hinit : ({ w.took c x with ctl := { w.ctl with
      expectedIdent := ident, remoteOnionKey := onion } } : World σ).ctl.state = .initial := hst
    refine ⟨hw.inbound, hw.token_eq, hw.hook, hw.handlers, hw.key, fun h1 _ => absurd hinit h1,
      fun h => ?_, fun h => ?_⟩
    · rw [hinit] at h
      rcases h with h | h <;> cases h
    · rw [hinit] at h
      cases h
  | introduced x hst hin hdec hintro hkey =>
    refine ⟨hw.inbound, hw.token_eq, hw.hook, hw.handlers, nofun, fun _ _ => ?_, fun h => ?_, nofun⟩
    · rw [hw.key hst] at hdec
      exact ⟨c, hself x, _, _, hdec, hintro, hkey⟩
    · rcases h with h | h <;> cases h
  | @echoed x p _ hst hin hdec htoken hmoves =>
    refine hmoves.inv (fun a b _ hm ha => hm.admitted (fun _ _ hp => (nomatch hp)) ha) ?_
    have hacc : w.IntroAccepted env := by refine hw.accepted ?_ ?_ <;> rw [hst] <;> exact noConfusion
    exact ⟨hw.inbound, hw.token_eq, hw.hook, hw.handlers, nofun,
      fun _ _ => IntroAccepted.took hacc c x, fun _ => ⟨c, hself x, p, hdec, htoken⟩,
      nofun⟩
  | introAcked x token hst hout hdec =>
    rw [hw.inbound] at hout
    cases hout

/-- If no packet revives a closed inbound session: when `Ready`, the remote router is the expected one, an Introduction
with its identity and key was accepted, the session key comes from its key exchange, and a packet under this key
brought the token back. -/
theorem inbound_authentication {now : Millis} {src : SockAddr} {token : AlignedBuffer 24} {parent : σ}
    {w : World σ} (hrun : Run.Reaches (opStep env) (Dispatches env (NotRevived env))
      (.newInbound env now src token parent) w) (hready : w.ctl.state = .ready) :
    w.ctl.remoteRC.pubkey = w.ctl.expectedIdent ∧ w.IntroAccepted env ∧ w.TokenEchoed env ∧ w.ctl.token = token := by
  have hinit : (newInbound env now src token parent).Admitted env token :=
    ⟨rfl, rfl, Hook.noConfusion, fun id msg hm => absurd (Maps.mem_of_get hm) Std.TreeMap.not_mem_emptyc,
      fun _ => rfl, fun h => absurd rfl h, fun h => h.elim nofun nofun,
      nofun⟩
  have hinv := run_inv (I := Admitted env token) (.inbound now src token parent) hrun (fun _ _ _ _ hr => hr.admitted)
    (fun t cause v v' hm hc hv => hm.admitted (fun p w₀ hp => by
      obtain ⟨u, rfl, hd⟩ := (hc p w₀ hp).start
      exact ⟨hd.late, hd.good⟩) hv)
    (fun t p v _ hv => ⟨hv.inbound, hv.token_eq, hv.hook, hv.handlers, hv.key, hv.accepted, hv.echoed, hv.ident⟩)
    (fun v x q hv => ⟨hv.inbound, hv.token_eq, hv.hook, hv.handlers, hv.key, hv.accepted, hv.echoed, hv.ident⟩)
    (fun _ _ hv => ⟨hv.inbound, hv.token_eq, hv.hook, hv.handlers, hv.key, hv.accepted, hv.echoed, hv.ident⟩)
    hinit
  have hw := hinv.2
  refine ⟨hw.ident hready, hw.accepted ?_ ?_, hw.echoed (.inr hready), hw.token_eq⟩
  · rw [hready]
    exact noConfusion
  · rw [hready]
    exact noConfusion

end

def introAccepts (c : Crypto) (p : Packet) (ident : PubKey) : Bool :=
  match readBuf 32 p packetOverhead, readBuf 64 p (packetOverhead + 96), readSlice p packetOverhead 96 with
  | .ok i, .ok z, .ok body => decide (i = ident) && c.verify ident body z
  | _, _, _ => false

variable {p : Packet}

lemma IsIntroduction.accepts {c : Crypto} {ident onion : PubKey} {n : TunnelNonce}
    (h : IsIntroduction c p ident onion n) : introAccepts c p ident = true := by
  obtain ⟨z, _, hz, hbody, hver⟩ := h.signed
  unfold introAccepts
  rw [h.ident_eq, hz, hbody]
  simp [hver]

/-- An Introduction with a wrong signature leaves its identity behind; after a close, a link intro of this identity
under the public key makes the session ready. -/
theorem inbound_authentication_forged : ∃ w, exec (World.opStep limEnv)
        ([(clock 1, .recvLL (intro (.zero 64))), (clock 2, .close)] ++ arrives 3 (lim publicKey)) inbound = .ok w ∧
      w.ctl.state = .ready ∧ w.ctl.sessionKey = limEnv.introKey ∧ ¬ w.IntroAccepted limEnv := by
  refine ok_then (P := fun w => w.ctl.state = .ready ∧ w.ctl.sessionKey = limEnv.introKey ∧
    ∀ c ∈ w.inq.received, ∀ p ∈ decryptMessageInPlace limEnv.crypto limEnv.introKey c,
      introAccepts limEnv.crypto p w.ctl.expectedIdent = false) (by decide +kernel) ?_
  rintro w - ⟨hready, hkey, hnone⟩
  refine ⟨hready, hkey, ?_⟩
  rintro ⟨c, hc, p, n, hdec, hintro, _⟩
  have hno := hnone c hc p hdec
  rw [hintro.accepts] at hno
  cases hno

theorem inbound_authentication_honest : ∃ w, execWhile (World.opStep limEnv) (fun i w => oneOpen i w = true)
        ((clock 1, .recvLL (intro (.ofBytes 64 peer.pubkey.toList))) ::
          (clock 2, .recvLL echo) :: arrives 3 (lim nonce))
        inbound = some w ∧
      w.ctl.state = .ready ∧ w.IntroAccepted limEnv ∧ w.TokenEchoed limEnv := by
  refine some_then (P := fun w => w.ctl.state = .ready) (by decide +kernel) fun w hw hready => ?_
  have hrun := (execWhile_reaches hw).mono fun i v h => oneOpen_dispatches h
  obtain ⟨_, hacc, hecho, _⟩ := inbound_authentication hrun hready
  exact ⟨hready, hacc, hecho⟩

section
variable {σ : Type} {env : Env σ} {t : Clock}

inductive Gathered (ps : List Packet) (rxid : UInt64) : InboundMessage → Prop where
  | opened {p : Packet} {sz : UInt16} {h : ShortHash} (now : Millis) (hp : p ∈ ps)
      (hx : IsXmit p sz rxid h) : Gathered ps rxid (.new rxid sz h now)
  | fragment {m m' : InboundMessage} {p : Packet} {idx : UInt16} {buf : Bytes} {now : Millis}
      (hm : Gathered ps rxid m) (hp : p ∈ ps) (hc : Carries p rxid idx buf)
      (hdata : m.handleData idx buf now = .ok m') : Gathered ps rxid m'
  | acked {m : InboundMessage} (now : Millis) (hm : Gathered ps rxid m) : Gathered ps rxid { m with lastACKSent := now }

variable {ps ps' : List Packet} {m : InboundMessage} {rxid : UInt64}

lemma Gathered.mono (hsub : ∀ p ∈ ps, p ∈ ps') (h : Gathered ps rxid m) : Gathered ps' rxid m := by
  induction h with
  | opened now hp hx => exact .opened now (hsub _ hp) hx
  | fragment hm hp hc hdata ih => exact .fragment ih (hsub _ hp) hc hdata
  | acked now hm ih => exact .acked now ih

def LimArrived (env : Env σ) (rc : RouterContact) (ps : List Packet) : Prop :=
  ∃ rxid m lim, ∃ q : σ, ∃ t : Clock, Gathered ps rxid m ∧ m.isCompleted = .ok true ∧
    m.verify env.crypto = true ∧ (env.handleMessage q m.data).2 = some lim ∧
    lim.verify env t = true ∧ lim.rc.pubkey = rc.pubkey

/-- our link intro, sent by `GotOutboundLIM` as the message `id`, was acknowledged by one of the
packets `ps` -/
def LimAcknowledged (env : Env σ) (log : List TxEvent) (ps : List Packet) : Prop :=
  ∃ id msg, ∃ p ∈ ps, IsOurLIM env msg.data ∧ TxEvent.accepted id msg.data (some .outboundLIM) ∈ log ∧ Acks p id msg

def Gathers (ps : List Packet) (x : Rx) : Prop := ∀ (rxid : UInt64) m, x.rxMsgs[rxid]? = some m → Gathered ps rxid m

lemma Gathers.put {x : Rx} (hx : Gathers ps x) (hm : Gathered ps rxid m) : Gathers ps (x.put rxid m) := by
  intro k m' hk
  have hget : (x.rxMsgs.insert rxid m)[k]? = some m' := hk
  rw [Maps.get_insert] at hget
  split at hget
  · rename_i heq
    subst heq
    cases hget
    exact hm
  · exact hx k m' hget

lemma Gathers.erase {x : Rx} (hx : Gathers ps x) (rxid : UInt64) :
    ∀ (k : UInt64) m, (x.rxMsgs.erase rxid)[k]? = some m → Gathered ps k m := by
  intro k m hk
  rw [Maps.get_erase] at hk
  split at hk
  · cases hk
  · exact hx k m hk

lemma HasEntry.gathered {x y : Rx}
    (h : HasEntry t p x rxid m y) (hp : p ∈ ps) (hx : Gathers ps x) : Gathered ps rxid m ∧ Gathers ps y := by
  cases h with
  | old h => exact ⟨hx rxid m h, hx⟩
  | opened hxmit =>
    have hm := Gathered.opened t.now hp hxmit
    exact ⟨hm, hx.put hm⟩

lemma Move.gathers {cause : Cause σ} {w w' : World σ} (h : Move env t cause w w')
    (hp : ∀ p, cause.pkt = some p → p ∈ ps) (hw : Gathers ps w.rx) : Gathers ps w'.rx := by
  cases h with
  | openRX hc hx hnew => exact hw.put (.opened t.now (hp _ hc) hx)
  | data hc hcar hmsg hdata | deliver hc hcar hmsg hdata hdone hver hnew =>
    obtain ⟨hm, hy⟩ := hmsg.gathered (hp _ hc) hw
    exact hy.put (.fragment hm (hp _ hc) hcar hdata)
  | discard rxid => exact hw.erase rxid
  | acksSent hmsg => exact hw.put (.acked t.now (hw _ _ hmsg))
  | timeOut hc => exact hw.erase _
  | _ => exact hw

variable {rc : RouterContact}

lemma Brings.arrived {w : World σ}
    {lim : LinkIntroMessage} (h : w.Brings env t p lim) (hp : p ∈ ps) (hw : Gathers ps w.rx)
    (hpk : lim.rc.pubkey = rc.pubkey) : LimArrived env rc ps := by
  obtain ⟨hver, _, hdata, hlim⟩ := h
  obtain ⟨y, rxid, _, _, m, m', hcar, hmsg, hm', hdone, hsum, _, rfl⟩ := hdata
  obtain ⟨hm, _⟩ := hmsg.gathered hp hw
  exact ⟨rxid, m', lim, w.parent, t, .fragment hm hp hcar hm', hdone, hsum, hlim, hver, hpk⟩

/-- a message with the handler of `GotOutboundLIM` is our link intro, sent when the hook was changed -/
def World.OursSent (env : Env σ) (w : World σ) : Prop :=
  ∀ (id : UInt64) msg, w.tx.txMsgs[id]? = some msg → msg.completed = some .outboundLIM →
    w.ctl.gotLIM = .reneg ∧ IsOurLIM env msg.data ∧ TxEvent.accepted id msg.data (some .outboundLIM) ∈ w.tx.log

lemma Move.oursSent {cause : Cause σ} {w w' : World σ} (h : Move env t cause w w')
    (hw : w.OursSent env) : w'.OursSent env := by
  have hlog : ∀ {e : TxEvent}, e ∈ w.tx.log → e ∈ w'.tx.log := fun he => h.tx_log he
  -- a message that was there before
  have hold : ∀ {id : UInt64} {msg m₀ : OutboundMessage}, w.tx.txMsgs[id]? = some m₀ →
      msg.completed = m₀.completed → msg.data = m₀.data → msg.completed = some .outboundLIM →
      w.ctl.gotLIM = .reneg ∧ IsOurLIM env msg.data ∧ TxEvent.accepted id msg.data (some .outboundLIM) ∈ w'.tx.log := by
    intro id msg m₀ hm₀ hc hd hlim
    rw [hd]
    obtain ⟨hhook, hours, hacc⟩ := hw id m₀ hm₀ (hc ▸ hlim)
    exact ⟨hhook, hours, hlog hacc⟩
  cases h with
  | tx h hk =>
    intro id msg hmsg hlim
    rcases h.entry hmsg with ⟨m₀, hm₀, hc, hd⟩ | ⟨rfl, _⟩
    · exact hold hm₀ hc hd hlim
    · exact absurd hlim hk
  | limIn hp hctl hlim hook hpk =>
    intro id msg hmsg hc
    obtain ⟨hhook, _⟩ := hold hmsg rfl rfl hc
    rw [hook] at hhook
    cases hhook
  | limOut hp hlim hook hpk hx =>
    intro id msg hmsg hc
    -- the hook was not changed before, so there was no such message
    have hnone : ∀ m₀, w.tx.txMsgs[id]? = some m₀ → m₀.completed ≠ some .outboundLIM := by
      intro m₀ hm₀ hc₀
      obtain ⟨hhook, _⟩ := hold hm₀ rfl rfl hc₀
      rw [hook] at hhook
      cases hhook
    rcases hx with rfl | ⟨_, hbuf, hx⟩
    · exact absurd hc (hnone msg hmsg)
    rcases hx.entry hmsg with ⟨m₀, hm₀, hsame, _⟩ | ⟨heq, hacc⟩
    · exact absurd (hsame ▸ hc) (hnone m₀ hm₀)
    obtain ⟨hdata, _⟩ := TxKind.offered.inj heq
    rw [hc] at hacc
    exact ⟨rfl, hdata ▸ hbuf, hacc⟩
  | limAcked hp hby hst h hc =>
    intro id msg hmsg hlim
    rw [(establish_remoteRC env _ false).2]
    rcases h.entry hmsg with ⟨m₀, hm₀, hsame, hd⟩ | ⟨heq, _⟩
    · exact hold hm₀ hsame hd hlim
    · cases heq
  | _ => exact hw

/-- the facts about an outbound session to `rc` whose key exchange gave `key`, and which sent `intro` -/
structure World.Connects (env : Env σ) (rc : RouterContact) (key : SharedSecret) (intro : Packet)
    (w : World σ) : Prop where
  outbound : w.inbound = false
  started : w.ctl.state ≠ .initial
  hook : w.ctl.gotLIM ≠ .inbound
  key_eq : w.ctl.sessionKey = key
  sent : intro ∈ w.created
  remote : w.ctl.remoteRC.pubkey = rc.pubkey
  gathers : Gathers w.inq.handled w.rx
  ours : w.OursSent env
  arrived : w.ctl.gotLIM = .reneg → LimArrived env rc w.inq.handled
  ready : w.ctl.state = .ready → w.ctl.gotLIM = .reneg ∧ LimAcknowledged env w.tx.log w.inq.handled

lemma LimArrived.mono (hsub : ∀ p ∈ ps, p ∈ ps') (h : LimArrived env rc ps) : LimArrived env rc ps' := by
  obtain ⟨rxid, m, lim, q, t, hm, hrest⟩ := h
  exact ⟨rxid, m, lim, q, t, hm.mono hsub, hrest⟩

lemma LimAcknowledged.mono {log log' : List TxEvent}
    (hlog : ∀ e ∈ log, e ∈ log') (hsub : ∀ p ∈ ps, p ∈ ps') (h : LimAcknowledged env log ps) :
    LimAcknowledged env log' ps' := by
  obtain ⟨id, msg, p, hp, hours, hacc, hack⟩ := h
  exact ⟨id, msg, p, hsub p hp, hours, hlog _ hacc, hack⟩

lemma Move.created_mem {cause : Cause σ} {w w' : World σ} (h : Move env t cause w w')
    (hp : p ∈ w.created) : p ∈ w'.created := by
  cases h with
  | create => exact mem_append_left _ hp
  | _ => exact hp

variable {key : SharedSecret} {intro : Packet}

lemma Move.connects {cause : Cause σ} {w w' : World σ} (h : Move env t cause w w')
    (hpkt : ∀ p w₀, cause = .packet p w₀ → p ∈ w.inq.handled ∧ Gathers w.inq.handled w₀.rx)
    (hw : w.Connects env rc key intro) : w'.Connects env rc key intro := by
  have hon := h.onward
  have hinq := h.inq_eq
  have hlog : ∀ e ∈ w.tx.log, e ∈ w'.tx.log := fun e he => h.tx_log he
  have hhandled : ∀ p, cause.pkt = some p → p ∈ w.inq.handled := by
    intro p hp
    cases cause with
    | packet q w₀ =>
      cases hp
      exact (hpkt _ w₀ rfl).1
    | tick | call => cases hp
  have hsent := h.created_mem hw.sent
  have hgathers : Gathers w'.inq.handled w'.rx := by
    rw [hinq]
    exact h.gathers hhandled hw.gathers
  have hours := h.oursSent hw.ours
  have hstarted : w'.ctl.state ≠ .initial := by
    intro hinit
    rcases hon.state with hst | hst | hst <;> rw [hinit] at hst
    · exact hw.started hst.symm
    · cases hst
    · cases hst
  -- the hook and the remote router are the same; so is the state, or the session was closed
  have hkeep : w'.ctl.gotLIM = w.ctl.gotLIM → w'.ctl.remoteRC = w.ctl.remoteRC →
      (w'.ctl.state = .ready → w.ctl.state = .ready) → w'.Connects env rc key intro := by
    intro hhook hrc hst
    refine ⟨hon.inbound.trans hw.outbound, hstarted, hhook ▸ hw.hook, hon.key.trans hw.key_eq, hsent,
      hrc ▸ hw.remote, hgathers, hours, fun h => ?_, fun h => ?_⟩
    · rw [hinq]
      exact hw.arrived (hhook ▸ h)
    · obtain ⟨hreneg, hack⟩ := hw.ready (hst h)
      rw [hinq, hhook]
      exact ⟨hreneg, hack.mono hlog fun p hp => hp⟩
  cases h with
  | shut hst => exact hkeep rfl rfl nofun
  | limIn hp hctl hlim hook hpk => exact absurd hook hw.hook
  | @limOut p w₀ lim x hp hlim hook hpk hx =>
    obtain ⟨hmem, hfrom⟩ := hpkt p w₀ hp
    refine ⟨hw.outbound, hstarted, Hook.noConfusion, hw.key_eq, hsent, hpk.trans hw.remote, hgathers, hours,
      fun _ => Brings.arrived hlim hmem hfrom (hpk.trans hw.remote), fun h => ?_⟩
    obtain ⟨hreneg, _⟩ := hw.ready h
    rw [hook] at hreneg
    cases hreneg
  | limAcked hp hby hst h hc =>
    obtain ⟨hmsg, _, p, hcause, hack⟩ := h.acked
    obtain ⟨hreneg, hlim, hacc⟩ := hw.ours _ _ hmsg hc
    obtain ⟨hrc, hhook⟩ := establish_remoteRC env ({ w with
      tx := _
      ctl := { w.ctl with
        state := .ready
        calls := w.ctl.calls ++ [.limAcked w.ctl.state, .state .ready] } } : World σ) false
    refine ⟨hw.outbound, hstarted, hhook ▸ hw.hook, hon.key.trans hw.key_eq, hsent, hrc ▸ hw.remote, hgathers,
      hours, fun _ => hw.arrived hreneg, fun _ => ⟨hhook ▸ hreneg, ?_⟩⟩
    exact ⟨_, _, p, hhandled p hcause, hlim, hlog _ hacc, hack⟩
  | _ => exact hkeep rfl rfl fun h => h

lemma Receipt.connects {c : Packet} {w w' : World σ}
    (h : Receipt env t c w w') (hw : w.Connects env rc key intro) : w'.Connects env rc key intro := by
  have hnot : w.inbound ≠ true := by
    rw [hw.outbound]
    exact Bool.false_ne_true
  cases h with
  | ignored x | queued x hst =>
    exact ⟨hw.outbound, hw.started, hw.hook, hw.key_eq, hw.sent, hw.remote, hw.gathers, hw.ours, hw.arrived, hw.ready⟩
  | named x ident onion hst hin | introduced x hst hin hdec hintro _
  | echoed x hst hin hdec => exact absurd hin hnot
  | introAcked x token hst hout hdec =>
    exact ⟨hw.outbound, noConfusion, hw.hook, hw.key_eq, mem_append_left _ hw.sent, hw.remote,
      hw.gathers, hw.ours, hw.arrived, nofun⟩

lemma Connects.dispatched {w : World σ}
    (hw : w.Connects env rc key intro) (p : Packet) : (w.dispatched p).Connects env rc key intro := by
  have hsub : ∀ q ∈ w.inq.handled, q ∈ (w.dispatched p).inq.handled := fun q hq => mem_append_left _ hq
  refine ⟨hw.outbound, hw.started, hw.hook, hw.key_eq, hw.sent, hw.remote, ?_, hw.ours, ?_, ?_⟩
  · exact fun rxid m hm => (hw.gathers rxid m hm).mono hsub
  · exact fun h => (hw.arrived h).mono hsub
  · exact fun h => ⟨(hw.ready h).1, (hw.ready h).2.mono (fun e he => he) hsub⟩

lemma readBuf_nonce (r : Rng) (k : ℕ) (ident onion : PubKey) (n : TunnelNonce) (rest : Bytes) :
    readBuf 32 (rawPacket r k (introBody ident onion n ++ rest)) (packetOverhead + 64) = .ok n := by
  apply readBuf_of_slice
  unfold readSlice rawPacket introBody
  rw [slice_right (Rng.head_length r k), append_assoc, append_assoc]
  have hfirst : slice (ident.toList ++ (onion.toList ++ (n.toList ++ rest))) (32 + (32 + 0)) 32
      = some n.toList := by
    rw [slice_right ident.toList_length, slice_right onion.toList_length,
      slice_left n.toList_length]
  rw [show 64 = 32 + (32 + 0) from rfl, hfirst]

/-- If the key exchange with `rc` at `ai` succeeds: when `Ready`, the session key comes from `ai`'s key and our nonce,
every dispatched packet is authenticated under it, `rc`'s link intro arrived and ours was acknowledged. -/
theorem outbound_authentication {t₀ : Clock} {rc : RouterContact} {ai : AddressInfo} {parent : σ}
    {key : SharedSecret} {w : World σ}
    (hdh : env.crypto.transportDhClient ai.pubkey env.routerEncryptionSecret (env.rng.nonce 0) = some key)
    (hrun : Run.Reaches (opStep env) (fun _ _ => True) (.newOutbound env t₀ rc ai parent) w)
    (hready : w.ctl.state = .ready) :
    (∃ n, ∃ p ∈ w.created, readBuf 32 p (packetOverhead + 64) = .ok n ∧
      env.crypto.transportDhClient ai.pubkey env.routerEncryptionSecret n = some w.ctl.sessionKey) ∧
    (∀ p ∈ w.inq.handled, w.Authentic env p) ∧
    LimArrived env rc w.inq.handled ∧ LimAcknowledged env w.tx.log w.inq.handled := by
  obtain ⟨x, hx⟩ := newOutbound_eq env t₀ rc ai parent
  have hinit : (newOutbound env t₀ rc ai parent).Connects env rc key (introPacket env 0) := by
    rw [hx, hdh]
    exact ⟨rfl, noConfusion, Hook.noConfusion, rfl, mem_cons_self, rfl,
      fun id m hm => absurd (Maps.mem_of_get hm) Std.TreeMap.not_mem_emptyc,
      fun id m hm => absurd (Maps.mem_of_get hm) Std.TreeMap.not_mem_emptyc,
      nofun, nofun⟩
  have hany : Run.Reaches (opStep env) (Dispatches env fun _ _ _ => True)
      (.newOutbound env t₀ rc ai parent) w := hrun.mono fun i v _ _ _ l₁ p l₂ u _ _ => trivial
  have hinv := run_inv (.outbound t₀ rc ai parent) hany (fun _ _ _ _ hr => hr.connects)
    (fun t cause v v' hm hc hv => hm.connects (fun p w₀ hp => by
      have hh := hc p w₀ hp
      refine ⟨hh.handled, ?_⟩
      rw [hh.inq_eq]
      exact hh.inv.gathers) hv)
    (fun t p v _ hv => Connects.dispatched hv p)
    (fun v x q hv => ⟨hv.outbound, hv.started, hv.hook, hv.key_eq, hv.sent, hv.remote, hv.gathers, hv.ours,
      hv.arrived, hv.ready⟩)
    (fun v parent hv => ⟨hv.outbound, hv.started, hv.hook, hv.key_eq, hv.sent, hv.remote, hv.gathers, hv.ours,
      hv.arrived, hv.ready⟩) hinit
  obtain ⟨hq, hw⟩ := hinv
  obtain ⟨hhook, hack⟩ := hw.ready hready
  refine ⟨⟨_, _, hw.sent, readBuf_nonce _ _ _ _ _ _, ?_⟩, hq.handled, hw.arrived hhook, hack⟩
  rw [hw.key_eq, hdh]

end

namespace Sample

def outEnv (c : Crypto) : Env Unit :=
  { limEnv with crypto := c, sign := fun _ => some (.zero 64) }

def noExchange : Crypto := { crypto with transportDhClient := fun _ _ _ => none }

def outbound (c : Crypto) : World Unit := .newOutbound (outEnv c) (clock 0) peer AddressInfo.empty ()

def outRun (key : SharedSecret) : List (Clock × Op Unit) :=
  (clock 1, .recvLL (encryptPacket crypto key (rawPacket limEnv.rng 1 token.toList))) :: (arrives 2 (lim key) ++
      arrives 3 (encryptPacket crypto key (createPacket limEnv.rng 4 .mack (mackBody [0]) 16 16)))

end Sample

open Sample

/-- The key exchange of `GenerateAndSendIntro` fails and the key is the hash of the remote identity: packets that
anybody can make, with a link intro of this router, make the session ready. -/
theorem outbound_authentication_public : ∃ w, exec (opStep (outEnv noExchange))
        (outRun (crypto.shorthash peer.pubkey.toList))
        (outbound noExchange) = .ok w ∧
      w.ctl.state = .ready ∧ w.ctl.sessionKey = crypto.shorthash peer.pubkey.toList ∧
      ∀ pk sk n, (outEnv noExchange).crypto.transportDhClient pk sk n ≠ some w.ctl.sessionKey := by
  exact (ok_sat (P := fun w => w.ctl.state = .ready ∧ w.ctl.sessionKey = crypto.shorthash peer.pubkey.toList)
    (by decide +kernel)).imp fun w h => ⟨h.1, h.2.1, h.2.2, fun pk sk n => nofun⟩

theorem outbound_authentication_exchanged : ∃ w, exec (opStep (outEnv crypto)) (outRun (.zero 32))
        (outbound crypto) = .ok w ∧
      w.ctl.state = .ready ∧ LimArrived (outEnv crypto) peer w.inq.handled ∧
      LimAcknowledged (outEnv crypto) w.tx.log w.inq.handled := by
  refine ok_then (P := fun w => w.ctl.state = .ready) (by decide +kernel) fun w hw hready => ?_
  have hrun : Run.Reaches (opStep (outEnv crypto)) (fun _ _ => True)
      (outbound crypto) w := exec_reaches (fun _ _ _ => trivial) hw
  obtain ⟨_, _, harrived, hacked⟩ := outbound_authentication rfl hrun hready
  exact ⟨hready, harrived, hacked⟩

end Belnet.Iwp
