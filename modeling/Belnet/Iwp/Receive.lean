import Belnet.Iwp.Operations

/-!
# The receive path and whole runs of a session
-/

namespace Belnet.Iwp
open World Relation List Run Job

section
variable {σ : Type} {env : Env σ} {t : Clock}

def State.early : State → Bool
  | .initial | .introduction => true
  | _ => false

def World.took (w : World σ) (c : Packet) (x : Io) : World σ :=
  { w with inq := { w.inq with received := w.inq.received ++ [c] }, io := x }

/-- `p` is an Introduction of `ident` with the key `onion`, the nonce `n` and a signature that verifies -/
structure IsIntroduction (c : Crypto) (p : Packet) (ident onion : PubKey) (n : TunnelNonce) : Prop where
  ident_eq : readBuf 32 p packetOverhead = .ok ident
  onion_eq : readBuf 32 p (packetOverhead + 32) = .ok onion
  nonce_eq : readBuf 32 p (packetOverhead + 64) = .ok n
  signed : ∃ z body, readBuf 64 p (packetOverhead + 96) = .ok z ∧
    readSlice p packetOverhead 96 = .ok body ∧ c.verify ident body z = true

inductive Receipt (env : Env σ) (t : Clock) (c : Packet) (w : World σ) : World σ → Prop where
  | ignored (x : Io) : Receipt env t c w (w.took c x)
  | queued (x : Io) (hst : w.ctl.state.early = false) : Receipt env t c w ((w.took c x).handleSessionData c)
  -- an Introduction that was not accepted leaves its identity and key behind
  | named (x : Io) (ident onion : PubKey) (hst : w.ctl.state = .initial) (hin : w.inbound = true) :
      Receipt env t c w { w.took c x with
        ctl := { w.ctl with expectedIdent := ident, remoteOnionKey := onion } }
  | introduced (x : Io) {p reply : Packet} {ident onion : PubKey} {n : TunnelNonce} {key : SharedSecret}
      (hst : w.ctl.state = .initial) (hin : w.inbound = true)
      (hdec : decryptMessageInPlace env.crypto w.ctl.sessionKey c = some p)
      (hintro : IsIntroduction env.crypto p ident onion n)
      (hkey : env.crypto.transportDhServer onion env.transportSecretKey n = some key) :
      Receipt env t c w { w.took c x with
        created := w.created ++ [reply]
        ctl := { w.ctl with
          expectedIdent := ident, remoteOnionKey := onion, sessionKey := key
          state := .introduction, calls := w.ctl.calls ++ [.state .introduction] } }
  | echoed (x : Io) {p : Packet} {w' : World σ} (hst : w.ctl.state = .introduction) (hin : w.inbound = true)
      (hdec : decryptMessageInPlace env.crypto w.ctl.sessionKey c = some p)
      (htoken : readBuf 24 p packetOverhead = .ok w.ctl.token)
      (hmoves : Moves env t .call ({ w.took c x with ctl := { w.ctl with
        state := .linkIntro, calls := w.ctl.calls ++ [.state .linkIntro] } } : World σ) w') :
      Receipt env t c w w'
  | introAcked (x : Io) {p reply : Packet} (token : AlignedBuffer 24) (hst : w.ctl.state = .introduction)
      (hout : w.inbound = false)
      (hdec : decryptMessageInPlace env.crypto w.ctl.sessionKey c = some p) :
      Receipt env t c w { w.took c x with
        created := w.created ++ [reply]
        ctl := { w.ctl with
          token := token, state := .linkIntro, calls := w.ctl.calls ++ [.state .linkIntro] } }

variable {c p : Packet} {w : World σ}

lemma handleGotIntro_receipt {w' : World σ} {x : Io} (hst : w.ctl.state = .initial)
    (hin : w.inbound = true) (hdec : decryptMessageInPlace env.crypto w.ctl.sessionKey c = some p)
    (h : (w.took c x).handleGotIntro env t p = .ok w') : Receipt env t c w w' := by
  unfold handleGotIntro at h
  split at h
  · cases h
    exact .ignored x
  obtain ⟨ident, hident, h⟩ := ok_bind.mp h
  obtain ⟨onion, honion, h⟩ := ok_bind.mp h
  obtain ⟨n, hn, h⟩ := ok_bind.mp h
  obtain ⟨z, hz, h⟩ := ok_bind.mp h
  obtain ⟨body, hbody, h⟩ := ok_bind.mp h
  split at h
  · cases h
    exact .named x ident onion hst hin
  rename_i hver
  split at h
  · cases h
    exact .named x ident onion hst hin
  rename_i key hkey
  cases h
  have hver' : env.crypto.verify ident body z = true := by simpa using hver
  rw [encryptSend_eq]
  exact .introduced _ hst hin hdec ⟨hident, honion, hn, z, body, hz, hbody, hver'⟩ hkey

section
variable {w w' : World σ} {x : Io} (hst : w.ctl.state = .introduction)
include hst

lemma create_receipt (hin : w.inbound = true)
    (h : (w.took c x).handleCreateSessionRequest env t c = .ok w') : Receipt env t c w w' := by
  unfold handleCreateSessionRequest at h
  split at h
  · cases h
    exact .ignored x
  rename_i p hdec
  split at h
  · cases h
    exact .ignored x
  obtain ⟨echoed, hecho, h⟩ := ok_bind.mp h
  split at h
  · cases h
    exact .ignored x
  rename_i hsame
  have htoken : echoed = w.ctl.token := not_not.mp hsame
  rw [htoken] at hecho
  exact .echoed _ hst hin hdec hecho (sendLIM_moves h)

lemma gotIntroAck_receipt (hout : w.inbound = false)
    (h : (w.took c x).handleGotIntroAck env t c = .ok w') : Receipt env t c w w' := by
  unfold handleGotIntroAck at h
  split at h
  · cases h
    exact .ignored x
  split at h
  · cases h
    exact .ignored x
  rename_i p hdec
  obtain ⟨token, _, h⟩ := ok_bind.mp h
  cases h
  rw [encryptSend_eq]
  exact .introAcked _ token hst hout hdec

end

lemma recvLL_receipt {w' : World σ} {b : Bool} (h : w.recvLL env t c = .ok (b, w')) : Receipt env t c w w' := by
  unfold recvLL at h
  dsimp only at h
  split at h
  · rename_i hst
    split at h
    · rename_i hin
      split at h
      · rename_i p hdec
        obtain ⟨v, hv, h⟩ := ok_bind.mp h
        cases h
        exact handleGotIntro_receipt hst hin hdec hv
      · cases h
        exact .ignored _
    · cases h
      exact .ignored _
  · rename_i hst
    split at h
    · rename_i hin
      obtain ⟨v, hv, h⟩ := ok_bind.mp h
      cases h
      exact create_receipt hst hin hv
    · rename_i hin
      obtain ⟨v, hv, h⟩ := ok_bind.mp h
      cases h
      exact gotIntroAck_receipt hst (by simpa using hin) hv
  · rename_i hini hintro
    cases h
    refine .queued _ ?_
    cases hst : w.ctl.state with
    | initial => exact absurd hst hini
    | introduction => exact absurd hst hintro
    | _ => rfl

def Dispatches (env : Env σ) (good : Clock → Packet → World σ → Prop) (i : Clock × Op σ) (w : World σ) : Prop :=
  i.2 = .handlePlaintext → w.inq.plaintextEmpty = false → ∀ l₁ p l₂ v, w.inq.plaintextRecv.flatten = l₁ ++ p :: l₂ →
      l₁.foldlM (fun v p => v.act env i.1 (.packet p))
        { w with inq := { w.inq with plaintextEmpty := true, plaintextRecv := [] } } = .ok v →
      good i.1 p v

variable {good : Clock → Packet → World σ → Prop} {I : World σ → Prop}

lemma plaintext_inv {w' : World σ} (h : w.handlePlaintext env t = .ok w')
    (hgood : Dispatches env good (t, .handlePlaintext) w)
    (hpacket : ∀ p ∈ w.inq.plaintextRecv.flatten, ∀ v v', good t p v → I v →
      Moves env t (.packet p (v.dispatched p)) (v.dispatched p) v' → I v')
    (hmack : ∀ v v', I v → Moves env t .call v v' → I v')
    (hclear : I { w with inq := { w.inq with plaintextEmpty := true, plaintextRecv := [] } })
    (h0 : I w) : I w' := by
  unfold handlePlaintext at h
  split at h
  · cases h
    exact h0
  rename_i hsome
  obtain ⟨v, hv, h⟩ := ok_bind.mp h
  cases h
  refine hmack v _ ?_ (sendMACK_moves v)
  -- along the queue: the packets dispatched so far led to a state with `I`
  have hfold : ∀ l₂ l₁ u, w.inq.plaintextRecv.flatten = l₁ ++ l₂ → l₁.foldlM (fun v p => v.act env t (.packet p))
        { w with inq := { w.inq with plaintextEmpty := true, plaintextRecv := [] } } = .ok u →
      I u → l₂.foldlM (fun v p => v.act env t (.packet p)) u = .ok v → I v := by
    intro l₂
    induction l₂ with
    | nil =>
      intro l₁ u _ _ hu hlast
      cases hlast
      exact hu
    | cons p l₂ ih =>
      intro l₁ u hl hpre hu hlast
      obtain ⟨u', hu', hlast⟩ := ok_bind.mp hlast
      have hp : p ∈ w.inq.plaintextRecv.flatten := by
        rw [hl]
        exact mem_append_right _ mem_cons_self
      have hg := hgood rfl (by simpa using hsome) l₁ p l₂ u hl hpre
      refine ih (l₁ ++ [p]) u' (by rw [hl, append_assoc]; rfl) ?_
        (hpacket p hp u u' hg hu (handlePacket_moves hu')) hlast
      rw [foldlM_append, hpre]
      exact ok_bind.mpr ⟨u, rfl, ok_bind.mpr ⟨u', hu', rfl⟩⟩
  exact hfold _ [] _ rfl rfl hclear hv

def World.Authentic (env : Env σ) (w : World σ) (p : Packet) : Prop :=
  ∃ c ∈ w.inq.received, decryptMessageInPlace env.crypto w.ctl.sessionKey c = some p

structure World.Queued (env : Env σ) (w : World σ) : Prop where
  early : w.ctl.state.early = true → w.inq.decryptNext = [] ∧ (∀ ms, Job.decrypt ms ∉ w.inq.work) ∧
    w.inq.plaintextRecv = [] ∧ w.inq.handled = []
  waiting : ∀ c ∈ w.inq.decryptNext, c ∈ w.inq.received
  jobs : ∀ ms, Job.decrypt ms ∈ w.inq.work → ∀ c ∈ ms, c ∈ w.inq.received
  plain : ∀ p ∈ w.inq.plaintextRecv.flatten, w.Authentic env p
  handled : ∀ p ∈ w.inq.handled, w.Authentic env p

structure World.Onward (w w' : World σ) : Prop where
  state : w'.ctl.state = w.ctl.state ∨ w'.ctl.state = .ready ∨ w'.ctl.state = .closed
  key : w'.ctl.sessionKey = w.ctl.sessionKey
  token : w'.ctl.token = w.ctl.token
  ident : w'.ctl.expectedIdent = w.ctl.expectedIdent
  onion : w'.ctl.remoteOnionKey = w.ctl.remoteOnionKey
  inbound : w'.inbound = w.inbound
  remoteAddr : w'.remoteAddr = w.remoteAddr

lemma World.Onward.early {w' : World σ} (h : w.Onward w') (he : w'.ctl.state.early = true) :
    w.ctl.state.early = true := by
  rcases h.state with hst | hst | hst
  · rw [← hst]
    exact he
  · rw [hst] at he
    cases he
  · rw [hst] at he
    cases he

lemma Onward.refl (w : World σ) : w.Onward w := ⟨.inl rfl, rfl, rfl, rfl, rfl, rfl, rfl⟩

lemma Onward.trans {u v : World σ} (h : u.Onward v) (h' : v.Onward w) : u.Onward w :=
  ⟨h'.state.elim (fun heq => heq ▸ h.state) .inr, h'.key.trans h.key, h'.token.trans h.token, h'.ident.trans h.ident,
    h'.onion.trans h.onion, h'.inbound.trans h.inbound, h'.remoteAddr.trans h.remoteAddr⟩

lemma establish_onward (env : Env σ) (w : World σ) (inbound : Bool) : w.Onward (w.establish env inbound) := by
  unfold establish
  by_cases hr : (env.mapAddr w.parent w.ctl.remoteRC.pubkey w.remoteAddr).2 = true
  · rw [if_pos hr]
    exact ⟨.inr (.inr rfl), rfl, rfl, rfl, rfl, rfl, rfl⟩
  · rw [if_neg hr]
    exact ⟨.inl rfl, rfl, rfl, rfl, rfl, rfl, rfl⟩

variable {cause : Cause σ}

lemma Move.onward {w' : World σ} (h : Move env t cause w w') : w.Onward w' := by
  cases h with
  | shut hst => exact ⟨.inr (.inr rfl), rfl, rfl, rfl, rfl, rfl, rfl⟩
  | limIn hp =>
    refine Onward.trans ?_ (establish_onward env _ true)
    exact ⟨.inr (.inl rfl), rfl, rfl, rfl, rfl, rfl, rfl⟩
  | limAcked hp hby hst h =>
    refine Onward.trans ?_ (establish_onward env _ false)
    exact ⟨.inr (.inl rfl), rfl, rfl, rfl, rfl, rfl, rfl⟩
  | _ => exact ⟨.inl rfl, rfl, rfl, rfl, rfl, rfl, rfl⟩

lemma Moves.onward {w' : World σ} (h : Moves env t cause w w') : w.Onward w' := by
  induction h with
  | refl => exact Onward.refl _
  | tail _ hm ih => exact Onward.trans ih hm.onward

namespace World.Queued
variable {w w' : World σ}

section
variable (hw : w.Queued env)
include hw

lemma moves (h : Moves env t cause w w') : w'.Queued env := by
  have hinq := h.inq_eq
  have hon := h.onward
  have hauth : ∀ p, w.Authentic env p → w'.Authentic env p := by
    rintro p ⟨c, hc, hdec⟩
    exact ⟨c, by rw [hinq]; exact hc, by rw [hon.key]; exact hdec⟩
  refine ⟨fun he => ?_, ?_, ?_, fun p hp => ?_, fun p hp => ?_⟩
  · rw [hinq]
    exact hw.early (hon.early he)
  · rw [hinq]
    exact hw.waiting
  · rw [hinq]
    exact hw.jobs
  · rw [hinq] at hp
    exact hauth p (hw.plain p hp)
  · rw [hinq] at hp
    exact hauth p (hw.handled p hp)

lemma dispatched (hlate : w.ctl.state.early = false) (hp : w.Authentic env p) : (w.dispatched p).Queued env := by
  refine ⟨fun he => ?_, hw.waiting, hw.jobs, hw.plain, fun q hq => ?_⟩
  · rw [show (w.dispatched p).ctl.state.early = false from hlate] at he
    cases he
  · rcases mem_concat.mp hq with hq | rfl
    · exact hw.handled q hq
    · exact hp

lemma took (c : Packet) (x : Io) : (w.took c x).Queued env := by
  have hmem : ∀ d ∈ w.inq.received, d ∈ (w.took c x).inq.received := fun d hd => mem_append_left _ hd
  have hauth : ∀ p, w.Authentic env p → (w.took c x).Authentic env p := fun p ⟨d, hd, hdec⟩ => ⟨d, hmem d hd, hdec⟩
  exact ⟨hw.early, fun d hd => hmem d (hw.waiting d hd), fun ms hms d hd => hmem d (hw.jobs ms hms d hd),
    fun p hp => hauth p (hw.plain p hp), fun p hp => hauth p (hw.handled p hp)⟩

lemma of_early (he : w.ctl.state.early = true) (ctl : Ctl) (created : List Packet) :
    ({ w with ctl := ctl, created := created } : World σ).Queued env := by
  obtain ⟨hnext, hwork, hplain, hhandled⟩ := hw.early he
  refine ⟨fun _ => ⟨hnext, hwork, hplain, hhandled⟩, hw.waiting, hw.jobs, fun p hp => ?_, fun p hp => ?_⟩
  · rw [show w.inq.plaintextRecv = [] from hplain] at hp
    cases hp
  · rw [show w.inq.handled = [] from hhandled] at hp
    cases hp

lemma receipt (h : Receipt env t c w w') : w'.Queued env := by
  have htook : ∀ x, (w.took c x).Queued env := fun x => hw.took c x
  cases h with
  | ignored x => exact htook x
  | queued x hst =>
    have hq := htook x
    refine ⟨fun he => ?_, fun d hd => ?_, hq.jobs, hq.plain, hq.handled⟩
    · rw [show ((w.took c x).handleSessionData c).ctl.state.early = false from hst] at he
      cases he
    · rcases mem_concat.mp hd with hd | rfl
      · exact hq.waiting d hd
      · exact mem_append_right _ mem_cons_self
  | named x ident onion hst hin | introduced x hst hin hdec hintro _
  | introAcked x token hst hout hdec => exact (htook x).of_early (congrArg State.early hst) _ _
  | echoed x hst hin hdec htoken hmoves => exact ((htook x).of_early (congrArg State.early hst) _ _).moves hmoves

lemma of_work {work : List Job} (hmem : ∀ ds, decrypt ds ∈ work → decrypt ds ∈ w.inq.work) (x : Io) :
    ({ w with inq := { w.inq with work := work }, io := x } : World σ).Queued env := by
  refine ⟨fun he => ?_, hw.waiting, fun ds hds => hw.jobs ds (hmem ds hds), hw.plain, hw.handled⟩
  obtain ⟨hnext, hwork, hrest⟩ := hw.early he
  exact ⟨hnext, fun ds hds => hwork ds (hmem ds hds), hrest⟩

lemma postEncrypt (ms : List Packet) (x : Io) :
    ({ w with inq := { w.inq with work := w.inq.work ++ [.encrypt ms] }, io := x } : World σ).Queued env :=
  hw.of_work (fun ds hds => (mem_append.mp hds).resolve_right fun h => by simp at h) x

lemma postDecrypt (hsome : w.inq.decryptNext ≠ []) : ({ w with inq := { w.inq with
      work := w.inq.work ++ [.decrypt w.inq.decryptNext], decryptNext := [] } } : World σ).Queued env := by
  refine ⟨fun he => absurd (hw.early he).1 hsome, fun c hc => (nomatch hc), fun ds hds => ?_, hw.plain, hw.handled⟩
  rcases mem_concat.mp hds with hds | heq
  · exact hw.jobs ds hds
  · cases heq
    exact hw.waiting

lemma queueWork : w.queueWork.Queued env := by
  unfold World.queueWork
  split
  · dsimp only
    split
    · exact hw
    · rename_i hsome
      exact hw.postDecrypt hsome
  · dsimp only
    split
    · exact hw.postEncrypt _ _
    · rename_i hsome
      exact (hw.postEncrypt _ _).postDecrypt hsome

lemma runWork (i : ℕ) : (w.runWork env t i).Queued env := by
  unfold World.runWork
  split
  · exact hw
  rename_i job hjob
  have hrest : ({ w with inq := { w.inq with work := w.inq.work.eraseIdx i } } : World σ).Queued env :=
    hw.of_work (fun ds hds => mem_of_mem_eraseIdx hds) w.io
  cases job with
  | encrypt ms =>
    show (encryptWorker env t _ ms).Queued env
    rw [encryptWorker_eq]
    exact ⟨hrest.early, hrest.waiting, hrest.jobs, hrest.plain, hrest.handled⟩
  | decrypt ms =>
    have hmem := mem_of_getElem? hjob
    refine ⟨fun he => absurd hmem ((hw.early he).2.1 ms), hrest.waiting, hrest.jobs, fun p hp => ?_, hrest.handled⟩
    -- the new packets decrypt received ones
    have hnew : ∀ q ∈ ms.filterMap (decryptOne env { w with
        inq := { w.inq with work := w.inq.work.eraseIdx i } }), w.Authentic env q := by
      intro q hq
      obtain ⟨c, hc, hdec⟩ := mem_filterMap.mp hq
      unfold decryptOne at hdec
      split at hdec
      · cases hdec
      rename_i q' hq'
      split at hdec
      · cases hdec
        exact ⟨c, hw.jobs ms hmem c hc, hq'⟩
      · cases hdec
    obtain ⟨l, hl, hpl⟩ := mem_flatten.mp hp
    have hcases : l ∈ w.inq.plaintextRecv ∨ l = ms.filterMap (decryptOne env { w with
        inq := { w.inq with work := w.inq.work.eraseIdx i } }) := by
      have hl' : l ∈ (if w.inq.plaintextRecv.length < plaintextQueueSize then
          w.inq.plaintextRecv ++ [ms.filterMap (decryptOne env { w with
            inq := { w.inq with work := w.inq.work.eraseIdx i } })] else w.inq.plaintextRecv) := hl
      split at hl'
      · exact (mem_append.mp hl').imp_right mem_singleton.mp
      · exact .inl hl'
    rcases hcases with hold | rfl
    · exact hw.plain p (mem_flatten.mpr ⟨l, hold, hpl⟩)
    · exact hnew p hpl

end

end World.Queued

def World.requeue (w : World σ) (x : Io) (q : Inq) : World σ :=
  { w with
    io := x
    inq := { q with received := w.inq.received, handled := w.inq.handled } }

lemma queueWork_requeue (w : World σ) : w.queueWork = w.requeue w.queueWork.io w.queueWork.inq := by
  unfold queueWork
  split
  all_goals
    dsimp only
    split <;> rfl

lemma runWork_requeue (env : Env σ) (t : Clock) (w : World σ) (i : ℕ) :
    w.runWork env t i = w.requeue (w.runWork env t i).io (w.runWork env t i).inq := by
  unfold runWork
  split
  · rfl
  rename_i job hjob
  cases job with
  | encrypt ms =>
    dsimp only [runJob]
    rw [encryptWorker_eq]
    rfl
  | decrypt ms => rfl

structure Dispatched (env : Env σ) (good : Clock → Packet → World σ → Prop) (t : Clock) (p : Packet)
    (v : World σ) : Prop where
  late : v.ctl.state.early = false
  authentic : v.Authentic env p
  good : good t p v

structure Handling (env : Env σ) (good : Clock → Packet → World σ → Prop) (I : World σ → Prop) (t : Clock)
    (p : Packet) (w₀ v : World σ) : Prop where
  start : ∃ u, w₀ = u.dispatched p ∧ Dispatched env good t p u
  inq_eq : v.inq = w₀.inq
  inv : I w₀

lemma Handling.handled {w₀ v : World σ} (h : Handling env good I t p w₀ v) : p ∈ v.inq.handled := by
  obtain ⟨u, rfl, _⟩ := h.start
  rw [h.inq_eq]
  exact mem_append_right _ mem_cons_self

/-- the key and the received packets stay while packets are dispatched, and the state does not go back -/
structure World.Steady (w v : World σ) : Prop where
  late : w.ctl.state.early = false → v.ctl.state.early = false
  key : v.ctl.sessionKey = w.ctl.sessionKey
  received : v.inq.received = w.inq.received

lemma World.Steady.moves {u v v' : World σ} (h : w.Steady v) (hm : Moves env t cause u v')
    (hctl : u.ctl = v.ctl) (hrec : u.inq.received = v.inq.received) : w.Steady v' := by
  have hon := hm.onward
  refine ⟨fun hl => ?_, ?_, ?_⟩
  · rw [Bool.eq_false_iff]
    intro he
    have hearly := hon.early he
    rw [hctl, h.late hl] at hearly
    cases hearly
  · rw [hon.key, hctl, h.key]
  · rw [hm.inq_eq, hrec, h.received]

section
variable (hmove : ∀ cause v v', Move env t cause v v' →
    (∀ p w₀, cause = .packet p w₀ → Handling env good I t p w₀ v) → I v → I v')
  (hdispatch : ∀ p v, Dispatched env good t p v → I v → I (v.dispatched p))
  (hrequeue : ∀ (v : World σ) x q, I v → I (v.requeue x q))
include hmove hdispatch hrequeue

lemma handlePlaintext_step {w' : World σ} (h : w.handlePlaintext env t = .ok w') (hq : w.Queued env)
    (hgood : Dispatches env good (t, .handlePlaintext) w) (h0 : I w) : w'.Queued env ∧ I w' := by
  have hinv := plaintext_inv (I := fun v => (v.Queued env ∧ I v) ∧ w.Steady v) h hgood ?_ ?_ ?_ ?_
  · exact hinv.1
  · rintro p hp v v' hg ⟨⟨hvq, hvi⟩, hst⟩ hm
    have hwlate : w.ctl.state.early = false := by
      rw [Bool.eq_false_iff]
      intro he
      rw [(hq.early he).2.2.1] at hp
      cases hp
    obtain ⟨c, hc, hdec⟩ := hq.plain p hp
    have hd : Dispatched env good t p v :=
      ⟨hst.late hwlate, ⟨c, by rw [hst.received]; exact hc, by rw [hst.key]; exact hdec⟩, hg⟩
    have hi := hdispatch p v hd hvi
    refine ⟨⟨(hvq.dispatched hd.late hd.authentic).moves hm, ?_⟩, hst.moves hm rfl rfl⟩
    exact hm.inv (fun a b hinq hab ha => hmove _ a b hab (fun _ w₀ heq => by
      cases heq
      exact ⟨⟨v, rfl, hd⟩, hinq, hi⟩) ha) hi
  · rintro v v' ⟨⟨hvq, hvi⟩, hst⟩ hm
    refine ⟨⟨hvq.moves hm, ?_⟩, hst.moves hm rfl rfl⟩
    exact hm.inv (fun a b _ hab ha => hmove _ a b hab (fun _ _ hp => (nomatch hp)) ha) hvi
  · refine ⟨⟨⟨fun he => ?_, hq.waiting, hq.jobs, fun p hp => (nomatch hp), hq.handled⟩, ?_⟩, fun hl => hl, rfl, rfl⟩
    · exact ⟨(hq.early he).1, (hq.early he).2.1, rfl, (hq.early he).2.2.2⟩
    · exact hrequeue w w.io { w.inq with plaintextEmpty := true, plaintextRecv := [] } h0
  · exact ⟨⟨hq, h0⟩, fun hl => hl, rfl, rfl⟩

lemma step_inv {op : Op σ} {w' : World σ} (h : step env t op w = .ok w') (hq : w.Queued env)
    (hgood : Dispatches env good (t, op) w) (hrecv : ∀ c v', Receipt env t c w v' → I w → I v')
    (hparent : ∀ (v : World σ) parent, I v → I { v with parent := parent })
    (h0 : I w) : w'.Queued env ∧ I w' := by
  have hplain : ∀ {cause : Cause σ} {v v' : World σ}, cause.pkt = none → Moves env t cause v v' →
      v.Queued env → I v → v'.Queued env ∧ I v' := fun hc hm hv hi =>
    ⟨hv.moves hm, hm.inv (fun a b _ hab ha => hmove _ a b hab (fun p w₀ hp => by
      rw [hp] at hc
      cases hc) ha) hi⟩
  have hcall : ∀ {v v' : World σ}, Moves env t .call v v' → v.Queued env → I v →
      v'.Queued env ∧ I v' := fun hm => hplain rfl hm
  cases op with
  | recvLL c =>
    obtain ⟨⟨b, v⟩, hv, h⟩ := ok_bind.mp h
    cases h
    have hr := recvLL_receipt hv
    exact ⟨hq.receipt hr, hrecv c v hr h0⟩
  | pump =>
    obtain ⟨v, hv, rfl⟩ := pump_moves h
    obtain ⟨hvq, hvi⟩ := hcall hv hq h0
    refine ⟨hvq.queueWork, ?_⟩
    rw [queueWork_requeue]
    exact hrequeue v _ _ hvi
  | tick =>
    cases h
    exact hplain rfl (tick_moves w) hq h0
  | sendMessageBuffer buf hd =>
    obtain ⟨⟨b, v⟩, hv, h⟩ := ok_bind.mp h
    cases h
    exact hcall (sendBuffer_moves hv (by cases hd <;> nofun)) hq h0
  | close =>
    cases h
    exact hcall (Moves.close w) hq h0
  | work i =>
    cases h
    refine ⟨hq.runWork i, ?_⟩
    rw [runWork_requeue]
    exact hrequeue w _ _ h0
  | handlePlaintext => exact handlePlaintext_step hmove hdispatch hrequeue h hq hgood h0
  | renegotiateSession => exact hcall (sendLIM_moves h) hq h0
  | sendKeepAlive =>
    cases h
    exact hcall (keepAlive_moves w) hq h0
  | parent p =>
    cases h
    exact ⟨⟨hq.early, hq.waiting, hq.jobs, hq.plain, hq.handled⟩, hparent w p h0⟩

end

inductive Change (env : Env σ) (t : Clock) : World σ → World σ → Prop where
  | receipt {c : Packet} {w w' : World σ} (h : Receipt env t c w w') : Change env t w w'
  | move {cause : Cause σ} {w w' : World σ} (h : Move env t cause w w') : Change env t w w'
  | dispatch (w : World σ) (p : Packet) : Change env t w (w.dispatched p)
  | requeue (w : World σ) (x : Io) (q : Inq) : Change env t w (w.requeue x q)

lemma step_changes {op : Op σ} {w' : World σ} (h : step env t op w = .ok w')
    (hop : ∀ p, op ≠ .parent p) : ReflTransGen (Change env t) w w' := by
  have hmoves : ∀ {cause : Cause σ} {v v' : World σ}, Moves env t cause v v' →
      ReflTransGen (Change env t) v v' := fun hm => hm.lift id (fun _ _ => .move)
  have hcall : ∀ {v v' : World σ}, Moves env t .call v v' → ReflTransGen (Change env t) v v' := hmoves
  cases op with
  | recvLL =>
    obtain ⟨⟨b, v⟩, hv, h⟩ := ok_bind.mp h
    cases h
    exact .single (.receipt (recvLL_receipt hv))
  | pump =>
    obtain ⟨v, hv, rfl⟩ := pump_moves h
    rw [queueWork_requeue]
    exact (hcall hv).tail (.requeue v _ _)
  | tick =>
    cases h
    exact hmoves (tick_moves w)
  | sendMessageBuffer buf hd =>
    obtain ⟨⟨b, v⟩, hv, h⟩ := ok_bind.mp h
    cases h
    exact hcall (sendBuffer_moves hv (by cases hd <;> nofun))
  | close =>
    cases h
    exact hcall (Moves.close w)
  | work i =>
    cases h
    show ReflTransGen (Change env t) w (w.runWork env t i)
    rw [runWork_requeue]
    exact .single (.requeue w _ _)
  | handlePlaintext =>
    have hgood : Dispatches env (fun _ _ _ => True) (t, .handlePlaintext) w := fun _ _ _ _ _ _ _ _ => trivial
    refine plaintext_inv (I := ReflTransGen (Change env t) w) h hgood ?_
      (fun _ _ hv hm => hv.trans (hcall hm)) ?_ .refl
    · exact fun p _ v v' _ hv hm => (hv.tail (.dispatch v p)).trans (hmoves hm)
    · exact .single (.requeue w w.io { w.inq with plaintextEmpty := true, plaintextRecv := [] })
  | renegotiateSession => exact hcall (sendLIM_moves h)
  | sendKeepAlive =>
    cases h
    exact hcall (keepAlive_moves w)
  | parent p => exact absurd rfl (hop p)

def World.newInbound (env : Env σ) (now : Millis) (src : SockAddr) (token : AlignedBuffer 24) (parent : σ) : World σ :=
  { Session.newInbound env.crypto now src env.ourRC.pubkey token with parent := parent }

def World.newOutbound (env : Env σ) (t : Clock) (rc : RouterContact) (ai : AddressInfo) (parent : σ) : World σ :=
  ({ Session.newOutbound env.crypto t.now rc ai with parent := parent } : World σ).start env t

inductive Begins (env : Env σ) : World σ → Prop where
  | inbound (now : Millis) (src : SockAddr) (token : AlignedBuffer 24) (parent : σ) :
      Begins env (.newInbound env now src token parent)
  | outbound (t : Clock) (rc : RouterContact) (ai : AddressInfo) (parent : σ) :
      Begins env (.newOutbound env t rc ai parent)

def World.opStep (env : Env σ) (i : Clock × Op σ) (w : World σ) : Except Fault (World σ) := w.step env i.1 i.2

def introPacket (env : Env σ) (k : ℕ) : Packet :=
  let signbuf := introBody env.ourRC.pubkey (env.toPublic env.routerEncryptionSecret) (env.rng.nonce k)
  rawPacket env.rng k (signbuf ++ ((env.sign signbuf).getD (.zero 64)).toList)

lemma newOutbound_eq (env : Env σ) (t : Clock) (rc : RouterContact) (ai : AddressInfo) (parent : σ) :
    ∃ x : Io, newOutbound env t rc ai parent =
      { Session.newOutbound env.crypto t.now rc ai with
        parent := parent
        io := x
        created := [introPacket env 0]
        ctl := { (Session.newOutbound env.crypto t.now rc ai).ctl with
          state := .introduction
          calls := [.state .introduction]
          sessionKey := (env.crypto.transportDhClient ai.pubkey env.routerEncryptionSecret
            (env.rng.nonce 0)).getD (env.crypto.shorthash rc.pubkey.toList) } } := by
  unfold newOutbound start generateAndSendIntro
  simp only [Session.newOutbound, encryptSend_eq, setState, Bool.false_eq_true, if_false, length_nil, nil_append]
  cases env.crypto.transportDhClient ai.pubkey env.routerEncryptionSecret (env.rng.nonce 0) with
  | none | some => exact ⟨_, rfl⟩

lemma Begins.queued (h : Begins env w) : w.Queued env := by
  rcases h with ⟨_, _, _, parent⟩ | ⟨t, rc, ai, parent⟩
  on_goal 2 =>
    obtain ⟨x, hx⟩ := newOutbound_eq env t rc ai parent
    rw [hx]
  all_goals
    exact ⟨fun _ => ⟨rfl, fun ms h => (nomatch h), rfl, rfl⟩, fun c h => (nomatch h),
      fun ms h => (nomatch h), fun p h => (nomatch h), fun p h => (nomatch h)⟩

lemma run_inv {w₀ : World σ} (h₀ : Begins env w₀) (hrun : Run.Reaches (opStep env) (Dispatches env good) w₀ w)
    (hrecv : ∀ t c v v', Receipt env t c v v' → I v → I v')
    (hmove : ∀ t cause v v', Move env t cause v v' →
      (∀ p w₀, cause = .packet p w₀ → Handling env good I t p w₀ v) → I v → I v')
    (hdispatch : ∀ t p v, Dispatched env good t p v → I v → I (v.dispatched p))
    (hrequeue : ∀ (v : World σ) x q, I v → I (v.requeue x q))
    (hparent : ∀ (v : World σ) parent, I v → I { v with parent := parent })
    (hinit : I w₀) : w.Queued env ∧ I w :=
  hrun.inv (I := fun v => v.Queued env ∧ I v)
    (fun i a _ ha hg hstep => step_inv (hmove i.1) (hdispatch i.1) hrequeue hstep ha.1 hg
      (fun c => hrecv i.1 c a) hparent ha.2) ⟨h₀.queued, hinit⟩

end

end Belnet.Iwp
