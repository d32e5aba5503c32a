import Belnet.Iwp.Receive

/-!
# Closed sessions

Assignments to `m_State` and calls of `MapAddr` and `SessionEstablished` are in `Ctl.calls`: "closed from now on" is
about that list.
-/

namespace Belnet.Iwp
open World Relation List Run Call

section
variable {σ : Type} {env : Env σ} {t : Clock}

def Call.next (st : State) : Call → State
  | .state st' => st'
  | _ => st

def stateAfter (l : List Call) : State := l.foldl Call.next .initial

def Call.reopens : Call → Bool
  | .state st => st ≠ .closed
  | .mapAddr _ _ => true
  | .sessionEstablished _ => true
  | _ => false

def Allowed : State → List Call → Prop
  | _, [] => True
  | st, x :: l => (st = .closed → x.reopens = false) ∧ Allowed (x.next st) l

variable {l : List Call} {l' : List Call} {st : State}

lemma Allowed.append (h : Allowed st l) (h' : Allowed (l.foldl next st) l') : Allowed st (l ++ l') := by
  induction l generalizing st with
  | nil => exact h'
  | cons x l ih => exact ⟨h.1, ih h.2 h'⟩

lemma Allowed.of_append (h : Allowed st (l ++ l')) : Allowed (l.foldl next st) l' := by
  induction l generalizing st with
  | nil => exact h
  | cons x l ih => exact ih h.2

lemma Allowed.closed (h : Allowed .closed l) : l.foldl next .closed = .closed ∧ ∀ x ∈ l, x.reopens = false := by
  induction l with
  | nil => exact ⟨rfl, fun x hx => (nomatch hx)⟩
  | cons x l ih =>
    have hx := h.1 rfl
    have hnext : x.next .closed = .closed := by
      cases x with
      | state => exact not_not.mp (of_decide_eq_false hx)
      | _ => rfl
    obtain ⟨hstate, hall⟩ := ih (hnext ▸ h.2)
    refine ⟨by rw [foldl_cons, hnext, hstate], fun y hy => ?_⟩
    rcases mem_cons.mp hy with rfl | hy
    · exact hx
    · exact hall y hy

structure Ctl.Final (c : Ctl) : Prop where
  state_eq : c.state = stateAfter c.calls
  allowed : Allowed .initial c.calls

lemma Ctl.Final.add {c c' : Ctl} (h : c.Final) (hl : Allowed c.state l)
    (hcalls : c'.calls = c.calls ++ l) (hst : c'.state = l.foldl next c.state) : c'.Final := by
  rw [h.state_eq] at hl hst
  refine ⟨?_, ?_⟩
  · rw [hst, hcalls]
    unfold stateAfter
    rw [foldl_append]
  · rw [hcalls]
    exact h.allowed.append hl

/-- `p` acknowledges our link intro, or completes one of the expected identity for `GotInboundLIM` -/
def World.Revives (env : Env σ) (t : Clock) (w : World σ) (p : Packet) : Prop :=
  w.LimAckedBy p ∨ ∃ lim, w.Brings env t p lim ∧ w.ctl.gotLIM = .inbound ∧ lim.rc.pubkey = w.ctl.expectedIdent

def NotRevived (env : Env σ) (t : Clock) (p : Packet) (w : World σ) : Prop :=
  w.ctl.state = .closed → ¬ w.Revives env t p

variable {w : World σ}

lemma establish_final {c : Ctl} {inbound : Bool} (hc : c.Final)
    (hl : Allowed c.state l) (hcalls : w.ctl.calls = c.calls ++ l) (hready : l.foldl next c.state = .ready)
    (hst : w.ctl.state = .ready) (hadd : ∀ pk, mapAddr pk true ∉ (w.establish env inbound).ctl.calls) :
    (w.establish env inbound).ctl.Final := by
  have hw : w.ctl.Final := hc.add hl hcalls (by rw [hst, hready])
  unfold establish at hadd ⊢
  dsimp only at hadd ⊢
  split at hadd
  · exact absurd (mem_append_right _ mem_cons_self) (hadd _)
  rename_i hr
  rw [if_neg hr]
  refine hw.add (l := [.mapAddr w.ctl.remoteRC.pubkey false, .sessionEstablished inbound]) ?_ rfl rfl
  rw [hst]
  exact ⟨fun h => (nomatch h), fun h => (nomatch h), trivial⟩

variable {cause : Cause σ} {w' : World σ}

lemma Move.final (h : Move env t cause w w') (hgood : ∀ p w₀, cause = .packet p w₀ → NotRevived env t p w₀)
    (hadd : ∀ pk, mapAddr pk true ∉ w'.ctl.calls) (hw : w.ctl.Final) : w'.ctl.Final := by
  have hold : ∀ pk, mapAddr pk true ∉ w.ctl.calls := fun pk hmem => hadd pk (h.calls.subset hmem)
  cases h with
  | shut hst => refine hw.add (l := [.state .closed]) ⟨fun _ => rfl, trivial⟩ rfl rfl
  | @limIn p w₀ lim hp hctl hlim hook hpk =>
    have hopen : w.ctl.state ≠ .closed := fun hst =>
      hgood _ _ hp (hctl ▸ hst) (.inr ⟨lim, hlim, hctl ▸ hook, hctl ▸ hpk⟩)
    refine establish_final hw (l := [.gotLIM .inbound w.ctl.state true, .state .ready]) ?_ rfl rfl rfl hadd
    exact ⟨fun hst => absurd hst hopen, fun hst => absurd hst hopen, trivial⟩
  | limOut hp hlim hook hpk =>
    exact hw.add (l := [.gotLIM .outbound w.ctl.state true]) ⟨fun _ => rfl, trivial⟩ rfl rfl
  | limOther same => exact hw.add (l := [.gotLIM w.ctl.gotLIM w.ctl.state same]) ⟨fun _ => rfl, trivial⟩ rfl rfl
  | limAcked hp hby hst h =>
    have hopen : w.ctl.state ≠ .closed := fun hclosed => by
      rcases hst hclosed with hclosed | ⟨pk, hmem⟩
      · exact hgood _ _ hp hclosed (.inl hby)
      · exact hold pk hmem
    refine establish_final hw (l := [.limAcked w.ctl.state, .state .ready]) ?_ rfl rfl rfl hadd
    exact ⟨fun hst => absurd hst hopen, fun hst => absurd hst hopen, trivial⟩
  | _ => exact ⟨hw.state_eq, hw.allowed⟩

def World.InOrder (w : World σ) : Prop := (∀ pk, Call.mapAddr pk true ∉ w.ctl.calls) → w.ctl.Final

lemma Move.inOrder (h : Move env t cause w w')
    (hgood : ∀ p w₀, cause = .packet p w₀ → NotRevived env t p w₀) (hw : w.InOrder) : w'.InOrder :=
  fun hadd => h.final hgood hadd (hw fun pk hmem => hadd pk (h.calls.subset hmem))

lemma Receipt.inOrder {c : Packet} (h : Receipt env t c w w') (hw : w.InOrder) : w'.InOrder := by
  -- a step of the handshake assigns a state, and not in state `Closed`
  have hstep : ∀ {v : World σ} {st : State}, w.ctl.state.early = true →
      v.ctl.calls = w.ctl.calls ++ [.state st] → v.ctl.state = st → v.InOrder := by
    intro v st hearly hcalls hst hadd
    refine (hw fun pk hmem => hadd pk ?_).add (l := [.state st]) ⟨fun hclosed => ?_, trivial⟩ hcalls hst
    · rw [hcalls]
      exact mem_append_left _ hmem
    · rw [hclosed] at hearly
      cases hearly
  cases h with
  | ignored x | queued x hst => exact hw
  | named x ident onion hst hin => exact fun hadd => ⟨(hw hadd).state_eq, (hw hadd).allowed⟩
  | introduced x hst hin hdec hintro _
  | introAcked x token hst hout hdec => exact hstep (congrArg State.early hst) rfl rfl
  | echoed x hst hin hdec htoken hmoves =>
    refine hmoves.inv (fun a b _ hm ha => hm.inOrder (fun _ _ hp => (nomatch hp)) ha) ?_
    exact hstep (congrArg State.early hst) rfl rfl

lemma Begins.final (h : Begins env w) : w.ctl.Final := by
  cases h with
  | inbound now src token parent => exact ⟨rfl, trivial⟩
  | outbound t rc ai parent =>
    obtain ⟨x, hx⟩ := newOutbound_eq env t rc ai parent
    rw [hx]
    exact ⟨rfl, fun h => (nomatch h), trivial⟩

/-- If no packet revives a closed session and `MapAddr` refuses nothing, a closed session stays closed, with no later
assignment of another state, `MapAddr` or `SessionEstablished`. -/
theorem closed_stays_closed {w₀ w : World σ} (h₀ : Begins env w₀)
    (hrun : Run.Reaches (opStep env) (Dispatches env (NotRevived env)) w₀ w)
    (hadd : ∀ pk, Call.mapAddr pk true ∉ w.ctl.calls) :
    w.ctl.state = stateAfter w.ctl.calls ∧ ∀ l₁ l₂, w.ctl.calls = l₁ ++ l₂ → stateAfter l₁ = .closed →
        w.ctl.state = .closed ∧ ∀ x ∈ l₂, x.reopens = false := by
  have hinv := run_inv (I := InOrder) h₀ hrun (fun _ _ _ _ hr => hr.inOrder)
    (fun t cause v v' hm hc hv => hm.inOrder (fun p w₀ hp => by
      obtain ⟨u, rfl, hd⟩ := (hc p w₀ hp).start
      exact hd.good) hv)
    (fun t p v _ hv => hv) (fun v x q hv => hv) (fun _ _ hv => hv) (fun _ => h₀.final)
  have hfinal := hinv.2 hadd
  refine ⟨hfinal.state_eq, fun l₁ l₂ hl hclosed => ?_⟩
  have hlater : Allowed (stateAfter l₁) l₂ := Allowed.of_append (hl ▸ hfinal.allowed)
  rw [hclosed] at hlater
  obtain ⟨hstate, hcalls⟩ := hlater.closed
  refine ⟨?_, hcalls⟩
  rw [hfinal.state_eq, hl]
  unfold stateAfter at hclosed ⊢
  rw [foldl_append, hclosed, hstate]

end

/-! ## a small handshake -/

namespace Sample

def peer : RouterContact := ⟨.ofBytes 32 [9], [], none, []⟩

def peerLIM : LinkIntroMessage := ⟨peer, [], 0, .ofBytes 64 peer.pubkey.toList⟩

def limEnv : Env Unit :=
  { env with handleMessage := fun p data => (p, if data = [105] then some peerLIM else none) }

def token : AlignedBuffer 24 := .ofBytes 24 [1, 2, 3]

def inbound : World Unit := .newInbound limEnv 0 ⟨0, 1090⟩ token ()

def publicKey : SharedSecret := crypto.shorthash limEnv.ourRC.pubkey.toList

def nonce : TunnelNonce := .ofBytes 32 [5]

def intro (z : Signature) : Packet :=
  encryptPacket crypto publicKey (rawPacket limEnv.rng 0 (introBody peer.pubkey (.zero 32) nonce ++ z.toList))

def echo : Packet := encryptPacket crypto nonce (rawPacket limEnv.rng 1 token.toList)

def clos : Packet := encryptPacket crypto nonce (createPacket limEnv.rng 2 .clos [] 16 16)

def lim (key : SharedSecret) : Packet :=
  encryptPacket crypto key ((OutboundMessage.new crypto 0 [105] 0 none 0).xmit limEnv.rng 3)

def arrives (now : Millis) (p : Packet) : List (Clock × Op Unit) :=
  [(clock now, .recvLL p), (clock now, .pump), (clock now, .work 0), (clock now, .handlePlaintext)]

def closing : List (Clock × Op Unit) :=
  (clock 1, .recvLL (intro (.ofBytes 64 peer.pubkey.toList))) :: (clock 2, .recvLL echo) :: arrives 3 clos

end Sample

open Sample

/-- The remote side closes, and its link intro arrives after the CLOS packet: the closed session becomes ready and is
announced. -/
theorem closed_stays_closed_lim : (∃ w, exec (opStep limEnv) closing inbound = .ok w ∧ w.ctl.state = .closed) ∧
    ∃ w, exec (opStep limEnv) (closing ++ arrives 4 (lim nonce)) inbound = .ok w ∧ w.ctl.state = .ready ∧
      w.ctl.calls = [.state .introduction, .state .linkIntro, .state .closed,
        .gotLIM .inbound .closed true, .state .ready, .mapAddr peer.pubkey false,
        .sessionEstablished true] := ⟨ok_sat, ok_sat⟩

namespace Sample

def oneOpen : Clock × Op Unit → World Unit → Bool
  | (_, .handlePlaintext), w => decide (w.inq.plaintextRecv.flatten.length ≤ 1) && decide (w.ctl.state ≠ .closed)
  | _, _ => true

lemma oneOpen_dispatches {i : Clock × Op Unit} {w : World Unit} (h : oneOpen i w = true) :
    Dispatches limEnv (NotRevived limEnv) i w := by
  obtain ⟨t, op⟩ := i
  intro hop _ l₁ p _ v hl hv hclosed
  obtain rfl : op = .handlePlaintext := hop
  obtain ⟨hlen, hopen⟩ := Bool.and_eq_true_iff.mp h
  have hshort := of_decide_eq_true hlen
  rw [hl, length_append, length_cons] at hshort
  obtain rfl : l₁ = [] := eq_nil_of_length_eq_zero (by omega)
  cases hv
  exact absurd hclosed (of_decide_eq_true hopen)

end Sample

theorem closed_stays_closed_quiet : ∃ w, execWhile (opStep limEnv) (fun i w => oneOpen i w = true)
        (closing ++ [(clock 9, .pump), (clock 9, .tick)]) inbound = some w ∧
      w.ctl.calls = [.state .introduction, .state .linkIntro, .state .closed] ∧
      w.ctl.state = .closed := by
  refine some_then (P := fun w => w.ctl.calls = [.state .introduction, .state .linkIntro, .state .closed])
    (by decide +kernel) fun w hw hcalls => ?_
  have hrun := (execWhile_reaches hw).mono fun i v h => oneOpen_dispatches h
  have hadd : ∀ pk, Call.mapAddr pk true ∉ w.ctl.calls := fun pk hmem => by
    rw [hcalls] at hmem
    simp at hmem
  have hclosed := closed_stays_closed (Begins.inbound 0 ⟨0, 1090⟩ token ()) hrun hadd
  exact ⟨hcalls, (hclosed.2 w.ctl.calls [] (append_nil _).symm (by rw [hcalls]; rfl)).1⟩

end Belnet.Iwp
