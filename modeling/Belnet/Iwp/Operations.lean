import Belnet.Iwp.Moves

/-!
# The operations of a session as sequences of moves

The source finishes a message in its own order (log, handler, erase; counters last).  Where the moves have another, a

lemma says that they commute.
-/

namespace Belnet.Iwp
open Std (TreeMap)
open World Relation List ReflTransGen Moves OutboundMessage Run Command Maps Except

section
variable {σ : Type} {env : Env σ} {t : Clock} {cause : Cause σ}

lemma limAcked_frame (env : Env σ) (t : Clock) (w : World σ) (x : Tx) :
    ({ w with tx := x } : World σ).limAcked env t = { w.limAcked env t with tx := x } ∧ (w.limAcked env t).rx = w.rx := by
  unfold limAcked
  simp only [call, setState, mapAddr, close_eq, encryptSend_eq, shut, sessionEstablished]
  split
  · split
    · exact ⟨rfl, rfl⟩
    split <;> exact ⟨rfl, rfl⟩
  · exact ⟨rfl, rfl⟩

lemma finish_eq (w : World σ) (id : UInt64) (msg : OutboundMessage) (st : DeliveryStatus) : w.finish env t id msg st
      = ({ w with tx := w.tx.finish id msg st } : World σ).runHandler env t msg.completed st := by
  unfold finish runHandler
  split
  · have hlog := (limAcked_frame env t w (Tx.logInvoked w.tx id msg.completed .success)).1
    have hfin := (limAcked_frame env t w (w.tx.finish id msg .success)).1
    simp only [hlog, hfin]
    rfl
  · rfl

variable {h : Option Handler}

lemma runHandler_other {st : DeliveryStatus}
    (hne : ¬ (h = some .outboundLIM ∧ st = .success)) (w : World σ) : w.runHandler env t h st = w := by
  unfold runHandler
  split
  · exact absurd ⟨rfl, rfl⟩ hne
  · rfl

lemma runHandler_tx (w : World σ) (h : Option Handler) (st : DeliveryStatus) : (w.runHandler env t h st).tx = w.tx := by
  unfold runHandler
  split
  · have hkeep : w.limAcked env t = { w.limAcked env t with tx := w.tx } := (limAcked_frame env t w w.tx).1
    rw [hkeep]
  · rfl

variable {p : Packet} {w w₀ : World σ} {id : UInt64} {msg : OutboundMessage}

lemma acked_moves {x : Tx}
    (hp : cause = .packet p w₀) (h : TxMove env.crypto t cause w.tx (.acked id msg) x)
    (hby : msg.completed = some .outboundLIM → w₀.LimAckedBy p) (hst : w.ClosedSince w₀) :
    Moves env t cause w (({ w with tx := x } : World σ).runHandler env t msg.completed .success) := by
  by_cases hc : msg.completed = some .outboundLIM
  · refine (single (.limAcked w hp (hby hc) hst h hc)).trans ?_
    rw [hc]
    show Moves env t cause _ (({ w with tx := x } : World σ).limAcked env t)
    unfold limAcked
    simp only [call, setState, append_assoc]
    exact establish ({ w with
      tx := x
      ctl := { w.ctl with
        state := .ready, calls := w.ctl.calls ++ [.limAcked w.ctl.state, .state .ready] } }) rfl false
  · rw [runHandler_other fun h => hc h.1]
    exact .single (.tx w h hc)

lemma flushLoop_tx (env : Env σ) (t : Clock) (idxs : List ℕ) (id : UInt64) (data : Message) (w : World σ) (x : Tx) :
    idxs.foldl (fun w idx => w.encryptAndSend env t
        (dataPacket env.rng w.created.length idx id (fragment data idx))) { w with tx := x }
      = { idxs.foldl (fun w idx => w.encryptAndSend env t
        (dataPacket env.rng w.created.length idx id (fragment data idx))) w with tx := x } := by
  induction idxs generalizing w with
  | nil => rfl
  | cons idx idxs ih =>
    rw [foldl_cons, foldl_cons, ← ih]
    simp only [encryptSend_eq]

lemma flushLoop_moves {idxs : List ℕ}
    (hidx : ∀ idx ∈ idxs, idx ∈ fragments msg.data.length ∧ idx / fragmentSize < maxFragments)
    (hmsg : w.tx.txMsgs[id]? = some msg) :
    Moves env t cause w (idxs.foldl (fun w idx => w.encryptAndSend env t
      (dataPacket env.rng w.created.length idx msg.msgID (fragment msg.data idx))) w) := by
  induction idxs generalizing w with
  | nil => exact .refl
  | cons idx idxs ih =>
    obtain ⟨hi, hmax⟩ := hidx idx mem_cons_self
    refine (encryptAndSend (.data hmsg hi hmax)).trans ?_
    refine ih (fun i hi => hidx i (mem_cons_of_mem _ hi)) ?_
    rw [encryptSend_eq]
    exact hmsg

lemma flush_moves {w' : World σ} (h : w.flushUnAcked env t id = .ok w') : Moves env t cause w w' := by
  unfold flushUnAcked at h
  split at h
  · cases h
    exact .refl
  rename_i msg hmsg
  obtain ⟨idxs, hidxs, h⟩ := ok_bind.mp h
  cases h
  obtain ⟨hmax, hsub⟩ := unAckedFrom_sub hidxs
  refine (flushLoop_moves (fun i hi => ⟨hsub i hi, hmax i (hsub i hi)⟩) hmsg).tail (.tx _ (.flushed _ ?_) nofun)
  have hloop := flushLoop_tx env t idxs msg.msgID msg.data w w.tx
  have htx := congrArg (fun v : World σ => v.tx.txMsgs[id]?) hloop
  exact htx.trans hmsg

lemma flush_inFlight (env : Env σ) (t : Clock) (w : World σ) (id n : UInt64) :
    (w.inFlight n).flushUnAcked env t id = (·.inFlight n) <$> w.flushUnAcked env t id := by
  unfold flushUnAcked
  have hget : (w.inFlight n).tx.txMsgs[id]? = w.tx.txMsgs[id]? := rfl
  rw [hget]
  split
  · rfl
  rename_i msg _
  cases hidx : msg.unAcked with
  | error => rfl
  | ok idxs =>
    have hloop := flushLoop_tx env t idxs msg.msgID msg.data w { w.tx with totalInFlightTX := n }
    have hsame := flushLoop_tx env t idxs msg.msgID msg.data w w.tx
    show ok _ = ok _
    unfold inFlight
    rw [hloop]
    conv_rhs => rw [show w = { w with tx := w.tx } from rfl, hsame]

lemma flushUnAcked_count {w' : World σ} (h : w.flushUnAcked env t id = .ok w') :
    w'.tx.totalInFlightTX = w.tx.totalInFlightTX := by
  have hsame := flush_inFlight env t w id w.tx.totalInFlightTX
  have hw : w.inFlight w.tx.totalInFlightTX = w := rfl
  rw [hw, h] at hsame
  have hw' := ok.inj hsame
  rw [hw']
  rfl

lemma enter_moves (w : World σ) (buf : Message) (h : Option Handler) (priority : UInt16) :
    Moves env t cause { w with tx := Tx.accept env.crypto t.now w.tx buf h priority }
      ((w.enter env t buf h priority).inFlight (w.tx.totalInFlightTX + 1)) := by
  set new := new env.crypto w.tx.txID buf t.now h priority with hnew
  have hget : (w.tx.txMsgs.insertIfNew w.tx.txID new)[w.tx.txID]?
      = some ((w.tx.txMsgs.insertIfNew w.tx.txID new)[w.tx.txID]?.getD new) := by
    rw [get_insertIfNew]
    cases w.tx.txMsgs[w.tx.txID]? with
    | none => rw [if_pos ⟨rfl, rfl⟩]; rfl
    | some => rw [if_neg (by rintro ⟨_, h⟩; cases h)]; rfl
  unfold enter
  rw [encryptSend_eq]
  exact sent (.xmit hget) _

variable {priority : UInt16} {buf : Message}

lemma enter_flushed {w' : World σ} (hflush : (w.enter env t buf h priority).flushUnAcked env t w.tx.txID = .ok w')
    (hnew : w.tx.txID ∉ w.tx.txMsgs) : buf.length ≤ maxLinkMsgSize := by
  have hget : (w.enter env t buf h priority).tx.txMsgs[w.tx.txID]?
      = some (new env.crypto w.tx.txID buf t.now h priority) := by
    unfold enter
    rw [encryptSend_eq]
    show (w.tx.txMsgs.insertIfNew _ _)[w.tx.txID]? = _
    rw [get_insertIfNew, if_pos ⟨rfl, get_eq_none.mpr hnew⟩]
  unfold flushUnAcked at hflush
  rw [hget] at hflush
  obtain ⟨_, hidxs, _⟩ := ok_bind.mp hflush
  obtain ⟨hmax, _⟩ := unAckedFrom_sub hidxs
  by_contra hlen
  have hlast := hmax maxLinkMsgSize (mem_fragments.mpr ⟨not_le.mp hlen, by decide⟩)
  exact absurd hlast (by decide)

lemma sendBuffer_offer {w' : World σ}
    {b : Bool} (hs : w.sendMessageBuffer env t buf h priority = .ok (b, w')) :
    ∃ x, TxMove env.crypto t cause w.tx (.offered buf h) x ∧ Moves env t cause { w with tx := x } w' := by
  unfold sendMessageBuffer at hs
  split at hs
  · cases hs
    exact ⟨_, .reject w.tx buf h, .refl⟩
  obtain ⟨_, h3, hs⟩ := ok_map.mp hs
  cases hs
  have hbuf : buf.length ≤ maxLinkMsgSize ∨ w.tx.txID ∈ w.tx.txMsgs := by
    by_cases hmem : w.tx.txID ∈ w.tx.txMsgs
    · exact .inr hmem
    split at h3
    · exact .inl (enter_flushed h3 hmem)
    · rename_i hshort
      exact .inl (le_trans (not_lt.mp hshort) (by decide))
  refine ⟨_, .accept w.tx buf h priority (by omega) hbuf, ?_⟩
  have henter : Moves env t cause _ _ := enter_moves w buf h priority
  have hcount : (w.enter env t buf h priority).tx.totalInFlightTX = w.tx.totalInFlightTX := by
    unfold enter
    rw [encryptSend_eq]
  split at h3
  · have hkeep := flush_inFlight env t (w.enter env t buf h priority) w.tx.txID
    rw [flushUnAcked_count h3, hcount]
    exact henter.trans (flush_moves (by rw [hkeep, h3]; rfl))
  · cases h3
    rw [hcount]
    exact henter

lemma sendBuffer_moves {w' : World σ}
    {b : Bool} (hs : w.sendMessageBuffer env t buf h priority = .ok (b, w'))
    (hh : h ≠ some .outboundLIM) : Moves env t cause w w' := by
  obtain ⟨x, hx, hm⟩ := sendBuffer_offer hs
  exact (single (.tx w hx hh)).trans hm

lemma sendOurLIM_offer {w' : World σ} (hs : w.sendOurLIM env t h = .ok w') :
    w' = w ∨ ∃ buf x, IsOurLIM env buf ∧ TxMove env.crypto t cause w.tx (.offered buf h) x ∧
      Moves env t cause { w with tx := x } w' := by
  unfold sendOurLIM at hs
  dsimp only at hs
  split at hs
  · cases hs
    exact .inl rfl
  split at hs
  · cases hs
    exact .inl rfl
  rename_i z hz
  split at hs
  · cases hs
    exact .inl rfl
  obtain ⟨⟨b, _⟩, h1, hs⟩ := ok_bind.mp hs
  cases hs
  obtain ⟨x, hx, hm⟩ := sendBuffer_offer h1
  exact .inr ⟨_, x, ⟨_, z, hz, _, rfl⟩, hx, hm⟩

lemma sendLIM_moves {w' : World σ} (hs : w.sendOurLIM env t none = .ok w') : Moves env t cause w w' := by
  rcases sendOurLIM_offer hs with rfl | ⟨_, x, _, hx, hm⟩
  · exact .refl
  · exact (single (.tx w hx nofun)).trans hm

variable {lim : LinkIntroMessage}

section
variable (hp : cause = .packet p w₀)
include hp

lemma gotInboundLIM_moves (hctl : w.ctl = w₀.ctl) (hlim : w₀.Brings env t p lim)
    (hook : w.ctl.gotLIM = .inbound) : Moves env t cause w (w.gotInboundLIM env t lim) := by
  unfold gotInboundLIM
  by_cases hpk : lim.rc.pubkey = w.ctl.expectedIdent
  · have hsame := decide_eq_true hpk
    have hnot := not_not_intro hpk
    refine (single (.limIn w hp hctl hlim hook hpk)).trans ?_
    simp only [call, setState, hsame, hnot, if_false, append_assoc, cons_append, nil_append]
    exact establish (w.introduced lim.rc) rfl true
  · have hother : Move env t cause w _ := .limOther w false (.inr rfl)
    rw [hook] at hother
    simp only [hpk]
    rw [if_pos (show lim.rc.pubkey ≠ (w.call _).ctl.expectedIdent from hpk)]
    exact .single hother

lemma gotOutboundLIM_moves {w' : World σ} (hlim : w₀.Brings env t p lim) (hook : w.ctl.gotLIM = .outbound)
    (h : w.gotOutboundLIM env t lim = .ok w') : Moves env t cause w w' := by
  unfold gotOutboundLIM at h
  by_cases hpk : lim.rc.pubkey = w.ctl.remoteRC.pubkey
  · simp only [call, hpk, ne_eq] at h
    rcases sendOurLIM_offer h with rfl | ⟨buf, x, hbuf, hx, hm⟩
    · exact .single (.limOut w hp hlim hook hpk (.inl rfl))
    · exact (single (.limOut w hp hlim hook hpk (.inr ⟨buf, hbuf, hx⟩))).trans hm
  · have hother : Move env t cause w _ := .limOther w false (.inr rfl)
    rw [hook] at hother
    simp only [hpk] at h
    rw [if_pos (show lim.rc.pubkey ≠ (w.call _).ctl.remoteRC.pubkey from hpk)] at h
    cases h
    exact .single hother

lemma gotLIM_moves {w' : World σ} (hctl : w.ctl = w₀.ctl) (hlim : w₀.Brings env t p lim)
    (h : w.gotLIM env t lim = .ok w') : Moves env t cause w w' := by
  unfold gotLIM at h
  split at h
  · rename_i hook
    cases h
    exact gotInboundLIM_moves hp hctl hlim hook
  · rename_i hook
    exact gotOutboundLIM_moves hp hlim hook h
  rename_i hook
  cases h
  have hother : Move env t cause w _ := .limOther w (lim.rc.pubkey = w.ctl.remoteRC.pubkey) (.inl hook)
  rw [hook] at hother
  exact (single hother).tail (.renegotiate _ lim hook)

variable {rxid : UInt64}

lemma handleMessage_moves {w' : World σ} {data : Message} (hctl : w.ctl = w₀.ctl) (hparent : w.parent = w₀.parent)
    (hdata : Completes env.crypto t w₀.rx p data) (h : w.handleMessage env t rxid data = .ok w') :
    Moves env t cause { w with rx := { w.rx with log := w.rx.log ++ [.delivered rxid data t.now] } } w' := by
  unfold handleMessage at h
  dsimp only at h
  refine (single (.message _ data)).trans ?_
  split at h
  · cases h
    exact .refl
  rename_i lim hlim
  split at h
  · rename_i hver
    rw [hparent] at hlim
    exact gotLIM_moves hp hctl ⟨hver, data, hdata, hlim⟩ h
  · cases h
    exact .refl

end

lemma touchRX_moves (w : World σ) : Moves env t cause w (w.touchRX t) := .single (.io w _)

section
variable {w' : World σ} {y : Rx} {idx : UInt16} {buf : Bytes} {msg msg' : InboundMessage} (hp : cause = .packet p w₀)
  (hctl : w.ctl = w₀.ctl) (hparent : w.parent = w₀.parent) (hrx : w.rx = w₀.rx) (hc : Carries p rxid idx buf)
  (hmsg : HasEntry t p w.rx rxid msg y) (hdata : msg.handleData idx buf t.now = .ok msg')
include hp hctl hparent hrx hc hmsg hdata

lemma completed_moves (hdone : msg'.isCompleted = .ok true) (hver : msg'.verify env.crypto = true)
    (h : ({ w with rx := y.put rxid msg' } : World σ).handleRecvMsgCompleted env t msg' = .ok w') :
    Moves env t cause w w' := by
  have hpkt : cause.pkt = some p := by rw [hp]; rfl
  have hfilter : (y.put rxid msg').replayFilter = w.rx.replayFilter := hmsg.same.1
  obtain ⟨v, hv, rfl⟩ := ok_map.mp h
  split at hv
  · rename_i hold
    rw [hfilter] at hold
    cases hv
    exact (single (.data w hpkt hc hmsg hdata (.inr (.inr hold)))).tail (.discard _ _)
  · rename_i hnew
    rw [hfilter] at hnew
    obtain ⟨w1, h1, hv⟩ := ok_bind.mp hv
    cases hv
    have hdel := Move.deliver w hpkt hc hmsg hdata hdone hver hnew
    have hcomp : Completes env.crypto t w₀.rx p msg'.data := by
      rw [← hrx]
      exact ⟨y, rxid, idx, buf, msg, msg', hc, hmsg, hdata, hdone, hver, hnew, rfl⟩
    have hhand : Moves env t cause _ w1 := handleMessage_moves hp (by exact hctl) (by exact hparent) hcomp h1
    have hlog : RxEvent.delivered msg'.msgID msg'.data t.now ∈ w1.rx.log :=
      hhand.rx_log (mem_append_right _ mem_cons_self)
    exact (((single hdel).trans hhand).trans (encryptAndSend (.acksDone hlog))).tail (.discard _ _)

lemma fragment_moves {done : Bool} (hdone : msg'.isCompleted = .ok done)
    (h : (if done = true ∧ msg'.verify env.crypto = true then
        ({ w with rx := y.put rxid msg' } : World σ).handleRecvMsgCompleted env t msg'
      else .ok { w with rx := y.put rxid msg' }) = .ok w') : Moves env t cause w w' := by
  split at h
  · rename_i hv
    exact completed_moves hp hctl hparent hrx hc hmsg hdata (by rw [hdone, hv.1]) hv.2 h
  rename_i hv
  cases h
  refine .single (.data w (by rw [hp]; rfl) hc hmsg hdata ?_)
  cases done with
  | false => exact .inl hdone
  | true =>
    refine .inr (.inl ?_)
    rw [Bool.eq_false_iff]
    exact fun hver => hv ⟨rfl, hver⟩

end

section
variable {w' : World σ} (hp : cause = .packet p w)
include hp

lemma handleXMIT_moves (hcmd : readByte p (packetOverhead + 1) = .ok xmit.toByte)
    (h : w.handleXMIT env t p = .ok w') : Moves env t cause w w' := by
  unfold handleXMIT at h
  split at h
  · cases h
    exact .refl
  obtain ⟨sz, hsz, h⟩ := ok_bind.mp h
  obtain ⟨rxid, hid, h⟩ := ok_bind.mp h
  obtain ⟨d, hd, h⟩ := ok_bind.mp h
  have hx : IsXmit p sz rxid d := ⟨hcmd, hsz, hid, hd⟩
  refine (touchRX_moves w).trans ?_
  dsimp only at h
  split at h
  · rename_i hold
    cases h
    exact .single (.pushMACK _ hold)
  rename_i hnew
  split at h
  · cases h
    exact .refl
  rename_i hnone
  split at h
  · rename_i hlen
    obtain ⟨buf, hbuf, h⟩ := ok_bind.mp h
    obtain ⟨msg', hdata, h⟩ := ok_bind.mp h
    obtain ⟨done, hdone, h⟩ := ok_bind.mp h
    have hl := readSlice_length hbuf
    have hc : Carries p rxid 0 buf := .inr ⟨sz, d, hx, rfl, by rw [hl, hlen], by rw [hl]; exact hbuf⟩
    refine fragment_moves hp rfl rfl rfl hc (.opened hx hnew hnone) hdata hdone ?_
    cases done with
    | false => exact h
    | true => cases hver : msg'.verify env.crypto <;> rw [hver] at h <;> exact h
  · rename_i hlen
    cases h
    exact .single (.openRX _ (by rw [hp]; rfl) hx hnew hnone hlen)

lemma handleDATA_moves (hcmd : readByte p (packetOverhead + 1) = .ok data.toByte)
    (h : w.handleDATA env t p = .ok w') : Moves env t cause w w' := by
  unfold handleDATA at h
  split at h
  · cases h
    exact .refl
  obtain ⟨_, hidx, h⟩ := ok_bind.mp h
  obtain ⟨rxid, hid, h⟩ := ok_bind.mp h
  refine (touchRX_moves w).trans ?_
  split at h
  · split at h
    · rename_i hold
      cases h
      exact .single (.pushMACK _ hold)
    · cases h
      exact encryptAndSend (.nack rxid)
  · rename_i msg hmsg
    obtain ⟨_, hbuf, h⟩ := ok_bind.mp h
    obtain ⟨msg', hdata, h⟩ := ok_bind.mp h
    obtain ⟨done, hdone, h⟩ := ok_bind.mp h
    refine fragment_moves hp rfl rfl rfl (.inl ⟨hcmd, hidx, hid, hbuf⟩) (.old hmsg) hdata hdone ?_
    rw [ite_and]
    exact h

lemma handleACKS_moves (hcmd : readByte p (packetOverhead + 1) = .ok acks.toByte)
    (h : w.handleACKS env t p = .ok w') : Moves env t cause w w' := by
  unfold handleACKS at h
  split at h
  · cases h
    exact .refl
  obtain ⟨txid, hid, h⟩ := ok_bind.mp h
  refine (touchRX_moves w).trans ?_
  split at h
  · cases h
    exact .refl
  rename_i msg hmsg
  obtain ⟨mask, hmask, h⟩ := ok_bind.mp h
  obtain ⟨done, hdone, h⟩ := ok_bind.mp h
  have hack : IsAcks p txid mask := ⟨hcmd, hid, hmask⟩
  cases done with
  | true =>
    cases h
    rw [finish_eq]
    have hmove : TxMove env.crypto t cause (w.touchRX t).tx _ _ := .ackDone _ (by rw [hp]; rfl) hack hmsg hdone
    have hmoves := acked_moves hp hmove (fun hc => ⟨txid, msg, hmsg, hc, .inr ⟨mask, hack, hdone⟩⟩) fun hst => .inl hst
    exact hmoves
  | false => exact (single (.tx _ (.ack _ (by rw [hp]; rfl) hack hmsg) nofun)).trans (flush_moves h)

end

lemma handleNACK_moves {w' : World σ} (h : w.handleNACK env t p = .ok w') : Moves env t cause w w' := by
  unfold handleNACK at h
  split at h
  · cases h
    exact .refl
  obtain ⟨_, _, h⟩ := ok_bind.mp h
  cases h
  refine ReflTransGen.trans ?_ (touchRX_moves _)
  split
  · exact .refl
  · rename_i msg hmsg
    exact encryptAndSend (.xmit hmsg)

lemma mackOne_moves (hp : cause = .packet p w₀)
    (hsub : ∀ (k : UInt64) m, w.tx.txMsgs[k]? = some m → w₀.tx.txMsgs[k]? = some m)
    (hst : w.ClosedSince w₀) (hack : IsMack p id) : Moves env t cause w (w.mackOne env t id) := by
  unfold mackOne
  split
  · exact .refl
  rename_i msg hmsg
  rw [finish_eq]
  have hmove : TxMove env.crypto t cause w.tx _ _ := .mackDone _ (by rw [hp]; rfl) hack hmsg
  exact acked_moves hp hmove (fun hc => ⟨id, msg, hsub id msg hmsg, hc, .inl hack⟩) hst

lemma limAcked_closed (h : (w.limAcked env t).ctl.state = .closed) :
    ∃ pk, Call.mapAddr pk true ∈ (w.limAcked env t).ctl.calls := by
  have hctl : (w.limAcked env t).ctl = (establish env _ false).ctl :=
    establish_ctl env t ({ w with ctl := { w.ctl with
      state := .ready
      calls := w.ctl.calls ++ [.limAcked w.ctl.state] ++ [.state .ready] } } : World σ) rfl false
  rw [hctl] at h ⊢
  unfold World.establish at h ⊢
  dsimp only at h ⊢
  split at h
  · rename_i hr
    rw [if_pos hr]
    exact ⟨_, mem_append_right _ mem_cons_self⟩
  · cases h

lemma mackOne_closed (hp : cause = .packet p w₀)
    (hsub : ∀ (k : UInt64) m, w.tx.txMsgs[k]? = some m → w₀.tx.txMsgs[k]? = some m)
    (hst : w.ClosedSince w₀) (hack : IsMack p id) : (w.mackOne env t id).ClosedSince w₀ := by
  intro hclosed
  have hmoves : Moves env t cause w (w.mackOne env t id) := mackOne_moves hp hsub hst hack
  have hcalls := hmoves.calls
  have hcase : (w.mackOne env t id).ctl = w.ctl ∨ ∃ pk, Call.mapAddr pk true ∈ (w.mackOne env t id).ctl.calls := by
    unfold mackOne at hclosed ⊢
    cases hmsg : w.tx.txMsgs[id]? with
    | none => exact .inl rfl
    | some msg =>
      simp only [hmsg] at hclosed ⊢
      rw [finish_eq] at hclosed ⊢
      by_cases hc : msg.completed = some .outboundLIM
      · rw [hc] at hclosed ⊢
        exact .inr (limAcked_closed hclosed)
      · rw [runHandler_other fun h => hc h.1]
        exact .inl rfl
  rcases hcase with hsame | hrefused
  · rw [hsame] at hclosed
    rcases hst hclosed with hold | ⟨pk, hmem⟩
    · exact .inl hold
    · exact .inr ⟨pk, hcalls.subset hmem⟩
  · exact .inr hrefused

lemma mackOne_sub {k : UInt64} {m : OutboundMessage}
    (h : (w.mackOne env t id).tx.txMsgs[k]? = some m) : w.tx.txMsgs[k]? = some m := by
  unfold mackOne at h
  split at h
  · exact h
  rw [finish_eq, runHandler_tx, finish_txMsgs, get_erase] at h
  split at h
  · cases h
  · exact h

lemma mackLoop_moves {numAcks : UInt8} (hp : cause = .packet p w₀)
    (hcmd : readByte p (packetOverhead + 1) = .ok mack.toByte)
    (hnum : readByte p (packetOverhead + (commandOverhead + 0)) = .ok numAcks) (n i : ℕ)
    {w' : World σ} (hi : i + n ≤ numAcks.toNat)
    (hsub : ∀ (k : UInt64) m, w.tx.txMsgs[k]? = some m → w₀.tx.txMsgs[k]? = some m)
    (hst : w.ClosedSince w₀) (h : mackLoop env t p n (1 + 8 * i) w = .ok w') : Moves env t cause w w' := by
  induction n generalizing i w with
  | zero =>
    cases h
    exact .refl
  | succ n ih =>
    obtain ⟨id, hid, h⟩ := ok_bind.mp h
    have hack : IsMack p id := ⟨hcmd, numAcks, hnum, i, by omega, hid⟩
    exact (mackOne_moves hp hsub hst hack).trans
      (ih (i + 1) (by omega) (fun k m hm => hsub k m (mackOne_sub hm)) (mackOne_closed hp hsub hst hack) h)

lemma handleMACK_moves {w' : World σ} (hp : cause = .packet p w)
    (hcmd : readByte p (packetOverhead + 1) = .ok mack.toByte)
    (h : w.handleMACK env t p = .ok w') : Moves env t cause w w' := by
  unfold handleMACK at h
  split at h
  · cases h
    exact .refl
  obtain ⟨n, hn, h⟩ := ok_bind.mp h
  split at h
  · cases h
    exact .refl
  · exact mackLoop_moves hp hcmd hn n.toNat 0 (by omega) (fun _ _ hm => hm) (.inl) h

def World.dispatched (w : World σ) (p : Packet) : World σ :=
  { w with inq := { w.inq with handled := w.inq.handled ++ [p] } }

lemma handlePacket_moves {w' : World σ} (h : w.handlePacket env t p = .ok w') :
    Moves env t (.packet p (w.dispatched p)) (w.dispatched p) w' := by
  obtain ⟨_, hcmd, h⟩ := ok_bind.mp h
  split at h
  · rename_i hc
    rw [← toByte_ofByte hc] at hcmd
    exact handleXMIT_moves rfl hcmd h
  · rename_i hc
    rw [← toByte_ofByte hc] at hcmd
    exact handleDATA_moves rfl hcmd h
  · rename_i hc
    rw [← toByte_ofByte hc] at hcmd
    exact handleACKS_moves rfl hcmd h
  · cases h
    exact touchRX_moves _
  · exact handleNACK_moves h
  · cases h
    exact close _
  · rename_i hc
    rw [← toByte_ofByte hc] at hcmd
    exact handleMACK_moves rfl hcmd h
  · cases h
    exact .refl

lemma sendMACKLoop_moves (n : ℕ) (w : World σ) : Moves env t cause w (sendMACKLoop env t n w) := by
  induction n generalizing w with
  | zero => exact .refl
  | succ n ih =>
    unfold sendMACKLoop
    split
    · exact .refl
    refine ReflTransGen.trans ?_ (ih _)
    rw [encryptSend_eq]
    have hids : ∀ id ∈ w.rx.sendMACKs.take maxACKSInMACK, id ∈ w.rx.sendMACKs := fun id hid => mem_of_mem_take hid
    have hcreate : Creates env w _ := .mack hids (by simp)
    exact ((single (.create w hcreate)).tail (.popMACK _ maxACKSInMACK)).tail (.io _ _)

lemma sendMACK_moves (w : World σ) : Moves env t cause w (w.sendMACK env t) := sendMACKLoop_moves _ w

lemma keepAlive_moves (w : World σ) : Moves env t cause w (w.sendKeepAlive env t) := by
  unfold sendKeepAlive
  split
  · exact encryptAndSend .ping
  · exact .refl

lemma sendACKS_moves (w : World σ) (rxid : UInt64) : Moves env t cause w (w.sendACKS env t rxid) := by
  unfold sendACKS
  split
  · exact .refl
  rename_i msg hmsg
  split
  · refine (encryptAndSend (.acks hmsg)).tail (.acksSent _ ?_)
    rw [encryptSend_eq]
    exact hmsg
  · exact .refl

lemma pumpSend_moves {w' : World σ} (h : w.pumpSend env t = .ok w') : Moves env t cause w w' := by
  unfold pumpSend at h
  split at h
  · have hping : Moves env t cause w (if w.shouldPing t then w.sendKeepAlive env t else w) := by
      split
      · exact keepAlive_moves w
      · exact .refl
    have hacks : ∀ (ids : List UInt64) (v : World σ),
        Moves env t cause v (ids.foldl (fun w => w.sendACKS env t) v) := fun ids =>
      foldl_rel (fun _ => .refl) (fun h => h.trans) (fun id _ v => sendACKS_moves v id)
    have hflush : ∀ (ids : List UInt64) {v v' : World σ},
        ids.foldlM (fun w => w.flushUnAcked env t) v = .ok v' → Moves env t cause v v' := fun ids =>
      foldlM_rel (R := Moves env t cause) (fun _ => .refl) (fun h => h.trans) (fun _ _ _ _ => flush_moves)
    exact (hping.trans (hacks _ _)).trans (hflush _ h)
  · cases h
    exact .refl

lemma pump_moves {w' : World σ} (h : w.pump env t = .ok w') : ∃ v, Moves env t cause w v ∧ w' = v.queueWork := by
  obtain ⟨v, hv, rfl⟩ := ok_map.mp h
  exact ⟨v, pumpSend_moves hv, rfl⟩

section
variable (w : World σ)

lemma dropTimedOut_moves (id : UInt64) : Moves env t cause w (w.dropTimedOut env t id) := by
  unfold dropTimedOut
  split
  · exact .refl
  rename_i msg hmsg
  split
  · rename_i htime
    rw [finish_eq]
    have hdone : Move env t cause w _ := .tx w (.drop w.tx hmsg htime) nofun
    have hno : ¬ (msg.completed = some .outboundLIM ∧ DeliveryStatus.dropped = .success) := fun h => (nomatch h.2)
    rw [runHandler_other hno]
    exact .single hdone
  · exact .refl

lemma timeOutRX_loop {found : TreeMap UInt64 InboundMessage} (ids : List UInt64) (w : World σ)
    (hfound : ∀ (id : UInt64) msg, w.rx.rxMsgs[id]? = some msg → found[id]? = some msg) :
    Moves env t (.tick found) w (ids.foldl (fun w id => w.timeOutRX t id) w) := by
  induction ids generalizing w with
  | nil => exact .refl
  | cons id ids ih =>
    rw [foldl_cons]
    cases hmsg : w.rx.rxMsgs[id]? with
    | none =>
      have hsame : w.timeOutRX t id = w := by
        unfold timeOutRX
        rw [hmsg]
      rw [hsame]
      exact ih w hfound
    | some msg =>
      by_cases htime : msg.isTimedOut t.now = true
      · have hmove : Move env t (.tick found) w (w.timeOutRX t id) := by
          unfold timeOutRX
          rw [hmsg]
          simp only [htime]
          exact .timeOut w rfl (hfound id msg hmsg) htime
        refine (single hmove).trans (ih _ ?_)
        intro id' msg' hmsg'
        unfold timeOutRX at hmsg'
        rw [hmsg] at hmsg'
        simp only [htime, if_true] at hmsg'
        rw [get_erase] at hmsg'
        split at hmsg'
        · cases hmsg'
        · exact hfound id' msg' hmsg'
      · have hsame : w.timeOutRX t id = w := by
          unfold timeOutRX
          rw [hmsg]
          simp only [htime]
          rfl
        rw [hsame]
        exact ih w hfound

lemma expireReplay_moves (rxid : UInt64) : Moves env t cause w (w.expireReplay t rxid) := by
  unfold expireReplay
  split
  · exact .refl
  rename_i since hsince
  split
  · rename_i htime
    exact .single (.expire w hsince htime)
  · exact .refl

lemma dropTimedOut_rx (id : UInt64) : (w.dropTimedOut env t id).rx = w.rx := by
  unfold dropTimedOut
  split
  · rfl
  split
  · rw [finish_eq]
    unfold runHandler
    split
    · exact (limAcked_frame _ _ _ w.tx).2
    · rfl
  · rfl

lemma tick_moves : Moves env t (.tick w.rx.rxMsgs) w (w.tick env t) := by
  set w1 : World σ := if t.now ≥ w.io.resetRatesAt then
      let w := w.resetRates
      { w with io := { w.io with resetRatesAt := t.now + 1000 } } else w with hw1
  have hrates : Moves env t (.tick w.rx.rxMsgs) w w1 ∧ w1.rx = w.rx := by
    rw [hw1]
    split
    · exact ⟨.single (.io w _), rfl⟩
    · exact ⟨.refl, rfl⟩
  have hloop : ∀ (f : World σ → UInt64 → World σ), (∀ v id, Moves env t (.tick w.rx.rxMsgs) v (f v id)) →
      ∀ (ids : List UInt64) (v : World σ), Moves env t (.tick w.rx.rxMsgs) v (ids.foldl f v) :=
    fun f hf ids => foldl_rel (fun _ => .refl) (fun h => h.trans) (fun id _ v => hf v id)
  have hdrop : ∀ (ids : List UInt64) (v : World σ),
      (ids.foldl (fun w => w.dropTimedOut env t) v).rx = v.rx := fun ids =>
    foldl_rel (R := fun v v' : World σ => v'.rx = v.rx) (fun _ => rfl)
      (fun {a b c} (h : b.rx = a.rx) (h' : c.rx = b.rx) => h'.trans h)
      (fun id _ v => dropTimedOut_rx v id)
  refine ((hrates.1.trans (hloop _ dropTimedOut_moves _ _)).trans (timeOutRX_loop _ _ ?_)).trans
    (hloop _ expireReplay_moves _ _)
  intro id _ hmsg
  rw [hdrop, hrates.2] at hmsg
  exact hmsg

/-- What happens to the message layer; `packet` and `sendMACK` are the two parts of `HandlePlaintext`. -/
inductive Action (σ : Type) where
  | packet (p : Packet)
  | sendMACK
  | pump
  | tick
  | send (buf : Message) (h : Option ℕ) (priority : UInt16)
  | close
  | renegotiateSession
  | sendKeepAlive
  | parent (p : σ)

def World.act (env : Env σ) (t : Clock) (a : Action σ) (w : World σ) : Except Fault (World σ) :=
  match a with
  | .packet p => w.handlePacket env t p
  | .sendMACK => .ok (w.sendMACK env t)
  | .pump => w.pump env t
  | .tick => .ok (w.tick env t)
  | .send buf h priority => do return (← w.sendMessageBuffer env t buf (h.map Handler.user) priority).2
  | .close => .ok (w.close env t)
  | .renegotiateSession => w.sendOurLIM env t none
  | .sendKeepAlive => .ok (w.sendKeepAlive env t)
  | .parent p => .ok { w with parent := p }

def World.actStep (env : Env σ) (i : Clock × Action σ) (w : World σ) : Except Fault (World σ) := w.act env i.1 i.2

def Action.causeIn : Action σ → Cause σ
  | .packet p => .packet p (w.dispatched p)
  | .tick => .tick w.rx.rxMsgs
  | _ => .call

end

lemma act_inv {I : World σ → Prop} {w' : World σ} {a : Action σ} (h : w.act env t a = .ok w')
    (hmove : ∀ v v', Move env t (a.causeIn w) v v' → I v → I v')
    (hframe : ∀ v v' : World σ, v'.tx = v.tx → v'.rx = v.rx → v'.created = v.created → I v → I v')
    (h0 : I w) : I w' := by
  have hmoves : ∀ {v v' : World σ}, Moves env t (a.causeIn w) v v' → I v → I v' := fun hm hv =>
    hm.inv (fun x y _ => hmove x y) hv
  cases a with
  | packet p => exact hmoves (handlePacket_moves h) (hframe w (w.dispatched p) rfl rfl rfl h0)
  | sendMACK =>
    cases h
    exact hmoves (sendMACK_moves w) h0
  | pump =>
    obtain ⟨v, hv, rfl⟩ := pump_moves h
    have hq : v.queueWork.tx = v.tx ∧ v.queueWork.rx = v.rx ∧ v.queueWork.created = v.created := by
      unfold queueWork
      dsimp only
      split <;> split <;> exact ⟨rfl, rfl, rfl⟩
    exact hframe v _ hq.1 hq.2.1 hq.2.2 (hmoves hv h0)
  | tick =>
    cases h
    exact hmoves (tick_moves w) h0
  | send buf hd =>
    obtain ⟨⟨b, v⟩, hv, h⟩ := ok_bind.mp h
    cases h
    refine hmoves (sendBuffer_moves hv ?_) h0
    cases hd <;> nofun
  | close =>
    cases h
    exact hmoves (close w) h0
  | renegotiateSession => exact hmoves (sendLIM_moves h) h0
  | sendKeepAlive =>
    cases h
    exact hmoves (keepAlive_moves w) h0
  | parent p =>
    cases h
    exact hframe w _ rfl rfl rfl h0

end

namespace Sample

def crypto : Crypto where
  shorthash b := .ofBytes 32 b
  hmac _ k := some k
  keystream _ _ _ := 0
  verify pk _ z := z = .ofBytes 64 pk.toList
  transportDhClient _ _ n := some n
  transportDhServer _ _ n := some n

def env : Env Unit where
  crypto := crypto
  rng := ⟨fun _ _ => 7, fun _ => 3, fun _ => .zero 32, fun _ => []⟩
  ourRC := .empty
  routerEncryptionSecret := .zero 64
  transportSecretKey := .zero 64
  toPublic _ := .zero 32
  sign _ := none
  encodeLIM _ := []
  rcVerify _ _ := true
  unmapAddr p _ := p
  mapAddr p _ _ := (p, false)
  sessionEstablished p _ _ := p
  sessionRenegotiate p _ _ := p
  handleMessage p _ := (p, none)

def ready : World Unit :=
  let s := Session.newOutbound crypto 0 .empty AddressInfo.empty
  { s with parent := (), ctl := { s.ctl with state := .ready } }

def clock (n : Millis) : Clock := ⟨n, n⟩

end Sample

end Belnet.Iwp
