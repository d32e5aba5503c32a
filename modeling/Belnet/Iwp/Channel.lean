import Belnet.Iwp.Reassembly
import Belnet.Iwp.Accounting

/-!
# Two sessions: integrity, no duplication, delivery

`Link` is a pair of sessions with the same crypto.  A step is an action of one side, at any clock.

* `reassembly_integrity`  what is delivered was accepted, and not delivered again while its id is kept;
* `delivery_soundness`  success is reported for messages that were delivered.
-/

namespace Belnet.Iwp
open Std (TreeMap)
open World Relation List Maps RxEvent TxEvent Run

section
variable {σ : Type} {env : Env σ} {t : Clock} {cause : Cause σ}

lemma snoc_eq_append {α : Type} {l l₁ l₂ : List α} {a e : α} (h : l ++ [e] = l₁ ++ a :: l₂) :
    (∃ l', l₂ = l' ++ [e] ∧ l = l₁ ++ a :: l') ∨ (l₂ = [] ∧ l₁ = l ∧ a = e) := by
  rcases eq_nil_or_concat l₂ with rfl | ⟨l', x, rfl⟩
  · obtain ⟨h1, h2⟩ := append_inj' h rfl
    exact .inr ⟨rfl, h1.symm, (cons.inj h2).1.symm⟩
  rw [concat_eq_append, ← cons_append, ← append_assoc] at h
  obtain ⟨h1, h2⟩ := append_inj' h rfl
  exact .inl ⟨l', by rw [concat_eq_append, (cons.inj h2).1], h1⟩

def ExpiredIn (l : List RxEvent) (rxid : UInt64) (since : Millis) : Prop :=
  ∃ at_, expired rxid at_ ∈ l ∧ since + replayWindow ≤ at_

structure Guarded (x : Rx) : Prop where
  filter : ∀ l₁ l₂ rxid d since, x.log = l₁ ++ delivered rxid d since :: l₂ →
    ExpiredIn l₂ rxid since ∨ x.replayFilter[rxid]? = some since
  once : ∀ l₁ l₂ l₃ rxid d d' since since',
    x.log = (l₁ ++ delivered rxid d since :: l₂) ++ delivered rxid d' since' :: l₃ →
    ExpiredIn l₂ rxid since

variable {rxid : UInt64} {msg : InboundMessage} {now : Millis}

namespace Guarded
variable {x y : Rx}

lemma congr (hx : Guarded x) (hlog : y.log = x.log) (hfilter : y.replayFilter = x.replayFilter) :
    Guarded y := ⟨by rw [hlog, hfilter]; exact hx.filter, by rw [hlog]; exact hx.once⟩

lemma ExpiredIn.snoc {l : List RxEvent} {since : Millis} (h : ExpiredIn l rxid since)
    (e : RxEvent) : ExpiredIn (l ++ [e]) rxid since := by
  obtain ⟨at_, hmem, hle⟩ := h
  exact ⟨at_, mem_append_left _ hmem, hle⟩

lemma event (hx : Guarded x) {e : RxEvent} (he : ∀ rxid d at_, e ≠ .delivered rxid d at_) (hlog : y.log = x.log ++ [e])
    (hfilter : ∀ (rxid : UInt64) since, x.replayFilter[rxid]? = some since →
      ExpiredIn [e] rxid since ∨ y.replayFilter[rxid]? = some since) : Guarded y := by
  constructor
  · intro l₁ l₂ rxid d since h
    rw [hlog] at h
    rcases snoc_eq_append h with ⟨l', rfl, hl⟩ | ⟨_, _, he'⟩
    · rcases hx.filter l₁ l' rxid d since hl with hexp | hf
      · exact .inl (ExpiredIn.snoc hexp e)
      rcases hfilter rxid since hf with ⟨at_, hmem, hle⟩ | hf
      · exact .inl ⟨at_, mem_append_right _ hmem, hle⟩
      · exact .inr hf
    · exact absurd he'.symm (he _ _ _)
  · intro l₁ l₂ _ rxid d d' since since' h
    rw [hlog] at h
    rcases snoc_eq_append h with ⟨l', rfl, hl⟩ | ⟨_, _, he'⟩
    · exact hx.once l₁ l₂ l' rxid d d' since since' hl
    · exact absurd he'.symm (he _ _ _)

lemma deliver (hx : Guarded x) (hnew : msg.msgID ∉ x.replayFilter) : Guarded (x.deliver now rxid msg) := by
  have hnone := get_eq_none.mpr hnew
  have hget : ∀ (k : UInt64), (x.deliver now rxid msg).replayFilter[k]?
      = if msg.msgID = k ∧ x.replayFilter[k]? = none then some now else x.replayFilter[k]? := fun k => get_insertIfNew
  constructor
  · intro l₁ l₂ k d since h
    rcases snoc_eq_append h with ⟨l', rfl, hl⟩ | ⟨rfl, _, he⟩
    · rcases hx.filter l₁ l' k d since hl with hexp | hf
      · exact .inl (ExpiredIn.snoc hexp _)
      · rw [hget, if_neg (fun hc => by rw [hf] at hc; cases hc.2)]
        exact .inr hf
    · cases he
      rw [hget, if_pos ⟨rfl, hnone⟩]
      exact .inr rfl
  · intro l₁ l₂ _ k d d' since since' h
    rcases snoc_eq_append h with ⟨l', rfl, hl⟩ | ⟨_, hl, he⟩
    · exact hx.once l₁ l₂ l' k d d' since since' hl
    cases he
    rcases hx.filter l₁ l₂ _ d since hl.symm with hexp | hf
    · exact hexp
    · rw [hnone] at hf
      cases hf

end Guarded

variable {w w' : World σ}

lemma Move.guarded (h : Move env t cause w w') (hw : Guarded w.rx) : Guarded w'.rx := by
  cases h with
  | data hp hc hmsg hdata => exact hw.congr hmsg.same.2.2 hmsg.same.1
  | deliver hp hc hmsg hdata hdone hver hnew =>
    rw [← hmsg.same.1] at hnew
    exact (hw.congr hmsg.same.2.2 hmsg.same.1).deliver hnew
  | timeOut hc hfound htime =>
    refine hw.event (fun _ _ _ => RxEvent.noConfusion) rfl (fun k since hk => .inr ?_)
    show (w.rx.replayFilter.insertIfNew _ _)[k]? = _
    rw [get_insertIfNew, if_neg (fun hc => by rw [hk] at hc; cases hc.2)]
    exact hk
  | expire h htime =>
    refine hw.event (fun _ _ _ => RxEvent.noConfusion) rfl (fun k since hk => ?_)
    show _ ∨ (w.rx.replayFilter.erase _)[k]? = _
    rw [get_erase]
    split
    · rename_i heq
      subst heq
      obtain rfl := Option.some.inj (h.symm.trans hk)
      exact .inl ⟨_, mem_cons_self, htime⟩
    · exact .inr hk
  | _ => exact hw.congr rfl rfl

def Only (log : List TxEvent) (id : UInt64) (buf : Message) : Prop := ∀ buf' h, accepted id buf' h ∈ log → buf' = buf

variable {id : UInt64} {log : List TxEvent}

lemma Only.mono {log' : List TxEvent} (hlog : ∀ e ∈ log, e ∈ log') {buf : Message}
    (h : Only log' id buf) : Only log id buf := fun buf' hd hmem => h buf' hd (hlog _ hmem)

lemma Only.eq {buf data : Message} (h : Only log id data) (hoff : Offered log id buf) : buf = data := by
  obtain ⟨_, hd, hmem⟩ := hoff
  exact h buf hd hmem

structure Stems (c : Crypto) (log : List TxEvent) (id : UInt64) (m : InboundMessage) : Prop where
  id_eq : m.msgID = id
  source : ∃ buf, Offered log id buf ∧ m.digest = c.shorthash buf
  rebuilds : ∀ data, Only log id data → Rebuilds c data m

structure Receives (c : Crypto) (log : List TxEvent) (x : Rx) : Prop where
  entries : ∀ (id : UInt64) m, x.rxMsgs[id]? = some m → Stems c log id m
  delivered : ∀ id d at_, delivered id d at_ ∈ x.log →
    ∃ buf, Offered log id buf ∧ c.shorthash d = c.shorthash buf ∧ (Only log id buf → d = buf)

variable {m : InboundMessage} {p : Packet}

section
variable {c : Crypto} {log log' : List TxEvent} {x y : Rx}

lemma Stems.mono (hlog : ∀ e ∈ log, e ∈ log') (h : Stems c log id m) : Stems c log' id m := by
  obtain ⟨buf, hoff, hdig⟩ := h.source
  exact ⟨h.id_eq, ⟨buf, hoff.mono hlog, hdig⟩, fun data honly => h.rebuilds data (honly.mono hlog)⟩

lemma Receives.mono (hlog : ∀ e ∈ log, e ∈ log') (h : Receives c log x) : Receives c log' x := by
  refine ⟨fun id m hm => (h.entries id m hm).mono hlog, fun id d at_ hmem => ?_⟩
  obtain ⟨buf, hoff, hhash, heq⟩ := h.delivered id d at_ hmem
  exact ⟨buf, hoff.mono hlog, hhash, fun honly => heq (honly.mono hlog)⟩

lemma Stems.opened {sz : UInt16} {h : ShortHash} (now : Millis) (hp : Truthful c log p) (hx : IsXmit p sz rxid h) :
    Stems c log rxid (.new rxid sz h now) := by
  obtain ⟨_, buf, hoff, hsz, hdig⟩ := hp.xmit _ _ _ hx
  refine ⟨rfl, ⟨buf, hoff, hdig⟩, fun _ honly => ?_⟩
  rw [← honly.eq hoff]
  exact .opened hsz hdig

lemma put_stems (hmsg : Stems c log rxid msg) (hx : ∀ (id : UInt64) m, x.rxMsgs[id]? = some m → Stems c log id m) :
    ∀ (id : UInt64) m, (x.rxMsgs.insert rxid msg)[id]? = some m → Stems c log id m := by
  intro id m hm
  rw [get_insert] at hm
  split at hm
  · rename_i heq
    subst heq
    cases hm
    exact hmsg
  · exact hx id m hm

lemma HasEntry.stems (h : HasEntry t p x rxid msg y) (hp : Truthful c log p)
    (hx : ∀ (id : UInt64) m, x.rxMsgs[id]? = some m → Stems c log id m) :
    Stems c log rxid msg ∧ ∀ (id : UInt64) m, y.rxMsgs[id]? = some m → Stems c log id m := by
  cases h with
  | old hmsg => exact ⟨hx _ _ hmsg, hx⟩
  | opened hxmit => exact ⟨.opened _ hp hxmit, put_stems (.opened _ hp hxmit) hx⟩

lemma Stems.handleData {idx : UInt16} {buf : Bytes}
    {msg' : InboundMessage} (h : Stems c log rxid msg) (hp : Truthful c log p)
    (hc : Carries p rxid idx buf) (hdata : msg.handleData idx buf now = .ok msg') :
    Stems c log rxid msg' := by
  obtain ⟨hid, hdig⟩ := handleData_same hdata
  obtain ⟨hidx, b, hoff, hbuf⟩ := hp.carries _ _ _ hc
  refine ⟨hid.trans h.id_eq, by rw [hdig]; exact h.source, fun data honly => ?_⟩
  rw [honly.eq hoff] at hbuf
  exact (h.rebuilds data honly).handleData hidx hbuf hdata

lemma erase_stems (hx : ∀ (id : UInt64) m, x.rxMsgs[id]? = some m → Stems c log id m) :
    ∀ (id : UInt64) m, (x.rxMsgs.erase rxid)[id]? = some m → Stems c log id m := by
  intro id m hm
  rw [get_erase] at hm
  split at hm
  · cases hm
  · exact hx id m hm

end

lemma Move.receives (h : Move env t cause w w')
    (hp : ∀ p, cause.pkt = some p → Truthful env.crypto log p) (hw : Receives env.crypto log w.rx) :
    Receives env.crypto log w'.rx := by
  cases h with
  | openRX hc hx hnew hnone hlen => exact absurd ((hp _ hc).xmit _ _ _ hx).1 hlen
  | data hc hcar hmsg hdata =>
    obtain ⟨hstems, hall⟩ := hmsg.stems (hp _ hc) hw.entries
    refine ⟨put_stems (hstems.handleData (hp _ hc) hcar hdata) hall, ?_⟩
    show ∀ id d at_, delivered id d at_ ∈ _ → _
    rw [show Rx.log (Rx.put _ _ _) = w.rx.log from hmsg.same.2.2]
    exact hw.delivered
  | deliver hc hcar hmsg hdata hdone hver hnew =>
    obtain ⟨hstems, hall⟩ := hmsg.stems (hp _ hc) hw.entries
    have hstems' := hstems.handleData (hp _ hc) hcar hdata
    refine ⟨put_stems hstems' hall, fun id d at_ hmem => ?_⟩
    rcases mem_concat.mp hmem with hmem | heq
    · rw [hmsg.same.2.2] at hmem
      exact hw.delivered id d at_ hmem
    cases heq
    obtain ⟨buf, hoff, hdig⟩ := hstems'.source
    rw [hstems'.id_eq]
    refine ⟨buf, hoff, ?_, fun honly => (hstems'.rebuilds buf honly).complete hdone⟩
    rw [← hdig]
    exact of_decide_eq_true hver
  | discard => exact ⟨erase_stems hw.entries, hw.delivered⟩
  | acksSent hmsg =>
    have hstems := hw.entries _ _ hmsg
    exact ⟨put_stems ⟨hstems.id_eq, hstems.source, fun data honly =>
      ⟨(hstems.rebuilds data honly).digest, (hstems.rebuilds data honly).length,
        (hstems.rebuilds data honly).bytes⟩⟩ hw.entries, hw.delivered⟩
  | timeOut hc hfound htime =>
    refine ⟨erase_stems hw.entries, fun id d at_ hmem => ?_⟩
    exact hw.delivered id d at_ ((mem_append.mp hmem).resolve_right fun h => by simp at h)
  | expire h htime =>
    refine ⟨hw.entries, fun id d at_ hmem => ?_⟩
    exact hw.delivered id d at_ ((mem_append.mp hmem).resolve_right fun h => by simp at h)
  | _ => exact ⟨hw.entries, hw.delivered⟩

structure Ends (σ : Type) where
  a : Env σ
  b : Env σ
  crypto_eq : b.crypto = a.crypto

structure Link (σ : Type) where
  a : World σ
  b : World σ

inductive LinkAct (σ : Type) where
  | atA (t : Clock) (x : Action σ)
  | atB (t : Clock) (x : Action σ)

def Link.step (e : Ends σ) : LinkAct σ → Link σ → Except Fault (Link σ)
  | .atA t x, s => (fun a => { s with a := a }) <$> s.a.act e.a t x
  | .atB t x, s => (fun b => { s with b := b }) <$> s.b.act e.b t x

def Honest : LinkAct σ → Link σ → Prop
  | .atA _ (.packet p), s => p ∈ s.b.created
  | .atB _ (.packet p), s => p ∈ s.a.created
  | _, _ => True

structure World.Fresh (w : World σ) : Prop where
  txMsgs : w.tx.txMsgs = ∅
  txLog : w.tx.log = []
  rxMsgs : w.rx.rxMsgs = ∅
  filter : w.rx.replayFilter = ∅
  macks : w.rx.sendMACKs = []
  rxLog : w.rx.log = []
  created : w.created = []

lemma Fresh.sends (h : w.Fresh) (c : Crypto) : Sends c w := by
  refine ⟨fun _ _ hm => ?_, fun p hp => ?_⟩
  · rw [h.txMsgs] at hm
    exact absurd (mem_of_get hm) TreeMap.not_mem_emptyc
  · rw [h.created] at hp
    cases hp

lemma Fresh.receives (h : w.Fresh) (c : Crypto) (log : List TxEvent) : Receives c log w.rx := by
  refine ⟨fun id m hm => ?_, fun id d _ hmem => ?_⟩
  · rw [h.rxMsgs] at hm
    exact absurd (mem_of_get hm) TreeMap.not_mem_emptyc
  · rw [h.rxLog] at hmem
    cases hmem

lemma Fresh.guarded (h : w.Fresh) : Guarded w.rx := by
  refine ⟨fun l₁ l₂ rxid d since hl => ?_, fun l₁ l₂ _ rxid d _ since _ hl => ?_⟩
  · rw [h.rxLog] at hl
    exact absurd hl.symm (by simp)
  · rw [h.rxLog] at hl
    exact absurd hl.symm (by simp)

lemma act_tx_log {a : Action σ} (h : w.act env t a = .ok w') {e : TxEvent} (he : e ∈ w.tx.log) : e ∈ w'.tx.log :=
  act_inv (I := fun v => e ∈ v.tx.log) h (fun _ _ hm => hm.tx_log) (fun _ _ htx _ _ hv => by rw [htx]; exact hv) he

structure Link.Sound (e : Ends σ) (first : UInt64) (s : Link σ) : Prop where
  sends : Sends e.a.crypto s.a
  numbered : s.a.tx.Numbered first
  receives : Receives e.a.crypto s.a.tx.log s.b.rx
  guarded : Guarded s.b.rx

variable {first : UInt64} {e : Ends σ} {t : Clock}

lemma Link.Sound.truthful {s : Link σ} {x : Action σ} (hs : s.Sound e first) (hi : Honest (.atB t x) s) :
    ∀ p, (x.causeIn s.b).pkt = some p → Truthful e.b.crypto s.a.tx.log p := by
  intro p hp
  cases x with
  | packet =>
    cases hp
    rw [e.crypto_eq]
    exact hs.sends.packets _ hi
  | _ => cases hp

lemma Link.Sound.step {s s' : Link σ} {i : LinkAct σ}
    (hs : s.Sound e first) (hi : Honest i s) (h : Link.step e i s = .ok s') : s'.Sound e first := by
  cases i with
  | atA t x =>
    obtain ⟨a, ha, rfl⟩ := ok_map.mp h
    refine ⟨?_, ?_, hs.receives.mono fun _ hev => act_tx_log ha hev, hs.guarded⟩
    · refine act_inv ha (fun _ _ hm => hm.sends) (fun v _ htx _ hc hv => ?_) hs.sends
      exact ⟨by rw [htx]; exact hv.msgs, by rw [hc, htx]; exact hv.packets⟩
    · exact act_inv (I := fun v => v.tx.Numbered first) ha (fun _ _ hm hv => hm.tx_inv (fun hx hv => hx.numbered hv) hv)
        (fun _ _ htx _ _ hv => by rw [htx]; exact hv) hs.numbered
  | atB t x =>
    obtain ⟨b, hb, rfl⟩ := ok_map.mp h
    have hp := hs.truthful hi
    refine ⟨hs.sends, hs.numbered, ?_, ?_⟩
    · have hr := hs.receives
      rw [← e.crypto_eq] at hr ⊢
      exact act_inv (I := fun v => Receives e.b.crypto s.a.tx.log v.rx) hb
        (fun _ _ hm => hm.receives hp) (fun _ _ _ hrx _ hv => by rw [hrx]; exact hv) hr
    · exact act_inv (I := fun v => Guarded v.rx) hb (fun _ _ hm => hm.guarded)
        (fun _ _ _ hrx _ hv => by rw [hrx]; exact hv) hs.guarded

/-- Over a network that loses, duplicates and reorders, `b` hands on under `rxid` the buffer that `a` accepted under it
(unique up to `2^64` calls).  Between two deliveries a `Tick` has erased `rxid` from the replay filter, at least
`replayWindow` after the first. -/
theorem reassembly_integrity {e : Ends σ} {s₀ s : Link σ} (ha : s₀.a.Fresh) (hb : s₀.b.Fresh)
    (hrun : Run.Reaches (Link.step e) Honest s₀ s) :
    (∀ rxid d at_, delivered rxid d at_ ∈ s.b.rx.log →
      ∃ buf h, accepted rxid buf h ∈ s.a.tx.log ∧ (Only s.a.tx.log rxid buf → d = buf)) ∧
    (s.a.tx.accepted ≤ 2^64 → ∀ rxid buf h, accepted rxid buf h ∈ s.a.tx.log → Only s.a.tx.log rxid buf) ∧
    (∀ l₁ l₂ l₃ rxid d d' since since',
      s.b.rx.log = (l₁ ++ delivered rxid d since :: l₂) ++ delivered rxid d' since' :: l₃ →
      ∃ at_, expired rxid at_ ∈ l₂ ∧ since + replayWindow ≤ at_) := by
  have hinit : s₀.Sound e s₀.a.tx.txID :=
    ⟨Fresh.sends ha _, Tx.Numbered.start ha.txLog, Fresh.receives hb _ _, Fresh.guarded hb⟩
  have hs : s.Sound e s₀.a.tx.txID := hrun.inv (fun _ _ _ ha => ha.step) hinit
  refine ⟨fun rxid d at_ hmem => ?_, fun hle rxid buf h hmem => ?_, hs.guarded.once⟩
  · obtain ⟨buf, ⟨_, h, hacc⟩, _, heq⟩ := hs.receives.delivered rxid d at_ hmem
    exact ⟨buf, h, hacc, heq⟩
  · exact (accepted_unique (hs.numbered.nodup hle) hmem).2

def Rx.Done (x : Rx) (id : UInt64) : Prop := ∃ d at_, delivered id d at_ ∈ x.log

def Covers (mask : UInt8) (n : ℕ) : Prop := allSet (testOutbound mask.toBitVec) (fragments n) = .ok true

lemma allSet_of_forall {test : ℕ → Except Fault Bool} {l : List ℕ}
    (h : ∀ idx ∈ l, test (idx / fragmentSize) = .ok true) : allSet test l = .ok true := by
  induction l with
  | nil => rfl
  | cons i l ih =>
    rw [allSet_cons, h i mem_cons_self]
    exact ih fun idx hidx => h idx (mem_cons_of_mem _ hidx)

lemma isCompleted_of_covers (h : Covers m.acksBitmask m.data.length) : m.isCompleted = .ok true := by
  refine allSet_of_forall fun idx hidx => ?_
  have htest := allSet_true h idx hidx
  unfold testOutbound at htest
  unfold testInbound
  split at htest
  · rename_i hi
    rw [if_pos hi]
    exact htest
  · cases htest

structure Confirms (log : List TxEvent) (w : World σ) : Prop where
  complete : ∀ (id : UInt64) m data, w.rx.rxMsgs[id]? = some m → Only log id data →
    m.isCompleted = .ok true → w.rx.Done id
  filter : ∀ id ∈ w.rx.replayFilter, w.rx.Done id
  macks : ∀ id ∈ w.rx.sendMACKs, w.rx.Done id
  acked : ∀ p ∈ w.created, ∀ id mask data, IsAcks p id mask → Only log id data → Covers mask data.length → w.rx.Done id
  macked : ∀ p ∈ w.created, ∀ id, IsMack p id → w.rx.Done id

variable {c : Crypto} {x y : Rx}

section
variable {log log' : List TxEvent} {w : World σ}

lemma Confirms.mono (hlog : ∀ e ∈ log, e ∈ log') (h : Confirms log w) : Confirms log' w where
  complete id m data hm honly := h.complete id m data hm (honly.mono hlog)
  filter := h.filter
  macks := h.macks
  acked p hp id mask data hack honly := h.acked p hp id mask data hack (honly.mono hlog)
  macked := h.macked

lemma Rx.Done.mono (hlog : ∀ e ∈ x.log, e ∈ y.log) (h : x.Done id) : y.Done id := by
  obtain ⟨d, at_, hmem⟩ := h
  exact ⟨d, at_, hlog _ hmem⟩

lemma not_confirming {r : Rng} {k : ℕ} {cmd : Command} {body : Bytes} {minpad variance : ℕ}
    (ha : cmd ≠ .acks) (hm : cmd ≠ .mack) :
    (∀ id mask, ¬ IsAcks (createPacket r k cmd body minpad variance) id mask) ∧
      ∀ id, ¬ IsMack (createPacket r k cmd body minpad variance) id :=
  ⟨fun _ _ h => ha (command_eq h.1), fun _ h => hm (command_eq h.1)⟩

lemma Creates.confirms (h : Creates env w p) (hr : Receives c log w.rx) (hw : Confirms log w) :
    (∀ id mask data, IsAcks p id mask → Only log id data → Covers mask data.length → w.rx.Done id) ∧
      ∀ id, IsMack p id → w.rx.Done id := by
  have hother : (∀ id mask, ¬ IsAcks p id mask) ∧ (∀ id, ¬ IsMack p id) →
      (∀ id mask data, IsAcks p id mask → Only log id data → Covers mask data.length → w.rx.Done id) ∧
        ∀ id, IsMack p id → w.rx.Done id := fun hno =>
    ⟨fun id mask data hack => absurd hack (hno.1 id mask), fun id hack => absurd hack (hno.2 id)⟩
  cases h with
  | xmit hmsg | data hmsg | nack | ping | clos => exact hother (not_confirming (by decide) (by decide))
  | acks hmsg =>
    refine ⟨fun id mask data hack honly hcov => ?_, fun id hack => absurd (command_eq hack.1) (by decide)⟩
    obtain ⟨rfl, rfl⟩ := hack.of_ackPacket
    have hstems := hr.entries _ _ hmsg
    rw [hstems.id_eq] at honly ⊢
    rw [← (hstems.rebuilds data honly).length] at hcov
    exact hw.complete _ _ data hmsg honly (isCompleted_of_covers hcov)
  | acksDone hdel =>
    refine ⟨fun id mask data hack honly hcov => ?_, fun id hack => absurd (command_eq hack.1) (by decide)⟩
    obtain ⟨rfl, _⟩ := hack.of_ackPacket
    exact ⟨_, _, hdel⟩
  | mack hids hlen =>
    refine ⟨fun id mask data hack => absurd (command_eq hack.1) (by decide), fun id hack => ?_⟩
    exact hw.macks id (hids id (hack.of_mack hlen))

end

lemma get_of_erase {β : Type} {m : TreeMap UInt64 β} {k : UInt64} {v : β}
    (h : (m.erase k)[id]? = some v) : m[id]? = some v := by
  rw [get_erase] at h
  split at h
  · cases h
  · exact h

lemma HasEntry.get_ne (h : HasEntry t p x rxid msg y) (hne : rxid ≠ id) : y.rxMsgs[id]? = x.rxMsgs[id]? := by
  cases h with
  | old => rfl
  | opened =>
    show (x.rxMsgs.insert rxid _)[id]? = _
    rw [get_insert, if_neg hne]

lemma HasEntry.get_put (h : HasEntry t p x rxid msg y) (hm : (y.rxMsgs.insert rxid msg')[id]? = some m) :
    rxid = id ∧ msg' = m ∨ x.rxMsgs[id]? = some m := by
  rw [get_insert] at hm
  split at hm
  · rename_i heq
    exact .inl ⟨heq, Option.some.inj hm⟩
  · rename_i hne
    rw [h.get_ne hne] at hm
    exact .inr hm

lemma Stems.verify {data : Message}
    (h : Stems c log id m) (honly : Only log id data) (hdone : m.isCompleted = .ok true) :
    m.verify c = true := by
  have hm := h.rebuilds data honly
  refine decide_eq_true ?_
  rw [hm.complete hdone, hm.digest]

lemma Confirms.change (hw : Confirms log w) (hlog : ∀ e ∈ w.rx.log, e ∈ x.log)
    (hcomplete : ∀ (id : UInt64) m data, x.rxMsgs[id]? = some m → Only log id data →
      m.isCompleted = .ok true → w.rx.rxMsgs[id]? = some m ∨ x.Done id)
    (hfilter : ∀ id ∈ x.replayFilter, id ∈ w.rx.replayFilter ∨ x.Done id)
    (hmacks : ∀ id ∈ x.sendMACKs, id ∈ w.rx.sendMACKs ∨ x.Done id) :
    Confirms log { w with rx := x } where
  complete id m data hm honly hcomp := (hcomplete id m data hm honly hcomp).elim
    (fun hm => (hw.complete id m data hm honly hcomp).mono hlog) (fun hd => hd)
  filter id hid := (hfilter id hid).elim (fun hid => (hw.filter id hid).mono hlog) (fun hd => hd)
  macks id hid := (hmacks id hid).elim (fun hid => (hw.macks id hid).mono hlog) (fun hd => hd)
  acked p hp id mask data hack honly hcov := (hw.acked p hp id mask data hack honly hcov).mono hlog
  macked p hp id hack := (hw.macked p hp id hack).mono hlog

lemma Move.confirms (h : Move env t cause w w') (hp : ∀ p, cause.pkt = some p → Truthful env.crypto log p)
    (htick : ∀ (found : TreeMap UInt64 InboundMessage) (rxid : UInt64) msg, cause = .tick found →
      found[rxid]? = some msg → msg.isTimedOut t.now = true → w.rx.Done rxid)
    (hr : Receives env.crypto log w.rx) (hw : Confirms log w) : Confirms log w' := by
  cases h with
  | create hc =>
    obtain ⟨hacks, hmack⟩ := hc.confirms hr hw
    refine ⟨hw.complete, hw.filter, hw.macks, fun q hq => ?_, fun q hq => ?_⟩
    · rcases mem_concat.mp hq with hq | rfl
      · exact hw.acked q hq
      · exact hacks
    · rcases mem_concat.mp hq with hq | rfl
      · exact hw.macked q hq
      · exact hmack
  | openRX hc hx hnew hnone hlen => exact absurd ((hp _ hc).xmit _ _ _ hx).1 hlen
  | @data y p rxid idx buf msg msg' hc hcar hmsg hdata hpart =>
    have hstems := ((hmsg.stems (hp _ hc) hr.entries).1).handleData (hp _ hc) hcar hdata
    obtain ⟨hfilter, hmacks, hlog⟩ := hmsg.same
    have hsame : ∀ e ∈ w.rx.log, e ∈ (y.put rxid msg').log := fun e he => by
      rw [← hlog] at he
      exact he
    refine hw.change hsame (fun id m data hm honly hcomp => ?_) (fun _ hid => .inl (hfilter ▸ hid))
      (fun _ hid => .inl (hmacks ▸ hid))
    rcases hmsg.get_put hm with ⟨rfl, rfl⟩ | hget
    · -- a complete entry verifies, so its id was in the filter before
      rcases hpart with hno | hno | hold
      · rw [hcomp] at hno
        cases hno
      · rw [hstems.verify honly hcomp] at hno
        cases hno
      · rw [hstems.id_eq] at hold
        exact .inr ((hw.filter _ hold).mono hsame)
    · exact .inl hget
  | @deliver y p rxid idx buf msg msg' hc hcar hmsg hdata hcompl hver hnew =>
    have hstems := ((hmsg.stems (hp _ hc) hr.entries).1).handleData (hp _ hc) hcar hdata
    obtain ⟨hfilter, hmacks, hlog⟩ := hmsg.same
    have hself : (y.deliver t.now rxid msg').Done rxid := by
      refine ⟨msg'.data, t.now, ?_⟩
      rw [← hstems.id_eq]
      exact mem_append_right _ mem_cons_self
    refine hw.change (fun e he => ?_) (fun id m data hm honly hcomp => ?_) (fun id hid => ?_)
      (fun _ hid => .inl (hmacks ▸ hid))
    · rw [← hlog] at he
      exact mem_append_left _ he
    · rcases hmsg.get_put hm with ⟨rfl, -⟩ | hget
      · exact .inr hself
      · exact .inl hget
    · have hmem := hid
      rcases mem_insertIfNew.mp hmem with heq | hmem
      · rw [← heq, hstems.id_eq]
        exact .inr hself
      · exact .inl (hfilter ▸ hmem)
  | discard rxid =>
    refine hw.change (fun e he => he) (fun id m data hm honly hcomp => .inl ?_) (fun _ => .inl)
      (fun _ => .inl)
    exact get_of_erase hm
  | @acksSent rxid msg hmsg =>
    refine ⟨fun id m data hm honly hcomp => ?_, hw.filter, hw.macks, hw.acked, hw.macked⟩
    have hget : (w.rx.rxMsgs.insert rxid { msg with lastACKSent := t.now })[id]? = some m := hm
    rw [get_insert] at hget
    split at hget
    · rename_i heq
      subst heq
      cases hget
      exact hw.complete _ msg data hmsg honly hcomp
    · exact hw.complete id m data hget honly hcomp
  | @timeOut found rxid msg hc hfound htime =>
    have hself := htick found rxid msg hc hfound htime
    have hlog : ∀ e ∈ w.rx.log, e ∈ w.rx.log ++ [timedOut rxid t.now] := fun e he =>
      mem_append_left _ he
    refine hw.change hlog (fun _ _ _ hm _ _ => .inl (get_of_erase hm)) (fun id hid => ?_)
      (fun _ => .inl)
    rcases mem_insertIfNew.mp hid with heq | hid
    · rw [← heq]
      exact .inr (hself.mono hlog)
    · exact .inl hid
  | expire h htime =>
    refine hw.change (fun _ => mem_append_left _) (fun _ _ _ hm _ _ => .inl hm)
      (fun _ hid => .inl (TreeMap.mem_of_mem_erase hid)) (fun _ => .inl)
  | pushMACK h =>
    refine hw.change (fun e he => he) (fun _ _ _ hm _ _ => .inl hm) (fun _ => .inl)
      (fun id hid => ?_)
    rcases mem_cons.mp ((perm_orderedInsert _ _ _).mem_iff.mp hid) with heq | hid
    · rw [heq]
      exact .inr (hw.filter _ h)
    · exact .inl hid
  | popMACK =>
    refine hw.change (fun e he => he) (fun _ _ _ hm _ _ => .inl hm) (fun _ => .inl)
      (fun _ hid => .inl (mem_of_mem_drop hid))
  | _ => exact ⟨hw.complete, hw.filter, hw.macks, hw.acked, hw.macked⟩

def NoneAbandoned : LinkAct σ → Link σ → Prop
  | .atB t .tick, s => ∀ (rxid : UInt64) m, s.b.rx.rxMsgs[rxid]? = some m → m.isTimedOut t.now = true → s.b.rx.Done rxid
  | _, _ => True

def Reports (x : Tx) (done : UInt64 → Prop) : Prop :=
  ∀ id h data, invoked id h .success ∈ x.log → Only x.log id data → done id

lemma mem_finish_log {x : Tx} {msg : OutboundMessage} {st : DeliveryStatus} {e : TxEvent}
    (he : e ∈ (x.finish id msg st).log) : e ∈ x.log ∨ ∃ h, e = .invoked id h st := by
  rw [finish_log] at he
  rcases mem_append.mp he with he | he
  · exact .inl he
  · obtain ⟨h, _, rfl⟩ := mem_map.mp he
    exact .inr ⟨h, rfl⟩

structure Confirmed (log : List TxEvent) (done : UInt64 → Prop) (p : Packet) : Prop where
  acked : ∀ id mask data, IsAcks p id mask → Only log id data → Covers mask data.length → done id
  macked : ∀ id, IsMack p id → done id

lemma TxMove.reports {k : TxKind} {done : UInt64 → Prop} {x x' : Tx}
    (h : TxMove c t cause x k x') (hp : ∀ p, cause.pkt = some p → Confirmed log done p)
    (hlog : ∀ e ∈ log, e ∈ x.log) (hsend : x.Backed c) (hx : Reports x done) : Reports x' done := by
  -- a message that was finished as the packet in hand says
  have hfinish : ∀ {y : Tx} {id : UInt64} {msg : OutboundMessage} {st : DeliveryStatus},
      y.log = x.log → (st = .success → ∀ data, Only x.log id data → done id) →
      Reports (y.finish id msg st) done := by
    intro y id msg st hy hdone k hd data hmem honly
    have honly' : Only x.log k data := honly.mono fun e he => finish_log_mem (hy ▸ he)
    rcases mem_finish_log hmem with hmem | ⟨_, heq⟩
    · rw [hy] at hmem
      exact hx k hd data hmem honly'
    · cases heq
      exact hdone rfl data honly'
  cases h with
  | accept buf hd | reject buf hd =>
    intro k h data hmem honly
    refine hx k h data ?_ (honly.mono fun e he => mem_append_left _ he)
    exact (mem_append.mp hmem).resolve_right fun h => by simp at h
  | ack hc hack hmsg | flushed hmsg => exact hx
  | ackDone hc hack hmsg hdone =>
    refine hfinish rfl fun _ data honly => ?_
    have hdata := honly.eq (hsend _ _ hmsg).2.2
    refine (hp _ hc).acked _ _ data hack (honly.mono hlog) ?_
    rw [← hdata]
    exact hdone
  | mackDone hc hack hmsg => exact hfinish rfl fun _ data honly => (hp _ hc).macked _ hack
  | drop hmsg => exact hfinish rfl fun hst => (nomatch hst)

structure Link.Settled (e : Ends σ) (first : UInt64) (s : Link σ) : Prop extends s.Sound e first where
  confirms : Confirms s.a.tx.log s.b
  reports : Reports s.a.tx s.b.rx.Done

variable {x : Action σ}

lemma Link.Settled.stepA {s s' : Link σ}
    (hs : s.Settled e first) (hi : Honest (.atA t x) s) (h : Link.step e (.atA t x) s = .ok s') :
    s'.Settled e first := by
  have hsound := hs.toSound.step hi h
  obtain ⟨a, ha, rfl⟩ := ok_map.mp h
  have hp : ∀ p, (x.causeIn s.a).pkt = some p → Confirmed s.a.tx.log s.b.rx.Done p := by
    intro p hp
    cases x with
    | packet =>
      cases hp
      exact ⟨hs.confirms.acked _ hi, hs.confirms.macked _ hi⟩
    | _ => cases hp
  have hinv := act_inv (I := fun v => (v.tx.Backed e.a.crypto ∧ ∀ ev ∈ s.a.tx.log, ev ∈ v.tx.log) ∧
      Reports v.tx s.b.rx.Done) ha
    (fun v _ hm hv => hm.tx_inv (I := fun x => (x.Backed e.a.crypto ∧ ∀ ev ∈ s.a.tx.log, ev ∈ x.log) ∧
        Reports x s.b.rx.Done)
      (fun hx hv => ⟨⟨hx.backed hv.1.1, fun ev hev => hx.log_mem (hv.1.2 ev hev)⟩,
        hx.reports hp hv.1.2 hv.1.1 hv.2⟩) hv)
    (fun _ _ htx _ _ hv => by rw [htx]; exact hv)
    ⟨⟨hs.sends.msgs, fun ev hev => hev⟩, hs.reports⟩
  exact ⟨hsound, hs.confirms.mono fun ev hev => act_tx_log ha hev, hinv.2⟩

lemma Link.Settled.stepB {s s' : Link σ}
    (hs : s.Settled e first) (hi : Honest (.atB t x) s) (ht : NoneAbandoned (.atB t x) s)
    (h : Link.step e (.atB t x) s = .ok s') : s'.Settled e first := by
  have hsound := hs.toSound.step hi h
  obtain ⟨b, hb, rfl⟩ := ok_map.mp h
  have hp := hs.toSound.truthful hi
  have htick : ∀ (found : TreeMap UInt64 InboundMessage) (rxid : UInt64) msg,
      x.causeIn s.b = .tick found → found[rxid]? = some msg → msg.isTimedOut t.now = true →
      s.b.rx.Done rxid := by
    intro found rxid msg hc hfound htime
    cases x with
    | tick =>
      cases hc
      exact ht rxid msg hfound htime
    | _ => cases hc
  have hr := hs.receives
  rw [← e.crypto_eq] at hr
  have hinv := act_inv (I := fun v => (Receives e.b.crypto s.a.tx.log v.rx ∧
      ∀ ev ∈ s.b.rx.log, ev ∈ v.rx.log) ∧ Confirms s.a.tx.log v) hb
    (fun v v' hm hv => ⟨⟨hm.receives hp hv.1.1, fun ev hev =>
        Moves.rx_log (ReflTransGen.single hm) (hv.1.2 ev hev)⟩,
      hm.confirms hp (fun found rxid msg hc hf htime => (htick found rxid msg hc hf htime).mono hv.1.2) hv.1.1 hv.2⟩)
    (fun v v' _ hrx hc hv => by
      refine ⟨by rw [hrx]; exact hv.1, ?_⟩
      exact ⟨by rw [hrx]; exact hv.2.complete, by rw [hrx]; exact hv.2.filter,
        by rw [hrx]; exact hv.2.macks, by rw [hrx, hc]; exact hv.2.acked,
        by rw [hrx, hc]; exact hv.2.macked⟩)
    ⟨⟨hr, fun ev hev => hev⟩, hs.confirms⟩
  exact ⟨hsound, hinv.2, fun id hd data hmem honly =>
    (hs.reports id hd data hmem honly).mono hinv.1.2⟩

lemma Fresh.confirms (h : w.Fresh) (log : List TxEvent) : Confirms log w where
  complete id m data hm := by
    rw [h.rxMsgs] at hm
    exact absurd (mem_of_get hm) TreeMap.not_mem_emptyc
  filter id hid := by
    rw [h.filter] at hid
    exact absurd hid TreeMap.not_mem_emptyc
  macks id hid := by
    rw [h.macks] at hid
    cases hid
  acked p hp := by
    rw [h.created] at hp
    cases hp
  macked p hp := by
    rw [h.created] at hp
    cases hp

/-- If no `Tick` of `b` gives up on an undelivered message, every message of `a` whose handler was run with success
(unique up to `2^64` calls) was handed on by `b`. -/
theorem delivery_soundness {e : Ends σ} {s₀ s : Link σ} (ha : s₀.a.Fresh) (hb : s₀.b.Fresh)
    (hrun : Run.Reaches (Link.step e) (fun i s => Honest i s ∧ NoneAbandoned i s) s₀ s) :
    (∀ id buf h h', accepted id buf h ∈ s.a.tx.log → Only s.a.tx.log id buf → invoked id h' .success ∈ s.a.tx.log →
      ∃ at_, delivered id buf at_ ∈ s.b.rx.log) ∧
    (s.a.tx.accepted ≤ 2^64 → ∀ id buf h, accepted id buf h ∈ s.a.tx.log → Only s.a.tx.log id buf) := by
  have hinit : s₀.Settled e s₀.a.tx.txID := by
    refine ⟨⟨Fresh.sends ha _, Tx.Numbered.start ha.txLog, Fresh.receives hb _ _, Fresh.guarded hb⟩,
      Fresh.confirms hb _, fun k hd data hmem => ?_⟩
    rw [ha.txLog] at hmem
    cases hmem
  have hs : s.Settled e s₀.a.tx.txID := hrun.inv (fun i a b ha hg hstep => by
    cases i with
    | atA t x => exact ha.stepA hg.1 hstep
    | atB t x => exact ha.stepB hg.1 hg.2 hstep) hinit
  refine ⟨fun id buf h h' _ honly hdone => ?_, fun hle id buf h hmem => ?_⟩
  · obtain ⟨d, at_, hmem⟩ := hs.reports id h' buf hdone honly
    obtain ⟨buf', hoff, _, heq⟩ := hs.receives.delivered id d at_ hmem
    obtain rfl := honly.eq hoff
    rw [heq honly] at hmem
    exact ⟨at_, hmem⟩
  · exact (accepted_unique (hs.numbered.nodup hle) hmem).2

end

instance {σ : Type} (i : LinkAct σ) (s : Link σ) : Decidable (Honest i s) := by
  unfold Honest
  split <;> infer_instance

namespace Sample

def ends : Ends Unit := ⟨env, env, rfl⟩

def link : Link Unit := ⟨ready, ready⟩

def message : Message := replicate 1030 5

def messageXmit : Packet := (OutboundMessage.new crypto 0 message 0 (some (.user 1)) 0).xmit env.rng 0

def messageData : Packet := dataPacket env.rng 1 1024 0 (fragment message 1024)

end Sample

open Sample

/-- `b` gets half of a message and gives up on it at 600; the other half makes it send a multiack, and `a` reports
success. -/
theorem delivery_soundness_abandoned : ∃ s, execWhile (Link.step ends) Honest
        [.atA (clock 0) (.send message (some 1) 0), .atB (clock 1) (.packet messageXmit), .atB (clock 600) .tick,
         .atB (clock 601) (.packet messageData),
         .atB (clock 601) .sendMACK,
         .atA (clock 602) (.packet (createPacket env.rng 0 .mack (mackBody [0]) 16 16))]
        link = some s ∧
      s.a.tx.log = [.accepted 0 message (some (.user 1)), .invoked 0 (.user 1) .success] ∧
      s.b.rx.log = [.timedOut 0 600] := some_sat

def LinkAct.calm {σ : Type} : LinkAct σ → Bool
  | .atB _ .tick => false
  | _ => true

lemma LinkAct.calm.noneAbandoned {σ : Type} {i : LinkAct σ} (h : i.calm = true) (s : Link σ) : NoneAbandoned i s := by
  unfold NoneAbandoned
  split
  · cases h
  · trivial

namespace Sample

def shortRun : List (LinkAct Unit) :=
  [.atA (clock 0) (.send [1, 2, 3] (some 1) 0),
   .atB (clock 1) (.packet ((OutboundMessage.new crypto 0 [1, 2, 3] 0 (some (.user 1)) 0).xmit env.rng 0)),
   .atA (clock 2) (.packet (createPacket env.rng 0 .acks (InboundMessage.ackBody 0 1) 16 16))]

def fragmented : Message := replicate 1025 7

def fragmentsRun : List (LinkAct Unit) :=
  [.atA (clock 0) (.send fragmented none 0),
   .atB (clock 1) (.packet ((OutboundMessage.new crypto 0 fragmented 0 none 0).xmit env.rng 0)),
   .atB (clock 1) (.packet (dataPacket env.rng 1 1024 0 (fragment fragmented 1024)))]

lemma ready_fresh : ready.Fresh := ⟨rfl, rfl, rfl, rfl, rfl, rfl, rfl⟩

end Sample

theorem delivery_soundness_short : ∃ s, execWhile (Link.step ends) (fun i s => Honest i s ∧ i.calm = true)
        shortRun link = some s ∧
      invoked 0 (.user 1) .success ∈ s.a.tx.log ∧
      ∃ at_, delivered 0 [1, 2, 3] at_ ∈ s.b.rx.log := by
  refine some_then (P := fun s => s.a.tx.log = [.accepted 0 [1, 2, 3] (some (.user 1)), .invoked 0 (.user 1) .success])
    (by decide +kernel) fun s hs hlog => ?_
  have hrun : Run.Reaches (Link.step ends) (fun i s => Honest i s ∧ NoneAbandoned i s) link s :=
    (execWhile_reaches hs).mono fun i a h => ⟨h.1, LinkAct.calm.noneAbandoned h.2 a⟩
  have hsound := (delivery_soundness ready_fresh ready_fresh hrun).1
  have hacc : accepted 0 [1, 2, 3] (some (.user 1)) ∈ s.a.tx.log := by rw [hlog]; decide
  have hinv : invoked 0 (.user 1) .success ∈ s.a.tx.log := by rw [hlog]; decide
  have honly : Only s.a.tx.log 0 [1, 2, 3] := by
    intro buf' h' hmem
    rw [hlog] at hmem
    simp at hmem
    exact hmem.1
  exact ⟨hinv, hsound 0 [1, 2, 3] _ _ hacc honly hinv⟩

theorem reassembly_integrity_fragments : ∃ s, execWhile (Link.step ends) Honest fragmentsRun link = some s ∧
      s.b.rx.log = [.delivered 0 fragmented 1] ∧
      (∃ buf h, accepted 0 buf h ∈ s.a.tx.log ∧ (Only s.a.tx.log 0 buf → fragmented = buf)) := by
  refine some_then (P := fun s => s.b.rx.log = [.delivered 0 fragmented 1]) (by decide +kernel) fun s hs hlog => ?_
  have hint := reassembly_integrity ready_fresh ready_fresh (execWhile_reaches hs)
  refine ⟨hlog, hint.1 0 fragmented 1 ?_⟩
  rw [hlog]
  exact mem_cons_self

end Belnet.Iwp
