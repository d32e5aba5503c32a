import Belnet.Service.Attribution

/-!
# Session keys and the peers they were made with

A worker looks whether the tag of a handshake is taken; the table is written later, by three setters.
-/

namespace Belnet.Service
open Iwp Util Belnet.Path List AList Run Endpoint

/-- the tag whose key the step sets, with its accepted handshake; none of our own key exchanges is one -/
def Op.keys (cfg : Config) (s : Endpoint) : Op → Option (ConvoTag × Option Handshake)
  | .auth i accepted =>
    if accepted || !cfg.authPolicy then s.auths[i]?.map fun h => (h.msg.tag, some h) else none
  | .keyExchanged tag _ _ _ _ => some (tag, none)
  | _ => none

structure Traced where
  endpoint : Endpoint := {}
  keyedBy : ConvoTag → Option Handshake := fun _ => none

namespace Traced

def origins (cfg : Config) (op : Op) (m : Traced) (s : Endpoint) (t : ConvoTag) : Option Handshake :=
  if s.hasConvoTag t then
    match op.keys cfg m.endpoint with
    | some (tag, h) => if t = tag then h else m.keyedBy t
    | none => m.keyedBy t
  else none

def step (cfg : Config) (op : Op) (m : Traced) : Except MemFault Traced := do
  let s ← m.endpoint.step cfg op
  return ⟨s, m.origins cfg op s⟩

def Bound (cfg : Config) (m : Traced) : Prop :=
  ∀ t h, m.keyedBy t = some h → ∃ x, m.endpoint.sessions.lookup t = some x ∧ x.sharedKey = h.sharedKey ∧
    x.remote.same h.msg.sender ∧ h.frame.verify cfg.crypto.toCrypto x.remote = true

end Traced

def Endpoint.Free (s : Endpoint) (msg : ProtocolMessage) : Prop :=
  match s.sessions.lookup msg.tag with
  | some x => x.remote.same msg.sender
  | none => isZero msg.sender.addr = false ∨ ServiceInfo.same {} msg.sender

def FreeTags (cfg : Config) (op : Op) (m : Traced) : Prop :=
  ∀ tag h, op.keys cfg m.endpoint = some (tag, some h) → m.endpoint.Free h.msg

namespace Endpoint
variable {cfg : Config} {s s' s'' : Endpoint} {tag : ConvoTag} {keyed keyed' : Option ConvoTag}

def Keeps (keyed : Option ConvoTag) (s s' : Endpoint) : Prop :=
  ∀ t x, s.sessions.lookup t = some x → ∃ x', s'.sessions.lookup t = some x' ∧ x'.remote = x.remote ∧
    (t ∈ keyed ∨ x'.sharedKey = x.sharedKey)

lemma Keeps.of_eq (h : s'.sessions = s.sessions) : Keeps keyed s s' := by
  intro t x hx
  rw [h]
  exact ⟨x, hx, rfl, .inr rfl⟩

lemma Keeps.trans (h : Keeps keyed s s') (h' : Keeps keyed s' s'') : Keeps keyed s s'' := by
  intro t x hx
  obtain ⟨x1, hx1, hr1, hk1⟩ := h t x hx
  obtain ⟨x2, hx2, hr2, hk2⟩ := h' t x1 hx1
  refine ⟨x2, hx2, hr2.trans hr1, ?_⟩
  rcases hk2 with hk2 | hk2
  · exact .inl hk2
  · rw [hk2]
    exact hk1

lemma Keeps.mono (h : Keeps none s s') : Keeps keyed s s' := by
  intro t x hx
  obtain ⟨x', hx', hr, hk | hk⟩ := h t x hx
  · cases hk
  · exact ⟨x', hx', hr, .inr hk⟩

lemma Keeps.insert {y : Session} (h : ∀ x, s.sessions.lookup tag = some x → y.remote = x.remote ∧
    (tag ∈ keyed ∨ y.sharedKey = x.sharedKey)) :
    Keeps keyed s { s with sessions := s.sessions.insert tag y } := by
  intro t x hx
  show ∃ x', (s.sessions.insert tag y).lookup t = some x' ∧ _
  by_cases ht : t = tag
  · subst ht
    rw [lookup_insert]
    exact ⟨y, rfl, h x hx⟩
  · rw [lookup_insert_ne ht]
    exact ⟨x, hx, rfl, .inr rfl⟩

section
variable (s : Endpoint) (tag : ConvoTag)

lemma putSender_keeps (info : ServiceInfo) (inbound : Bool) : Keeps none s (s.putSenderFor tag info inbound) := by
  unfold putSenderFor
  split
  · exact .of_eq rfl
  cases hx : s.sessions.lookup tag with
  | some x => exact .of_eq rfl
  | none =>
    dsimp only
    split
    · exact .of_eq rfl
    apply Keeps.insert
    intro x hx'
    rw [hx] at hx'
    cases hx'

lemma putIntro_keeps (intro : Introduction) : Keeps none s (s.putIntroFor tag intro) := by
  apply Keeps.insert
  intro x hx
  rw [hx]
  exact ⟨rfl, .inr rfl⟩

lemma putReply_keeps (intro : Introduction) : Keeps none s (s.putReplyIntroFor tag intro) := by
  unfold putReplyIntroFor
  cases hx : s.sessions.lookup tag with
  | none => exact .of_eq rfl
  | some =>
    apply Keeps.insert
    intro x hx'
    rw [hx] at hx'
    cases hx'
    exact ⟨rfl, .inr rfl⟩

lemma putCachedKey_keeps (k : SharedSecret) : Keeps (some tag) s (s.putCachedSessionKeyFor tag k) := by
  apply Keeps.insert
  intro x hx
  rw [hx]
  exact ⟨rfl, .inl rfl⟩

lemma putCachedKey_lookup (k : SharedSecret) : (s.putCachedSessionKeyFor tag k).sessions.lookup tag
      = some { (s.sessions.lookup tag).getD {} with sharedKey := k } := by
  show (s.sessions.insert tag _).lookup tag = _
  rw [lookup_insert]

lemma dataMessage_keeps (path : RouterID) (frame : ProtocolFrame) (msg : ProtocolMessage) :
    Keeps none s (s.handleDataMessage path frame msg) :=
  (putSender_keeps s msg.tag msg.sender true).trans ((putReply_keeps _ msg.tag _).trans (.of_eq rfl))

end

structure Queues (cfg : Config) (s s' : Endpoint) : Prop where
  jobs : ∀ j ∈ s'.jobs, j ∈ s.jobs
  auths : ∀ h ∈ s'.auths, h ∈ s.auths ∨ h.frame.verify cfg.crypto.toCrypto h.msg.sender = true

lemma Queues.of_eq (hjobs : s'.jobs = s.jobs) (hauths : s'.auths = s.auths) : Queues cfg s s' where
  jobs j hj := by rwa [hjobs] at hj
  auths h hh := by rw [hauths] at hh; exact .inl hh

lemma Queues.trans (h : Queues cfg s s') (h' : Queues cfg s' s'') : Queues cfg s s'' where
  jobs j hj := h.jobs j (h'.jobs j hj)
  auths x hx := (h'.auths x hx).elim (h.auths x) .inr

lemma Writes.queues {info : ServiceInfo} (h : Writes tag info s s') : Queues cfg s s' :=
  .of_eq (by rw [h.only]) (by rw [h.only])

lemma dataMessage_queues (s : Endpoint) (path : RouterID) (frame : ProtocolFrame) (msg : ProtocolMessage) :
    Queues cfg s (s.handleDataMessage path frame msg) :=
  (putSender_writes s msg.tag msg.sender true).queues.trans
    ((putReply_writes _ msg.tag msg.sender _).queues.trans (.of_eq rfl rfl))

lemma putSenderFor_record (s : Endpoint) (msg : ProtocolMessage) :
    let mid := s.putSenderFor msg.tag msg.sender (!s.wantsOutboundSession msg.sender.addr)
    ((mid.sessions.lookup msg.tag).getD {}).remote.same msg.sender ↔ s.Free msg := by
  dsimp only
  unfold putSenderFor Free
  cases hx : s.sessions.lookup msg.tag with
  | some =>
    split
    · rw [hx]; rfl
    · dsimp only
      rw [hx]; rfl
  | none =>
    split
    · rename_i hzero
      rw [hx]
      constructor
      · exact .inr
      · rintro (h | h)
        · rw [hzero] at h; cases h
        · exact h
    · rename_i hzero
      dsimp only
      rw [Bool.and_not_self, if_neg Bool.false_ne_true]
      show ((lookup msg.tag (s.sessions.insert msg.tag _)).getD {}).remote.same msg.sender ↔ _
      rw [lookup_insert]
      exact ⟨fun _ => .inl (Bool.eq_false_iff.mpr hzero), fun _ => ⟨rfl, rfl, rfl, rfl⟩⟩

lemma putReply_record (s : Endpoint) (tag : ConvoTag) (intro : Introduction) :
    (((s.putReplyIntroFor tag intro).sessions.lookup tag).getD {}).remote
      = ((s.sessions.lookup tag).getD {}).remote := by
  unfold putReplyIntroFor
  cases hx : s.sessions.lookup tag with
  | none => rw [hx]
  | some =>
    show ((lookup tag (s.sessions.insert tag _)).getD {}).remote = _
    rw [lookup_insert]
    rfl

lemma authResult_keys {accepted : Bool} (hacc : (accepted || !cfg.authPolicy) = true) (s : Endpoint) (h : Handshake) :
    Keeps (some h.msg.tag) s (authResult cfg accepted s h) ∧ Queues cfg s (authResult cfg accepted s h) ∧
      ∃ x, (authResult cfg accepted s h).sessions.lookup h.msg.tag = some x ∧ x.sharedKey = h.sharedKey ∧
        (x.remote.same h.msg.sender ↔ s.Free h.msg) := by
  have hrecord := putSenderFor_record s h.msg
  unfold authResult
  rw [if_pos hacc]
  dsimp only at hrecord ⊢
  have hput := putSender_keeps s h.msg.tag h.msg.sender (!s.wantsOutboundSession h.msg.sender.addr)
  have hput' := putSender_writes s h.msg.tag h.msg.sender (!s.wantsOutboundSession h.msg.sender.addr)
  generalize s.putSenderFor h.msg.tag h.msg.sender (!s.wantsOutboundSession h.msg.sender.addr) = s1
    at hrecord hput hput' ⊢
  rw [← putReply_record s1 h.msg.tag h.msg.introReply] at hrecord
  have hreply := putReply_keeps s1 h.msg.tag h.msg.introReply
  have hreply' := putReply_writes s1 h.msg.tag h.msg.sender h.msg.introReply
  generalize s1.putReplyIntroFor h.msg.tag h.msg.introReply = s2 at hrecord hreply hreply' ⊢
  have hkey := putCachedKey_keeps s2 h.msg.tag h.sharedKey
  have hkey' := putCachedKey_writes s2 h.msg.tag h.msg.sender h.sharedKey
  have hx := putCachedKey_lookup s2 h.msg.tag h.sharedKey
  generalize s2.putCachedSessionKeyFor h.msg.tag h.sharedKey = s3 at hkey hkey' hx ⊢
  have hdata := dataMessage_keeps s3 h.path h.frame h.msg
  refine ⟨((hput.trans hreply).mono.trans hkey).trans hdata.mono, ?_, ?_⟩
  · exact ((hput'.trans hreply').trans hkey').queues.trans (dataMessage_queues s3 h.path h.frame h.msg)
  obtain ⟨x, hx', hremote, hk | hk⟩ := hdata h.msg.tag _ hx
  · cases hk
  · refine ⟨x, hx', hk, ?_⟩
    rw [hremote]
    exact hrecord

lemma work_cases {busy full : Bool} {job : Job} (h : work cfg busy full s job = .ok s') :
    s'.sessions = s.sessions ∧ Queues cfg s s' := by
  have hsame : s.sessions = s.sessions ∧ Queues cfg s s := ⟨rfl, .of_eq rfl rfl⟩
  cases job with
  | handshake path frame =>
    unfold work at h
    dsimp only at h
    cases hK : cfg.crypto.pqeDecrypt frame.C cfg.identity.pq with
    | none => rw [hK] at h; cases h; exact hsame
    | some =>
      rw [hK] at h
      obtain ⟨msg, hmsg, h⟩ := ok_bind.mp h
      cases msg with
      | none => cases h; exact hsame
      | some msg =>
        dsimp only at h
        split at h
        · cases h; exact hsame
        rename_i hverify
        split at h
        · cases h; exact hsame
        split at h
        · cases h; exact hsame
        split at h
        · cases h; exact hsame
        cases h
        refine ⟨rfl, fun _ hj => hj, fun x hx => ?_⟩
        rcases mem_concat.mp hx with hx | rfl
        · exact .inl hx
        · right
          simpa using hverify
  | data path frame =>
    unfold work at h
    dsimp only at h
    split at h
    · cases h; exact hsame
    obtain ⟨msg, hmsg, h⟩ := ok_bind.mp h
    cases msg with
    | none => cases h; exact hsame
    | some msg =>
      dsimp only at h
      split at h
      · cases h; exact hsame
      cases h
      exact ⟨rfl, .of_eq rfl rfl⟩

structure Effect (cfg : Config) (op : Op) (s s' : Endpoint) : Prop where
  records : Keeps ((op.keys cfg s).map Prod.fst) s s' ∨
    Shrinks s s' ∧ ((∃ path f, op = .frame path f) ∨ ∃ tag, op = .remove tag)
  keyed : ∀ tag h, op.keys cfg s = some (tag, some h) → tag = h.msg.tag ∧ h ∈ s.auths ∧
    ∃ x, s'.sessions.lookup tag = some x ∧ x.sharedKey = h.sharedKey ∧ (x.remote.same h.msg.sender ↔ s.Free h.msg)
  auths : ∀ x ∈ s'.auths, x ∈ s.auths ∨ x.frame.verify cfg.crypto.toCrypto x.msg.sender = true
  jobs : (∃ path f, op = .frame path f) ∨ ∀ j ∈ s'.jobs, j ∈ s.jobs

lemma Effect.unkeyed {op : Op} (hop : op.keys cfg s = none) (hrecords : Keeps none s s') (hqueues : Queues cfg s s') :
    Effect cfg op s s' where
  records := by rw [hop]; exact .inl hrecords
  keyed tag h hk := by rw [hop] at hk; cases hk
  auths := hqueues.auths
  jobs := .inr hqueues.jobs

lemma auth_effect {i : ℕ} {accepted : Bool} {h : Handshake} (hi : s.auths[i]? = some h) :
    Effect cfg (.auth i accepted) s (authResult cfg accepted { s with auths := s.auths.eraseIdx i } h) := by
  have hpop : Queues cfg s { s with auths := s.auths.eraseIdx i } :=
    ⟨fun _ hj => hj, fun x hx => .inl (mem_of_mem_eraseIdx hx)⟩
  by_cases hacc : (accepted || !cfg.authPolicy) = true
  · have hkeys : Op.keys cfg s (.auth i accepted) = some (h.msg.tag, some h) := by
      unfold Op.keys
      dsimp only
      rw [if_pos hacc, hi]
      rfl
    obtain ⟨hkeeps, hqueues, hx⟩ := authResult_keys hacc { s with auths := s.auths.eraseIdx i } h
    have hqueues' := hpop.trans hqueues
    refine ⟨?_, ?_, hqueues'.auths, .inr hqueues'.jobs⟩
    · rw [hkeys]
      exact .inl hkeeps
    intro _ _ hk
    rw [hkeys] at hk
    cases hk
    exact ⟨rfl, mem_of_getElem? hi, hx⟩
  · have hkeys : Op.keys cfg s (.auth i accepted) = none := if_neg hacc
    have hsame : authResult cfg accepted { s with auths := s.auths.eraseIdx i } h
        = { s with auths := s.auths.eraseIdx i } := if_neg hacc
    rw [hsame]
    exact .unkeyed hkeys (.of_eq rfl) hpop

lemma step_keeps {op : Op} (h : step cfg op s = .ok s') : Effect cfg op s s' := by
  have hstay : Keeps none s s ∧ Queues cfg s s := ⟨.of_eq rfl, .of_eq rfl rfl⟩
  cases op with
  | frame path f =>
    cases h
    have hshrinks := frame_shrinks cfg s path f
    have hauths : (s.handleHiddenServiceFrame cfg path f).auths = s.auths := by rw [hshrinks.only]
    exact ⟨.inr ⟨hshrinks, .inl ⟨path, f, rfl⟩⟩, fun _ _ hk => (nomatch hk), fun x hx => .inl (by rwa [hauths] at hx),
      .inl ⟨path, f, rfl⟩⟩
  | work i =>
    unfold step at h
    dsimp only at h
    cases hj : s.jobs[i]? with
    | none => rw [hj] at h; cases h; exact .unkeyed rfl hstay.1 hstay.2
    | some =>
      rw [hj] at h
      obtain ⟨hsessions, hqueues⟩ := work_cases h
      have hpop : Queues cfg s { s with jobs := s.jobs.eraseIdx i } :=
        ⟨fun j hj => mem_of_mem_eraseIdx hj, fun _ hx => .inl hx⟩
      exact .unkeyed rfl (.of_eq hsessions) (hpop.trans hqueues)
  | auth i accepted =>
    unfold step at h
    dsimp only at h
    cases ha : s.auths[i]? with
    | none =>
      have hkeys : Op.keys cfg s (.auth i accepted) = none := by
        unfold Op.keys
        dsimp only
        rw [ha]
        exact ite_self none
      rw [ha] at h
      cases h
      exact .unkeyed hkeys hstay.1 hstay.2
    | some x =>
      rw [ha] at h
      cases h
      exact auth_effect ha
  | flush =>
    unfold step at h
    dsimp only at h
    cases hq : s.recvQueue with
    | nil => rw [hq] at h; cases h; exact .unkeyed rfl hstay.1 hstay.2
    | cons ev rest =>
      rw [hq] at h
      cases h
      have hpop : Queues cfg s { s with recvQueue := rest } := .of_eq rfl rfl
      refine .unkeyed rfl ?_ (hpop.trans (dataMessage_queues _ ev.fromPath ev.frame ev.msg))
      exact Keeps.trans (.of_eq rfl) (dataMessage_keeps { s with recvQueue := rest } ev.fromPath ev.frame ev.msg)
  | remove tag =>
    cases h
    exact ⟨.inr ⟨removeTag_shrinks s tag, .inr ⟨tag, rfl⟩⟩, fun _ _ hk => (nomatch hk), fun _ hx => .inl hx,
      .inr fun _ hj => hj⟩
  | markAddressOutbound => cases h; exact .unkeyed rfl (.of_eq rfl) (.of_eq rfl rfl)
  | ensureSelf tag =>
    cases h
    have hput := putSender_writes s tag cfg.identity.pub true
    refine .unkeyed rfl ((putSender_keeps s tag cfg.identity.pub true).trans ?_) (hput.queues.trans (.of_eq rfl rfl))
    apply Keeps.insert
    intro x hx
    rw [hx]
    exact ⟨rfl, .inr rfl⟩
  | swapIntros tag info intro =>
    cases h
    have hput := putSender_writes s tag info false
    exact .unkeyed rfl ((putSender_keeps s tag info false).trans (putIntro_keeps _ tag intro))
      (hput.trans (putIntro_writes _ tag info intro)).queues
  | genIntro tag info =>
    cases h
    exact .unkeyed rfl (putSender_keeps s tag info false) (putSender_writes s tag info false).queues
  | keyExchanged tag info key intro reply =>
    cases h
    have hput := putSender_keeps s tag info false
    have hkey := putCachedKey_keeps (s.putSenderFor tag info false) tag key
    have hwrites := (((putSender_writes s tag info false).trans (putCachedKey_writes _ tag info key)).trans
      (putIntro_writes _ tag info intro)).trans (putReply_writes _ tag info reply)
    have hqueues : Queues cfg s _ := hwrites.queues
    refine ⟨.inl ?_, fun _ _ hk => (nomatch hk), hqueues.auths, .inr hqueues.jobs⟩
    exact ((hput.mono.trans hkey).trans (putIntro_keeps _ tag intro).mono).trans
      (putReply_keeps _ tag reply).mono

end Endpoint

namespace Traced
variable {cfg : Config} {op : Op} {m m' : Traced}

/-- the handshakes that wait, and those that keys are from, were verified for the senders they name -/
structure Verified (cfg : Config) (m : Traced) : Prop where
  auths : ∀ h ∈ m.endpoint.auths, h.frame.verify cfg.crypto.toCrypto h.msg.sender = true
  keys : ∀ t h, m.keyedBy t = some h → h.frame.verify cfg.crypto.toCrypto h.msg.sender = true

lemma step_keyedBy (h : step cfg op m = .ok m') : m.endpoint.step cfg op = .ok m'.endpoint ∧
      (∀ tag x, op.keys cfg m.endpoint = some (tag, some x) → m'.endpoint.hasConvoTag tag → m'.keyedBy tag = some x) ∧
      ∀ t x, m'.keyedBy t = some x → m'.endpoint.hasConvoTag t ∧ (op.keys cfg m.endpoint = some (t, some x) ∨
        (t ∉ (op.keys cfg m.endpoint).map Prod.fst ∧ m.keyedBy t = some x)) := by
  obtain ⟨s, hs, h⟩ := ok_bind.mp h
  cases h
  refine ⟨hs, ?_, ?_⟩
  · intro tag x hkeys htag
    show origins cfg op m s tag = some x
    unfold origins
    rw [if_pos htag, hkeys]
    exact if_pos rfl
  · intro t x hx
    dsimp only at hx ⊢
    unfold origins at hx
    split at hx
    case isFalse => cases hx
    rename_i htag
    refine ⟨htag, ?_⟩
    cases hkeys : op.keys cfg m.endpoint with
    | none =>
      rw [hkeys] at hx
      exact .inr ⟨by simp, hx⟩
    | some k =>
      obtain ⟨tag, o⟩ := k
      rw [hkeys] at hx
      dsimp only at hx
      split at hx
      · rename_i ht
        rw [ht, hx]
        exact .inl rfl
      rename_i ht
      refine .inr ⟨?_, hx⟩
      intro hmem
      exact ht (Option.some.inj hmem).symm

lemma Verified.step (hm : Verified cfg m) (h : step cfg op m = .ok m') : Verified cfg m' := by
  obtain ⟨hs, -, horigin⟩ := step_keyedBy h
  have heffect := step_keeps hs
  constructor
  · intro x hx
    exact (heffect.auths x hx).elim (hm.auths x) id
  · intro t x hx
    rcases (horigin t x hx).2 with hkeys | ⟨-, hold⟩
    · exact hm.auths x (heffect.keyed t x hkeys).2.1
    · exact hm.keys t x hold

lemma step_bound_iff (hm : Verified cfg m) (hb : Bound cfg m) (h : step cfg op m = .ok m') :
    Bound cfg m' ↔ FreeTags cfg op m := by
  obtain ⟨hs, hset, horigin⟩ := step_keyedBy h
  have heffect := step_keeps hs
  constructor
  · intro hb' tag x hkeys
    obtain ⟨-, -, y, hy, -, hfree⟩ := heffect.keyed tag x hkeys
    have htag : m'.endpoint.hasConvoTag tag := by
      unfold hasConvoTag
      rw [hy]
      rfl
    obtain ⟨y', hy', -, hsame, -⟩ := hb' tag x (hset tag x hkeys htag)
    rw [hy] at hy'
    cases hy'
    exact hfree.mp hsame
  · intro hfree t x hx
    obtain ⟨htag, hkeys | ⟨hother, hold⟩⟩ := horigin t x hx
    · obtain ⟨-, hmem, y, hy, hkey, hiff⟩ := heffect.keyed t x hkeys
      have hsame := hiff.mpr (hfree t x hkeys)
      refine ⟨y, hy, hkey, hsame, ?_⟩
      rw [ProtocolFrame.verify_congr hsame.2.1]
      exact hm.auths x hmem
    · -- the key is an older one, and its session is still there
      obtain ⟨y, hy, hkey, hsame, hverify⟩ := hb t x hold
      rcases heffect.records with hkeeps | ⟨hshrinks, -⟩
      · obtain ⟨y', hy', hremote, hin | hkey'⟩ := hkeeps t y hy
        · exact absurd hin hother
        · rw [hremote.symm] at hsame hverify
          exact ⟨y', hy', hkey'.trans hkey, hsame, hverify⟩
      · obtain ⟨y', hy'⟩ := Option.isSome_iff_exists.mp htag
        have hsame' := hshrinks.fewer t y' hy'
        rw [hy] at hsame'
        cases hsame'
        exact ⟨y, hy', hkey, hsame, hverify⟩

/-- Whatever comes in between, a handshake that waits or that a key is from was signed by the sender it names. -/
theorem handshakes_verified (cfg : Config) (ops : List Op) : Run.Always (step cfg) (Verified cfg) ops {} :=
  Run.always_of_inv (fun _ _ _ hm h => hm.step h) (fun _ h => h) ops (by constructor <;> intros <;> contradiction)

end Traced

/-- In any interleaving every key set by a handshake belongs to a session with its verified sender, exactly when every
accepted handshake finds its tag free or with its sender. -/
theorem session_keys_bound (cfg : Config) (ops : List Op) :
    Run.Always (Traced.step cfg) (Traced.Bound cfg) ops {} ↔ Run.Obeys (Traced.step cfg) (FreeTags cfg) ops {} := by
  apply always_iff_obeys (J := Traced.Verified cfg)
  · exact fun op m m' hm h => hm.step h
  · -- a step that stops is the work on a job, which sets no key
    intro op m e h tag x hkeys
    rcases error_bind.mp h with h | ⟨s, _, h⟩
    · cases op with
      | auth i accepted =>
        unfold Endpoint.step at h
        dsimp only at h
        split at h <;> cases h
      | _ => cases hkeys
    · cases h
  · exact fun op m m' hm hb h => Traced.step_bound_iff hm hb h
  · constructor
    · intro h hh
      cases hh
    · intro t h hh
      cases hh
  · intro t h hh
    cases hh

namespace Sample

def keyConfig : Config :=
  ⟨{ crypto with shorthash := .ofBytes 32, pqeDecrypt := fun C _ => some (.ofBytes 32 C) }, ⟨.zero 64, [], {}⟩, false⟩

def greeting (n : UInt8) : ProtocolFrame :=
  { frame (tag 0) n n with
    C := [n]
    D := [100, 49, 58, 115, 100, 49, 58, 115, 51, 50, 58] ++ (key n).toList ++
      [101, 49, 58, 116, 49, 54, 58] ++ (tag 7).toList ++ [101] }

def race : List Op :=
  [.frame path (greeting 1), .work 0 false false, .frame path (greeting 2), .work 0 false false, .auth 0 true]

end Sample

open Sample

/-- `1` and `2` send handshakes for one tag, both verified before one is accepted: the session is with `1` and has the
key of `2`. -/
theorem session_key_of_other : ∃ m, exec (Traced.step keyConfig) (race ++ [.auth 0 true]) {} = .ok m ∧
    ∃ h x, m.keyedBy (tag 7) = some h ∧ m.endpoint.sessions.lookup (tag 7) = some x ∧
      x.sharedKey = h.sharedKey ∧ h.msg.sender = info 2 ∧ x.remote = info 1 ∧
      ¬ x.remote.same h.msg.sender := by
  obtain ⟨m, hm, h, hh, x, hx, hkey⟩ : ∃ m, exec (Traced.step keyConfig) (race ++ [.auth 0 true]) {} = .ok m ∧
      ∃ h ∈ m.keyedBy (tag 7), ∃ x ∈ m.endpoint.sessions.lookup (tag 7),
        x.sharedKey = h.sharedKey ∧ h.msg.sender = info 2 ∧ x.remote = info 1 ∧
        ¬ x.remote.same h.msg.sender := ok_sat
  exact ⟨m, hm, h, x, hh, hx, hkey⟩

end Belnet.Service
