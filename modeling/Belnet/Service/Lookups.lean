import Belnet.Lib.Ordered
import Belnet.Service.Messages

/-!
# Lookups of introsets

The lookups of `llarp/service/endpoint.cpp` and `llarp/service/hidden_service_address_lookup.cpp`, and the contexts of
`llarp/service/outbound_context.cpp`.
-/

namespace Belnet.Service
open Iwp Util Belnet.Path List Option EncryptedIntroSet Ordered Run

/-! ## contexts and lookups -/

structure Found where
  addr : Address
  introset : IntroSet
  source : EncryptedIntroSet

structure OutboundContext where
  addr : Address
  currentIntroSet : IntroSet
  markedBad : Bool := false
  updatingIntroSet : Bool := false
  lookupFails : ℕ := 0
  live : Bool := true

/-- who is told the result: `Endpoint::OnLookup`, or `OnIntroSetUpdate` of the context with this number -/
inductive LookupHandler where
  | onLookup
  | onIntroSetUpdate (ctx : ℕ)

structure HiddenServiceAddressLookup where
  rootkey : PubKey
  endpoint : RouterID
  relayOrder : ℕ
  handle : LookupHandler

structure Lookups where
  pendingLookups : AList (fun _ : UInt64 => HiddenServiceAddressLookup) := ∅
  contexts : List OutboundContext := []
  serviceLookupFails : AList (fun _ : RouterID => ℕ) := ∅
  found : List Found := []
  installed : List Found := []

structure LookupConfig where
  crypto : ServiceCrypto
  readers : IntroSetReaders

def OutboundContext.takes (now : Millis) (x : OutboundContext) (i : IntroSet) : Bool :=
  !x.markedBad && i.timestampSignedAt ≠ 0 && !(x.currentIntroSet.timestampSignedAt > i.timestampSignedAt) &&
    !i.isExpired now

def OutboundContext.onIntroSetUpdate (now : Millis) (relayOrder : ℕ) (x : OutboundContext) :
    Option IntroSet → OutboundContext
  | some i =>
    if x.takes now i then { x with updatingIntroSet := false, currentIntroSet := i }
    else if x.markedBad then x
    else { x with updatingIntroSet := false }
  | none =>
    if x.markedBad then x
    else { x with updatingIntroSet := false, lookupFails := if 0 < relayOrder then x.lookupFails + 1 else x.lookupFails }

namespace Lookups

def update (now : Millis) (relayOrder : ℕ) (found : Option (EncryptedIntroSet × IntroSet)) (s : Lookups) (k : ℕ) :
    Lookups :=
  match s.contexts[k]? with
  | none => s
  | some x =>
    { s with
      contexts := s.contexts.set k (x.onIntroSetUpdate now relayOrder (found.map Prod.snd))
      installed := match found with
        | some (e, i) => if x.takes now i then s.installed ++ [⟨x.addr, i, e⟩] else s.installed
        | none => s.installed }

variable (s : Lookups)

def sessionsOf (addr : Address) : List ℕ :=
  (range s.contexts.length).filter fun k => s.contexts[k]?.any fun x => x.live ∧ x.addr = addr

abbrev maxOutboundContextPerRemote : ℕ := 1

def putNewOutboundContext (e : EncryptedIntroSet) (i : IntroSet) : Lookups :=
  if (s.sessionsOf i.addressKeys.addr).length < maxOutboundContextPerRemote then
    { s with
      contexts := s.contexts ++ [{ addr := i.addressKeys.addr, currentIntroSet := i }]
      installed := s.installed ++ [⟨i.addressKeys.addr, i, e⟩] }
  else s

def lookupFailed (endpoint : RouterID) : Lookups :=
  { s with
    serviceLookupFails := s.serviceLookupFails.insert endpoint ((s.serviceLookupFails.lookup endpoint).getD 0 + 1) }

def onLookup (now : Millis) (s : Lookups) (addr : Address) (found : Option (EncryptedIntroSet × IntroSet))
    (endpoint : RouterID) (relayOrder : ℕ) : Lookups :=
  match found with
  | none => s.lookupFailed endpoint
  | some (e, i) =>
    let s : Lookups := { s with found := s.found ++ [⟨addr, i, e⟩] }
    let s := (s.sessionsOf addr).foldl (update now relayOrder found) s
    if i.isExpired now then s.lookupFailed endpoint
    else if 0 < (s.sessionsOf addr).length then s
    else s.putNewOutboundContext e i

def tell (now : Millis) (s : Lookups) (l : HiddenServiceAddressLookup)
    (found : Option (EncryptedIntroSet × IntroSet)) : Lookups :=
  match l.handle with
  | .onLookup => s.onLookup now l.rootkey found l.endpoint l.relayOrder
  | .onIntroSetUpdate k => s.update now l.relayOrder found k

def handleIntrosetResponse (cfg : LookupConfig) (now : Millis) (s : Lookups) (l : HiddenServiceAddressLookup)
    (results : List EncryptedIntroSet) : Except MemFault Lookups :=
  if 0 < results.length then do
    let selected := newest signedAt {} results
    let maybe ← selected.maybeDecrypt cfg.crypto.toCrypto cfg.readers l.rootkey
    return s.tell now l (maybe.map fun i => (selected, i))
  else return s.tell now l none

def popLookup (txid : UInt64) : Lookups := { s with pendingLookups := s.pendingLookups.erase txid }

def handleGotIntroMessage (cfg : LookupConfig) (now : Millis) (s : Lookups) (txid : UInt64)
    (found : List EncryptedIntroSet) : Except MemFault Lookups :=
  if found.all fun e => e.verify cfg.crypto.toCrypto now then
    match s.pendingLookups.lookup txid with
    | none => .ok s
    | some l => handleIntrosetResponse cfg now (s.popLookup txid) l (setOf order found)
  else .ok s

end Lookups

inductive LookupOp where
  | lookup (addr : Address) (endpoint : RouterID) (relayOrder : ℕ) (txid : UInt64)
  | updateIntroSet (ctx : ℕ) (paths : List (RouterID × UInt64))
  | gotIntro (txid : UInt64) (found : List EncryptedIntroSet)
  | timeout (txid : UInt64)
  | markBad (ctx : ℕ)
  | remove (ctx : ℕ)

def Lookups.putLookup (s : Lookups) (txid : UInt64) (l : HiddenServiceAddressLookup) : Lookups :=
  match s.pendingLookups.lookup txid with
  | some _ => s
  | none => { s with pendingLookups := s.pendingLookups.insert txid l }

variable (cfg : LookupConfig)

def Lookups.step (op : Millis × LookupOp) (s : Lookups) : Except MemFault Lookups :=
  match op.2 with
  | .lookup addr endpoint relayOrder txid => .ok (s.putLookup txid ⟨addr, endpoint, relayOrder, .onLookup⟩)
  | .updateIntroSet ctx paths =>
    match s.contexts[ctx]? with
    | none => .ok s
    | some x =>
      if x.updatingIntroSet || x.markedBad then .ok s
      else
        let s := paths.zipIdx.foldl (fun s p => s.putLookup p.1.2 ⟨x.addr, p.1.1, p.2, .onIntroSetUpdate ctx⟩) s
        .ok { s with contexts := s.contexts.set ctx { x with updatingIntroSet := !paths.isEmpty } }
  | .gotIntro txid found => s.handleGotIntroMessage cfg op.1 txid found
  | .timeout txid =>
    match s.pendingLookups.lookup txid with
    | none => .ok s
    | some l => handleIntrosetResponse cfg op.1 (s.popLookup txid) l []
  | .markBad ctx => .ok { s with contexts := s.contexts.modify ctx fun x => { x with markedBad := true } }
  | .remove ctx => .ok { s with contexts := s.contexts.modify ctx fun x => { x with live := false } }

/-- the first one in the reply with its signing key, and of these the newest, with the least key -/
def Newest (reply : List EncryptedIntroSet) (e : EncryptedIntroSet) : Prop :=
  Ordered.FirstOf order reply e ∧ 0 < e.signedAt ∧ ∀ e', Ordered.FirstOf order reply e' →
      e'.signedAt < e.signedAt ∨ (e'.signedAt = e.signedAt ∧ e.order ≤ e'.order)

def selected (reply : List EncryptedIntroSet) : EncryptedIntroSet := newest signedAt {} (setOf order reply)

lemma selected_cases (reply : List EncryptedIntroSet) : selected reply = {} ∨ Newest reply (selected reply) := by
  unfold Newest
  simp only [← mem_setOf]
  rcases newest_spec (t := signedAt) (s := {}) (sorted_setOf order reply) with ⟨h, -⟩ | h
  · exact .inl h
  · exact .inr h

variable {reply : List EncryptedIntroSet} {e : EncryptedIntroSet}

lemma Newest.unique {e' : EncryptedIntroSet} (h : Newest reply e) (h' : Newest reply e') : e = e' := by
  have horder : e.order = e'.order := by
    rcases h.2.2 e' h'.1 with h1 | ⟨h1, hle⟩
    · rcases h'.2.2 e h.1 with h2 | ⟨h2, -⟩
      · exact absurd h2 (lt_asymm h1)
      · exact absurd h2 h1.ne'
    · rcases h'.2.2 e h.1 with h2 | ⟨-, hle'⟩
      · exact absurd h1 h2.ne'
      · exact le_antisymm hle hle'
  have h1 := h.1
  unfold Ordered.FirstOf at h1
  rw [horder] at h1
  exact some.inj (h1.symm.trans h'.1)

lemma Newest.selected (h : Newest reply e) : selected reply = e := by
  have hmem := (mem_setOf _ _ _).mpr h.1
  rcases newest_spec (t := signedAt) (s := {}) (sorted_setOf order reply) with ⟨-, hall⟩ | hnew
  · have hle : e.signedAt ≤ 0 := hall e hmem
    exact absurd h.2.1 (not_lt_of_ge hle)
  have hsel : Newest reply (Service.selected reply) := by
    unfold Newest
    simp only [← mem_setOf]
    exact hnew
  exact hsel.unique h

def Found.Belongs (r : Found) : Prop :=
  r.introset.addressKeys.addr = r.addr ∧ r.source.derivedSigningKey = Address.toKey cfg.crypto r.addr

/-- an introset that a lookup of ours takes from a reply belongs to its address, or to that of the context that
installs it -/
def Sound (op : Millis × LookupOp) (s : Lookups) : Prop :=
  match op.2 with
  | .gotIntro txid reply => ∀ l ∈ s.pendingLookups.lookup txid,
    (reply.all fun e => e.verify cfg.crypto.toCrypto op.1) = true → ∀ e, Newest reply e → ∀ i,
      e.maybeDecrypt cfg.crypto.toCrypto cfg.readers l.rootkey = .ok (some i) →
      match l.handle with
      | .onLookup => Found.Belongs cfg ⟨l.rootkey, i, e⟩
      | .onIntroSetUpdate k => ∀ x ∈ s.contexts[k]?, x.takes op.1 i = true → Found.Belongs cfg ⟨x.addr, i, e⟩
  | _ => True

namespace Lookups

def StepBelongs (cfg : LookupConfig) (s s' : Lookups) : Prop :=
  (∀ r ∈ s'.found.drop s.found.length, r.Belongs cfg) ∧ ∀ r ∈ s'.installed.drop s.installed.length, r.Belongs cfg

structure Logs (s s' : Lookups) (found installed : List Found) : Prop where
  found : s'.found = s.found ++ found
  installed : s'.installed = s.installed ++ installed

variable {cfg : LookupConfig} {now : Millis} {s s' s'' : Lookups} {lf lf' li li' : List Found}

lemma Logs.refl (s : Lookups) : Logs s s [] [] := ⟨(append_nil _).symm, (append_nil _).symm⟩

lemma Logs.trans (h : Logs s s' lf li) (h' : Logs s' s'' lf' li') : Logs s s'' (lf ++ lf') (li ++ li') := by
  constructor
  · rw [h'.found, h.found, append_assoc]
  · rw [h'.installed, h.installed, append_assoc]

lemma Logs.stepBelongs_iff (h : Logs s s' lf li) :
    StepBelongs cfg s s' ↔ (∀ r ∈ lf, r.Belongs cfg) ∧ ∀ r ∈ li, r.Belongs cfg := by
  unfold StepBelongs
  rw [h.found, h.installed, drop_left, drop_left]

lemma Logs.stepBelongs (h : Logs s s' [] []) : StepBelongs cfg s s' := by
  rw [h.stepBelongs_iff]
  exact ⟨fun r hr => (not_mem_nil hr).elim, fun r hr => (not_mem_nil hr).elim⟩

lemma update_none_logs (relayOrder k : ℕ) : Logs s (s.update now relayOrder none k) [] [] := by
  unfold update
  cases s.contexts[k]? with
  | none => exact .refl s
  | some => exact ⟨(append_nil _).symm, (append_nil _).symm⟩

lemma update_some_logs (now : Millis) (s : Lookups) (relayOrder k : ℕ) (e : EncryptedIntroSet) (i : IntroSet) :
    Logs s (s.update now relayOrder (some (e, i)) k) []
      ((s.contexts[k]?.filter fun x => x.takes now i).toList.map fun x => ⟨x.addr, i, e⟩) := by
  unfold update
  cases hx : s.contexts[k]? with
  | none => exact .refl s
  | some x =>
    rw [filter_some]
    cases htakes : x.takes now i with
    | true | false => exact ⟨(append_nil _).symm, by simp [htakes]⟩

lemma onIntroSetUpdate_addr (relayOrder : ℕ) (x : OutboundContext) (found : Option IntroSet) :
    (x.onIntroSetUpdate now relayOrder found).addr = x.addr := by
  unfold OutboundContext.onIntroSetUpdate
  split
  · split
    · rfl
    · split <;> rfl
  · split <;> rfl

variable {x : OutboundContext}

lemma update_addr (relayOrder : ℕ) (found : Option (EncryptedIntroSet × IntroSet)) (k k' : ℕ)
    (hx : (s.update now relayOrder found k).contexts[k']? = some x) :
    ∃ y, s.contexts[k']? = some y ∧ y.addr = x.addr := by
  unfold update at hx
  cases hy : s.contexts[k]? with
  | none =>
    rw [hy] at hx
    exact ⟨x, hx, rfl⟩
  | some y =>
    rw [hy] at hx
    by_cases hk : k = k'
    · subst hk
      refine ⟨y, hy, ?_⟩
      rw [List.getElem?_set_self (List.getElem?_eq_some_iff.mp hy).1] at hx
      rw [← Option.some.inj hx, onIntroSetUpdate_addr]
    · rw [List.getElem?_set_ne hk] at hx
      exact ⟨x, hx, rfl⟩

lemma updates_logs (now : Millis) (relayOrder : ℕ) (e : EncryptedIntroSet) (i : IntroSet) (addr : Address) (ks : List ℕ)
    (hks : ∀ k ∈ ks, ∀ x, s.contexts[k]? = some x → x.addr = addr) :
    ∃ li, Logs s (ks.foldl (update now relayOrder (some (e, i))) s) [] li ∧ ∀ r ∈ li, r = ⟨addr, i, e⟩ := by
  induction ks generalizing s with
  | nil => exact ⟨[], .refl s, fun r hr => (not_mem_nil hr).elim⟩
  | cons k ks ih =>
    have hk := update_some_logs now s relayOrder k e i
    obtain ⟨li, hlogs, hall⟩ := ih (s := s.update now relayOrder (some (e, i)) k) (by
      intro k' hk' x hx
      obtain ⟨y, hy, hxy⟩ := update_addr relayOrder _ k k' hx
      rw [← hxy]
      exact hks k' (mem_cons_of_mem _ hk') y hy)
    refine ⟨_, hk.trans hlogs, ?_⟩
    intro r hr
    rcases mem_append.mp hr with hr | hr
    · obtain ⟨x, hx, rfl⟩ := mem_map.mp hr
      rw [mem_toList] at hx
      have hx' := eq_some_of_filter_eq_some hx
      rw [hks k mem_cons_self x hx']
    · exact hall r hr

lemma sessionsOf_addr {addr : Address} {k : ℕ} (h : k ∈ s.sessionsOf addr)
    (hx : s.contexts[k]? = some x) : x.addr = addr := by
  unfold sessionsOf at h
  rw [mem_filter, hx] at h
  have hany : x.live = true ∧ x.addr = addr := by simpa using h.2
  exact hany.2

lemma putContext_logs (s : Lookups) (e : EncryptedIntroSet) (i : IntroSet) :
    ∃ li, Logs s (s.putNewOutboundContext e i) [] li ∧ ∀ r ∈ li, r = ⟨i.addressKeys.addr, i, e⟩ := by
  unfold putNewOutboundContext
  split
  · exact ⟨_, ⟨(append_nil _).symm, rfl⟩, fun r hr => mem_singleton.mp hr⟩
  · exact ⟨[], .refl s, fun r hr => (not_mem_nil hr).elim⟩

lemma onLookup_none_logs (addr : Address) (endpoint : RouterID) (relayOrder : ℕ) :
    Logs s (s.onLookup now addr none endpoint relayOrder) [] [] := ⟨(append_nil _).symm, (append_nil _).symm⟩

lemma onLookup_some_logs (now : Millis) (s : Lookups) (addr : Address) (e : EncryptedIntroSet) (i : IntroSet)
    (endpoint : RouterID) (relayOrder : ℕ) :
    ∃ li, Logs s (s.onLookup now addr (some (e, i)) endpoint relayOrder) [⟨addr, i, e⟩] li ∧
      ∀ r ∈ li, r = ⟨addr, i, e⟩ ∨ r = ⟨i.addressKeys.addr, i, e⟩ := by
  obtain ⟨s1, hs1⟩ : ∃ s1 : Lookups, s1 = { s with found := s.found ++ [⟨addr, i, e⟩] } := ⟨_, rfl⟩
  have h1 : Logs s s1 [⟨addr, i, e⟩] [] := by
    rw [hs1]
    exact ⟨rfl, (append_nil _).symm⟩
  obtain ⟨li, h2, hli⟩ := updates_logs now relayOrder e i addr (s1.sessionsOf addr)
    fun k hk x hx => sessionsOf_addr hk hx
  unfold onLookup
  dsimp only
  rw [← hs1]
  generalize (s1.sessionsOf addr).foldl (update now relayOrder (some (e, i))) s1 = s2 at h2 ⊢
  have h12 : Logs s s2 [⟨addr, i, e⟩] li := h1.trans h2
  split
  · exact ⟨li, ⟨h12.found, h12.installed⟩, fun r hr => .inl (hli r hr)⟩
  split
  · exact ⟨li, h12, fun r hr => .inl (hli r hr)⟩
  obtain ⟨li', h3, hli'⟩ := putContext_logs s2 e i
  refine ⟨li ++ li', h12.trans h3, ?_⟩
  intro r hr
  rcases mem_append.mp hr with hr | hr
  · exact .inl (hli r hr)
  · exact .inr (hli' r hr)

lemma onLookup_stepBelongs (addr : Address) (e : EncryptedIntroSet) (i : IntroSet) (endpoint : RouterID)
    (relayOrder : ℕ) : StepBelongs cfg s (s.onLookup now addr (some (e, i)) endpoint relayOrder) ↔
      Found.Belongs cfg ⟨addr, i, e⟩ := by
  obtain ⟨_, hlogs, hli⟩ := onLookup_some_logs now s addr e i endpoint relayOrder
  rw [hlogs.stepBelongs_iff]
  constructor
  · exact fun h => h.1 _ mem_cons_self
  · intro h
    refine ⟨fun r hr => by rw [mem_singleton.mp hr]; exact h, ?_⟩
    intro r hr
    rcases hli r hr with rfl | rfl
    · exact h
    have haddr : i.addressKeys.addr = addr := h.1
    rw [haddr]
    exact h

lemma update_stepBelongs (relayOrder k : ℕ) (e : EncryptedIntroSet) (i : IntroSet) :
    StepBelongs cfg s (s.update now relayOrder (some (e, i)) k) ↔
      ∀ x ∈ s.contexts[k]?, x.takes now i = true → Found.Belongs cfg ⟨x.addr, i, e⟩ := by
  rw [(update_some_logs now s relayOrder k e i).stepBelongs_iff]
  cases hx : s.contexts[k]? with
  | none => simp
  | some x =>
    cases htakes : x.takes now i with
    | true | false => simp [htakes]

lemma tell_none (l : HiddenServiceAddressLookup) : StepBelongs cfg s (s.tell now l none) := by
  unfold tell
  split
  · exact (onLookup_none_logs _ _ _).stepBelongs
  · exact (update_none_logs _ _).stepBelongs

lemma tell_some (l : HiddenServiceAddressLookup) (e : EncryptedIntroSet) (i : IntroSet) :
    StepBelongs cfg s (s.tell now l (some (e, i))) ↔ match l.handle with
      | .onLookup => Found.Belongs cfg ⟨l.rootkey, i, e⟩
      | .onIntroSetUpdate k => ∀ x ∈ s.contexts[k]?, x.takes now i = true → Found.Belongs cfg ⟨x.addr, i, e⟩ := by
  unfold tell
  cases l.handle with
  | onLookup => exact onLookup_stepBelongs _ _ _ _ _
  | onIntroSetUpdate k => exact update_stepBelongs _ _ _ _

variable {l : HiddenServiceAddressLookup}

lemma response_cases (h : handleIntrosetResponse cfg now s l (setOf order reply) = .ok s') :
    (s' = s.tell now l none ∧ ∀ e, Newest reply e → ∀ i,
      e.maybeDecrypt cfg.crypto.toCrypto cfg.readers l.rootkey ≠ .ok (some i)) ∨
    ∃ e i, Newest reply e ∧ e.maybeDecrypt cfg.crypto.toCrypto cfg.readers l.rootkey = .ok (some i) ∧
      s' = s.tell now l (some (e, i)) := by
  unfold handleIntrosetResponse at h
  split at h
  · obtain ⟨m, hm, h⟩ := ok_bind.mp h
    cases h
    have hm' : (selected reply).maybeDecrypt cfg.crypto.toCrypto cfg.readers l.rootkey = .ok m := hm
    cases m with
    | none =>
      refine .inl ⟨rfl, ?_⟩
      intro e he i hi
      rw [he.selected, hi] at hm'
      cases hm'
    | some i =>
      refine .inr ⟨selected reply, i, ?_, hm', rfl⟩
      rcases selected_cases reply with hsel | hsel
      · rw [hsel] at hm'
        cases hm'
      · exact hsel
  · rename_i hempty
    cases h
    refine .inl ⟨rfl, ?_⟩
    intro e he
    have hmem := (mem_setOf _ _ _).mpr he.1
    exact absurd (length_pos_of_mem hmem) hempty

structure Carries (s s' : Lookups) : Prop where
  installed : ∀ r ∈ s.installed, r ∈ s'.installed
  contexts : ∀ x ∈ s'.contexts, (∃ y ∈ s.contexts, y.addr = x.addr ∧ y.currentIntroSet = x.currentIntroSet) ∨
    ∃ e, ⟨x.addr, x.currentIntroSet, e⟩ ∈ s'.installed

lemma Carries.trans (h : Carries s s') (h' : Carries s' s'') : Carries s s'' where
  installed r hr := h'.installed r (h.installed r hr)
  contexts x hx := by
    rcases h'.contexts x hx with ⟨y, hy, haddr, hcur⟩ | h
    · rcases h.contexts y hy with ⟨z, hz, haddr', hcur'⟩ | ⟨e, he⟩
      · exact .inl ⟨z, hz, haddr'.trans haddr, hcur'.trans hcur⟩
      · rw [haddr, hcur] at he
        exact .inr ⟨e, h'.installed _ he⟩
    · exact .inr h

lemma Carries.of_eq (hi : s'.installed = s.installed) (hc : s'.contexts = s.contexts) : Carries s s' where
  installed r hr := by rw [hi]; exact hr
  contexts x hx := by
    rw [hc] at hx
    exact .inl ⟨x, hx, rfl, rfl⟩

lemma Carries.modify (k : ℕ) (f : OutboundContext → OutboundContext)
    (hf : ∀ x, (f x).addr = x.addr ∧ (f x).currentIntroSet = x.currentIntroSet) :
    Carries s { s with contexts := s.contexts.modify k f } where
  installed r hr := hr
  contexts x hx := by
    left
    obtain ⟨j, hj⟩ := getElem?_of_mem hx
    rw [getElem?_modify] at hj
    obtain ⟨y, hy, hxy⟩ := map_eq_some_iff.mp hj
    refine ⟨y, mem_of_getElem? hy, ?_⟩
    split at hxy
    · rw [← hxy]
      exact ⟨(hf y).1.symm, (hf y).2.symm⟩
    · rw [← hxy]
      exact ⟨rfl, rfl⟩

lemma update_carries (relayOrder k : ℕ) (found : Option (EncryptedIntroSet × IntroSet)) :
    Carries s (s.update now relayOrder found k) := by
  unfold update
  cases hx : s.contexts[k]? with
  | none => exact .of_eq rfl rfl
  | some x =>
    constructor
    · intro r hr
      dsimp only
      split
      · split
        · exact mem_append_left _ hr
        · exact hr
      · exact hr
    · intro z hz
      rcases mem_or_eq_of_mem_set hz with hz | rfl
      · exact .inl ⟨z, hz, rfl, rfl⟩
      unfold OutboundContext.onIntroSetUpdate
      rcases found with _ | ⟨e, i⟩
      · left
        refine ⟨x, mem_of_getElem? hx, ?_⟩
        simp only [map_none]
        split <;> exact ⟨rfl, rfl⟩
      · simp only [map_some]
        split
        · right
          exact ⟨e, mem_append_right _ mem_cons_self⟩
        left
        refine ⟨x, mem_of_getElem? hx, ?_⟩
        split <;> exact ⟨rfl, rfl⟩

lemma putContext_carries (s : Lookups) (e : EncryptedIntroSet) (i : IntroSet) :
    Carries s (s.putNewOutboundContext e i) := by
  unfold putNewOutboundContext
  split
  · constructor
    · exact fun r hr => mem_append_left _ hr
    intro x hx
    rcases mem_concat.mp hx with hx | rfl
    · exact .inl ⟨x, hx, rfl, rfl⟩
    · exact .inr ⟨e, mem_append_right _ mem_cons_self⟩
  · exact .of_eq rfl rfl

lemma onLookup_carries (addr : Address) (found : Option (EncryptedIntroSet × IntroSet)) (endpoint : RouterID)
    (relayOrder : ℕ) : Carries s (s.onLookup now addr found endpoint relayOrder) := by
  unfold onLookup
  rcases found with _ | ⟨e, i⟩
  · exact .of_eq rfl rfl
  dsimp only
  generalize hs1 : ({ s with found := s.found ++ [⟨addr, i, e⟩] } : Lookups) = s1
  have h1 : Carries s s1 := by
    rw [← hs1]
    exact .of_eq rfl rfl
  have h2 : Carries s1 ((s1.sessionsOf addr).foldl (update now relayOrder (some (e, i))) s1) :=
    foldl_rel (R := Carries) (fun s => .of_eq rfl rfl) Carries.trans (fun k _ s => update_carries relayOrder k _) s1
  generalize (s1.sessionsOf addr).foldl (update now relayOrder (some (e, i))) s1 = s2 at h2 ⊢
  have h12 := h1.trans h2
  split
  · exact h12.trans (.of_eq rfl rfl)
  split
  · exact h12
  · exact h12.trans (putContext_carries s2 e i)

lemma tell_carries (l : HiddenServiceAddressLookup) (found : Option (EncryptedIntroSet × IntroSet)) :
    Carries s (s.tell now l found) := by
  unfold tell
  split
  · exact onLookup_carries _ _ _ _
  · exact update_carries _ _ _

variable {results : List EncryptedIntroSet}

lemma response_carries (h : handleIntrosetResponse cfg now s l results = .ok s') : Carries s s' := by
  unfold handleIntrosetResponse at h
  split at h
  · obtain ⟨m, -, h⟩ := ok_bind.mp h
    cases h
    exact tell_carries _ _
  · cases h
    exact tell_carries _ _

def Quiet (s s' : Lookups) : Prop := s'.found = s.found ∧ s'.installed = s.installed ∧ s'.contexts = s.contexts

lemma putLookup_quiet (s : Lookups) (txid : UInt64) (l : HiddenServiceAddressLookup) : Quiet s (s.putLookup txid l) := by
  unfold putLookup
  split <;> exact ⟨rfl, rfl, rfl⟩

lemma putLookups_quiet (s : Lookups) (ctx : ℕ) (addr : Address) (paths : List ((RouterID × UInt64) × ℕ)) :
    Quiet s (paths.foldl (fun s p => s.putLookup p.1.2 ⟨addr, p.1.1, p.2, .onIntroSetUpdate ctx⟩) s) :=
  foldl_rel (fun _ => ⟨rfl, rfl, rfl⟩)
    (fun h h' => ⟨h'.1.trans h.1, h'.2.1.trans h.2.1, h'.2.2.trans h.2.2⟩) (fun _ _ s => putLookup_quiet s _ _) s

lemma Quiet.logs (h : Quiet s s') : Logs s s' [] [] := by
  constructor
  · rw [h.1, append_nil]
  · rw [h.2.1, append_nil]

lemma tell_logs (l : HiddenServiceAddressLookup) (found : Option (EncryptedIntroSet × IntroSet)) :
    ∃ lf li, Logs s (s.tell now l found) lf li := by
  unfold tell
  rcases found with _ | ⟨e, i⟩
  · split
    · exact ⟨_, _, onLookup_none_logs _ _ _⟩
    · exact ⟨_, _, update_none_logs _ _⟩
  split
  · obtain ⟨li, h, -⟩ := onLookup_some_logs now s l.rootkey e i l.endpoint l.relayOrder
    exact ⟨_, li, h⟩
  · exact ⟨_, _, update_some_logs now s _ _ e i⟩

lemma response_logs
    (h : handleIntrosetResponse cfg now s l results = .ok s') : ∃ lf li, Logs s s' lf li := by
  unfold handleIntrosetResponse at h
  split at h
  · obtain ⟨m, -, h⟩ := ok_bind.mp h
    cases h
    exact tell_logs _ _
  · cases h
    exact tell_logs _ _

/-- a step appends to the logs and carries the contexts, and what it appends belongs when the step is sound -/
structure StepSpec (cfg : LookupConfig) (op : Millis × LookupOp) (s s' : Lookups) : Prop where
  belongs : StepBelongs cfg s s' ↔ Sound cfg op s
  carries : Carries s s'
  logs : ∃ lf li, Logs s s' lf li

variable {op : Millis × LookupOp}

lemma StepSpec.of_logs (hlogs : Logs s s' [] []) (hsound : Sound cfg op s)
    (hcarries : Carries s s') : StepSpec cfg op s s' := ⟨iff_of_true hlogs.stepBelongs hsound, hcarries, _, _, hlogs⟩

lemma gotIntro_spec {txid : UInt64}
    (h : handleGotIntroMessage cfg now s txid reply = .ok s') : StepSpec cfg (now, .gotIntro txid reply) s s' := by
  unfold handleGotIntroMessage at h
  split at h
  case isFalse hv =>
    cases h
    exact .of_logs (.refl s) (fun l _ hall => absurd hall hv) (.of_eq rfl rfl)
  rename_i hv
  cases hl : s.pendingLookups.lookup txid with
  | none =>
    rw [hl] at h
    cases h
    exact .of_logs (.refl s) (fun l hl' => by rw [hl] at hl'; cases hl') (.of_eq rfl rfl)
  | some l =>
    rw [hl] at h
    obtain ⟨lf, li, hlogs⟩ := response_logs h
    have hpop : Carries s (s.popLookup txid) := .of_eq rfl rfl
    refine ⟨?_, hpop.trans (response_carries h), lf, li, ⟨hlogs.found, hlogs.installed⟩⟩
    rcases response_cases h with ⟨rfl, hnone⟩ | ⟨e, i, he, hi, rfl⟩
    · refine iff_of_true (tell_none (s := s.popLookup txid) l) ?_
      intro l' hl' _ e he i hi
      rw [hl] at hl'
      cases hl'
      exact absurd hi (hnone e he i)
    · refine Iff.trans (tell_some (s := s.popLookup txid) l e i) ?_
      constructor
      · intro hbelongs l' hl' _ _ he' _ hi'
        rw [hl] at hl'
        cases hl'
        rw [he'.unique he] at hi' ⊢
        rw [hi] at hi'
        cases hi'
        exact hbelongs
      · intro hsound
        exact hsound l hl hv e he i hi

lemma step_spec (h : step cfg op s = .ok s') : StepSpec cfg op s s' := by
  obtain ⟨now, op⟩ := op
  cases op with
  | lookup addr endpoint relayOrder txid =>
    cases h
    have hquiet := putLookup_quiet s txid ⟨addr, endpoint, relayOrder, .onLookup⟩
    exact .of_logs hquiet.logs trivial (.of_eq hquiet.2.1 hquiet.2.2)
  | updateIntroSet ctx paths =>
    unfold step at h
    dsimp only at h
    cases hx : s.contexts[ctx]? with
    | none =>
      rw [hx] at h
      cases h
      exact .of_logs (.refl s) trivial (.of_eq rfl rfl)
    | some x =>
      rw [hx] at h
      dsimp only at h
      split at h
      · cases h
        exact .of_logs (.refl s) trivial (.of_eq rfl rfl)
      cases h
      have hquiet := putLookups_quiet s ctx x.addr paths.zipIdx
      generalize paths.zipIdx.foldl (fun s p => s.putLookup p.1.2 ⟨x.addr, p.1.1, p.2, .onIntroSetUpdate ctx⟩) s
        = s1 at hquiet ⊢
      refine .of_logs ⟨hquiet.logs.found, hquiet.logs.installed⟩ trivial ⟨fun r hr => by rw [hquiet.2.1]; exact hr, ?_⟩
      intro z hz
      left
      rcases mem_or_eq_of_mem_set hz with hz | rfl
      · rw [hquiet.2.2] at hz
        exact ⟨z, hz, rfl, rfl⟩
      · exact ⟨x, mem_of_getElem? hx, rfl, rfl⟩
  | gotIntro txid => exact gotIntro_spec h
  | timeout txid =>
    unfold step at h
    dsimp only at h
    cases hl : s.pendingLookups.lookup txid with
    | none =>
      rw [hl] at h
      cases h
      exact .of_logs (.refl s) trivial (.of_eq rfl rfl)
    | some l =>
      rw [hl] at h
      cases h
      have hnone : StepBelongs cfg (s.popLookup txid) ((s.popLookup txid).tell now l none) := tell_none l
      have hpop : Carries s (s.popLookup txid) := .of_eq rfl rfl
      obtain ⟨lf, li, hlogs⟩ : ∃ lf li, Logs (s.popLookup txid) ((s.popLookup txid).tell now l none) lf li :=
        tell_logs l none
      exact ⟨iff_of_true hnone trivial, hpop.trans (tell_carries _ _), lf, li, ⟨hlogs.found, hlogs.installed⟩⟩
  | markBad ctx | remove ctx =>
    cases h
    exact .of_logs ⟨(append_nil _).symm, (append_nil _).symm⟩ trivial (Carries.modify ctx _ fun _ => ⟨rfl, rfl⟩)

structure AllBelong (cfg : LookupConfig) (s : Lookups) : Prop where
  found : ∀ r ∈ s.found, r.Belongs cfg
  installed : ∀ r ∈ s.installed, r.Belongs cfg
  contexts : ∀ x ∈ s.contexts, ∃ e, ⟨x.addr, x.currentIntroSet, e⟩ ∈ s.installed

lemma AllBelong.step (hs : AllBelong cfg s) (hsound : Sound cfg op s)
    (h : step cfg op s = .ok s') : AllBelong cfg s' := by
  have hspec := step_spec h
  obtain ⟨_, _, hlogs⟩ := hspec.logs
  obtain ⟨hlf, hli⟩ := hlogs.stepBelongs_iff.mp (hspec.belongs.mpr hsound)
  constructor
  · intro r hr
    rw [hlogs.found] at hr
    exact (mem_append.mp hr).elim (hs.found r) (hlf r)
  · intro r hr
    rw [hlogs.installed] at hr
    exact (mem_append.mp hr).elim (hs.installed r) (hli r)
  · intro x hx
    rcases hspec.carries.contexts x hx with ⟨y, hy, haddr, hcur⟩ | hx
    · obtain ⟨e, he⟩ := hs.contexts y hy
      rw [haddr, hcur] at he
      exact ⟨e, hspec.carries.installed _ he⟩
    · exact hx

end Lookups

/-- a reply lets only introsets of the address through exactly when it is sound; in sound runs every result of
`OnLookup` and every context's introset belong to their address -/
theorem introsets_belong (cfg : LookupConfig) :
    (∀ op s s', Lookups.step cfg op s = .ok s' → (Lookups.StepBelongs cfg s s' ↔ Sound cfg op s)) ∧
      ∀ s, Run.Reaches (Lookups.step cfg) (Sound cfg) {} s → (∀ r ∈ s.found, r.Belongs cfg) ∧
          ∀ x ∈ s.contexts, ∃ e, ⟨x.addr, x.currentIntroSet, e⟩ ∈ s.installed ∧
            Found.Belongs cfg ⟨x.addr, x.currentIntroSet, e⟩ := by
  refine ⟨fun op s s' h => (Lookups.step_spec h).belongs, ?_⟩
  intro s h
  have hs : Lookups.AllBelong cfg s := by
    refine h.inv (fun _ _ _ ha => ha.step) ⟨?_, ?_, ?_⟩
    · exact fun r hr => (not_mem_nil hr).elim
    · exact fun r hr => (not_mem_nil hr).elim
    · exact fun r hr => (not_mem_nil hr).elim
  refine ⟨hs.found, ?_⟩
  intro x hx
  obtain ⟨e, he⟩ := hs.contexts x hx
  exact ⟨e, he, hs.installed _ he⟩

namespace Sample

def lookups : LookupConfig := ⟨crypto, ⟨fun _ => .ok none, fun _ => .ok none, fun _ => false, 0⟩⟩

def payload (m : UInt8) : Bytes :=
  [100, 49, 58, 97, 100, 49, 58, 115, 51, 50, 58] ++ (key m).toList ++
    [101, 49, 58, 105, 108, 100, 49, 58, 120, 105, 57, 57, 57, 101, 101, 101, 49, 58, 116, 105, 49, 101, 101]

def introset (n m : UInt8) : EncryptedIntroSet where
  derivedSigningKey := key n
  signedAt := 1
  introsetPayload := payload m
  sig := .ofBytes 64 [n]

def asked : Lookups := Lookups.putLookup {} 7 ⟨key 1, .zero 32, 0, .onLookup⟩

def lookup : Millis × LookupOp := (0, .lookup (key 1) (.zero 32) 0 7)

instance (cfg : LookupConfig) (r : Found) : Decidable (r.Belongs cfg) := inferInstanceAs (Decidable (_ ∧ _))

end Sample

open Sample

/-- the reply to a lookup of `1` is an introset that `2` signs, encrypts with the address of `1` and names itself in:
`OnLookup` takes it for `1` -/
theorem introset_of_other_found : ∃ s,
    exec (Lookups.step lookups) [lookup, (2, .gotIntro 7 [introset 2 2])] {} = .ok s ∧
      ∃ r ∈ s.found, r.addr = key 1 ∧ r.introset.addressKeys.addr = key 2 ∧
        r.source.derivedSigningKey ≠ Address.toKey crypto (key 1) := ok_sat

theorem introsets_belong_own : ∃ s, Run.Reaches (Lookups.step lookups) (Sound lookups) {} s ∧
    s.contexts.map OutboundContext.addr = [key 1] ∧ ∀ r ∈ s.found, r.Belongs lookups := by
  obtain ⟨s, hs, hctx, hfound, hinst⟩ : ∃ s, Lookups.step lookups (2, .gotIntro 7 [introset 1 1]) asked = .ok s ∧
      s.contexts.map OutboundContext.addr = [key 1] ∧
      (∀ r ∈ s.found.drop 0, r.Belongs lookups) ∧ ∀ r ∈ s.installed.drop 0, r.Belongs lookups :=
    ok_sat
  have hsound := ((introsets_belong lookups).1 _ _ _ hs).mp ⟨hfound, hinst⟩
  have hasked : Lookups.step lookups lookup {} = .ok asked := rfl
  have hreach := Run.Reaches.tail _ (.tail _ .refl (trivial : Sound lookups lookup {}) hasked) hsound hs
  exact ⟨s, hreach, hctx, ((introsets_belong lookups).2 s hreach).1⟩

end Belnet.Service
