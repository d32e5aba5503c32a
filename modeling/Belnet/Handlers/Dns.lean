import Belnet.Lib.Run

/-!
# Replies to hooked DNS queries

`MaybeHookDNS` of `llarp/handlers/tun.cpp` hands a query on with a function that replies, and cancels it, which is a
reply too, on `false`.
-/

set_option linter.unusedSectionVars false

namespace Belnet.Handlers
open List
variable {Address RouterID : Type} [DecidableEq Address] [DecidableEq RouterID]

/-- the first answer, if it is a `CNAME` of one of the two domains, with the address it is read as -/
inductive CName (Address RouterID : Type) where
  | none
  | mnode (addr : Option RouterID)
  | bdx (addr : Option Address)

inductive QType where
  | txt | mx | cname | a | aaaa | ptr | srv | other

/-- what `HandleHookedDNSMessage` asks of a message: its first answer, its questions, how the first name is read -/
structure DnsQuery (Address RouterID : Type) where
  answer : CName Address RouterID
  questions : ℕ
  qtype : QType
  routerID : Option RouterID
  isRandomMNode : Bool
  isLocalhostBeldex : Bool
  bdxAddress : Option Address
  mnodeAddress : Option RouterID
  bnsNameIsValid : Bool

/-- what the result of a name lookup is for: a record of the name, the address of its remote, or its services -/
inductive NameUse where
  | mx | address | service
deriving DecidableEq

inductive DnsAction (Address RouterID : Type) where
  | reply
  | refuse
  | lookupRouter
  | lookupName (use : NameUse)
  | ensureService (addr : Address)
  | ensureMNode (router : RouterID)

def handleHookedDNSMessage (q : DnsQuery Address RouterID) (v6 : Bool) (random : Option RouterID) :
    DnsAction Address RouterID :=
  match q.answer with
  | .mnode none => .refuse
  | .mnode (some router) => .ensureMNode router
  | .bdx none => .refuse
  | .bdx (some addr) => .ensureService addr
  | .none =>
    if q.questions ≠ 1 then .refuse
    else match q.qtype with
      | .txt => if q.routerID.isSome then .lookupRouter else .reply
      | .mx =>
        if q.bdxAddress.isSome || q.mnodeAddress.isSome || q.isRandomMNode || q.isLocalhostBeldex then .reply
        else if q.bnsNameIsValid then .lookupName .mx else .reply
      | .cname => .reply
      | .a => addressQuery q v6 random false
      | .aaaa => if !v6 then .reply else addressQuery q v6 random true
      | .ptr => .reply
      | .srv => if q.isLocalhostBeldex then .reply else .lookupName .service
      | .other => .reply
where
  addressQuery (q : DnsQuery Address RouterID) (v6 : Bool) (random : Option RouterID) (isV6 : Bool) :
      DnsAction Address RouterID :=
    if q.isRandomMNode then match random with
      | some router => .ensureMNode router
      | none => .reply
    else if q.isLocalhostBeldex then .reply
    else match q.bdxAddress, q.mnodeAddress with
      | some addr, _ => if !isV6 && v6 then .reply else .ensureService addr
      | none, some router => if !isV6 && v6 then .reply else .ensureMNode router
      | none, none => if q.bnsNameIsValid then .lookupName .address else .reply

/-! ## replies that were sent and functions that are kept -/

structure Replies (Address RouterID : Type) where
  sent : List ℕ
  routers : List ℕ
  names : List (NameUse × ℕ)
  services : List (Address × ℕ)
  mnodes : List (RouterID × ℕ)
  soon : List ℕ
  next : ℕ

structure DnsEnv (Address RouterID : Type) where
  routerKnown : Bool
  nameNow : Option (Option (Address ⊕ RouterID))
  inbound : Bool
  own : Bool
  wants : Bool
  ready : Bool
  filtered : Bool
  started : Bool
  mnodeReady : Bool

def DnsEnv.ensured (e : DnsEnv Address RouterID) : Bool := e.ready || e.filtered || e.started

namespace Replies
variable (e : DnsEnv Address RouterID)

def start : Replies Address RouterID := ⟨[], [], [], [], [], [], 0⟩

def reply (q : ℕ) (s : Replies Address RouterID) : Replies Address RouterID := { s with sent := s.sent ++ [q] }

def informPathToService (addr : Address) (s : Replies Address RouterID) : Replies Address RouterID :=
  { s with
    sent := s.sent ++ (s.services.filter fun h => h.1 = addr).map Prod.snd
    services := s.services.filter fun h => h.1 ≠ addr }

def ensurePathToService (addr : Address) (q : ℕ) (s : Replies Address RouterID) : Bool × Replies Address RouterID :=
  let s := { s with services := (addr, q) :: s.services }
  (e.ensured, if e.ready then s.informPathToService addr else s)

def ensurePathToMNode (router : RouterID) (q : ℕ) (s : Replies Address RouterID) : Replies Address RouterID :=
  if e.mnodeReady then s.reply q else { s with mnodes := (router, q) :: s.mnodes }

def replyToBeldexDNS (addr : Address) (q : ℕ) (s : Replies Address RouterID) : Bool × Replies Address RouterID :=
  if e.inbound then (true, s.reply q) else s.ensurePathToService e addr q

/-- `EnsurePathTo` for the address of a service, with the handler of `LookupServiceAsync` behind it -/
def serviceFound (addr : Address) (q : ℕ) (s : Replies Address RouterID) : Replies Address RouterID :=
  if e.own then { s with soon := q :: s.soon }
  else if !e.wants then s.reply q
  else
    let (ensured, s) := s.ensurePathToService e addr q
    -- on path build start fail short circuit
    if ensured then s else s.reply q

def nameResult (use : NameUse) (q : ℕ) (result : Option (Address ⊕ RouterID)) (s : Replies Address RouterID) :
    Replies Address RouterID :=
  match use, result with
  | .mx, _ => s.reply q
  | _, none => s.reply q
  | .address, some (.inl addr) => (s.replyToBeldexDNS e addr q).2
  | .service, some (.inl addr) => s.serviceFound e addr q
  | _, some (.inr router) => s.ensurePathToMNode e router q

variable (action : DnsAction Address RouterID)

def perform (q : ℕ) (s : Replies Address RouterID) : Replies Address RouterID :=
  match action with
  | .reply => s.reply q
  | .refuse => s.reply q
  | .lookupRouter => if e.routerKnown then s.reply q else { s with routers := q :: s.routers }
  | .lookupName use => match e.nameNow with
    | some result => s.nameResult e use q result
    | none => { s with names := (use, q) :: s.names }
  | .ensureService addr =>
    let (ensured, s) := s.replyToBeldexDNS e addr q
    if ensured then s else s.reply q
  | .ensureMNode router => s.ensurePathToMNode e router q

def maybeHookDNS (query : DnsQuery Address RouterID) (v6 : Bool) (random : Option RouterID) (s : Replies Address RouterID) :
    Replies Address RouterID := perform e (handleHookedDNSMessage query v6 random) s.next { s with next := s.next + 1 }

inductive Op (Address RouterID : Type) where
  | query (query : DnsQuery Address RouterID) (v6 : Bool) (random : Option RouterID) (e : DnsEnv Address RouterID)
  | routerResult (q : ℕ)
  | nameResult (use : NameUse) (q : ℕ) (result : Option (Address ⊕ RouterID)) (e : DnsEnv Address RouterID)
  | informPathToService (addr : Address)
  | callPendingCallbacks (router : RouterID)
  | callSoon (q : ℕ)

def step : Op Address RouterID → Replies Address RouterID → Except Empty (Replies Address RouterID)
  | .query query v6 random e, s => .ok (s.maybeHookDNS e query v6 random)
  | .routerResult q, s => .ok (if q ∈ s.routers then reply q { s with routers := s.routers.erase q } else s)
  | .nameResult use q result e, s =>
    .ok (if (use, q) ∈ s.names then nameResult e use q result { s with names := s.names.erase (use, q) } else s)
  | .informPathToService addr, s => .ok (s.informPathToService addr)
  | .callPendingCallbacks router, s => .ok { s with
      sent := s.sent ++ (s.mnodes.filter fun h => h.1 = router).map Prod.snd
      mnodes := s.mnodes.filter fun h => h.1 ≠ router }
  | .callSoon q, s => .ok (if q ∈ s.soon then reply q { s with soon := s.soon.erase q } else s)

def asksService : Bool := match action with
  | .ensureService _ => !e.inbound
  | .lookupName .service => match e.nameNow with
    | some (some (.inl _)) => !e.own && e.wants
    | _ => false
  | _ => false

def Fine : Op Address RouterID → Replies Address RouterID → Prop
  | .query query v6 random e, _ => asksService e (handleHookedDNSMessage query v6 random) = true → e.ensured = true
  | .nameResult .service _ (some (.inl _)) e, _ => e.own = false → e.wants = true → e.ensured = true
  | _, _ => True

def tokens (s : Replies Address RouterID) : Multiset ℕ :=
  ↑s.sent + ↑s.routers + ↑(s.names.map Prod.snd) + ↑(s.services.map Prod.snd) + ↑(s.mnodes.map Prod.snd) + ↑s.soon

structure Adds (q : ℕ) (s s' : Replies Address RouterID) : Prop where
  tokens : s'.tokens = {q} + s.tokens
  next : s'.next = s.next

lemma adds_reply (q : ℕ) (s : Replies Address RouterID) : Adds q s (s.reply q) where
  tokens := by
    simp only [Replies.tokens, reply, ← Multiset.coe_add, Multiset.coe_singleton]
    abel
  next := rfl

lemma split_hooks {Key : Type} [DecidableEq Key] (k : Key) (hooks : List (Key × ℕ)) :
    (↑((hooks.filter fun h => h.1 = k).map Prod.snd) + ↑((hooks.filter fun h => h.1 ≠ k).map Prod.snd) : Multiset ℕ)
      = ↑(hooks.map Prod.snd) := by
  rw [Multiset.coe_add, ← map_append]
  refine Multiset.coe_eq_coe.mpr (Perm.map _ ?_)
  have h := filter_append_perm (fun h : Key × ℕ => decide (h.1 = k)) hooks
  simpa only [ne_eq, decide_not] using h

lemma tokens_inform (addr : Address) (s : Replies Address RouterID) :
    (s.informPathToService addr).tokens = s.tokens := by
  simp only [tokens, informPathToService, ← Multiset.coe_add, ← split_hooks addr s.services]
  abel

lemma adds_ensureService (addr : Address) (q : ℕ) (s : Replies Address RouterID) :
    Adds q s (s.ensurePathToService e addr q).2 := by
  have h : Adds q s { s with services := (addr, q) :: s.services } := by
    refine ⟨?_, rfl⟩
    simp only [tokens, map_cons, ← Multiset.cons_coe, ← Multiset.singleton_add]
    abel
  unfold ensurePathToService
  split
  · exact ⟨(tokens_inform addr _).trans h.tokens, rfl⟩
  · exact h

lemma adds_ensureMNode (router : RouterID) (q : ℕ) (s : Replies Address RouterID) :
    Adds q s (s.ensurePathToMNode e router q) := by
  unfold ensurePathToMNode
  split
  · exact adds_reply q s
  refine ⟨?_, rfl⟩
  simp only [tokens, map_cons, ← Multiset.cons_coe, ← Multiset.singleton_add]
  abel

lemma adds_replyToDNS (addr : Address) (q : ℕ) (s : Replies Address RouterID) :
    Adds q s (s.replyToBeldexDNS e addr q).2 := by
  unfold replyToBeldexDNS
  split
  · exact adds_reply q s
  · exact adds_ensureService e addr q s

lemma adds_serviceFound (addr : Address) (q : ℕ) (s : Replies Address RouterID)
    (h : e.own = false → e.wants = true → e.ensured = true) : Adds q s (s.serviceFound e addr q) := by
  unfold serviceFound
  split
  · refine ⟨?_, rfl⟩
    simp only [tokens, ← Multiset.cons_coe, ← Multiset.singleton_add]
    abel
  rename_i hown
  split
  · exact adds_reply q s
  rename_i hwants
  have hfst : (s.ensurePathToService e addr q).1 = true := h (by simpa using hown) (by simpa using hwants)
  dsimp only
  rw [if_pos hfst]
  exact adds_ensureService e addr q s

lemma adds_nameResult (use : NameUse) (q : ℕ) (result : Option (Address ⊕ RouterID)) (s : Replies Address RouterID)
    (h : use = .service → (∃ addr, result = some (.inl addr)) → e.own = false → e.wants = true → e.ensured = true) :
    Adds q s (s.nameResult e use q result) := by
  rcases use with _ | _ | _ <;> rcases result with _ | addr | router
  case address.some.inl => exact adds_replyToDNS e addr q s
  case service.some.inl => exact adds_serviceFound e addr q s (h rfl ⟨addr, rfl⟩)
  case address.some.inr => exact adds_ensureMNode e router q s
  case service.some.inr => exact adds_ensureMNode e router q s
  all_goals exact adds_reply q s

lemma adds_perform (q : ℕ) (s : Replies Address RouterID)
    (h : asksService e action = true → e.ensured = true) : Adds q s (perform e action q s) := by
  cases action with
  | reply | refuse => exact adds_reply q s
  | lookupRouter =>
    unfold perform
    dsimp only
    split
    · exact adds_reply q s
    refine ⟨?_, rfl⟩
    simp only [tokens, ← Multiset.cons_coe, ← Multiset.singleton_add]
    abel
  | lookupName use =>
    unfold perform
    dsimp only
    split
    · rename_i result hnow
      refine adds_nameResult e use q result s fun hu hr hown hwants => h ?_
      obtain ⟨addr, rfl⟩ := hr
      simp [asksService, hu, hnow, hown, hwants]
    · refine ⟨?_, rfl⟩
      simp only [tokens, map_cons, ← Multiset.cons_coe, ← Multiset.singleton_add]
      abel
  | ensureService addr =>
    have hfst : (s.replyToBeldexDNS e addr q).1 = true := by
      unfold replyToBeldexDNS
      split
      · rfl
      · rename_i hin
        exact h (by simpa [asksService] using hin)
    unfold perform
    dsimp only
    rw [if_pos hfst]
    exact adds_replyToDNS e addr q s
  | ensureMNode router => exact adds_ensureMNode e router q s

structure Inv (s : Replies Address RouterID) : Prop where
  nodup : s.tokens.Nodup
  lt_next : ∀ q ∈ s.tokens, q < s.next

variable {s : Replies Address RouterID} {s' : Replies Address RouterID}

lemma Inv.moved (h : Inv s) (ht : s'.tokens = s.tokens) (hn : s'.next = s.next) : Inv s' := by
  refine ⟨?_, ?_⟩
  · rw [ht]
    exact h.nodup
  · intro q hq
    rw [hn]
    exact h.lt_next q (ht ▸ hq)

lemma Inv.maybeHookDNS (h : Inv s) (query : DnsQuery Address RouterID) (v6 : Bool)
    (random : Option RouterID) (hf : asksService e (handleHookedDNSMessage query v6 random) = true → e.ensured = true) :
    Inv (s.maybeHookDNS e query v6 random) := by
  obtain ⟨ht, hn⟩ : Adds s.next { s with next := s.next + 1 } (s.maybeHookDNS e query v6 random) :=
    adds_perform e _ s.next _ hf
  rw [Multiset.singleton_add] at ht
  refine ⟨?_, ?_⟩
  · rw [ht, Multiset.nodup_cons]
    exact ⟨fun hmem => absurd (h.lt_next _ hmem) (lt_irrefl _), h.nodup⟩
  intro q hq
  rw [ht, Multiset.mem_cons] at hq
  rw [hn]
  rcases hq with rfl | hq
  · exact Nat.lt_succ_self _
  · exact Nat.lt_succ_of_lt (h.lt_next q hq)

lemma coe_erase {α : Type} [BEq α] [LawfulBEq α] {x : α} {xs : List α} (h : x ∈ xs) (f : α → ℕ) :
    (↑(xs.map f) : Multiset ℕ) = {f x} + ↑((xs.erase x).map f) := by
  rw [Multiset.singleton_add, Multiset.cons_coe, ← map_cons]
  exact Multiset.coe_eq_coe.mpr ((perm_cons_erase h).map f)

lemma Inv.step {op : Op Address RouterID} (h : Inv s) (hf : Fine op s) (hs : Replies.step op s = .ok s') : Inv s' := by
  cases op with obtain rfl := Except.ok.inj hs
  | query query v6 random e => exact h.maybeHookDNS e query v6 random hf
  | routerResult q | callSoon q =>
    split
    · rename_i hq
      have hsplit := coe_erase hq id
      simp only [map_id] at hsplit
      refine h.moved ((adds_reply q _).tokens.trans ?_) rfl
      simp only [tokens, hsplit, id]
      abel
    · exact h
  | nameResult use q result e =>
    split
    · rename_i hq
      have hsplit := coe_erase hq Prod.snd
      obtain ⟨ht, hn⟩ := adds_nameResult e use q result { s with names := s.names.erase (use, q) } (by
        rintro rfl ⟨addr, rfl⟩
        exact hf)
      refine h.moved (ht.trans ?_) hn
      simp only [tokens, hsplit]
      abel
    · exact h
  | informPathToService addr => exact h.moved (tokens_inform addr s) rfl
  | callPendingCallbacks router =>
    refine h.moved ?_ rfl
    simp only [tokens, ← Multiset.coe_add, ← split_hooks router s.mnodes]
    abel

lemma inv_start : Inv (start : Replies Address RouterID) := ⟨by simp [tokens, start], by simp [tokens, start]⟩

lemma Inv.sent_nodup (h : Inv s) : s.sent.Nodup := by
  have hle : (↑s.sent : Multiset ℕ) ≤ s.tokens := by
    simp only [tokens, add_assoc]
    exact Multiset.le_add_right _ _
  exact Multiset.coe_nodup.mp (Multiset.nodup_of_le hle h.nodup)

/-- In every run in which `EnsurePathToService` returns `true` where its result is used, no query gets two replies. -/
theorem one_reply {s : Replies Address RouterID} (h : Run.Reaches step Fine start s) : s.sent.Nodup :=
  (h.inv (fun _ _ _ hs => hs.step) inv_start).sent_nodup

def addressQuery : DnsQuery ℕ ℕ := ⟨.none, 1, .a, none, false, false, some 7, none, false⟩

def quiet (started : Bool) : DnsEnv ℕ ℕ := ⟨false, none, false, false, true, false, false, started, false⟩

theorem one_reply_two : ∃ s : Replies ℕ ℕ, Run.Reaches step Fine start s ∧ s.sent = [1, 0] ∧ s.sent.Nodup := by
  have hreach : Run.Reaches step Fine (start : Replies ℕ ℕ) ⟨[1, 0], [], [], [], [], [], 2⟩ :=
    .tail (.informPathToService 7)
      (.tail (.query addressQuery false none (quiet true)) (.tail (.query addressQuery false none (quiet true)) .refl
        (fun _ => rfl) rfl) (fun _ => rfl) rfl) trivial rfl
  exact ⟨_, hreach, rfl, one_reply hreach⟩

/-- No lookup can be sent, so the query is cancelled; its hook is kept and replies when there is a path. -/
theorem two_replies : Run.exec step [.query addressQuery false none (quiet false), .informPathToService 7]
    (start : Replies ℕ ℕ) = .ok ⟨[0, 0], [], [], [], [], [], 1⟩ := rfl

end Replies

end Belnet.Handlers
