import Belnet.Router.Requests
import Belnet.Lib.Assoc

/-!
# Lookups behind the requests of router contacts

Behind an entry of `pendingCallbacks` is an endpoint's job or a transaction whose result calls `FinalizeRequest`.
-/

namespace Belnet.Router
open Dht List AList Requests Function TXHolder Queues Nat
open Iwp (Millis)
variable {R : Type} [DecidableEq R]

namespace Requests

def Comes (b : Base R) (router : R) (o : TXOwner) : Prop := ∀ c todo, b = .inform router c todo → o ∈ todo

section
variable (s : Requests R)

def HasJob (b : Base R) (router : R) (ep : ℕ) : Prop :=
  s.pendingRouters (ep, router) = some .request ∧ b ≠ .informResult ep router

def Waits (b : Base R) (router : R) (o : TXOwner) : Prop :=
  (router, o) ∈ s.lookups.waiting ∧ s.lookups.tx.lookup o = some .request ∧ router ∈ s.lookups.timeouts ∧ Comes b router o

def LookedUpIn (b : Base R) (router : R) : Prop := (∃ ep, HasJob s b router ep) ∨ ∃ o, Waits s b router o

def LookedUp (router : R) : Prop := LookedUpIn s s.base router

def AllLookedUp : Prop := ∀ router ∈ s.pendingCallbacks, LookedUp s router

end

/-- An endpoint can be asked, or the DHT knows nobody, or hands out no results for the router now, or a lookup is
outstanding. -/
def CanLookUp (isMasterNode : Bool) (router : R) (eps : List (ℕ × Bool)) (askpeer : Option Key) (s : Requests R) : Prop :=
  (isMasterNode = false ∧ ∃ e ∈ eps, CanAsk s router e) ∨ askpeer = none ∨
    (∀ c todo, s.base ≠ .inform router c todo) ∨ LookedUp s router

def Fine (isMasterNode : Bool) : Op R → Requests R → Prop
  | .getRC _ router _ forceLookup known eps askpeer, s =>
    (!forceLookup && known) = false → router ∉ s.pendingCallbacks → CanLookUp isMasterNode router eps askpeer s
  | _, _ => True

structure Owners (s : Requests R) : Prop where
  nodup : (s.lookups.waiting.map Prod.snd).Nodup
  timed : ∀ w ∈ s.lookups.waiting, w.1 ∈ s.lookups.timeouts
  waiting_le : ∀ w ∈ s.lookups.waiting, w.2.txid ≤ s.ids
  tx_le : ∀ o kind, s.lookups.tx.lookup o = some kind → o.txid ≤ s.ids

def Walks (s : Requests R) (key : R) (todo : List TXOwner) : Prop :=
  todo.Nodup ∧ ∀ o ∈ todo, (key, o) ∈ s.lookups.waiting

structure Sound (E : R → Prop) (s : Requests R) : Prop where
  owners : Owners s
  walk : ∀ key c todo, s.base = .inform key c todo → Walks s key (c :: todo)
  job : ∀ ep router, s.base = .informResult ep router → s.pendingRouters (ep, router) ≠ none
  looked : ∀ router ∈ s.pendingCallbacks, ¬ E router → LookedUp s router

structure Handing (E : R → Prop) (key : R) (todo : List TXOwner) (s : Requests R) : Prop where
  owners : Owners s
  walks : Walks s key todo
  looked : ∀ router ∈ s.pendingCallbacks, ¬ E router → LookedUpIn s (.inform key {} todo) router

variable {E E' : R → Prop} {s s' : Requests R} {b b' : Base R} {router r key : R} {o : TXOwner} {todo : List TXOwner}

lemma sound_start : Sound E (start : Requests R) where
  owners := ⟨nodup_nil, nofun, nofun, nofun⟩
  walk := nofun
  job := nofun
  looked := fun r hr => absurd hr (notMem_empty r)

lemma Walks.tail (h : Walks s key (o :: todo)) : Walks s key todo :=
  ⟨h.1.of_cons, fun o' ho' => h.2 o' (mem_cons_of_mem _ ho')⟩

lemma Owners.congr (h : Owners s) (hl : s'.lookups = s.lookups) (hi : s'.ids = s.ids) : Owners s' := by
  obtain ⟨h1, h2, h3, h4⟩ := h
  rw [← hl] at h1 h2 h3 h4
  rw [← hi] at h3 h4
  exact ⟨h1, h2, h3, h4⟩

lemma Sound.congr (h : Sound E s) (hc : ∀ r ∈ s'.pendingCallbacks, r ∈ s.pendingCallbacks)
    (hl : s'.lookups = s.lookups := by rfl) (hp : s'.pendingRouters = s.pendingRouters := by rfl)
    (hi : s'.ids = s.ids := by rfl) (hb : s'.base = s.base := by rfl) : Sound E s' where
  owners := h.owners.congr hl hi
  walk := by
    unfold Walks
    rw [hl, hb]
    exact h.walk
  job := by
    rw [hp, hb]
    exact h.job
  looked := by
    intro r hr hE
    have hlook := h.looked r (hc r hr) hE
    unfold LookedUp LookedUpIn HasJob Waits at hlook ⊢
    rw [hp, hl, hb]
    exact hlook

lemma Sound.mono (h : Sound E s) (hE : ∀ r ∈ s.pendingCallbacks, E r → E' r ∨ LookedUp s r) : Sound E' s where
  __ := h
  looked := by
    intro r hr hr'
    by_cases hEr : E r
    · exact (hE r hr hEr).resolve_left hr'
    · exact h.looked r hr hEr

lemma Sound.of_idle (h : Owners s) (hb : s.base = .idle) (hl : ∀ r ∈ s.pendingCallbacks, ¬ E r → LookedUp s r) :
    Sound E s where
  owners := h
  walk := fun _ _ _ hb' => nomatch hb.symm.trans hb'
  job := fun _ _ hb' => nomatch hb.symm.trans hb'
  looked := hl

lemma finalize_eq (router : R) (s : Requests R) : ∃ calls stack, s.finalizeRequest router =
    { s with pendingCallbacks := s.pendingCallbacks.erase router, calls := calls, stack := stack } := by
  unfold finalizeRequest
  dsimp only
  split <;> exact ⟨_, _, rfl⟩

lemma Sound.finalize (h : Sound (fun r => E r ∨ r = router) s) : Sound E (s.finalizeRequest router) := by
  obtain ⟨_, _, heq⟩ := finalize_eq router s
  rw [heq]
  refine ⟨h.owners.congr rfl rfl, h.walk, h.job, fun r hr hE => ?_⟩
  obtain ⟨hne, hr⟩ := (mem_erase ..).mp hr
  exact h.looked r hr fun hor => hor.elim hE hne

lemma Sound.finalizeRequest (h : Sound E s) (router : R) : Sound E (s.finalizeRequest router) :=
  .finalize (h.mono fun _ _ hE => .inl (.inl hE))

lemma LookedUpIn.rebase (h : LookedUpIn s b r) (hjob : ∀ ep, b' = .informResult ep r → b = .informResult ep r)
    (hcomes : ∀ o, Waits s b r o → Comes b' r o) : LookedUpIn s b' r := by
  rcases h with ⟨ep, hep, hne⟩ | ⟨o, ho⟩
  · exact .inl ⟨ep, hep, fun hb => hne (hjob ep hb)⟩
  · exact .inr ⟨o, ho.1, ho.2.1, ho.2.2.1, hcomes o ho⟩

lemma LookedUpIn.eraseTX (h : LookedUpIn s b r) (hne : ∀ o', Waits s b r o' → o' ≠ o) :
    LookedUpIn (s.eraseTX o) b r := by
  rcases h with hjob | ⟨o', ho'⟩
  · exact .inl hjob
  · exact .inr ⟨o', ho'.1, (lookup_erase_ne (hne o' ho')).trans ho'.2.1, ho'.2.2⟩

lemma LookedUpIn.setJob (h : LookedUpIn s b r) {k : ℕ × R} {x : Option LookupKind}
    (hne : ∀ ep, HasJob s b r ep → (ep, r) ≠ k) :
    LookedUpIn { s with pendingRouters := update s.pendingRouters k x } b r := by
  rcases h with ⟨ep, hep⟩ | hwait
  · exact .inl ⟨ep, (update_of_ne (hne ep hep) ..).trans hep.1, hep.2⟩
  · exact .inr hwait

lemma Owners.eraseTX (h : Owners s) (o : TXOwner) : Owners (s.eraseTX o) where
  nodup := h.nodup
  timed := h.timed
  waiting_le := h.waiting_le
  tx_le := fun o' kind ho => h.tx_le o' kind (Assoc.erase_some ho).2

omit [DecidableEq R] in
lemma comes_inform {c : TXOwner} : Comes (.inform key c todo) router o ↔ (router = key → o ∈ todo) := by
  constructor
  · rintro h rfl
    exact h c todo rfl
  · intro h _ _ hb
    obtain ⟨rfl, -, rfl⟩ := Base.inform.inj hb
    exact h rfl

lemma Owners.endInform (h : Owners s) (key : R) : Owners (s.inform key []) where
  nodup := h.nodup.sublist (Sublist.map _ filter_sublist)
  timed := by
    intro w hw
    obtain ⟨hw, hne⟩ := mem_filter.mp hw
    exact (mem_erase ..).mpr ⟨by simpa using hne, h.timed w hw⟩
  waiting_le := fun w hw => h.waiting_le w (mem_of_mem_filter hw)
  tx_le := h.tx_le

lemma Handing.skip (h : Handing E key (o :: todo) s) (ho : s.lookups.tx.lookup o ≠ some .request) :
    Handing E key todo s where
  owners := h.owners
  walks := h.walks.tail
  looked := by
    intro r hr hE
    refine (h.looked r hr hE).rebase nofun fun _ hw => comes_inform.mpr fun heq => ?_
    refine (mem_cons.mp (comes_inform.mp hw.2.2.2 heq)).resolve_left ?_
    rintro rfl
    exact ho hw.2.1

lemma Handing.eraseTX (h : Handing E key todo s) (ho : s.lookups.tx.lookup o ≠ some .request) :
    Handing E key todo (s.eraseTX o) where
  owners := h.owners.eraseTX o
  walks := h.walks
  looked := by
    intro r hr hE
    refine (h.looked r hr hE).eraseTX fun _ hw => ?_
    rintro rfl
    exact ho hw.2.1

lemma Sound.handing (h : Sound E s) (hb : s.base = .inform key o todo) : Handing E key todo (s.eraseTX o) where
  owners := h.owners.eraseTX o
  walks := (h.walk key o todo hb).tail
  looked := by
    intro r hr hE
    have hw := h.walk key o todo hb
    have hlook : LookedUpIn s (.inform key {} todo) r := (h.looked r hr hE).rebase nofun fun o' hwait =>
      comes_inform.mpr (comes_inform.mp (hb ▸ hwait.2.2.2))
    refine hlook.eraseTX fun o' hwait => ?_
    rintro rfl
    have hkey := inj_on_of_nodup_map h.owners.nodup hwait.1 (hw.2 _ mem_cons_self) rfl
    exact (nodup_cons.mp hw.1).1 (comes_inform.mp hwait.2.2.2 (congrArg Prod.fst hkey))

lemma Sound.inform (h : Handing E key todo s) : Sound E (s.inform key todo) := by
  induction todo generalizing s with
  | nil =>
    -- what waits for the key is erased, and none of it is to come
    refine .of_idle (h.owners.endInform key) rfl fun r hr hE => ?_
    rcases h.looked r hr hE with ⟨ep, hep⟩ | ⟨o, hwait, htx, htime, hcomes⟩
    · exact .inl ⟨ep, hep.1, nofun⟩
    have hne : r ≠ key := fun heq => absurd (comes_inform.mp hcomes heq) not_mem_nil
    refine .inr ⟨o, mem_filter.mpr ⟨hwait, by simpa using hne⟩, htx, ?_, nofun⟩
    exact (mem_erase ..).mpr ⟨hne, htime⟩
  | cons o todo ih =>
    rw [inform]
    split
    · rename_i hnone
      exact ih (h.skip (by simp [hnone]))
    · rename_i hother
      have hne : s.lookups.tx.lookup o ≠ some .request := by simp [hother]
      exact ih ((h.skip hne).eraseTX hne)
    -- the callbacks of the key are called
    have hbase : Sound (fun r => E r ∨ r = key) { s with base := .inform key o todo } := by
      refine ⟨h.owners.congr rfl rfl, ?_, ?_, fun r hr hE => ?_⟩
      · rintro _ _ _ ⟨⟩
        exact h.walks
      · rintro ep r ⟨⟩
      · refine (h.looked r hr fun hEr => hE (.inl hEr)).rebase ?_ fun _ _ =>
          comes_inform.mpr fun heq => absurd (.inr heq) hE
        rintro ep ⟨⟩
    have hfin := hbase.finalize
    obtain ⟨_, _, heq⟩ := finalize_eq key { s with base := .inform key o todo }
    have hb := congrArg base heq
    dsimp only
    split
    · exact ih (hfin.handing hb)
    · exact hfin

lemma Sound.settle (h : Sound E s) : Sound E s.settle := by
  unfold Requests.settle
  split
  · split
    · exact h
    · rename_i ep router hb
      refine .of_idle (h.owners.congr rfl rfl) rfl fun r hr hE => ?_
      refine LookedUpIn.rebase ((h.looked r hr hE).setJob fun ep' hep => ?_) nofun fun _ _ => nofun
      rintro ⟨⟩
      exact hep.2 hb
    · rename_i hb
      exact .inform (h.handing hb)
  · exact h

lemma Sound.callbackReturns (h : Sound E s) : Sound E s.callbackReturns := by
  unfold Requests.callbackReturns
  split
  · exact h
  · refine Sound.settle (Sound.finalizeRequest ?_ _)
    exact h.congr fun _ hr => hr
  · exact h.congr fun _ hr => hr
  · exact Sound.settle (h.congr fun _ hr => hr)

lemma Sound.jobResult (h : Sound E s) (hb : s.base = .idle) (ep : ℕ) (router : R) : Sound E (s.jobResult ep router) := by
  unfold Requests.jobResult
  split
  · exact h
  · rename_i hother
    refine .of_idle (h.owners.congr rfl rfl) hb fun r hr hE => (h.looked r hr hE).setJob fun ep' hep => ?_
    rintro ⟨⟩
    exact nomatch hother.symm.trans hep.1
  · rename_i hjob
    refine Sound.settle (Sound.finalize ⟨h.owners.congr rfl rfl, nofun, ?_, fun r hr hE => ?_⟩)
    · rintro ep' _ ⟨⟩
      exact fun hnone => nomatch hjob.symm.trans hnone
    · refine (h.looked r hr fun hEr => hE (.inl hEr)).rebase (fun ep' hb' => ?_) fun _ _ => nofun
      exact absurd (.inr (Base.informResult.inj hb').2.symm) hE

lemma Sound.newJob (h : Sound E s) {ep : ℕ} (hnone : s.pendingRouters (ep, router) = none) (kind : LookupKind) :
    Sound E { s with pendingRouters := update s.pendingRouters (ep, router) (some kind) } where
  owners := h.owners.congr rfl rfl
  walk := h.walk
  job := by
    intro ep' r hb
    dsimp only
    rw [update_apply]
    split
    · nofun
    · exact h.job ep' r hb
  looked := by
    intro r hr hE
    refine (h.looked r hr hE).setJob fun ep' hep => ?_
    rintro ⟨⟩
    exact nomatch hnone.symm.trans hep.1

section
variable (now : Millis) (router : R) (kind : LookupKind) (peer : Key)

lemma newTX_lookup_tx (h : Owners s) (o : TXOwner) : (s.newTX now router kind peer).lookups.tx.lookup o =
    if o = ⟨peer, s.ids + 1⟩ then some kind else s.lookups.tx.lookup o := by
  have hfresh : s.lookups.tx.lookup ⟨peer, s.ids + 1⟩ = none := by
    cases hx : s.lookups.tx.lookup (⟨peer, s.ids + 1⟩ : TXOwner) with
    | none => rfl
    | some => exact absurd (h.tx_le _ _ hx) (not_succ_le_self s.ids)
  unfold newTX TXHolder.newTX
  rw [hfresh]
  exact Assoc.lookup_insert

omit kind in
lemma mem_newTX_timeouts {kind : LookupKind} (hr : r = router ∨ r ∈ s.lookups.timeouts) :
    r ∈ (s.newTX now router kind peer).lookups.timeouts := by
  unfold newTX TXHolder.newTX
  split
  · rename_i t hsome
    rcases hr with rfl | hr
    · exact lookup_isSome.mp (hsome ▸ rfl)
    · exact hr
  · exact (mem_insert _).mpr hr

lemma Owners.newTX (h : Owners s) : Owners (s.newTX now router kind peer) where
  nodup := by
    show ((s.lookups.waiting ++ [(router, (⟨peer, s.ids + 1⟩ : TXOwner))]).map Prod.snd).Nodup
    rw [map_append, map_singleton, ← concat_eq_append]
    refine h.nodup.concat ?_
    intro hmem
    obtain ⟨w, hw, heq⟩ := mem_map.mp hmem
    have hle := h.waiting_le w hw
    rw [heq] at hle
    exact absurd hle (not_succ_le_self s.ids)
  timed := by
    intro w hw
    refine mem_newTX_timeouts now router peer ?_
    rcases mem_concat.mp hw with hw | rfl
    · exact .inr (h.timed w hw)
    · exact .inl rfl
  waiting_le := by
    intro w hw
    rcases mem_concat.mp hw with hw | rfl
    · exact (h.waiting_le w hw).trans (le_succ _)
    · exact le_refl (s.ids + 1)
  tx_le := by
    intro o k ho
    rw [newTX_lookup_tx now router kind peer h] at ho
    split at ho
    · rename_i heq
      rw [heq]
      exact le_refl (s.ids + 1)
    · exact (h.tx_le o k ho).trans (le_succ _)

lemma LookedUpIn.newTX (hl : LookedUpIn s b r) (h : Owners s) : LookedUpIn (s.newTX now router kind peer) b r := by
  rcases hl with hjob | ⟨o, hwait, htx, htime, hcomes⟩
  · exact .inl hjob
  refine .inr ⟨o, mem_append_left _ hwait, ?_, mem_newTX_timeouts now router peer (.inr htime), hcomes⟩
  rw [newTX_lookup_tx now router kind peer h, if_neg]
  · exact htx
  · rintro rfl
    exact absurd (h.tx_le _ _ htx) (not_succ_le_self s.ids)

lemma Sound.newTX (h : Sound E s) : Sound E (s.newTX now router kind peer) where
  owners := h.owners.newTX now router kind peer
  walk := by
    intro key c todo hb
    obtain ⟨hnodup, hmem⟩ := h.walk key c todo hb
    exact ⟨hnodup, fun o ho => mem_append_left _ (hmem o ho)⟩
  job := h.job
  looked := fun r hr hE => LookedUpIn.newTX now router kind peer (h.looked r hr hE) h.owners

lemma lookedUp_newTX_iff (h : Sound E s) : LookedUp (s.newTX now router .request peer) router ↔
    (∀ c todo, s.base ≠ .inform router c todo) ∨ LookedUp s router := by
  constructor
  · rintro (hjob | ⟨o, hwait, htx, -, hcomes⟩)
    · exact .inr (.inl hjob)
    by_cases hnew : o = ⟨peer, s.ids + 1⟩
    · refine .inl fun c todo hb => ?_
      -- the loop would come to the new id
      have hle := h.owners.waiting_le _ ((h.walk _ c todo hb).2 o (mem_cons_of_mem _ (hcomes c todo hb)))
      rw [hnew] at hle
      exact absurd hle (not_succ_le_self s.ids)
    · rw [newTX_lookup_tx now router .request peer h.owners, if_neg hnew] at htx
      rcases mem_concat.mp hwait with hwait | heq
      · exact .inr (.inr ⟨o, hwait, htx, h.owners.timed _ hwait, hcomes⟩)
      · exact absurd (congrArg Prod.snd heq) hnew
  · rintro (hbase | hl)
    · refine .inr ⟨⟨peer, s.ids + 1⟩, mem_append_right _ (mem_singleton.mpr rfl), ?_,
        mem_newTX_timeouts now router peer (.inl rfl), fun c todo hb => absurd hb (hbase c todo)⟩
      rw [newTX_lookup_tx now router .request peer h.owners, if_pos rfl]
    · exact LookedUpIn.newTX now router .request peer hl h.owners

end

section
variable {isMasterNode callback forceLookup known : Bool} {now : Millis} {eps : List (ℕ × Bool)} {askpeer : Option Key}

lemma Sound.startLookup (h : Sound (fun r => E r ∨ r = router) s)
    (hcan : E router ∨ CanLookUp isMasterNode router eps askpeer s) :
    Sound E (s.startLookup isMasterNode now router eps askpeer) := by
  rcases startLookup_eq isMasterNode now router eps askpeer s with
    ⟨-, e, -, hask, heq⟩ | ⟨hno, ⟨peer, hpeer, heq⟩ | ⟨-, heq⟩⟩
  · rw [heq]
    refine (h.newJob hask.2 .request).mono fun r _ hE => hE.imp_right ?_
    rintro rfl
    exact .inl ⟨e.1, update_self .., fun hb => h.job e.1 r hb hask.2⟩
  · rw [heq]
    refine (h.newTX now router .request peer).mono fun r _ hE => ?_
    rcases hE with hE | rfl
    · exact .inl hE
    refine hcan.imp_right fun hcan => (lookedUp_newTX_iff now r peer h).mpr ?_
    rcases hcan with ⟨hm, e, he, hask⟩ | hnone | hcan
    · exact absurd hask (hno hm e he)
    · exact nomatch hnone.symm.trans hpeer
    · exact hcan
  · rw [heq]
    exact h.finalize

lemma canLookUp_start (h : Sound E s) (hr : router ∈ s.pendingCallbacks)
    (hall : AllLookedUp (s.startLookup isMasterNode now router eps askpeer)) :
    CanLookUp isMasterNode router eps askpeer s := by
  rcases startLookup_eq isMasterNode now router eps askpeer s with
    ⟨hm, e, he, hcan, -⟩ | ⟨-, ⟨peer, -, heq⟩ | ⟨hpeer, -⟩⟩
  · exact .inl ⟨hm, e, he, hcan⟩
  · rw [heq] at hall
    exact .inr (.inr ((lookedUp_newTX_iff now router peer h).mp (hall router hr)))
  · exact .inr (.inl hpeer)

lemma Sound.wait (h : Sound E s) (router : R) (xs : List ℕ) (next : ℕ) : let s' : Requests R :=
      { s with pendingCallbacks := append s.pendingCallbacks router xs, next := next }
    Sound (fun r => E r ∨ r = router) s' ∧ router ∈ s'.pendingCallbacks ∧ (router ∈ s.pendingCallbacks → Sound E s') := by
  have hmem : ∀ r, r ∈ append s.pendingCallbacks router xs → r = router ∨ r ∈ s.pendingCallbacks :=
    fun r => (mem_insert _).mp
  refine ⟨⟨h.owners.congr rfl rfl, h.walk, h.job, fun r hr hE => ?_⟩, (mem_insert _).mpr (.inl rfl), fun hin => ?_⟩
  · exact h.looked r ((hmem r hr).resolve_left fun heq => hE (.inr heq)) fun hEr => hE (.inl hEr)
  refine h.congr fun r hr => ?_
  rcases hmem r hr with rfl | hr
  · exact hin
  · exact hr

lemma isNone_iff : (s.pendingCallbacks.lookup router).isNone = true ↔ router ∉ s.pendingCallbacks := by
  rw [Option.isNone_iff_eq_none, lookup_eq_none]

lemma Sound.getRC (h : Sound E s)
    (hfine : E router ∨ Fine isMasterNode (.getRC now router callback forceLookup known eps askpeer) s) :
    Sound E (s.getRC isMasterNode now router callback forceLookup known eps askpeer) := by
  have hwait (xs : List ℕ) (next : ℕ) (hknown : (!forceLookup && known) = false) := by
    obtain ⟨hbut, -, hin⟩ := h.wait router xs next
    exact show Sound E (if (s.pendingCallbacks.lookup router).isNone = true then Requests.startLookup isMasterNode now
        router eps askpeer { s with pendingCallbacks := append s.pendingCallbacks router xs, next := next }
      else { s with pendingCallbacks := append s.pendingCallbacks router xs, next := next }) by
      split
      · rename_i hnone
        exact hbut.startLookup (hfine.imp_right fun hf => hf hknown (isNone_iff.mp hnone))
      · rename_i hsome
        exact hin (not_not.mp fun hno => hsome (isNone_iff.mpr hno))
  unfold Requests.getRC
  by_cases hknown : (!forceLookup && known) = true
  · rw [if_pos hknown]
    split
    · exact h.congr fun _ hr => hr
    · exact h.finalizeRequest router
  · rw [if_neg hknown]
    cases callback with
    | true => exact hwait [s.next] (s.next + 1) (Bool.eq_false_of_not_eq_true hknown)
    | false => exact hwait [] s.next (Bool.eq_false_of_not_eq_true hknown)

lemma fine_of_getRC (h : Sound E s)
    (hall : AllLookedUp (s.getRC isMasterNode now router callback forceLookup known eps askpeer)) :
    Fine isMasterNode (.getRC now router callback forceLookup known eps askpeer) s := by
  intro hknown hno
  unfold getRC at hall
  rw [if_neg (Bool.eq_false_iff.mp hknown)] at hall
  rw [if_pos (isNone_iff.mpr hno)] at hall
  cases callback with
  | true =>
    obtain ⟨hbut, hr, -⟩ := h.wait router [s.next] (s.next + 1)
    have hcan := canLookUp_start hbut hr hall
    exact hcan
  | false =>
    obtain ⟨hbut, hr, -⟩ := h.wait router [] s.next
    have hcan := canLookUp_start hbut hr hall
    exact hcan

lemma Sound.step {op : Op R} (h : Sound E s) (hstep : step isMasterNode op s = .ok s')
    (hfine : (∀ r, E r) ∨ Fine isMasterNode op s) : Sound E s' := by
  cases op with cases hstep
  | getRC now router callback forceLookup known eps askpeer => exact h.getRC (hfine.imp_left fun hE => hE router)
  | lookupRouterAnon ep router sends =>
    rcases anon_eq ep router .other sends s with ⟨hcan, heq⟩ | ⟨-, heq⟩
    · rw [heq]
      exact h.newJob hcan.2 .other
    · rw [heq]
      exact h
  | newTX now router askpeer => exact h.newTX now router .other askpeer
  | jobResult ep router =>
    split
    · rename_i hb
      split
      · exact h.jobResult hb ep router
      · exact h
    · exact h
  | dhtResult =>
    split
    · split
      · refine .inform ⟨h.owners, ⟨?_, fun o ho => mem_waitingFor.mp ho⟩, fun r hr hE => ?_⟩
        · exact h.owners.nodup.sublist (Sublist.map _ filter_sublist)
        · refine (h.looked r hr hE).rebase nofun fun o hwait => comes_inform.mpr ?_
          rintro rfl
          exact mem_waitingFor.mpr hwait.1
      · exact h
    · exact h
  | callbackReturns => exact h.callbackReturns

lemma allLookedUp_step_iff {op : Op R} (hs : Sound (fun _ => True) s) (h : AllLookedUp s)
    (hstep : step isMasterNode op s = .ok s') : AllLookedUp s' ↔ Fine isMasterNode op s := by
  constructor
  · intro hall
    cases op with
    | getRC =>
      cases hstep
      exact fine_of_getRC hs hall
    | _ => trivial
  · intro hfine
    have h0 : Sound (fun _ => False) s := hs.mono fun r hr _ => .inr (h r hr)
    exact fun r hr => (h0.step hstep (.inr hfine)).looked r hr id

end

/-- a callback is called at most once, and until then waits, or a running `FinalizeRequest` will call it -/
structure AnsweredOnce (s : Requests R) : Prop where
  once : s.calls.Nodup
  held : ∀ c < s.next, c ∉ s.calls → c ∈ Queues.items s.pendingCallbacks ∨ c ∈ s.stack.flatMap RequestFrame.todo

lemma Placed.answeredOnce {s : Requests R} (h : Placed s) : AnsweredOnce s where
  once := by
    have hle : (↑s.calls : Multiset ℕ) ≤ s.tokens := by
      unfold tokens
      rw [add_assoc]
      exact Multiset.le_add_right _ _
    exact Multiset.coe_nodup.mp (Multiset.nodup_of_le hle (h ▸ Multiset.nodup_range s.next))
  held := by
    intro c hc hno
    have hmem : c ∈ s.tokens := by
      rw [h]
      exact Multiset.mem_range.mpr hc
    rcases Multiset.mem_add.mp hmem with hmem | hmem
    · rcases Multiset.mem_add.mp hmem with hmem | hmem
      · exact absurd (Multiset.mem_coe.mp hmem) hno
      · exact .inl hmem
    · exact .inr (Multiset.mem_coe.mp hmem)

/-- In every run, with requests from inside callbacks too, a callback is called at most once and kept until then; every
router with an entry is looked up throughout exactly if every request is `Fine`. -/
theorem requests_answered (isMasterNode : Bool) (ops : List (Op R)) :
    Run.Always (step isMasterNode) AnsweredOnce ops start ∧ (Run.Always (step isMasterNode) AllLookedUp ops start ↔
        Run.Obeys (step isMasterNode) (Fine isMasterNode) ops start) := by
  constructor
  · exact Run.always_of_inv (fun _ _ _ hs => hs.step) (fun _ hs => hs.answeredOnce) ops placed_start
  · refine Run.always_iff_obeys ?_ (fun _ _ e _ => e.elim) ?_ ops start (sound_start (E := fun _ => True)) ?_
    · exact fun _ _ _ hs h => hs.step h (.inl fun _ => trivial)
    · exact fun _ _ _ hs hP h => allLookedUp_step_iff hs hP h
    · exact fun r hr => absurd hr (notMem_empty r)

/-- The callback of a master node's request asks again, and its transaction is erased behind the loop: nothing will
finalize the router. -/
theorem request_without_lookup : ∃ s : Requests ℕ,
    Run.exec (step true) [.getRC 0 1 true true false [] (some (.zero 32)), .dhtResult 1,
      .getRC 0 1 true true false [] (some (.zero 32)), .callbackReturns] start = .ok s ∧
    s.calls = [0] ∧ s.stack = [] ∧ s.pendingCallbacks.lookup 1 = some [1] ∧ ¬ LookedUp s 1 := by
  refine ⟨_, rfl, rfl, rfl, rfl, ?_⟩
  rintro (⟨ep, hep, -⟩ | ⟨o, hwait, -⟩)
  · exact nomatch hep
  · exact nomatch hwait

/-- Every callback so far was called, waits, or is in the hands of a running `FinalizeRequest`. -/
theorem requests_placed (isMasterNode : Bool) (ops : List (Op R)) : Run.Always (step isMasterNode) Placed ops start :=
  Run.always_of_inv (fun _ _ _ hs => hs.step) (fun _ h => h) ops placed_start

/-- A transaction waits for one router only, with a timeout, and the number of the next one is free. -/
theorem owners_kept (isMasterNode : Bool) (ops : List (Op R)) : Run.Always (step isMasterNode) Owners ops start :=
  Run.always_of_inv (fun _ _ _ hs h => hs.step h (.inl fun _ => trivial)) (fun _ hs => hs.owners) ops
    (sound_start (E := fun _ => True))

end Requests

end Belnet.Router
