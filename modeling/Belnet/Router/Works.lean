import Belnet.Router.Lookups

/-!
# What the operations on router lookups can do

One relation between the states before and after, with parameters, and one lemma for each function of
`Belnet.Router.Lookups`.
-/

namespace Belnet.Router
open Iwp hiding RouterContact
open Belnet.Path hiding RouterContact
open Dht List AList NodeDB RouterContact TXHolder

structure Effects where
  inserts : Insertion → Prop
  hands : RouterContact → Prop
  reports : Report → Prop
  answers : Reply → Prop
  touches : RouterID → Prop

/-- verified contacts are inserted and handed on, failures reported, nothing is answered, and our own contacts come
from disk or configuration -/
structure Effects.Fair (cfg : Config) (P : Effects) : Prop where
  verified : ∀ rc : RouterContact, rc.verify cfg.toRouterEnv = true → P.inserts ⟨rc, .network⟩ ∧ P.hands rc
  failed : ∀ r : Report, r.result ≠ .success → P.reports r
  empty : ∀ a : Reply, a.foundRCs = [] → P.answers a
  disk : ∀ rc : RouterContact, rc.verifySignature cfg.toRouterEnv = true → P.inserts ⟨rc, .disk⟩
  bootstrap : ∀ rc, P.inserts ⟨rc, .bootstrap⟩
  own : ∀ rc, P.inserts ⟨rc, .own⟩

def LookupHandler.For (target : RouterID) (h : Option LookupHandler) : Prop :=
  ∀ remote, h = some (.dhtLookupResult remote) → remote = target

def Call.Right (cfg : Config) : Call → Prop
  | .gotRouter _ msg rc valid => valid = rc.verify cfg.toRouterEnv ∧ rc ∈ msg.foundRCs
  | .putRC rc => rc.verify cfg.toRouterEnv = true
  | .delNode _ => True

def Job.Right : Job → Prop
  | .verifyGotRouter _ msg rc => rc ∈ msg.foundRCs
  | .checkRC _ => True

structure State.WF (cfg : Config) (s : State) : Prop where
  keyed : s.routerLookups.Keyed RouterLookup.target s.ids
  remotes : ∀ o tx, s.routerLookups.tx.lookup o = some tx → LookupHandler.For tx.target tx.resultHandler
  jobRemotes : ∀ k job, s.pendingRouters.lookup k = some job → LookupHandler.For k.2 job.handler
  jobs : ∀ j ∈ s.jobs, j.Right
  calls : ∀ c ∈ s.calls, c.Right cfg

structure Evolves (cfg : Config) (P : Effects) (s s' : State) : Prop where
  inserted : ∀ i ∈ s'.inserted, i ∈ s.inserted ∨ P.inserts i
  kept : ∀ i ∈ s.inserted, i ∈ s'.inserted
  stored : ∀ pk rc, s'.nodedb.get pk = some rc → s.nodedb.get pk = some rc ∨ ∃ i ∈ s'.inserted, i.rc = rc
  handed : ∀ rc ∈ s'.handed, rc ∈ s.handed ∨ P.hands rc
  reported : ∀ r ∈ s'.reported, r ∈ s.reported ∨ P.reports r
  replies : ∀ a ∈ s'.replies, a ∈ s.replies ∨ P.answers a
  txs : ∀ o tx, s.routerLookups.tx.lookup o = some tx → ¬ P.touches tx.target → s'.routerLookups.tx.lookup o = some tx
  callbacks : ∀ r, ¬ P.touches r → s'.pendingCallbacks.lookup r = s.pendingCallbacks.lookup r
  pending : ∀ k : ℕ × RouterID, ¬ P.touches k.2 → s'.pendingRouters.lookup k = s.pendingRouters.lookup k
  wf : s.WF cfg → s'.WF cfg

structure Works (cfg : Config) (P : Effects) (s s' : State) : Prop extends Evolves cfg P s s' where
  whitelist : s'.whitelistRouters = s.whitelistRouters
  greylist : s'.greylistRouters = s.greylistRouters
  paths : s'.paths = s.paths

variable {cfg : Config} {P : Effects} {now : Millis} {s s' s'' : State} {rc : RouterContact} {α : Type}

namespace Works

lemma refl (cfg : Config) (P : Effects) (s : State) : Works cfg P s s where
  whitelist := rfl
  greylist := rfl
  paths := rfl
  inserted := fun _ h => .inl h
  kept := fun _ h => h
  stored := fun _ _ h => .inl h
  handed := fun _ h => .inl h
  reported := fun _ h => .inl h
  replies := fun _ h => .inl h
  txs := fun _ _ h _ => h
  callbacks := fun _ _ => rfl
  pending := fun _ _ => rfl
  wf := fun h => h

lemma trans (h : Works cfg P s s') (h' : Works cfg P s' s'') : Works cfg P s s'' where
  whitelist := h'.whitelist.trans h.whitelist
  greylist := h'.greylist.trans h.greylist
  paths := h'.paths.trans h.paths
  inserted := fun i hi => (h'.inserted i hi).elim (h.inserted i) .inr
  kept := fun i hi => h'.kept i (h.kept i hi)
  stored := by
    intro pk rc hrc
    rcases h'.stored pk rc hrc with hrc | hnew
    · rcases h.stored pk rc hrc with hold | ⟨i, hi, heq⟩
      · exact .inl hold
      · exact .inr ⟨i, h'.kept i hi, heq⟩
    · exact .inr hnew
  handed := fun rc hrc => (h'.handed rc hrc).elim (h.handed rc) .inr
  reported := fun r hr => (h'.reported r hr).elim (h.reported r) .inr
  replies := fun a ha => (h'.replies a ha).elim (h.replies a) .inr
  txs := fun o tx ho ht => h'.txs o tx (h.txs o tx ho ht) ht
  callbacks := fun r hr => (h'.callbacks r hr).trans (h.callbacks r hr)
  pending := fun k hk => (h'.pending k hk).trans (h.pending k hk)
  wf := fun hs => h'.wf (h.wf hs)

lemma foldl {f : State → α → State} {l : List α} (h : ∀ a ∈ l, ∀ s, Works cfg P s (f s a)) (s : State) :
    Works cfg P s (l.foldl f s) := Run.foldl_rel (R := Works cfg P) (refl cfg P) trans h s

lemma allowed (h : Works cfg P s s') (r : RouterID) : sessionIsAllowed cfg s' r = sessionIsAllowed cfg s r := by
  unfold sessionIsAllowed
  rw [h.whitelist, h.greylist]

lemma checks (h : Works cfg P s s') (rc : RouterContact) : checks cfg s' rc = checks cfg s rc := by
  unfold Router.checks
  rw [h.allowed]

end Works

lemma State.WF.same (h : s.WF cfg) (hids : s'.ids = s.ids) (htx : s'.routerLookups = s.routerLookups)
    (hpend : s'.pendingRouters = s.pendingRouters) (hjobs : s'.jobs = s.jobs) (hcalls : s'.calls = s.calls) :
    s'.WF cfg where
  keyed := by
    rw [hids, htx]
    exact h.keyed
  remotes := by
    rw [htx]
    exact h.remotes
  jobRemotes := by
    rw [hpend]
    exact h.jobRemotes
  jobs := by
    rw [hjobs]
    exact h.jobs
  calls := by
    rw [hcalls]
    exact h.calls

lemma NodeDB.get_put (db : NodeDB) (pk : RouterID) :
    (db.put now rc).get pk = if pk = rc.pubkey then some rc else db.get pk := by
  unfold get put
  by_cases hk : pk = rc.pubkey
  · rw [if_pos hk, hk, lookup_insert]
    rfl
  · rw [if_neg hk, lookup_insert_ne hk]

lemma NodeDB.get_remove (db : NodeDB) (r pk : RouterID) :
    (db.remove r).get pk = if pk = r then none else db.get pk := by
  unfold get remove
  by_cases hk : pk = r
  · rw [if_pos hk, hk, lookup_erase]
    rfl
  · rw [if_neg hk, lookup_erase_ne hk]

lemma NodeDB.get_pubkey {db : NodeDB} {pk : RouterID} (h : db.get pk = some rc) : rc.pubkey = pk := by
  obtain ⟨e, he, rfl⟩ := Option.map_eq_some_iff.mp h
  exact db.keyed pk e he

lemma put_works {source : Source} (h : P.inserts ⟨rc, source⟩) : Works cfg P s (s.put now source rc) where
  __ := Works.refl cfg P s
  inserted := by
    intro i hi
    rcases mem_concat.mp hi with hi | rfl
    · exact .inl hi
    · exact .inr h
  kept := fun i hi => mem_append_left _ hi
  stored := by
    intro pk rc' hrc
    have hget : (s.nodedb.put now rc).get pk = some rc' := hrc
    rw [get_put] at hget
    split at hget
    · cases hget
      exact .inr ⟨⟨rc, source⟩, mem_append_right _ mem_cons_self, rfl⟩
    · exact .inl hget
  wf := fun hs => hs.same rfl rfl rfl rfl rfl

lemma putIfNewer_eq (s : State) (rc : RouterContact) :
    s.putIfNewer now rc = if s.nodedb.accepts rc then s.put now .network rc else s := by
  unfold State.putIfNewer putIfNewer
  split <;> rfl

lemma putIfNewer_works (h : s.nodedb.accepts rc = true → P.inserts ⟨rc, .network⟩) :
    Works cfg P s (s.putIfNewer now rc) := by
  rw [putIfNewer_eq]
  split
  · rename_i hacc
    exact put_works (h hacc)
  · exact .refl cfg P s

lemma remove_works (s : State) (pk : RouterID) : Works cfg P s (s.remove pk) where
  __ := Works.refl cfg P s
  stored := by
    intro pk' rc' hrc
    have hget : (s.nodedb.remove pk).get pk' = some rc' := hrc
    rw [get_remove] at hget
    split at hget
    · cases hget
    · exact .inl hget
  wf := fun hs => hs.same rfl rfl rfl rfl rfl

lemma nodes_works (s : State) (nodes : AList fun _ : Key => RouterContact) :
    Works cfg P s { s with nodes := nodes } where
  __ := Works.refl cfg P s
  wf := fun hs => hs.same rfl rfl rfl rfl rfl

lemma putNode_works (s : State) (rc : RouterContact) : Works cfg P s (s.putNode rc) := by
  unfold State.putNode
  split
  · exact nodes_works s _
  split
  · exact nodes_works s _
  · exact .refl cfg P s

lemma runCall_works (h : ∀ rc, P.inserts ⟨rc, .network⟩ ∨ Call.putRC rc ≠ c) : Works cfg P s (s.runCall now c) := by
  cases c with
  | putRC rc =>
    have hins := (h rc).resolve_right (fun hne => hne rfl)
    exact (putIfNewer_works fun _ => hins).trans (putNode_works _ rc)
  | delNode => exact nodes_works s _
  | gotRouter => exact .refl cfg P s

lemma checkRC_works (hP : P.Fair cfg) (now : Millis) (s : State) (rc : RouterContact) :
    Works cfg P s (checkRC cfg now s rc) := by
  apply Works.foldl
  intro c hc _
  apply runCall_works
  intro rc'
  by_cases heq : Call.putRC rc' = c
  · left
    subst heq
    unfold checkCalls at hc
    split at hc
    · simp at hc
    split at hc
    · rename_i hver
      have hrc : rc' = rc := by simpa using hc
      rw [hrc]
      exact (hP.verified rc (Bool.and_eq_true_iff.mp hver).1).1
    · simp at hc
  · exact .inr heq

structure Takes (P : Effects) (rc : Option RouterContact) (result : RCRequestResult) : Prop where
  inserts : result = .success → ∀ x ∈ rc, P.inserts ⟨x, .network⟩
  hands : result = .success → ∀ x ∈ rc, P.hands x

variable {rcs : List RouterContact}

lemma hand_works (s : State) (h : ∀ x ∈ rcs, P.hands x) :
    Works cfg P s { s with handed := s.handed ++ rcs } where
  __ := Works.refl cfg P s
  handed := by
    intro x hx
    rcases mem_append.mp hx with hx | hx
    · exact .inl hx
    · exact .inr (h x hx)
  wf := fun hs => hs.same rfl rfl rfl rfl rfl

variable {router : RouterID} {result : RCRequestResult}

lemma runCallback_works {rc : Option RouterContact}
    (h : Takes P rc result) (s : State) (c : RCRequestCallback) :
    Works cfg P s (runCallback now router rc result s c) := by
  cases c with
  | session => exact .refl cfg P s
  | pathBuildTimeout =>
    unfold runCallback
    dsimp only
    split
    · exact putIfNewer_works fun _ => h.inserts rfl _ rfl
    · exact remove_works s router
  | routerLookup =>
    unfold runCallback
    dsimp only
    split
    · rename_i x
      apply hand_works
      intro y hy
      rw [mem_singleton.mp hy]
      exact h.hands rfl x rfl
    · exact .refl cfg P s

lemma report_works {r : Report} (htouch : P.touches r.router) (hrep : P.reports r) (s : State) :
    Works cfg P s { s with pendingCallbacks := s.pendingCallbacks.erase r.router, reported := s.reported ++ [r] } where
  __ := Works.refl cfg P s
  reported := by
    intro r' hr
    rcases mem_concat.mp hr with hr | rfl
    · exact .inl hr
    · exact .inr hrep
  callbacks := by
    intro r' hr
    apply lookup_erase_ne
    intro heq
    rw [heq] at hr
    exact hr htouch
  wf := fun hs => hs.same rfl rfl rfl rfl rfl

lemma finalize_works {rc : Option RouterContact}
    (htouch : P.touches router) (hrep : P.reports ⟨router, rc, result⟩) (h : Takes P rc result) (s : State) :
    Works cfg P s (finalizeRequest now s router rc result) :=
  (report_works (r := ⟨router, rc, result⟩) htouch hrep s).trans (Works.foldl (fun c _ s => runCallback_works h s c) _)

lemma NodeDB.accepts_own {db : NodeDB} (h : db.get rc.pubkey = some rc) : db.accepts rc = false := by
  unfold accepts
  rw [h]
  simp [otherIsNewer]

lemma runCallback_known {c : RCRequestCallback} (hget : s.nodedb.get router = some rc)
    (h : c = .routerLookup → P.hands rc) :
    Works cfg P s (runCallback now router (some rc) .success s c) ∧
      (runCallback now router (some rc) .success s c).nodedb = s.nodedb := by
  have hacc : s.nodedb.accepts rc = false := accepts_own (by rw [get_pubkey hget]; exact hget)
  cases c with
  | session => exact ⟨.refl cfg P s, rfl⟩
  | pathBuildTimeout =>
    show Works cfg P s (s.putIfNewer now rc) ∧ (s.putIfNewer now rc).nodedb = s.nodedb
    rw [putIfNewer_eq, hacc]
    exact ⟨.refl cfg P s, rfl⟩
  | routerLookup =>
    refine ⟨hand_works s ?_, rfl⟩
    intro x hx
    rw [mem_singleton.mp hx]
    exact h rfl

lemma callbacks_known {cs : List RCRequestCallback} (h : .routerLookup ∈ cs → P.hands rc)
    (s : State) (hget : s.nodedb.get router = some rc) :
    Works cfg P s (cs.foldl (runCallback now router (some rc) .success) s) := by
  induction cs generalizing s with
  | nil => exact .refl cfg P s
  | cons c cs ih =>
    obtain ⟨hw, hdb⟩ := runCallback_known (P := P) (c := c) hget (fun hc => h (by rw [hc]; exact mem_cons_self))
    exact hw.trans (ih (fun hc => h (mem_cons_of_mem _ hc)) _ (by rw [hdb]; exact hget))

variable {results : List RouterContact}

lemma lookupResult_works (hP : P.Fair cfg) {remote : RouterID}
    (htouch : P.touches remote)
    (hrep : ∀ x ∈ results.head?, checks cfg s x = true → P.reports ⟨remote, some x, .success⟩) :
    Works cfg P s (handleDHTLookupResult cfg now s remote results) := by
  have hfail : ∀ rc result, result ≠ .success → ∀ s, Works cfg P s (finalizeRequest now s remote rc result) :=
    fun rc result hne => finalize_works htouch (hP.failed _ hne)
      ⟨fun heq => absurd heq hne, fun heq => absurd heq hne⟩
  cases results with
  | nil => exact hfail none .routerNotFound (by decide) s
  | cons rc =>
    unfold handleDHTLookupResult
    dsimp only
    split
    · exact hfail (some rc) .invalidRouter (by decide) s
    refine (checkRC_works hP now s rc).trans ?_
    split
    · rename_i hc
      have hver := hP.verified rc (Bool.and_eq_true_iff.mp hc).2
      apply finalize_works htouch (hrep rc rfl hc)
      constructor
      · rintro - x ⟨⟩
        exact hver.1
      · rintro - x ⟨⟩
        exact hver.2
    · exact hfail (some rc) .badRC (by decide) _

variable {h : LookupHandler}

lemma runHandler_works (hP : P.Fair cfg) (hhand : ∀ x ∈ results, P.hands x)
    (hfor : ∀ remote, h = .dhtLookupResult remote → P.touches remote ∧
      ∀ x ∈ results.head?, checks cfg s x = true → P.reports ⟨remote, some x, .success⟩) :
    Works cfg P s (runHandler cfg now s results h) := by
  have hw : Works cfg P s { s with handed := s.handed ++ results } := hand_works s hhand
  cases h with
  | dhtLookupResult remote =>
    obtain ⟨htouch, hrep⟩ := hfor remote rfl
    refine hw.trans (lookupResult_works hP htouch ?_)
    intro x hx hc
    exact hrep x hx hc
  | dhtLookupForExplore => exact hw.trans (Works.foldl (fun rc _ s => checkRC_works hP now s rc) _)

def Selected (cfg : Config) (s : State) (values : List RouterContact) (x : RouterContact) : Prop :=
  values ≠ [] ∧ ((x ∈ values ∧ checks cfg s x = true) ∨
    (x = new cfg.toRouterEnv ∧ ∀ v ∈ values, 0 < v.lastUpdated → checks cfg s v = false))

lemma selectChecked_spec (hP : P.Fair cfg) (now : Millis) (values : List RouterContact) {r : State × RouterContact}
    (hw : Works cfg P s r.1) :
    Works cfg P s (values.foldl (selectChecked cfg now) r).1 ∧ ((values.foldl (selectChecked cfg now) r).2 = r.2 ∧
          (∀ v ∈ values, r.2.otherIsNewer v = true → checks cfg s v = false) ∨
        (values.foldl (selectChecked cfg now) r).2 ∈ values ∧
          checks cfg s (values.foldl (selectChecked cfg now) r).2 = true) := by
  induction values generalizing r with
  | nil => exact ⟨hw, .inl ⟨rfl, fun v hv => absurd hv not_mem_nil⟩⟩
  | cons v values ih =>
    have hcheck := hw.trans (checkRC_works hP now r.1 v)
    rw [foldl_cons]
    by_cases hnew : r.2.otherIsNewer v = true
    · by_cases hc : checks cfg r.1 v = true
      · have heq : selectChecked cfg now r v = (checkRC cfg now r.1 v, v) := by
          unfold selectChecked
          rw [if_pos hnew, if_pos hc]
        rw [heq]
        obtain ⟨hw', hsel⟩ := ih (r := (checkRC cfg now r.1 v, v)) hcheck
        refine ⟨hw', .inr ?_⟩
        rcases hsel with ⟨hsel, -⟩ | ⟨hmem, hsel⟩
        · rw [hsel]
          rw [hw.checks] at hc
          exact ⟨mem_cons_self, hc⟩
        · exact ⟨mem_cons_of_mem _ hmem, hsel⟩
      · have heq : selectChecked cfg now r v = (checkRC cfg now r.1 v, r.2) := by
          unfold selectChecked
          rw [if_pos hnew, if_neg hc]
        rw [heq]
        obtain ⟨hw', hsel⟩ := ih (r := (checkRC cfg now r.1 v, r.2)) hcheck
        refine ⟨hw', hsel.imp ?_ ?_⟩
        · rintro ⟨hsel, hall⟩
          refine ⟨hsel, ?_⟩
          intro w hmem hnw
          rcases mem_cons.mp hmem with rfl | hmem
          · rw [hw.checks] at hc
            exact Bool.eq_false_iff.mpr hc
          · exact hall w hmem hnw
        · exact fun ⟨hmem, hsel⟩ => ⟨mem_cons_of_mem _ hmem, hsel⟩
    · have heq : selectChecked cfg now r v = r := by
        unfold selectChecked
        rw [if_neg hnew]
      rw [heq]
      obtain ⟨hw', hsel⟩ := ih hw
      refine ⟨hw', hsel.imp ?_ ?_⟩
      · rintro ⟨hsel, hall⟩
        refine ⟨hsel, ?_⟩
        intro w hmem hnw
        rcases mem_cons.mp hmem with rfl | hmem
        · exact absurd hnw hnew
        · exact hall w hmem hnw
      · exact fun ⟨hmem, hsel⟩ => ⟨mem_cons_of_mem _ hmem, hsel⟩

lemma selectFound_spec (hP : P.Fair cfg) (now : Millis) (s : State) (values : List RouterContact) :
    Works cfg P s (selectFound cfg now s values).1 ∧
      ∀ x ∈ (selectFound cfg now s values).2, Selected cfg s values x := by
  unfold selectFound
  by_cases hv : values.isEmpty = true
  · rw [if_pos hv]
    exact ⟨.refl cfg P s, fun x hx => absurd hx not_mem_nil⟩
  rw [if_neg hv]
  obtain ⟨hw, hsel⟩ := selectChecked_spec hP now values (r := (s, new cfg.toRouterEnv)) (.refl cfg P s)
  refine ⟨hw, ?_⟩
  intro x hx
  rw [mem_singleton.mp hx]
  refine ⟨fun hnil => hv (by rw [hnil]; rfl), ?_⟩
  rcases hsel with ⟨heq, hall⟩ | hsel
  · refine .inr ⟨heq, ?_⟩
    intro v hmem hpos
    exact hall v hmem (decide_eq_true hpos)
  · exact .inl hsel

variable {values : List RouterContact} {x : RouterContact}

lemma Selected.same (hw : Works cfg P s s')
    (h : Selected cfg s' values x) : Selected cfg s values x := by
  unfold Selected at h
  simp only [hw.checks] at h
  exact h

lemma mem_selectLocal (h : x ∈ selectLocal cfg values) :
    x ∈ values := by
  have hloop : ∀ (l : List RouterContact) (found : RouterContact),
      l.foldl (fun found rc => if rc.otherIsNewer found then rc else found) found = found ∨
        l.foldl (fun found rc => if rc.otherIsNewer found then rc else found) found ∈ l := by
    intro l
    induction l with
    | nil => exact fun found => .inl rfl
    | cons v l ih =>
      intro found
      rw [foldl_cons]
      rcases ih (if v.otherIsNewer found then v else found) with heq | hmem
      · rw [heq]
        split
        · exact .inr mem_cons_self
        · exact .inl rfl
      · exact .inr (mem_cons_of_mem _ hmem)
  unfold selectLocal at h
  dsimp only at h
  split at h
  · exact absurd h not_mem_nil
  rename_i hzero
  rw [mem_singleton.mp h]
  rcases hloop values (new cfg.toRouterEnv) with heq | hmem
  · rw [heq] at hzero
    exact absurd (decide_eq_true rfl) hzero
  · exact hmem

lemma reply_works {requester : Requester} {txid : ℕ} {target : RouterID}
    (h : P.answers ⟨requester, txid, target, rcs⟩) (s : State) :
    Works cfg P s (reply s requester txid target rcs) where
  __ := Works.refl cfg P s
  replies := by
    intro a ha
    rcases mem_concat.mp ha with ha | rfl
    · exact Or.inl ha
    · exact Or.inr h
  wf := fun hs => hs.same rfl rfl rfl rfl rfl

structure Effects.Completes (cfg : Config) (P : Effects) (s : State) (values : List RouterContact)
    (tx : RouterLookup) : Prop where
  touches : P.touches tx.target
  hands : tx.localPath = none → tx.resultHandler.isSome = true →
    ∀ x, Selected cfg s (validated cfg values) x → P.hands x
  reports : tx.localPath = none → tx.resultHandler.isSome = true →
    ∀ x, Selected cfg s (validated cfg values) x → checks cfg s x = true → P.reports ⟨tx.target, some x, .success⟩
  answers : tx.localPath = none → tx.whoasked.node ≠ cfg.ourKey → ∀ a : Reply, a.target = tx.target →
    (∀ x ∈ a.foundRCs, Selected cfg s (validated cfg values) x) → P.answers a
  relays : tx.localPath.isSome = true → ∀ a : Reply, a.target = tx.target →
    (∀ x ∈ a.foundRCs, x ∈ validated cfg values) → P.answers a

variable {values : List RouterContact} {tx : RouterLookup}

lemma Effects.Completes.same (h : P.Completes cfg s values tx) (hw : Works cfg P s s') :
    P.Completes cfg s' values tx where
  touches := h.touches
  hands := fun hp hh x hx => h.hands hp hh x (hx.same hw)
  reports := by
    intro hp hh x hx hc
    rw [hw.checks] at hc
    exact h.reports hp hh x (hx.same hw) hc
  answers := fun hp hn a ha hx => h.answers hp hn a ha (fun x hmem => (hx x hmem).same hw)
  relays := h.relays

lemma Effects.Fair.completes (hP : P.Fair cfg) (htouch : P.touches tx.target) : P.Completes cfg s [] tx := by
  have hno : ∀ x, ¬ Selected cfg s (validated cfg []) x := fun x hx => hx.1 rfl
  have hempty : ∀ rcs : List RouterContact, (∀ x ∈ rcs, False) → rcs = [] :=
    fun rcs h => eq_nil_iff_forall_not_mem.mpr h
  constructor
  · exact htouch
  · exact fun _ _ x hx => absurd hx (hno x)
  · exact fun _ _ x hx => absurd hx (hno x)
  · exact fun _ _ a _ hx => hP.empty a (hempty _ fun x hmem => hno x (hx x hmem))
  · exact fun _ a _ hx => hP.empty a (hempty _ fun x hmem => not_mem_nil (hx x hmem))

lemma sendReply_works (hP : P.Fair cfg) (hc : P.Completes cfg s values tx)
    (hfor : LookupHandler.For tx.target tx.resultHandler) : Works cfg P s (sendReply cfg now values s tx) := by
  unfold sendReply
  cases hpath : tx.localPath with
  | some =>
    dsimp only
    split
    · exact reply_works (hc.relays (by rw [hpath]; rfl) _ rfl fun x hx => mem_selectLocal hx) s
    · exact .refl cfg P s
  | none =>
    obtain ⟨hw, hsel⟩ := selectFound_spec hP now s (validated cfg values)
    have hreply {s' : State} (hhandler : Works cfg P s s') : Works cfg P s (if tx.whoasked.node ≠ cfg.ourKey then
        reply s' (.peer tx.whoasked.node) tx.whoasked.txid tx.target (selectFound cfg now s (validated cfg values)).2
        else s') := by
      split
      · rename_i hnode
        exact hhandler.trans (reply_works (hc.answers hpath hnode _ rfl hsel) _)
      · exact hhandler
    cases hh : tx.resultHandler with
    | none => exact hreply hw
    | some =>
      have hsome : tx.resultHandler.isSome = true := by
        rw [hh]
        rfl
      refine hreply (hw.trans (runHandler_works hP (fun x hx => hc.hands hpath hsome x (hsel x hx)) ?_))
      intro remote heq
      have hremote : remote = tx.target := hfor remote (by rw [hh, heq])
      rw [hremote]
      refine ⟨hc.touches, ?_⟩
      intro x hx hcx
      rw [hw.checks] at hcx
      exact hc.reports hpath hsome x (hsel x (mem_of_head? hx)) hcx

lemma take_works (hs : s.WF cfg) {key : RouterID}
    (htouch : ∀ o tx, s.routerLookups.tx.lookup o = some tx → tx.target = key → P.touches key) :
    Works cfg P s { s with routerLookups := (s.routerLookups.inform key).1 } where
  __ := Works.refl cfg P s
  txs := by
    intro o tx ho ht
    show (s.routerLookups.inform key).1.tx.lookup o = some tx
    rw [inform_lookup]
    split
    · rename_i hwait
      have heq := hs.keyed.keyed key o tx hwait ho
      rw [heq] at ht
      exact absurd (htouch o tx ho heq) ht
    · exact ho
  wf := by
    intro h
    constructor
    · exact h.keyed.inform key
    · intro o tx ho
      have ho' := ho
      rw [inform_lookup] at ho'
      split at ho'
      · cases ho'
      · exact h.remotes o tx ho'
    · exact h.jobRemotes
    · exact h.jobs
    · exact h.calls

lemma inform_works (hP : P.Fair cfg) (hs : s.WF cfg) {key : RouterID}
    (hc : ∀ o tx, s.routerLookups.tx.lookup o = some tx → tx.target = key → P.Completes cfg s values tx) :
    Works cfg P s (inform cfg now s key values) := by
  have htake := take_works hs (P := P) fun o tx ho heq => by
    have htouch := (hc o tx ho heq).touches
    rw [heq] at htouch
    exact htouch
  have hall : ∀ tx ∈ (s.routerLookups.inform key).2.map Prod.snd,
      P.Completes cfg s values tx ∧ LookupHandler.For tx.target tx.resultHandler := by
    intro tx htx
    obtain ⟨⟨o, tx'⟩, hmem, rfl⟩ := mem_map.mp htx
    obtain ⟨hwait, hlook⟩ := mem_inform hmem
    exact ⟨hc o tx' hlook (hs.keyed.keyed key o tx' hwait hlook), hs.remotes o tx' hlook⟩
  have hloop : ∀ (l : List RouterLookup) (s' : State), Works cfg P s s' →
      (∀ tx ∈ l, P.Completes cfg s values tx ∧ LookupHandler.For tx.target tx.resultHandler) →
      Works cfg P s (l.foldl (sendReply cfg now values) s') := by
    intro l
    induction l with
    | nil => exact fun s' hw _ => hw
    | cons tx l ih =>
      intro s' hw hl
      obtain ⟨htx, hfor⟩ := hl tx mem_cons_self
      exact ih _ (hw.trans (sendReply_works hP (htx.same hw) hfor)) fun tx' h => hl tx' (mem_cons_of_mem _ h)
  exact hloop _ _ htake hall

lemma Works.foldl_wf {f : State → α → State} (h : ∀ a s, s.WF cfg → Works cfg P s (f s a)) (l : List α)
    (hs : s.WF cfg) : Works cfg P s (l.foldl f s) := by
  induction l generalizing s with
  | nil => exact .refl cfg P s
  | cons a l ih =>
    have hw := h a s hs
    exact hw.trans (ih (hw.wf hs))

lemma informNone_works (hP : P.Fair cfg) (htouch : ∀ r, P.touches r) (key : RouterID) (s : State) (hs : s.WF cfg) :
    Works cfg P s (inform cfg now s key []) := inform_works hP hs fun _ tx _ _ => hP.completes (htouch tx.target)

lemma expire_works (hP : P.Fair cfg) (htouch : ∀ r, P.touches r) (hs : s.WF cfg) :
    Works cfg P s (expireRouterLookups cfg now s) :=
  Works.foldl_wf (fun k => informNone_works hP htouch k) _ hs

lemma startLookup_works (hfor : LookupHandler.For tx.target tx.resultHandler) (askpeer : Key) (s : State) :
    Works cfg P s (startLookup now s askpeer tx) where
  __ := Works.refl cfg P s
  txs := fun _ _ ho _ => newTX_keeps ho
  wf := by
    intro h
    constructor
    · exact h.keyed.newTX
    · intro o tx' ho
      rcases newTX_lookup ho with ho | rfl
      · exact h.remotes o tx' ho
      · exact hfor
    · exact h.jobRemotes
    · exact h.jobs
    · exact h.calls

lemma lookupRouter_works (target : RouterID) (hfor : LookupHandler.For target (some h))
    (s : State) : Works cfg P s (lookupRouter cfg now s target h).1 := by
  unfold lookupRouter
  split
  · exact .refl cfg P s
  · exact startLookup_works hfor _ s

lemma explore_works (s : State) {ids : ℕ} (hids : s.ids ≤ ids) (h : TXHolder RouterID RouterID) :
    Works cfg P s { s with ids := ids, exploreLookups := h } where
  __ := Works.refl cfg P s
  wf := fun hs => ⟨hs.keyed.mono hids, hs.remotes, hs.jobRemotes, hs.jobs, hs.calls⟩

lemma exploreFound_works (s : State) (pk : RouterID) : Works cfg P s (exploreFound cfg now s pk) := by
  unfold exploreFound
  split
  · exact .refl cfg P s
  apply lookupRouter_works
  intro _ heq
  cases heq

lemma informExplore_works (s : State) (key : RouterID) (near : List RouterID) :
    Works cfg P s (informExplore cfg now s key near) :=
  (explore_works s (le_refl s.ids) _).trans
    (Works.foldl (fun _ _ s => Works.foldl (fun pk _ s => exploreFound_works s pk) s) _)

variable {k : ℕ × RouterID}

/-- Only the job `k` changes. -/
lemma job_works (htouch : P.touches k.2) {m : AList fun _ : ℕ × RouterID => RouterLookupJob}
    (hne : ∀ k', k' ≠ k → m.lookup k' = s.pendingRouters.lookup k')
    (hfor : ∀ job, m.lookup k = some job → LookupHandler.For k.2 job.handler) :
    Works cfg P s { s with pendingRouters := m } where
  __ := Works.refl cfg P s
  pending := by
    intro k' hk
    apply hne
    intro heq
    rw [heq] at hk
    exact hk htouch
  wf := by
    intro h
    refine ⟨h.keyed, h.remotes, ?_, h.jobs, h.calls⟩
    intro k' job' ho
    by_cases heq : k' = k
    · subst heq
      exact hfor job' ho
    · exact h.jobRemotes k' job' ((hne k' heq).symm.trans ho)

lemma pending_works {job : RouterLookupJob} (htouch : P.touches k.2)
    (hfor : LookupHandler.For k.2 job.handler) (s : State) :
    Works cfg P s { s with pendingRouters := s.pendingRouters.insert k job } := by
  refine job_works htouch (fun k' hne => lookup_insert_ne hne) fun job' ho => ?_
  rw [lookup_insert] at ho
  cases ho
  exact hfor

lemma anon_works {ep : ℕ} {h : Option LookupHandler} (htouch : P.touches router)
    (hfor : LookupHandler.For router h) (s : State) (path : Option AnonPath) :
    Works cfg P s (lookupRouterAnon now s ep router h path).1 := by
  cases path with
  | none => exact .refl cfg P s
  | some =>
    unfold lookupRouterAnon
    dsimp only
    split
    · exact .refl cfg P s
    · exact pending_works (k := (ep, router)) htouch hfor s

lemma anonymously_works (htouch : P.touches router)
    (hfor : LookupHandler.For router (some h)) (s : State) (eps : List (ℕ × Option AnonPath)) :
    Works cfg P s (lookupAnonymously now s router h eps).1 := by
  induction eps with
  | nil => exact .refl cfg P s
  | cons e eps ih =>
    unfold lookupAnonymously
    dsimp only
    split
    · exact anon_works htouch hfor s e.2
    · exact ih

structure Effects.Finishes (cfg : Config) (P : Effects) (s : State) (results : List RouterContact) (router : RouterID)
    (job : RouterLookupJob) : Prop where
  touches : P.touches router
  hands : job.handler.isSome = true → ∀ x ∈ results, P.hands x
  reports : job.handler.isSome = true → ∀ x ∈ results.head?, checks cfg s x = true → P.reports ⟨router, some x, .success⟩

variable {router : RouterID} {job : RouterLookupJob} {results : List RouterContact}

lemma Effects.Finishes.same (h : P.Finishes cfg s results router job) (hw : Works cfg P s s') :
    P.Finishes cfg s' results router job where
  touches := h.touches
  hands := h.hands
  reports := by
    intro hh x hx hc
    rw [hw.checks] at hc
    exact h.reports hh x hx hc

lemma Effects.finishes (htouch : P.touches router) : P.Finishes cfg s [] router job where
  touches := htouch
  hands := fun _ x hx => absurd hx not_mem_nil
  reports := fun _ x hx => by cases hx

lemma informResult_works (hP : P.Fair cfg) (h : P.Finishes cfg s results router job)
    (hfor : LookupHandler.For router job.handler) : Works cfg P s (informResult cfg now s router job results) := by
  have hremove : Works cfg P s (if results.isEmpty then s.remove router else s) := by
    split
    · exact remove_works s router
    · exact .refl cfg P s
  unfold informResult
  cases hh : job.handler with
  | none => exact hremove
  | some =>
    have hsome : job.handler.isSome = true := by
      rw [hh]
      rfl
    refine hremove.trans (runHandler_works hP (h.hands hsome) ?_)
    intro remote heq
    have hremote : remote = router := hfor remote (by rw [hh, heq])
    rw [hremote]
    exact ⟨h.touches, (h.same hremove).reports hsome⟩

lemma dropJob_works (htouch : P.touches k.2) (s : State) :
    Works cfg P s { s with pendingRouters := s.pendingRouters.erase k } := by
  refine job_works htouch (fun k' hne => lookup_erase_ne hne) fun job ho => ?_
  rw [lookup_erase] at ho
  cases ho

section
variable (hP : P.Fair cfg)
include hP

lemma finishJob_works (hs : s.WF cfg)
    (h : ∀ job, s.pendingRouters.lookup k = some job → P.Finishes cfg s results k.2 job) :
    Works cfg P s (finishJob cfg now results s k) := by
  unfold finishJob
  cases hk : s.pendingRouters.lookup k with
  | none => exact .refl cfg P s
  | some job =>
    have hdrop : Works cfg P s { s with pendingRouters := s.pendingRouters.erase k } :=
      dropJob_works (h job hk).touches s
    exact hdrop.trans (informResult_works hP ((h job hk).same hdrop) (hs.jobRemotes k job hk))

lemma finishJobs_works (ks : List (ℕ × RouterID)) (htouch : ∀ k ∈ ks, P.touches k.2)
    (hs : s.WF cfg) : Works cfg P s (ks.foldl (finishJob cfg now []) s) := by
  induction ks generalizing s with
  | nil => exact .refl cfg P s
  | cons k ks ih =>
    have hw : Works cfg P s (finishJob cfg now [] s k) :=
      finishJob_works hP hs fun _ _ => Effects.finishes (htouch k mem_cons_self)
    exact hw.trans (ih (fun k' hk' => htouch k' (mem_cons_of_mem _ hk')) (hw.wf hs))

lemma storeAll_works (rcs : List RouterContact) (s : State) : Works cfg P s (storeAll cfg now s rcs) := by
  induction rcs generalizing s with
  | nil => exact .refl cfg P s
  | cons rc rcs ih =>
    unfold storeAll
    split
    · exact (checkRC_works hP now s rc).trans (ih _)
    · exact checkRC_works hP now s rc

lemma loadRC_works (s : State) (rc : RouterContact) : Works cfg P s (loadRC cfg now s rc) := by
  unfold loadRC
  split
  · rename_i h
    simp only [Bool.and_eq_true] at h
    exact put_works (hP.disk rc h.1.2)
  · exact .refl cfg P s

lemma saveRC_works (s : State) (rc : RouterContact) : Works cfg P s (saveRC cfg now s rc) := by
  have hown : Works cfg P s { s with ourRC := rc } :=
    { Works.refl cfg P s with wf := fun hs => hs.same rfl rfl rfl rfl rfl }
  unfold saveRC
  split
  · exact hown.trans (put_works (hP.own rc))
  · exact hown

end

lemma closest_cases (db : NodeDB) (env : RouterEnv) (location : Key) : db.findClosestTo env location = new env ∨
      db.get (db.findClosestTo env location).pubkey = some (db.findClosestTo env location) := by
  have hloop : ∀ (l : List RouterContact) (found : RouterContact),
      l.foldl (closer location) found = found ∨ l.foldl (closer location) found ∈ l := by
    intro l
    induction l with
    | nil => exact fun found => .inl rfl
    | cons v l ih =>
      intro found
      rw [foldl_cons]
      rcases ih (closer location found v) with heq | hmem
      · rw [heq]
        unfold closer
        split
        · exact .inr mem_cons_self
        split
        · exact .inr mem_cons_self
        · exact .inl rfl
      · exact .inr (mem_cons_of_mem _ hmem)
  refine (hloop db.all (new env)).imp id ?_
  intro hmem
  obtain ⟨e, he, heq⟩ := mem_map.mp hmem
  have hlook : db.entries.lookup e.1 = some e.2 := mem_lookup_iff.mpr he
  have hkey : e.2.rc.pubkey = e.1 := db.keyed e.1 e.2 hlook
  have hget : db.get e.1 = some e.2.rc := by
    unfold NodeDB.get
    rw [hlook]
    rfl
  have hfound : db.findClosestTo env location = e.2.rc := heq.symm
  rw [hfound, hkey]
  exact hget

end Belnet.Router
