import Belnet.Router.Works

/-!
# Steps of a router and what they need
-/

namespace Belnet.Router
open Iwp hiding RouterContact
open Belnet.Path hiding RouterContact
open Dht List Works Except
variable {cfg : Config} {P : Effects} {now : Millis} {s s' : State}

def callbacksFor (s : State) (router : RouterID) (callback : Option RCRequestCallback) : List RCRequestCallback :=
  callback.toList ++ (s.pendingCallbacks.lookup router).getD []

structure Effects.Knows (cfg : Config) (P : Effects) (s : State) (requester : Requester) (txid : ℕ)
    (target : RouterID) : Prop where
  own : target = cfg.ourKey → P.answers ⟨requester, txid, target, [s.ourRC]⟩
  known : ∀ rc, s.nodedb.get target = some rc → P.answers ⟨requester, txid, target, [rc]⟩

def Permits (cfg : Config) (P : Effects) (op : Millis × Op) (s : State) : Prop :=
  match op.2 with
  | .getRC router callback forceLookup _ => P.touches router ∧
      (forceLookup = false → ∀ rc, s.nodedb.get router = some rc →
        P.reports ⟨router, some rc, .success⟩ ∧ (.routerLookup ∈ callbacksFor s router callback → P.hands rc))
  | .ensureRouterIsKnown _ router _ => P.touches router
  | .findRouter sender txid target _ _ => P.Knows cfg s (.peer sender) txid target
  | .relayedFindRouter path txid target => P.Knows cfg s (.path path) txid target ∧
      (target = .zero 32 → P.answers ⟨.path path, txid, target, [.new cfg.toRouterEnv]⟩)
  | .gotRouter sender txid foundRCs _ => ∀ tx, s.routerLookups.tx.lookup ⟨sender, txid⟩ = some tx →
      (foundRCs = [] → P.touches tx.target) ∧
      ∀ rc ∈ foundRCs.head?, isZero rc.pubkey = false →
        ∀ o tx', s.routerLookups.tx.lookup o = some tx' → tx'.target = rc.pubkey → P.Completes cfg s foundRCs tx'
  | .relayedGotRouter ep msg => msg.foundRCs = [] →
      ∀ router job, s.pendingRouters.lookup (ep, router) = some job → job.txid = msg.txid → P.touches router
  | .call i => ∀ ep msg rc valid, s.calls[i]? = some (.gotRouter ep msg rc valid) →
      (s.nodedb.accepts rc = true → P.inserts ⟨rc, .network⟩) ∧
      ∀ job, s.pendingRouters.lookup (ep, rc.pubkey) = some job →
        P.Finishes cfg s (if valid then msg.foundRCs else []) rc.pubkey job
  | .expire => ∀ r, P.touches r
  | .expirePendingRouters _ => ∀ r, P.touches r
  | _ => True

lemma runCallback_pending (router : RouterID) (rc : Option RouterContact) (result : RCRequestResult) (s : State)
    (c : RCRequestCallback) : (runCallback now router rc result s c).pendingCallbacks = s.pendingCallbacks := by
  cases c with
  | session => rfl
  | pathBuildTimeout | routerLookup =>
    unfold runCallback
    dsimp only
    split <;> rfl

variable {router : RouterID}

lemma awaitRC_works (htouch : P.touches router) (s : State)
    (callback : Option RCRequestCallback) : Works cfg P s (awaitRC s router callback) where
  __ := refl cfg P s
  callbacks := by
    intro r hr
    apply AList.lookup_insert_ne
    intro heq
    rw [heq] at hr
    exact hr htouch
  wf := fun hs => hs.same rfl rfl rfl rfl rfl

variable {callback : Option RCRequestCallback}

lemma answerRC_works {rc : RouterContact} (htouch : P.touches router) (hrep : P.reports ⟨router, some rc, .success⟩)
    (hhands : .routerLookup ∈ callbacksFor s router callback → P.hands rc) (hdb : s.nodedb.get router = some rc) :
    Works cfg P s (answerRC now s router callback rc) := by
  have hpending : .routerLookup ∈ (s.pendingCallbacks.lookup router).getD [] → P.hands rc :=
    fun h => hhands (mem_append_right _ h)
  unfold answerRC
  cases callback with
  | none => exact (report_works (r := ⟨router, some rc, .success⟩) htouch hrep s).trans (callbacks_known hpending _ hdb)
  | some c =>
    have hc : c = .routerLookup → P.hands rc := fun h => hhands (by rw [h]; exact mem_cons_self)
    have hknown : Works cfg P s (runCallback now router (some rc) .success s c) ∧
        (runCallback now router (some rc) .success s c).nodedb = s.nodedb := runCallback_known hdb hc
    refine hknown.1.trans
      ((report_works (r := ⟨router, some rc, .success⟩) htouch hrep _).trans (callbacks_known ?_ _ ?_))
    · show .routerLookup ∈
        ((runCallback now router (some rc) .success s c).pendingCallbacks.lookup router).getD [] → P.hands rc
      rw [runCallback_pending]
      exact hpending
    · show (runCallback now router (some rc) .success s c).nodedb.get router = some rc
      rw [hknown.2]
      exact hdb

lemma lookupRC_works (hP : P.Fair cfg) (htouch : P.touches router) (s : State)
    (eps : List (ℕ × Option AnonPath)) : Works cfg P s (lookupRC cfg now s router eps) := by
  have hfor : LookupHandler.For router (some (.dhtLookupResult router)) := by
    intro _ heq
    cases heq
    rfl
  have htakes : Takes P none .routerNotFound := ⟨fun h => (nomatch h), fun h => (nomatch h)⟩
  have hfail : Works cfg P s (finalizeRequest now s router none .routerNotFound) :=
    finalize_works htouch (hP.failed ⟨router, none, .routerNotFound⟩ (by simp)) htakes s
  have hdht : Works cfg P s (lookupRouter cfg now s router (.dhtLookupResult router)).1 :=
    lookupRouter_works router hfor s
  have hsent : Works cfg P s (if (lookupRouter cfg now s router (.dhtLookupResult router)).2 then
      (lookupRouter cfg now s router (.dhtLookupResult router)).1
      else finalizeRequest now s router none .routerNotFound) := by
    split
    · exact hdht
    · exact hfail
  unfold lookupRC
  by_cases hmaster : cfg.isMasterNode = true
  · simp only [hmaster, if_true, Bool.false_eq_true, if_false]
    exact hsent
  simp only [hmaster, Bool.false_eq_true, if_false]
  by_cases hanon : (lookupAnonymously now s router (.dhtLookupResult router) eps).2 = true
  · rw [if_pos hanon]
    exact anonymously_works htouch hfor s eps
  · rw [if_neg hanon]
    exact hsent

lemma getRC_works (hP : P.Fair cfg) {forceLookup : Bool} {eps : List (ℕ × Option AnonPath)}
    (h : Permits cfg P (now, .getRC router callback forceLookup eps) s) :
    Works cfg P s (getRC cfg now s router callback forceLookup eps) := by
  obtain ⟨htouch, hknown⟩ := h
  have hwait : Works cfg P s (awaitRC s router callback) := awaitRC_works htouch s callback
  have hlookup : Works cfg P s (if (s.pendingCallbacks.lookup router).isSome then awaitRC s router callback
      else lookupRC cfg now (awaitRC s router callback) router eps) := by
    split
    · exact hwait
    · exact hwait.trans (lookupRC_works hP htouch _ eps)
  unfold getRC
  cases forceLookup with
  | true => exact hlookup
  | false =>
    cases hget : s.nodedb.get router with
    | none =>
      simp only [Bool.false_eq_true, if_false]
      exact hlookup
    | some rc =>
      simp only [Bool.false_eq_true, if_false]
      obtain ⟨hrep, hhands⟩ := hknown rfl rc hget
      exact answerRC_works htouch hrep hhands hget

variable {txid : ℕ} {target : Key}

lemma relayed_works (hP : P.Fair cfg) {requester : Key} {recursive : Bool}
    (h : P.Knows cfg s (.peer requester) txid target) (hzero : isZero target = false) :
    Works cfg P s (lookupRouterRelayed cfg now s requester txid target recursive) := by
  have hnone : Works cfg P s (reply s (.peer requester) txid target []) := reply_works (hP.empty _ rfl) s
  have hstart : ∀ askpeer, Works cfg P s (startLookup now s askpeer ⟨target, ⟨requester, txid⟩, none, none⟩) :=
    fun askpeer => startLookup_works (fun _ heq => by cases heq) askpeer s
  unfold lookupRouterRelayed
  split
  · rename_i heq
    exact reply_works (h.own heq) s
  split
  · exact hnone
  dsimp only
  split
  · rename_i heq
    split
    · exact hstart _
    refine reply_works (h.known _ ?_) s
    rcases closest_cases s.nodedb cfg.toRouterEnv target with hnew | hget
    · rw [hnew] at heq
      rw [← heq] at hzero
      exact absurd (decide_eq_true rfl) (Bool.eq_false_iff.mp hzero)
    · rw [heq] at hget
      exact hget
  · split
    · split
      · exact hstart _
      · exact hnone
    · exact hnone

variable {sender : Key}

lemma findRouter_works (hP : P.Fair cfg) {exploritory iterative : Bool} (h : P.Knows cfg s (.peer sender) txid target) :
    Works cfg P s (findRouter cfg now s sender txid target exploritory iterative) := by
  unfold findRouter
  split
  · exact refl cfg P s
  split
  · exact refl cfg P s
  split
  · exact refl cfg P s
  rename_i hzero
  split
  · exact refl cfg P s
  · exact relayed_works hP h (Bool.eq_false_iff.mpr hzero)

lemma relayedFind_works (hP : P.Fair cfg) {path : PathID} {target : RouterID}
    (h : P.Knows cfg s (.path path) txid target)
    (hzero : target = .zero 32 → P.answers ⟨.path path, txid, target, [.new cfg.toRouterEnv]⟩) :
    Works cfg P s (relayedFindRouter cfg now s path txid target) := by
  have hanswer : ∀ rcs, P.answers ⟨.path path, txid, target, rcs⟩ →
      Works cfg P s (if path ∈ s.paths then reply s (.path path) txid target rcs else s) := by
    intro rcs hrcs
    split
    · exact reply_works hrcs s
    · exact refl cfg P s
  unfold relayedFindRouter
  dsimp only
  split
  · rename_i heq
    exact hanswer _ (h.own heq)
  split
  · exact hanswer _ (hP.empty _ rfl)
  split
  · rename_i heq
    apply hanswer
    rcases closest_cases s.nodedb cfg.toRouterEnv target with hnew | hget
    · rw [hnew] at heq ⊢
      exact hzero heq.symm
    · rw [heq] at hget
      exact h.known _ hget
  · exact startLookup_works (fun _ heq => by cases heq) _ s

lemma gotRouter_works (hP : P.Fair cfg) (hs : s.WF cfg) {foundRCs : List RouterContact}
    {nearKeys : List RouterID} (h : Permits cfg P (now, .gotRouter sender txid foundRCs nearKeys) s) :
    Works cfg P s (gotRouter cfg now s sender txid foundRCs nearKeys) := by
  unfold gotRouter
  split
  · exact informExplore_works s _ nearKeys
  cases htx : s.routerLookups.tx.lookup ⟨sender, txid⟩ with
  | none => exact storeAll_works hP foundRCs s
  | some tx =>
    obtain ⟨hempty, hfound⟩ := h tx htx
    cases foundRCs with
    | nil =>
      apply inform_works hP hs
      intro o tx' _ heq
      apply hP.completes
      rw [heq]
      exact hempty rfl
    | cons rc =>
      dsimp only
      split
      · exact refl cfg P s
      · rename_i hzero
        exact inform_works hP hs (hfound rc rfl (Bool.eq_false_iff.mpr hzero))

variable {js : List Job}

lemma queues_works (s : State) {cs : List Call} (h : s.WF cfg → (∀ j ∈ js, j.Right) ∧ ∀ c ∈ cs, c.Right cfg) :
    Works cfg P s { s with jobs := js, calls := cs } where
  __ := refl cfg P s
  wf := fun hs => ⟨hs.keyed, hs.remotes, hs.jobRemotes, (h hs).1, (h hs).2⟩

lemma enqueue_works (s : State) (h : ∀ j ∈ js, j.Right) : Works cfg P s { s with jobs := s.jobs ++ js } := by
  apply queues_works
  intro hs
  refine ⟨?_, hs.calls⟩
  intro j hj
  rcases mem_append.mp hj with hj | hj
  · exact hs.jobs j hj
  · exact h j hj

lemma relayedGotRouter_works (hP : P.Fair cfg) (hs : s.WF cfg) {ep : ℕ} {msg : GotRouter} (h : msg.foundRCs = [] →
      ∀ router job, s.pendingRouters.lookup (ep, router) = some job → job.txid = msg.txid → P.touches router) :
    Works cfg P s (relayedGotRouter cfg now s ep msg) := by
  unfold relayedGotRouter
  split
  · rename_i hempty
    apply finishJobs_works hP _ _ hs
    intro k hk
    obtain ⟨e, he, rfl⟩ := mem_map.mp hk
    obtain ⟨he, hmatch⟩ := mem_filter.mp he
    simp only [decide_eq_true_eq] at hmatch
    obtain ⟨hep, htxid⟩ := hmatch
    have hlook : s.pendingRouters.lookup (ep, e.1.2) = some e.2 := by
      rw [← hep]
      exact AList.mem_lookup_iff.mpr he
    exact h (isEmpty_iff.mp hempty) e.1.2 e.2 hlook htxid
  · apply enqueue_works
    intro j hj
    obtain ⟨_, hrc, rfl⟩ := mem_map.mp hj
    exact hrc

lemma checkCalls_right (s : State) (rc : RouterContact) : ∀ c ∈ checkCalls cfg s rc, c.Right cfg := by
  intro c hc
  unfold checkCalls at hc
  split at hc
  · rw [mem_singleton.mp hc]
    exact trivial
  split at hc
  · rename_i hver
    rw [mem_singleton.mp hc]
    exact (Bool.and_eq_true_iff.mp hver).1
  · exact absurd hc not_mem_nil

lemma runJob_works {i : ℕ} {j : Job} (hj : s.jobs[i]? = some j) :
    Works cfg P s (runJob cfg { s with jobs := s.jobs.eraseIdx i } j) := by
  have hkeep : s.WF cfg → ∀ j ∈ s.jobs.eraseIdx i, j.Right := fun hs j hj => hs.jobs j (mem_of_mem_eraseIdx hj)
  have happend : ∀ cs : List Call, (s.WF cfg → ∀ c ∈ cs, c.Right cfg) →
      Works cfg P s { s with jobs := s.jobs.eraseIdx i, calls := s.calls ++ cs } := by
    intro cs hcs
    apply queues_works
    intro hs
    refine ⟨hkeep hs, ?_⟩
    intro c hc
    rcases mem_append.mp hc with hc | hc
    · exact hs.calls c hc
    · exact hcs hs c hc
  cases j with
  | verifyGotRouter ep msg rc =>
    apply happend
    intro hs c hc
    rw [mem_singleton.mp hc]
    exact ⟨rfl, hs.jobs _ (mem_of_getElem? hj)⟩
  | checkRC rc => exact happend _ fun _ => checkCalls_right _ rc

lemma runLoopCall_works (hP : P.Fair cfg) (hs : s.WF cfg) {i : ℕ} {c : Call} (hc : s.calls[i]? = some c)
    (h : Permits cfg P (now, .call i) s) :
    Works cfg P s (runLoopCall cfg now { s with calls := s.calls.eraseIdx i } c) := by
  have hdrop : Works cfg P s { s with calls := s.calls.eraseIdx i } :=
    queues_works s fun hs => ⟨hs.jobs, fun c hc => hs.calls c (mem_of_mem_eraseIdx hc)⟩
  have hright := hs.calls c (mem_of_getElem? hc)
  cases c with
  | gotRouter ep msg rc valid =>
    obtain ⟨hins, hfin⟩ := h ep msg rc valid hc
    have hput : Works cfg P s (State.putIfNewer now { s with calls := s.calls.eraseIdx i } rc) :=
      hdrop.trans (putIfNewer_works hins)
    exact hput.trans (finishJob_works hP (hput.wf hs) fun job hjob => (hfin job hjob).same hput)
  | putRC rc =>
    have hins := (hP.verified rc hright).1
    exact (hdrop.trans (putIfNewer_works fun _ => hins)).trans (putNode_works _ rc)
  | delNode => exact hdrop.trans (nodes_works _ _)

lemma removeStale_works (s : State) (keep : List RouterID) (cutoff : Millis) :
    Works cfg P s { s with nodedb := s.nodedb.removeStaleRCs keep cutoff } where
  __ := refl cfg P s
  stored := by
    intro pk rc hrc
    have hloop : ∀ (l : List RouterID) (db : NodeDB), (l.foldl NodeDB.remove db).get pk = some rc →
        db.get pk = some rc := by
      intro l
      induction l with
      | nil => exact fun db h => h
      | cons r l ih =>
        intro db h
        have hget := ih _ h
        rw [NodeDB.get_remove] at hget
        split at hget
        · cases hget
        · exact hget
    exact .inl (hloop _ _ hrc)
  wf := fun hs => hs.same rfl rfl rfl rfl rfl

lemma step_evolves (hP : P.Fair cfg) {op : Millis × Op} (hs : s.WF cfg) (hperm : Permits cfg P op s)
    (hstep : step cfg op s = .ok s') : Evolves cfg P s s' := by
  obtain ⟨now, op⟩ := op
  unfold step at hstep
  cases op with rw [← ok.inj hstep]
  | setRouterWhitelist =>
    dsimp only
    split
    · exact (refl cfg P s).toEvolves
    · exact { refl cfg P s with wf := fun hs => hs.same rfl rfl rfl rfl rfl }
  | setPaths => exact { refl cfg P s with wf := fun hs => hs.same rfl rfl rfl rfl rfl }
  | loadFromDisk => exact (foldl (fun rc _ s => loadRC_works hP s rc) s).toEvolves
  | bootstrap => exact (foldl (fun rc _ s => (put_works (hP.bootstrap rc)).trans (putNode_works _ rc)) s).toEvolves
  | saveRC rc => exact (saveRC_works hP s rc).toEvolves
  | sessionEstablished rc =>
    dsimp only
    split
    · exact (refl cfg P s).toEvolves
    split
    · exact (checkRC_works hP now s rc).toEvolves
    · exact (enqueue_works s (by simp [Job.Right])).toEvolves
  | renegotiate newrc =>
    have hjob : Works cfg P s { s with jobs := s.jobs ++ [.checkRC newrc] } := enqueue_works s (by simp [Job.Right])
    dsimp only
    split
    · exact (refl cfg P s).toEvolves
    split
    · exact (hjob.trans (putNode_works _ newrc)).toEvolves
    · exact hjob.toEvolves
  | getRC router => exact (getRC_works hP hperm).toEvolves
  | ensureRouterIsKnown ep router path =>
    dsimp only
    split
    · exact (refl cfg P s).toEvolves
    · exact (anon_works hperm (fun _ heq => by cases heq) s path).toEvolves
  | exploreNetworkVia => exact (explore_works s (Nat.le_succ s.ids) _).toEvolves
  | findRouter sender txid target => exact (findRouter_works hP hperm).toEvolves
  | relayedFindRouter path txid target => exact (relayedFind_works hP hperm.1 hperm.2).toEvolves
  | gotRouter sender txid => exact (gotRouter_works hP hs hperm).toEvolves
  | relayedGotRouter ep msg => exact (relayedGotRouter_works hP hs hperm).toEvolves
  | work i =>
    dsimp only
    split
    · exact (refl cfg P s).toEvolves
    · rename_i j hj
      exact (runJob_works hj).toEvolves
  | call i =>
    dsimp only
    split
    · exact (refl cfg P s).toEvolves
    rename_i c hc
    exact (runLoopCall_works hP hs hc hperm).toEvolves
  | expire =>
    have hrouters : Works cfg P s (expireRouterLookups cfg now s) := expire_works hP hperm hs
    exact (hrouters.trans (foldl (fun k _ s => informExplore_works s k []) _)).toEvolves
  | expirePendingRouters ep => exact (finishJobs_works hP _ (fun k _ => hperm k.2) hs).toEvolves
  | removeStaleRCs cutoff => exact (removeStale_works s _ cutoff).toEvolves
  | removeRC router => exact (remove_works s router).toEvolves
  | delNode k => exact (nodes_works s _).toEvolves

end Belnet.Router
