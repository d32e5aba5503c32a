import Belnet.Router.Steps

/-!
# Verified contacts and right answers

A contact from a path is verified on a worker and inserted whatever the verdict; a lookup without an accepted contact
hands on an empty one.
-/

namespace Belnet.Router
open Iwp hiding RouterContact
open Belnet.Path hiding RouterContact
open Dht List State

def Insertion.Verified (cfg : Config) (i : Insertion) : Prop :=
  match i.source with
  | .bootstrap => True
  | .own => True
  | .disk => i.rc.verifySignature cfg.toRouterEnv = true
  | .network => i.rc.verify cfg.toRouterEnv = true

instance (cfg : Config) (i : Insertion) : Decidable (i.Verified cfg) := by
  unfold Insertion.Verified
  cases i.source <;> infer_instance

/-- when a contact passes `Verify`, one is accepted by `CheckRC` and newer than a constructed one -/
def Acceptable (cfg : Config) (s : State) (rcs : List RouterContact) : Prop :=
  (∃ x ∈ rcs, x.verify cfg.toRouterEnv = true) → ∃ x ∈ rcs, checks cfg s x = true ∧ 0 < x.lastUpdated

/-- what comes over a path and would be inserted passes `Verify`, with all beside it when a handler waits; a reply to
such a lookup has an acceptable contact; and a handler is told no unverified contact from the database -/
def Careful (cfg : Config) (op : Millis × Op) (s : State) : Prop :=
  match op.2 with
  | .getRC router callback forceLookup _ => forceLookup = false → .routerLookup ∈ callbacksFor s router callback →
      ∀ rc, s.nodedb.get router = some rc → rc.verify cfg.toRouterEnv = true
  | .gotRouter sender txid foundRCs _ => (s.routerLookups.tx.lookup ⟨sender, txid⟩).isSome = true →
      ∀ rc ∈ foundRCs.head?, (∃ o tx, s.routerLookups.tx.lookup o = some tx ∧ tx.target = rc.pubkey ∧
        tx.localPath = none ∧ tx.resultHandler.isSome = true) → Acceptable cfg s foundRCs
  | .call i => ∀ ep msg rc valid, s.calls[i]? = some (.gotRouter ep msg rc valid) →
      (s.nodedb.accepts rc = true → rc.verify cfg.toRouterEnv = true) ∧
      ∀ job, s.pendingRouters.lookup (ep, rc.pubkey) = some job → job.handler.isSome = true →
        rc.verify cfg.toRouterEnv = true → ∀ x ∈ msg.foundRCs, x.verify cfg.toRouterEnv = true
  | _ => True

variable {cfg : Config} {s s' : State}

def verifiedEffects (cfg : Config) : Effects where
  inserts := Insertion.Verified cfg
  hands := fun rc => rc.verify cfg.toRouterEnv = true
  reports := fun _ => True
  answers := fun _ => True
  touches := fun _ => True

lemma verifiedEffects_fair (cfg : Config) : (verifiedEffects cfg).Fair cfg where
  verified := fun _ h => ⟨h, h⟩
  failed := fun _ _ => trivial
  empty := fun _ _ => trivial
  disk := fun _ h => h
  bootstrap := fun _ => trivial
  own := fun _ => trivial

variable {values : List RouterContact}

lemma Selected.verified (h : Acceptable cfg s values) {x : RouterContact}
    (hx : Selected cfg s (validated cfg values) x) : x ∈ values ∧ x.verify cfg.toRouterEnv = true := by
  obtain ⟨hne, ⟨hmem, -⟩ | ⟨-, hall⟩⟩ := hx
  · exact mem_filter.mp hmem
  exfalso
  obtain ⟨v, hv⟩ := exists_mem_of_ne_nil _ hne
  obtain ⟨hv, hver⟩ := mem_filter.mp hv
  obtain ⟨w, hw, hc, hpos⟩ := h ⟨v, hv, hver⟩
  have hwver : w.verify cfg.toRouterEnv = true := (Bool.and_eq_true_iff.mp hc).2
  have hno := hall w (mem_filter.mpr ⟨hw, hwver⟩) hpos
  rw [hc] at hno
  cases hno

variable {op : Millis × Op}

lemma Careful.permits (hs : s.WF cfg) (h : Careful cfg op s) : Permits cfg (verifiedEffects cfg) op s := by
  obtain ⟨_, op⟩ := op
  cases op with
  | getRC =>
    refine ⟨trivial, ?_⟩
    intro hforce rc hget
    exact ⟨trivial, fun hmem => h hforce hmem rc hget⟩
  | findRouter => exact ⟨fun _ => trivial, fun _ _ => trivial⟩
  | relayedFindRouter => exact ⟨⟨fun _ => trivial, fun _ _ => trivial⟩, fun _ => trivial⟩
  | gotRouter =>
    intro _ htx
    refine ⟨fun _ => trivial, ?_⟩
    intro rc hrc _ o tx' ho htarget
    constructor
    · exact trivial
    · intro hpath hhandler x hx
      have hacc := h (by rw [htx]; rfl) rc hrc ⟨o, tx', ho, htarget, hpath, hhandler⟩
      exact (hx.verified hacc).2
    · exact fun _ _ _ _ _ => trivial
    · exact fun _ _ _ _ _ => trivial
    · exact fun _ _ _ _ => trivial
  | call =>
    intro ep msg rc valid hcall
    obtain ⟨hins, hjobs⟩ := h ep msg rc valid hcall
    refine ⟨hins, ?_⟩
    intro job hjob
    have hright := hs.calls _ (mem_of_getElem? hcall)
    refine ⟨trivial, ?_, fun _ _ _ _ => trivial⟩
    intro hhandler x hx
    split at hx
    · rename_i hvalid
      have hver : rc.verify cfg.toRouterEnv = true := by
        rw [← hright.1]
        exact hvalid
      exact hjobs job hjob hhandler hver x hx
    · exact absurd hx not_mem_nil
  | relayedGotRouter => exact fun _ _ _ _ _ => trivial
  | expire | expirePendingRouters => exact fun _ => trivial
  | _ => exact trivial

def State.start (ourRC : RouterContact) (ids : ℕ) : State := { ourRC := ourRC, ids := ids }

lemma State.start_wf (cfg : Config) (ourRC : RouterContact) (ids : ℕ) : (start ourRC ids).WF cfg where
  keyed := by constructor <;> simp [start]
  remotes := by simp [start]
  jobRemotes := by simp [start]
  jobs := by simp [start]
  calls := by simp [start]

structure State.Vetted (cfg : Config) (s : State) : Prop where
  wf : s.WF cfg
  inserted : ∀ i ∈ s.inserted, i.Verified cfg
  stored : ∀ pk rc, s.nodedb.get pk = some rc → ∃ i ∈ s.inserted, i.rc = rc
  handed : ∀ rc ∈ s.handed, rc.verify cfg.toRouterEnv = true

lemma State.start_vetted (cfg : Config) (ourRC : RouterContact) (ids : ℕ) : (start ourRC ids).Vetted cfg where
  wf := start_wf cfg ourRC ids
  inserted := by simp [start]
  stored := by simp [start, NodeDB.get]
  handed := by simp [start]

lemma step_vetted (h : s.Vetted cfg) (hcareful : Careful cfg op s)
    (hstep : step cfg op s = .ok s') : s'.Vetted cfg := by
  have hev := step_evolves (verifiedEffects_fair cfg) h.wf (hcareful.permits h.wf) hstep
  constructor
  · exact hev.wf h.wf
  · exact fun i hi => (hev.inserted i hi).elim (h.inserted i) id
  · intro pk rc hget
    rcases hev.stored pk rc hget with hold | hnew
    · obtain ⟨i, hi, heq⟩ := h.stored pk rc hold
      exact ⟨i, hev.kept i hi, heq⟩
    · exact hnew
  · exact fun rc hrc => (hev.handed rc hrc).elim (h.handed rc) id

/-- In a run of careful steps every insertion was checked, every contact in the database was inserted, and every
contact handed to a handler passes `Verify`. -/
theorem contacts_verified (cfg : Config) (ourRC : RouterContact) (ids : ℕ) {s : State}
    (hr : Run.Reaches (step cfg) (Careful cfg) (State.start ourRC ids) s) :
    (∀ i ∈ s.inserted, i.Verified cfg) ∧ (∀ pk rc, s.nodedb.get pk = some rc → ∃ i ∈ s.inserted, i.rc = rc) ∧
      ∀ rc ∈ s.handed, rc.verify cfg.toRouterEnv = true := by
  have h : s.Vetted cfg :=
    hr.inv (fun _ _ _ h => step_vetted h) (State.start_vetted cfg ourRC ids)
  exact ⟨h.inserted, h.stored, h.handed⟩

namespace Sample

def start : State := State.start (contact 9 1) 0

def relayed (rc : RouterContact) : GotRouter := ⟨key 5, 7, [rc]⟩

def relayedRun (rc : RouterContact) : List (Millis × Op) :=
  [(0, .relayedGotRouter 0 (relayed rc)), (1, .work 0), (2, .call 0)]

def judged (rc : RouterContact) : State :=
  { start with calls := [.gotRouter 0 (relayed rc) rc (rc.verify client.toRouterEnv)] }

end Sample

open Sample

/-- the signature of the contact is wrong, and it is inserted -/
theorem unverified_contact_inserted : ∃ s, Run.exec (step client) (relayedRun (contact 2 0)) start = .ok s ∧
      ∃ i ∈ s.inserted, ¬ i.Verified client := Run.ok_sat

theorem contacts_verified_relayed : ∃ s, Run.Reaches (step client) (Careful client) start s ∧
      s.inserted.map Insertion.rc = [contact 2 1] ∧ ∀ i ∈ s.inserted, i.Verified client := by
  have hcareful : Careful client (2, .call 0) (judged (contact 2 1)) := by
    rintro ep msg rc valid ⟨⟩
    refine ⟨fun _ => by decide +kernel, ?_⟩
    intro job hjob
    cases hjob
  have hverify : Run.Reaches (step client) (Careful client) start (judged (contact 2 1)) :=
    .tail (1, .work 0) (.tail (0, .relayedGotRouter 0 (relayed (contact 2 1))) .refl trivial rfl) trivial rfl
  have hr := Run.Reaches.tail (2, .call 0) hverify hcareful rfl
  exact ⟨_, hr, by decide +kernel, (contacts_verified client (contact 9 1) 0 hr).1⟩

/-!
## a lookup is answered by the router that was asked about

The key of a reply decides which transactions it completes, and the newest contact in it is taken, whatever its key is.
-/

def Report.Right (cfg : Config) (r : Report) : Prop :=
  r.result = .success → ∃ rc, r.rc = some rc ∧ rc.pubkey = r.router ∧ rc.verify cfg.toRouterEnv = true

def Reply.Right (cfg : Config) (a : Reply) : Prop :=
  ∀ rc ∈ a.foundRCs, rc.pubkey = a.target ∧ rc.verify cfg.toRouterEnv = true

def asked (op : Millis × Op) (s : State) (r : RouterID) : Prop :=
  match op.2 with
  | .gotRouter sender txid _ _ => ∃ tx, s.routerLookups.tx.lookup ⟨sender, txid⟩ = some tx ∧ tx.target = r
  | .relayedGotRouter ep msg => ∃ job, s.pendingRouters.lookup (ep, r) = some job ∧ job.peer = msg.peer ∧
      job.asked = msg.txid
  | .call i => ∀ ep msg rc valid, s.calls[i]? = some (.gotRouter ep msg rc valid) →
      ∃ job, s.pendingRouters.lookup (ep, r) = some job ∧ job.peer = msg.peer ∧ job.asked = msg.txid
  | _ => True

structure Untouched (touched : RouterID → Prop) (s s' : State) : Prop where
  txs : ∀ o tx, s.routerLookups.tx.lookup o = some tx → ¬ touched tx.target → s'.routerLookups.tx.lookup o = some tx
  callbacks : ∀ r, ¬ touched r → s'.pendingCallbacks.lookup r = s.pendingCallbacks.lookup r
  pending : ∀ ep r, ¬ touched r → s'.pendingRouters.lookup (ep, r) = s.pendingRouters.lookup (ep, r)

def KnownVerified (cfg : Config) (s : State) (target : RouterID) : Prop :=
  (target = cfg.ourKey → s.ourRC.pubkey = target ∧ s.ourRC.verify cfg.toRouterEnv = true) ∧
    ∀ rc, s.nodedb.get target = some rc → rc.verify cfg.toRouterEnv = true

/-- the contacts of a reply that pass `Verify` are of the router asked for, the first one too, and one can be accepted;
what comes over a path is for the lookup of its id and begins with the completing contact; known answers pass `Verify`
-/
def Truthful (cfg : Config) (op : Millis × Op) (s : State) : Prop :=
  match op.2 with
  | .getRC router _ forceLookup _ => forceLookup = false → ∀ rc, s.nodedb.get router = some rc →
      rc.verify cfg.toRouterEnv = true
  | .findRouter _ _ target _ _ => KnownVerified cfg s target
  | .relayedFindRouter _ _ target => KnownVerified cfg s target ∧ target ≠ .zero 32
  | .gotRouter sender txid foundRCs _ => ∀ tx, s.routerLookups.tx.lookup ⟨sender, txid⟩ = some tx →
      ∀ rc ∈ foundRCs.head?, isZero rc.pubkey = false → rc.pubkey = tx.target ∧
        (∀ x ∈ foundRCs, x.verify cfg.toRouterEnv = true → x.pubkey = tx.target) ∧ Acceptable cfg s foundRCs
  | .relayedGotRouter ep msg => msg.foundRCs = [] → ∀ router job, s.pendingRouters.lookup (ep, router) = some job →
      job.txid = msg.txid → job.peer = msg.peer ∧ job.asked = msg.txid
  | .call i => ∀ ep msg rc valid, s.calls[i]? = some (.gotRouter ep msg rc valid) →
      ∀ job, s.pendingRouters.lookup (ep, rc.pubkey) = some job →
        (job.peer = msg.peer ∧ job.asked = msg.txid) ∧ (rc.verify cfg.toRouterEnv = true →
          ∀ x ∈ msg.foundRCs.head?, checks cfg s x = true → x.pubkey = rc.pubkey)
  | _ => True

def truthfulEffects (cfg : Config) (touched : RouterID → Prop) : Effects where
  inserts := fun _ => True
  hands := fun _ => True
  reports := Report.Right cfg
  answers := Reply.Right cfg
  touches := touched

lemma truthfulEffects_fair (cfg : Config) (touched : RouterID → Prop) : (truthfulEffects cfg touched).Fair cfg where
  verified := fun _ _ => ⟨trivial, trivial⟩
  failed := fun _ hne heq => absurd heq hne
  empty := by
    intro a ha _ hrc
    rw [ha] at hrc
    exact absurd hrc not_mem_nil
  disk := fun _ _ => trivial
  bootstrap := fun _ => trivial
  own := fun _ => trivial

variable {touched : RouterID → Prop}

lemma KnownVerified.knows {target : RouterID} (h : KnownVerified cfg s target)
    {requester : Requester} {txid : ℕ} : (truthfulEffects cfg touched).Knows cfg s requester txid target where
  own := by
    intro heq rc hrc
    rw [mem_singleton.mp hrc]
    exact h.1 heq
  known := by
    intro rc hget x hx
    rw [mem_singleton.mp hx]
    exact ⟨NodeDB.get_pubkey hget, h.2 rc hget⟩

lemma completes_truthful {tx : RouterLookup}
    (htouch : touched tx.target) (hkey : ∀ x ∈ values, x.verify cfg.toRouterEnv = true → x.pubkey = tx.target)
    (hacc : Acceptable cfg s values) : (truthfulEffects cfg touched).Completes cfg s values tx := by
  have hsel : ∀ x, Selected cfg s (validated cfg values) x →
      x.pubkey = tx.target ∧ x.verify cfg.toRouterEnv = true := by
    intro x hx
    obtain ⟨hmem, hver⟩ := hx.verified hacc
    exact ⟨hkey x hmem hver, hver⟩
  constructor
  · exact htouch
  · exact fun _ _ _ _ => trivial
  · intro _ _ x hx _ _
    exact ⟨x, rfl, hsel x hx⟩
  · intro _ _ a ha hx rc hrc
    rw [ha]
    exact hsel rc (hx rc hrc)
  · intro _ a ha hx rc hrc
    obtain ⟨hmem, hver⟩ := mem_filter.mp (hx rc hrc)
    rw [ha]
    exact ⟨hkey rc hmem hver, hver⟩

variable {op : Millis × Op}

lemma Truthful.permits (hs : s.WF cfg) (h : Truthful cfg op s) :
    Permits cfg (truthfulEffects cfg (asked op s)) op s := by
  obtain ⟨_, op⟩ := op
  cases op with
  | getRC router =>
    refine ⟨trivial, ?_⟩
    intro hforce rc hget
    exact ⟨fun _ => ⟨rc, rfl, NodeDB.get_pubkey hget, h hforce rc hget⟩, fun _ => trivial⟩
  | findRouter => exact KnownVerified.knows h
  | relayedFindRouter => exact ⟨KnownVerified.knows h.1, fun heq => absurd heq h.2⟩
  | gotRouter =>
    intro tx htx
    refine ⟨fun _ => ⟨tx, htx, rfl⟩, ?_⟩
    intro rc hrc hzero o tx' _ htarget
    obtain ⟨hfirst, hkey, hacc⟩ := h tx htx rc hrc hzero
    have heq : tx.target = tx'.target := hfirst.symm.trans htarget.symm
    rw [heq] at hkey
    exact completes_truthful ⟨tx, htx, heq⟩ hkey hacc
  | relayedGotRouter ep msg =>
    intro hempty router job hjob htxid
    exact ⟨job, hjob, h hempty router job hjob htxid⟩
  | call =>
    intro ep msg rc valid hcall
    refine ⟨fun _ => trivial, ?_⟩
    intro job hjob
    obtain ⟨hasked, hfirst⟩ := h ep msg rc valid hcall job hjob
    have hright := hs.calls _ (mem_of_getElem? hcall)
    refine ⟨?_, fun _ _ _ => trivial, ?_⟩
    · intro _ _ _ _ hcall'
      rw [hcall] at hcall'
      cases hcall'
      exact ⟨job, hjob, hasked⟩
    · intro _ x hx hc _
      split at hx
      · rename_i hvalid
        have hver : rc.verify cfg.toRouterEnv = true := by
          rw [← hright.1]
          exact hvalid
        exact ⟨x, rfl, hfirst hver x hx hc, (Bool.and_eq_true_iff.mp hc).2⟩
      · cases hx
  | expire | expirePendingRouters => exact fun _ => trivial
  | ensureRouterIsKnown | _ => exact trivial

structure State.Answered (cfg : Config) (s : State) : Prop where
  wf : s.WF cfg
  reported : ∀ r ∈ s.reported, r.Right cfg
  replies : ∀ a ∈ s.replies, a.Right cfg

lemma step_truthful (hs : s.WF cfg) (h : Truthful cfg op s) (hstep : step cfg op s = .ok s') :
    Evolves cfg (truthfulEffects cfg (asked op s)) s s' :=
  step_evolves (truthfulEffects_fair cfg _) hs (h.permits hs) hstep

lemma step_answered (h : s.Answered cfg) (htrue : Truthful cfg op s)
    (hstep : step cfg op s = .ok s') : s'.Answered cfg := by
  have hev := step_truthful h.wf htrue hstep
  constructor
  · exact hev.wf h.wf
  · exact fun r hr => (hev.reported r hr).elim (h.reported r) id
  · exact fun a ha => (hev.replies a ha).elim (h.replies a) id

lemma State.start_answered (cfg : Config) (ourRC : RouterContact) (ids : ℕ) : (start ourRC ids).Answered cfg where
  wf := start_wf cfg ourRC ids
  reported := by simp [start]
  replies := by simp [start]

/-- In a run of truthful steps every success is with a verified contact of the router looked up, as is every contact in
an answer, and a step changes only the lookups asked of the sender under the reply's id. -/
theorem lookups_answered (cfg : Config) (ourRC : RouterContact) (ids : ℕ) {s : State}
    (hr : Run.Reaches (step cfg) (Truthful cfg) (State.start ourRC ids) s) :
    (∀ r ∈ s.reported, r.result = .success →
        ∃ rc, r.rc = some rc ∧ rc.pubkey = r.router ∧ rc.verify cfg.toRouterEnv = true) ∧
      (∀ a ∈ s.replies, ∀ rc ∈ a.foundRCs, rc.pubkey = a.target ∧ rc.verify cfg.toRouterEnv = true) ∧
      ∀ op s', Truthful cfg op s → step cfg op s = .ok s' → Untouched (asked op s) s s' := by
  have h : s.Answered cfg :=
    hr.inv (fun _ _ _ h => step_answered h) (State.start_answered cfg ourRC ids)
  refine ⟨h.reported, h.replies, ?_⟩
  intro op s' htrue hstep
  have hev := step_truthful h.wf htrue hstep
  exact ⟨hev.txs, hev.callbacks, fun ep r hr => hev.pending (ep, r) hr⟩

namespace Sample

def lookupRun : List (Millis × Op) := [(0, .bootstrap), (1, .getRC (key 1) none false [])]

def newer : RouterContact := { contact 2 1 with lastUpdated := 2 }

def booted : State := client.bootstrapRCList.foldl (fun s rc => (s.put 0 .bootstrap rc).putNode rc) start

def sent : State := getRC client 1 booted (key 1) none false []

def pendingLookup : RouterLookup := ⟨key 1, ⟨key 9, 0⟩, some (.dhtLookupResult (key 1)), none⟩

lemma sent_lookup : sent.routerLookups.tx.lookup ⟨key 3, 1⟩ = some pendingLookup := by decide +kernel

lemma booted_unknown : booted.nodedb.get (key 1) = none := by decide +kernel

def honestReply : Millis × Op := (2, .gotRouter (key 3) 1 [contact 1 1] [])

lemma honestReply_truthful : Truthful client honestReply sent := by
  intro _ htx _ hrc _
  cases sent_lookup.symm.trans htx
  cases hrc
  refine ⟨rfl, ?_, ?_⟩
  · intro x hx _
    rw [mem_singleton.mp hx]
    rfl
  · exact fun _ => ⟨contact 1 1, mem_cons_self, by decide +kernel, by decide⟩

end Sample

/-- a newer contact of another router is reported for `1`; under the id of the lookup of `1` a reply completes that of
`2` -/
theorem answered_with_other_router : (∃ s, Run.exec (step client)
        (lookupRun ++ [(2, .gotRouter (key 3) 1 [contact 1 1, newer] [])]) start = .ok s ∧
        ∃ r ∈ s.reported, r.result = .success ∧ r.router = key 1 ∧ r.rc = some newer) ∧
      ∃ s, Run.exec (step client) (lookupRun ++ [(1, .getRC (key 2) none false []),
          (2, .gotRouter (key 3) 1 [contact 2 1] [])]) start = .ok s ∧
        s.routerLookups.tx.lookup ⟨key 3, 1⟩ = some pendingLookup ∧
        s.routerLookups.tx.lookup ⟨key 3, 2⟩ = none ∧
        s.pendingCallbacks.lookup (key 2) = none := ⟨Run.ok_sat, Run.ok_sat⟩

theorem lookups_answered_honest : ∃ s, Run.Reaches (step client) (Truthful client) start s ∧
      s.reported = [⟨key 1, some (contact 1 1), .success⟩] ∧
      ∀ r ∈ s.reported, r.result = .success →
        ∃ rc, r.rc = some rc ∧ rc.pubkey = r.router ∧ rc.verify client.toRouterEnv = true := by
  have hget : Truthful client (1, .getRC (key 1) none false []) booted := by
    intro _ rc hrc
    rw [booted_unknown] at hrc
    cases hrc
  have hsent : Run.Reaches (step client) (Truthful client) start sent :=
    .tail (1, .getRC (key 1) none false []) (.tail (0, .bootstrap) .refl trivial rfl) hget rfl
  have hr := Run.Reaches.tail honestReply hsent honestReply_truthful rfl
  exact ⟨_, hr, by decide +kernel, (lookups_answered client (contact 9 1) 0 hr).1⟩

end Belnet.Router
