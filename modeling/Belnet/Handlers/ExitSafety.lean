import Belnet.Handlers.Exit

/-!
# Addresses, paths and sessions of an exit

Which runs keep the maps of addresses inverse, endpoints on their paths, and sessions live.

* `allocateNewAddress_used_up`  a range that is used up hands out the address 0;
* `exit_addresses_inverse`  as long as new addresses are left the two maps are inverse;
* `endpoint_on_its_path`  the endpoint found by a path is on it;
* `sessions_live_iff`  when no null session is met.
-/

set_option linter.unusedSectionVars false

namespace Belnet.Handlers
open Net Bimap List Function Option BitVec ExitEndpoint Prod Run Nat Assoc AList

namespace ExitEndpoint
variable {Key PathID Cb : Type} [DecidableEq Key] [DecidableEq PathID] {c : ExitConfig Key}
  {s s' : ExitEndpoint Key PathID Cb}

variable {order : List IP}

/-- the search starts at the time 0, and no time is below it -/
lemma oldestActivity_eq (activity : IP → Option ℕ) (order : List IP) :
    oldestActivity activity order = (0, timeMax) := by
  unfold oldestActivity
  induction order with
  | nil => rfl
  | cons ip order ih =>
    rw [foldl_cons]
    cases activity ip with
    | none => exact ih
    | some => exact ih

lemma allocateNewAddress_used_up (hfull : ¬ s.nextAddr < c.ourRange.highestAddr) (order : List IP) :
    (s.allocateNewAddress c order).1 = 0 := by
  unfold allocateNewAddress
  rw [if_neg hfull]
  exact congrArg Prod.fst (oldestActivity_eq s.ipActivity order)

def addresses (s : ExitEndpoint Key PathID Cb) : (Key → Option IP) × (IP → Option Key) × (IP → Option ℕ) × IP :=
  (s.keyToIP, s.ipToKey, s.ipActivity, s.nextAddr)

def asks (c : ExitConfig Key) : Op Key PathID Cb → Option (Key × List IP)
  | .getIPForIdent pk _ order => some (pk, order)
  | .obtainMasterNodeIP other _ order => if other = c.us then none else some (other, order)
  | .obtainMNodeSession router _ allowed _ order => if !allowed || router = c.us then none else some (router, order)
  | .allocateNewExit pk _ wantInternet handler _ _ _ order =>
    if (wantInternet && !c.permitExit) || handler.isNone then none else some (pk, order)
  | _ => none

lemma obtainIP_addresses (other : Key) (now : ℕ) (order : List IP) (h : other ≠ c.us) :
    (s.obtainMasterNodeIP c other now order).2.addresses = (s.getIPForIdent c other now order).2.addresses := by
  unfold obtainMasterNodeIP
  rw [if_neg h]
  dsimp only
  split <;> rfl

structure Shrinks (s s' : ExitEndpoint Key PathID Cb) : Prop where
  exits : ∀ ep ∈ s'.activeExits, ep ∈ s.activeExits
  paths : ∀ path pk, s'.paths path = some pk → s.paths path = some pk

lemma Shrinks.refl (s : ExitEndpoint Key PathID Cb) : Shrinks s s := ⟨fun _ h => h, fun _ _ h => h⟩

variable {path : PathID} {pk : Key} {ep : Exit Key PathID}

lemma del_some {paths : PathID → Option Key}
    (h : delEndpointInfo paths ep path = some pk) : paths path = some pk := by
  cases hcur : ep.currentPath with
  | none =>
    rw [delEndpointInfo, hcur] at h
    exact h
  | some =>
    rw [delEndpointInfo, hcur] at h
    dsimp only at h
    rw [update_apply] at h
    split at h
    · cases h
    · exact h

lemma foldl_del_some (l : List (Exit Key PathID)) : ∀ {paths : PathID → Option Key} {path : PathID} {pk : Key},
    l.foldl delEndpointInfo paths path = some pk → paths path = some pk := by
  induction l with
  | nil => exact fun h => h
  | cons ep l ih => exact fun h => del_some (ih h)

lemma shrinks_eraseExits (dead : Exit Key PathID → Bool) : Shrinks s (s.eraseExits dead) :=
  ⟨fun _ hep => mem_of_mem_filter hep, fun _ _ h => foldl_del_some _ h⟩

def bindings (s : ExitEndpoint Key PathID Cb) : List (Exit Key PathID) × (PathID → Option Key) := (s.activeExits, s.paths)

lemma Shrinks.congr {s₁ s₂ : ExitEndpoint Key PathID Cb} (h : Shrinks s s') (h₁ : s₁.bindings = s.bindings)
    (h₂ : s₂.bindings = s'.bindings) : Shrinks s₁ s₂ := by
  obtain ⟨hexits₁, hpaths₁⟩ := Prod.ext_iff.mp h₁
  obtain ⟨hexits₂, hpaths₂⟩ := Prod.ext_iff.mp h₂
  dsimp only [bindings] at hexits₁ hpaths₁ hexits₂ hpaths₂
  exact ⟨by rw [hexits₁, hexits₂]; exact h.exits, by rw [hpaths₁, hpaths₂]; exact h.paths⟩

lemma shrinks_kick (pk : Key) : Shrinks s (s.kickIdentOffExit pk) :=
  (shrinks_eraseExits fun ep => decide (ep.key = pk)).congr rfl rfl

lemma shrinks_allocate (order : List IP) : Shrinks s (s.allocateNewAddress c order).2 := by
  unfold allocateNewAddress
  split
  · exact (Shrinks.refl s).congr rfl rfl
  · exact (shrinks_kick _).congr rfl rfl

lemma shrinks_getIP (pk : Key) (now : ℕ) (order : List IP) : Shrinks s (s.getIPForIdent c pk now order).2 := by
  unfold getIPForIdent
  split
  · exact (Shrinks.refl s).congr rfl rfl
  have hshrinks := shrinks_allocate (c := c) (s := s) order
  generalize s.allocateNewAddress c order = r at hshrinks ⊢
  dsimp only
  split
  · exact hshrinks
  split <;> exact hshrinks.congr rfl rfl

lemma shrinks_obtainIP (other : Key) (now : ℕ) (order : List IP) :
    Shrinks s (s.obtainMasterNodeIP c other now order).2 := by
  unfold obtainMasterNodeIP
  split
  · exact .refl s
  have hshrinks := shrinks_getIP (c := c) (s := s) other now order
  dsimp only
  split
  · exact hshrinks
  · exact hshrinks.congr rfl rfl

lemma shrinks_removeExit (ep : Exit Key PathID) : Shrinks s (s.removeExit ep) := by
  unfold removeExit
  dsimp only
  split
  · exact .refl s
  · exact ⟨fun e he => mem_of_mem_eraseP he, fun _ _ h => del_some h⟩

def sessions (s : ExitEndpoint Key PathID Cb) : (Key → Bool) × AList (fun _ : Key => Option (MNodeSession Cb)) :=
  (s.mnodeKeys, s.mnodeSessions)

structure Resumes (s s' : ExitEndpoint Key PathID Cb) : Prop where
  keys : ∀ k, s.mnodeKeys k = true → s'.mnodeKeys k = true
  null : ∀ router, s'.mnodeSessions.lookup router = some none → s.mnodeSessions.lookup router = some none

lemma Resumes.of_eq (h : s'.sessions = s.sessions) : Resumes s s' := by
  obtain ⟨hkeys, hsessions⟩ := Prod.ext_iff.mp h
  dsimp only [sessions] at hkeys hsessions
  exact ⟨fun k hk => by rw [hkeys]; exact hk, fun r hr => by rw [← hsessions]; exact hr⟩

lemma insert_null {m : AList fun _ : Key => Option (MNodeSession Cb)} {router r : Key} {session : MNodeSession Cb}
    (h : (m.insert router (some session)).lookup r = some none) : m.lookup r = some none := by
  rcases insert_some h with ⟨-, hnull⟩ | ⟨-, h⟩
  · cases hnull
  · exact h

lemma update_true {keys : Key → Bool} {k k' : Key} (h : keys k = true) : update keys k' true k = true := by
  rw [update_apply]
  split
  · rfl
  · exact h

lemma getIP_sessions (pk : Key) (now : ℕ) (order : List IP) :
    (s.getIPForIdent c pk now order).2.sessions = s.sessions := by
  have hallocate : (s.allocateNewAddress c order).2.sessions = s.sessions := by
    unfold allocateNewAddress
    split <;> rfl
  unfold getIPForIdent
  split
  · rfl
  dsimp only
  split
  · exact hallocate
  split <;> exact hallocate

variable {other : Key}

lemma obtainIP_of_mem (hkey : s.mnodeKeys other = true) (now : ℕ) (order : List IP) :
    (s.obtainMasterNodeIP c other now order).2.sessions = s.sessions := by
  have hsame := getIP_sessions (c := c) (s := s) other now order
  have hthere : (s.getIPForIdent c other now order).2.mnodeKeys other = true :=
    (congrFun (Prod.ext_iff.mp hsame).1 other).trans hkey
  unfold obtainMasterNodeIP
  split
  · rfl
  dsimp only
  rw [if_pos hthere]
  exact hsame

lemma obtainIP_of_notMem (hus : other ≠ c.us) (hkey : s.mnodeKeys other = false) (now : ℕ)
    (order : List IP) : (s.obtainMasterNodeIP c other now order).2.sessions =
      (Function.update s.mnodeKeys other true, s.mnodeSessions.insert other (some ⟨[]⟩)) := by
  have hsame := Prod.ext_iff.mp (getIP_sessions (c := c) (s := s) other now order)
  dsimp only [sessions] at hsame
  unfold obtainMasterNodeIP
  rw [if_neg hus]
  dsimp only
  rw [if_neg (by rw [congrFun hsame.1 other, hkey]; exact Bool.false_ne_true)]
  unfold sessions
  rw [hsame.1, hsame.2]

lemma resumes_obtainIP (other : Key) (now : ℕ) (order : List IP) :
    Resumes s (s.obtainMasterNodeIP c other now order).2 := by
  have hsame := Resumes.of_eq (getIP_sessions (c := c) (s := s) other now order)
  unfold obtainMasterNodeIP
  split
  · exact .of_eq rfl
  dsimp only
  split
  · exact hsame
  · exact ⟨fun k hk => update_true (hsame.keys k hk), fun r hr => hsame.null r (insert_null hr)⟩

/-- it gets an address for a key, kicks a key off, marks an address or leaves all as it is -/
inductive Readdressed (c : ExitConfig Key) (op : Op Key PathID Cb) (s s' : ExitEndpoint Key PathID Cb) : Prop where
  | asked (pk : Key) (now : ℕ) (order : List IP) (hasks : asks c op = some (pk, order))
      (h : s'.addresses = (s.getIPForIdent c pk now order).2.addresses)
  | kicked (pk : Key) (h : s'.addresses = (s.kickIdentOffExit pk).addresses)
  | marked (now : ℕ) (ip : IP) (h : s'.addresses = (s.markIPActive now ip).addresses)
  | kept (h : s'.addresses = s.addresses)

variable {op : Op Key PathID Cb} {now : ℕ}

lemma readdressed_obtain (hasks : other ≠ c.us → asks c op = some (other, order))
    (h : s'.addresses = (s.obtainMasterNodeIP c other now order).2.addresses) : Readdressed c op s s' := by
  by_cases hus : other = c.us
  · rw [obtainMasterNodeIP, if_pos hus] at h
    exact .kept h
  · exact .asked other now order (hasks hus) (h.trans (obtainIP_addresses other now order hus))

def onlyCloses : Op Key PathID Cb → Bool
  | .allocateNewExit .. => false
  | .updateExit .. => false
  | _ => true

structure Does (c : ExitConfig Key) (op : Op Key PathID Cb) (s s' : ExitEndpoint Key PathID Cb) : Prop where
  addresses : Readdressed c op s s'
  exits : onlyCloses op = true → Shrinks s s'
  sessions : Resumes s s'

lemma does_same : Does c op s s := ⟨.kept rfl, fun _ => .refl s, .of_eq rfl⟩

lemma step_does (h : step c op s = .ok s') : Does c op s s' := by
  cases op with
  | getIPForIdent pk now order =>
    cases h
    exact ⟨.asked pk now order rfl rfl, fun _ => shrinks_getIP pk now order, .of_eq (getIP_sessions ..)⟩
  | obtainMasterNodeIP other now order =>
    cases h
    exact ⟨readdressed_obtain (fun hus => if_neg hus) rfl, fun _ => shrinks_obtainIP other now order,
      resumes_obtainIP other now order⟩
  | obtainMNodeSession router cb allowed now order =>
    have hresumes := resumes_obtainIP (c := c) (s := s) router now order
    simp only [step, obtainMNodeSession] at h
    split at h
    · cases h
      exact does_same
    rename_i hallowed
    split at h
    · cases h
      refine ⟨readdressed_obtain (fun hus => ?_) rfl, fun _ => (shrinks_obtainIP router now order).congr rfl rfl,
        hresumes.keys, fun r hr => hresumes.null r (insert_null hr)⟩
      exact if_neg (by simpa [hus] using hallowed)
    · cases h
  | allocateNewExit pk path wantInternet handler prevIsRouter pos now order =>
    cases h
    unfold allocateNewExit
    split
    · exact does_same
    rename_i hallowed
    cases handler with
    | none => exact does_same
    | some =>
      have hresumes := Resumes.of_eq (getIP_sessions (c := c) (s := s) pk now order)
      refine ⟨.asked pk now order (by simpa [asks] using hallowed) rfl, nofun, fun k hk => ?_, hresumes.null⟩
      dsimp only
      split
      · exact update_true (hresumes.keys k hk)
      · exact hresumes.keys k hk
  | kickIdentOffExit pk =>
    cases h
    exact ⟨.kicked pk rfl, fun _ => shrinks_kick pk, .of_eq rfl⟩
  | markIPActive now ip =>
    cases h
    exact ⟨.marked now ip rfl, fun _ => (Shrinks.refl s).congr rfl rfl, .of_eq rfl⟩
  | callPendingCallbacks router =>
    cases h
    unfold callPendingCallbacks
    split
    · exact ⟨.kept rfl, fun _ => (Shrinks.refl s).congr rfl rfl, fun _ hk => hk, fun r hr => insert_null hr⟩
    · exact does_same
  | closeExit path pick verified =>
    cases h
    unfold closeExit
    split
    · exact does_same
    rename_i ep _
    split
    · refine ⟨.kept ?_, fun _ => shrinks_removeExit ep, .of_eq ?_⟩
      all_goals
        unfold removeExit
        dsimp only
        split <;> rfl
    · exact does_same
  | updateExit path next pick verified handler =>
    cases h
    unfold updateExit
    split
    · exact does_same
    split
    · exact does_same
    · exact ⟨.kept rfl, nofun, .of_eq rfl⟩
  | flush =>
    simp only [step, flush] at h
    split at h
    · cases h
    · cases h
      exact does_same
  | tick oldSession oldExit =>
    simp only [step, tick] at h
    split at h
    · cases h
    cases h
    refine ⟨.kept rfl, fun _ => (shrinks_eraseExits oldExit).congr rfl rfl, fun _ hk => hk, fun r hr => ?_⟩
    -- the sessions that are left were there before
    have hlookup : (restrict (fun e => !oldSession e.1) s.mnodeSessions).lookup r = some none := hr
    rw [lookup_restrict, filter_eq_some_iff] at hlookup
    exact hlookup.1

/-- the addresses given out lie between the interface's, which is the router's, and the last new one -/
structure Assigned (c : ExitConfig Key) (s : ExitEndpoint Key PathID Cb) : Prop where
  inverse : Inverse s.keyToIP s.ipToKey
  between : ∀ ip k, s.ipToKey ip = some k → c.ourRange.addr ≤ ip ∧ ip ≤ s.nextAddr
  low : c.ourRange.addr ≤ s.nextAddr
  high : s.nextAddr ≤ c.ourRange.highestAddr
  own : ∀ k, s.ipToKey c.ourRange.addr = some k → k = c.us

section
variable (h : s.Assigned c)
include h

lemma Assigned.congr (heq : s'.addresses = s.addresses) : s'.Assigned c := by
  obtain ⟨hkey, hip, -, hnext⟩ : s'.keyToIP = s.keyToIP ∧ s'.ipToKey = s.ipToKey ∧ s'.ipActivity = s.ipActivity ∧
      s'.nextAddr = s.nextAddr := by simpa [addresses] using heq
  exact ⟨by rw [hkey, hip]; exact h.inverse, by rw [hip, hnext]; exact h.between, by rw [hnext]; exact h.low,
    by rw [hnext]; exact h.high, by rw [hip]; exact h.own⟩

lemma Assigned.markIPActive (now : ℕ) (ip : IP) : (s.markIPActive now ip).Assigned c :=
  ⟨h.inverse, h.between, h.low, h.high, h.own⟩

lemma Assigned.zero_free (haddr : c.ourRange.addr ≠ 0) : s.ipToKey 0 = none := by
  cases hzero : s.ipToKey 0 with
  | none => rfl
  | some k =>
    have hle := le_def.mp (h.between 0 k hzero).1
    exact absurd (eq_of_toNat_eq (le_zero.mp hle)) haddr

lemma Assigned.kick (haddr : c.ourRange.addr ≠ 0) (pk : Key) : (s.kickIdentOffExit pk).Assigned c := by
  have hless : ∀ ip x k, update s.ipToKey ip none x = some k → s.ipToKey x = some k := by
    intro ip x k hx
    rw [update_apply] at hx
    split at hx
    · cases hx
    · exact hx
  refine ⟨?_, fun ip k hip => h.between ip k (hless _ ip k hip), h.low, h.high, fun k hk => h.own k (hless _ _ k hk)⟩
  show Inverse (update s.keyToIP pk none) (update s.ipToKey ((s.keyToIP pk).getD 0) none)
  cases hpk : s.keyToIP pk with
  | some ip => exact h.inverse.erase hpk
  | none =>
    -- `m_KeyToIP[pk]` is 0, where no key is
    have hkey := hpk ▸ update_eq_self pk s.keyToIP
    have hip := h.zero_free haddr ▸ update_eq_self 0 s.ipToKey
    rw [getD_none, hkey, hip]
    exact h.inverse

end

variable (order) in
lemma Assigned.allocate (h : s.Assigned c) (hpk : s.keyToIP pk = none)
    (hlt : s.nextAddr < c.ourRange.highestAddr) :
    let found := (s.allocateNewAddress c order).1
    let after := (s.allocateNewAddress c order).2
    after.Assigned c ∧ after.keyToIP pk = none ∧ after.ipToKey found = none ∧
      c.ourRange.addr ≤ found ∧ found ≤ after.nextAddr ∧ found ≠ c.ourRange.addr := by
  unfold allocateNewAddress
  rw [if_pos hlt]
  have hlt' := lt_def.mp hlt
  have hlow' := le_def.mp h.low
  have hnext : (s.nextAddr + 1).toNat = s.nextAddr.toNat + 1 := by
    have := c.ourRange.highestAddr.isLt
    rw [toNat_add, show (1 : IP).toNat = 1 from rfl]
    omega
  have hup : s.nextAddr ≤ s.nextAddr + 1 := le_def.mpr (by omega)
  have hfree : s.ipToKey (s.nextAddr + 1) = none := by
    cases hmapped : s.ipToKey (s.nextAddr + 1) with
    | none => rfl
    | some k =>
      have := le_def.mp (h.between _ k hmapped).2
      omega
  have hhigh : s.nextAddr + 1 ≤ c.ourRange.highestAddr := le_def.mpr (by rw [hnext]; omega)
  refine ⟨⟨h.inverse, fun ip k hip => ?_, BitVec.le_trans h.low hup, hhigh, h.own⟩,
    hpk, hfree, BitVec.le_trans h.low hup, BitVec.le_refl _, fun heq => ?_⟩
  · exact ⟨(h.between ip k hip).1, BitVec.le_trans (h.between ip k hip).2 hup⟩
  · have hsucc : s.nextAddr + 1 = c.ourRange.addr := heq
    rw [hsucc] at hnext
    omega

lemma Assigned.getIPForIdent (h : s.Assigned c)
    (hcan : s.keyToIP pk ≠ none ∨ s.nextAddr < c.ourRange.highestAddr) (now : ℕ) :
    (s.getIPForIdent c pk now order).2.Assigned c := by
  unfold ExitEndpoint.getIPForIdent
  split
  · exact h.markIPActive now _
  rename_i hpk
  obtain ⟨hafter, hkey, hip, hlow, hhigh, hne⟩ :=
    h.allocate order hpk (hcan.resolve_left fun hne => hne hpk)
  generalize s.allocateNewAddress c order = r at hafter hkey hip hlow hhigh hne ⊢
  obtain ⟨found, _⟩ := r
  dsimp only at hafter hkey hip hlow hhigh hne ⊢
  rw [hkey, hip]
  refine ⟨hafter.inverse.insert hkey hip, fun ip k hk => ?_, hafter.low, hafter.high, fun k hk => ?_⟩
  · by_cases hipe : ip = found
    · rw [hipe]
      exact ⟨hlow, hhigh⟩
    · exact hafter.between ip k ((update_of_ne hipe _ _).symm.trans hk)
  · exact hafter.own k ((update_of_ne hne.symm _ _).symm.trans hk)

/-- A key that an address is asked for has one, or the range has a new one. -/
def FineAddress (c : ExitConfig Key) (op : Op Key PathID Cb) (s : ExitEndpoint Key PathID Cb) : Prop :=
  ∀ pk order, asks c op = some (pk, order) →
    s.keyToIP pk ≠ none ∨ s.nextAddr < c.ourRange.highestAddr

lemma Assigned.step (h : s.Assigned c) (haddr : c.ourRange.addr ≠ 0)
    (hfine : FineAddress c op s) (hs : step c op s = .ok s') : s'.Assigned c := by
  cases (step_does hs).addresses with
  | asked pk now order hasks heq => exact (h.getIPForIdent (hfine pk order hasks) now).congr heq
  | kicked pk heq => exact (h.kick haddr pk).congr heq
  | marked now ip heq => exact (h.markIPActive now ip).congr heq
  | kept heq => exact h.congr heq

lemma assigned_start {n : ℕ} (hn : n ≤ 128) (hmask : c.ourRange.netmaskBits = netmaskIpv6Bits n) :
    (start c : ExitEndpoint Key PathID Cb).Assigned c := by
  refine ⟨inverse_empty.insert rfl rfl, fun ip k hip => ?_, BitVec.le_refl _, IPRange.le_highestAddr hn hmask,
    fun k hk => ?_⟩
  · by_cases hipe : ip = c.ourRange.addr
    · rw [hipe]
      exact ⟨BitVec.le_refl _, BitVec.le_refl _⟩
    unfold start at hip
    dsimp only at hip
    rw [update_of_ne hipe] at hip
    cases hip
  · unfold start at hk
    dsimp only at hk
    rw [update_self] at hk
    exact (some.inj hk).symm

/-- If every new key finds a new address the maps are inverse, all addresses are in the range, and
the interface's belongs to the router only. -/
theorem exit_addresses_inverse {n : ℕ} (hn : n ≤ 128) (hmask : c.ourRange.netmaskBits = netmaskIpv6Bits n)
    (haddr : c.ourRange.addr ≠ 0) (h : Run.Reaches (step c) (FineAddress c) (start c) s) :
    Inverse s.keyToIP s.ipToKey ∧ (∀ ip k, s.ipToKey ip = some k → c.ourRange.contains ip = true) ∧
      ∀ k, s.ipToKey c.ourRange.addr = some k → k = c.us := by
  have hinv : s.Assigned c := h.inv (fun _ _ _ ha => ha.step haddr) (assigned_start hn hmask)
  refine ⟨hinv.inverse, fun ip k hip => ?_, hinv.own⟩
  obtain ⟨hlow, hhigh⟩ := hinv.between ip k hip
  exact IPRange.contains_of_between hn hmask hlow (BitVec.le_trans hhigh hinv.high)

def sampleConfig : ExitConfig ℕ := ⟨0, 99, ⟨0xffff0a000001, netmaskIpv6Bits 126⟩, true⟩

theorem exit_addresses_inverse_sample : sampleConfig.ourRange.addr ≠ 0 ∧
    ∃ s, exec (step sampleConfig) [.getIPForIdent 1 5 [], .getIPForIdent 2 6 [], .kickIdentOffExit 1,
        .getIPForIdent 2 7 []] (start sampleConfig : ExitEndpoint ℕ ℕ ℕ) = .ok s ∧
      s.ipToKey 0xffff0a000003 = some 2 ∧ Inverse s.keyToIP s.ipToKey := by
  let start' : ExitEndpoint ℕ ℕ ℕ := start sampleConfig
  have hreach : Run.Reaches (step sampleConfig) (FineAddress sampleConfig) start' _ :=
    .tail (.getIPForIdent 2 7 []) (.tail (.kickIdentOffExit 1) (.tail (.getIPForIdent 2 6 [])
      (.tail (.getIPForIdent 1 5 []) .refl (by rintro _ _ ⟨⟩; exact .inr (by decide +kernel)) rfl)
      (by rintro _ _ ⟨⟩; exact .inr (by decide +kernel)) rfl) nofun rfl)
      (by rintro _ _ ⟨⟩; exact .inl (by decide +kernel)) rfl
  exact ⟨by decide, _, rfl, by decide +kernel,
    (exit_addresses_inverse (by norm_num) rfl (by decide) hreach).1⟩

/-- In `10.0.0.1/30` the third client gets the address 0, and loses it when a key without an address
is kicked; in `10.0.0.1/32` the first one gets it. -/
theorem exit_addresses_mixed :
    (∃ s, exec (step sampleConfig) [.getIPForIdent 1 5 [], .getIPForIdent 2 6 [], .getIPForIdent 3 7
        [0xffff0a000001, 0xffff0a000002, 0xffff0a000003]] (start sampleConfig : ExitEndpoint ℕ ℕ ℕ) = .ok s ∧
      s.keyToIP 3 = some 0 ∧ s.ipToKey 0 = some 3 ∧ sampleConfig.ourRange.contains 0 = false ∧
      (s.kickIdentOffExit 9).keyToIP 3 = some 0 ∧ (s.kickIdentOffExit 9).ipToKey 0 = none) ∧
    (∃ s, exec (step { sampleConfig with ourRange := ⟨0xffff0a000001, netmaskIpv6Bits 128⟩ })
        [.getIPForIdent 1 5 [0xffff0a000001]]
        (start { sampleConfig with ourRange := ⟨0xffff0a000001, netmaskIpv6Bits 128⟩ } : ExitEndpoint ℕ ℕ ℕ) = .ok s ∧
      s.ipToKey 0 = some 1) := by
  exact ⟨ok_sat, ok_sat⟩

def Bound (s : ExitEndpoint Key PathID Cb) : Prop :=
  ∀ path pk ep, s.paths path = some pk → ep ∈ s.activeExits → ep.key = pk → ep.currentPath = some path

lemma Shrinks.bound (h : Shrinks s s') (hb : s.Bound) : s'.Bound :=
  fun path pk ep hpath hep hkey => hb path pk ep (h.paths path pk hpath) (h.exits ep hep) hkey

/-- The hop of a new exit is found, its client has no exit on another path, and no endpoint is moved. -/
def FinePath (c : ExitConfig Key) : Op Key PathID Cb → ExitEndpoint Key PathID Cb → Prop
  | .allocateNewExit pk path wantInternet handler _ _ _ _, s =>
    (wantInternet && !c.permitExit) = true ∨ handler = none ∨
      handler = some path ∧ (∀ other, s.paths other = some pk → other = path) ∧
        ∀ ep ∈ s.activeExits, ep.key = pk → ep.currentPath = some path
  | .updateExit path next pick verified _, s =>
    verified = false ∨ s.findEndpointByPath pick path = none ∨ s.paths next ≠ none
  | _, _ => True

lemma Bound.allocateNewExit (hb : s.Bound) {wantInternet : Bool} {handler : Option PathID}
    {prevIsRouter : Bool} {pos : ℕ}
    (hfine : FinePath c (.allocateNewExit pk path wantInternet handler prevIsRouter pos now order) s) :
    (s.allocateNewExit c pk path wantInternet handler prevIsRouter pos now order).2.Bound := by
  rcases hfine with hrefused | rfl | ⟨rfl, hpaths, hexits⟩
  · unfold ExitEndpoint.allocateNewExit
    rw [if_pos hrefused]
    exact hb
  · unfold ExitEndpoint.allocateNewExit
    split <;> exact hb
  unfold ExitEndpoint.allocateNewExit
  split
  · exact hb
  have hshrinks := shrinks_getIP (c := c) (s := s) pk now order
  generalize s.getIPForIdent c pk now order = r at hshrinks ⊢
  obtain ⟨ip, _⟩ := r
  intro other key ep hother hep hkey
  dsimp only at hother hep hshrinks
  have hmem : ep = ⟨pk, some path, ip⟩ ∨ ep ∈ s.activeExits := by
    rcases mem_append.mp hep with h | h
    · exact .inr (hshrinks.exits ep (mem_of_mem_take h))
    rcases mem_cons.mp h with h | h
    · exact .inl h
    · exact .inr (hshrinks.exits ep (mem_of_mem_drop h))
  by_cases hpath : other = path
  · -- the key filed under the path is that of the new endpoint
    rw [hpath, update_self] at hother
    obtain rfl := some.inj hother
    rw [hpath]
    rcases hmem with rfl | hmem
    · rfl
    · exact hexits ep hmem hkey
  · rw [update_of_ne hpath] at hother
    have hold := hshrinks.paths other key hother
    rcases hmem with rfl | hmem
    · obtain rfl : pk = key := hkey
      exact absurd (hpaths other hold) hpath
    · exact hb other key ep hold hmem hkey

lemma Bound.step (hb : s.Bound) (hfine : FinePath c op s) (hs : step c op s = .ok s') : s'.Bound := by
  cases op with
  | allocateNewExit pk path wantInternet handler =>
    cases hs
    exact hb.allocateNewExit hfine
  | updateExit path next pick verified handler =>
    cases hs
    unfold updateExit
    split
    · exact hb
    rename_i ep hep
    split
    · exact hb
    rename_i hmoves
    rw [Bool.not_eq_true, Bool.or_eq_false_iff, Bool.not_eq_false', isSome_eq_false_iff, isNone_iff_eq_none] at hmoves
    rcases hfine with hno | hno | hno
    · rw [hno] at hmoves
      cases hmoves.1
    · rw [hep] at hno
      cases hno
    · exact absurd hmoves.2 hno
  | _ => exact ((step_does hs).exits rfl).bound hb

lemma findEndpointByPath_some {pick : ℕ}
    (h : s.findEndpointByPath pick path = some ep) : s.paths path = some ep.key ∧ ep ∈ s.activeExits := by
  unfold findEndpointByPath at h
  split at h
  · cases h
  rename_i pk hpk
  have hmem := mem_of_getElem? h
  have hkey : ep.key = pk := of_decide_eq_true (mem_filter.mp hmem).2
  exact ⟨by rw [hpk, hkey], mem_of_mem_filter hmem⟩

lemma mem_closeExit {pick : ℕ} {verified sent : Bool} {e : Exit Key PathID} (he : e ∈ s.activeExits)
    (hother : ∀ ep, s.findEndpointByPath pick path = some ep → e.currentPath ≠ ep.currentPath) :
    e ∈ (s.closeExit path pick verified sent).activeExits := by
  unfold closeExit
  split
  · exact he
  rename_i ep hep
  split
  · unfold removeExit
    dsimp only
    split
    · exact he
    refine (mem_eraseP_of_neg ?_).mpr he
    rw [decide_eq_false (hother ep hep), Bool.and_false]
    exact Bool.false_ne_true
  · exact he

/-- If clients have exits on one path only and no endpoint is moved, the endpoint found by a path is on it, and closing
takes no other away. -/
theorem endpoint_on_its_path (h : Run.Reaches (step c) (FinePath c) (start c) s) :
    (∀ pick path ep, s.findEndpointByPath pick path = some ep → ep ∈ s.activeExits ∧ ep.currentPath = some path) ∧
      ∀ path pick verified sent, ∀ e ∈ s.activeExits, e.currentPath ≠ some path →
        e ∈ (s.closeExit path pick verified sent).activeExits := by
  have hb : s.Bound := h.inv (fun _ _ _ ha => ha.step) fun _ _ _ hpath => (nomatch hpath)
  have hfound : ∀ pick path ep, s.findEndpointByPath pick path = some ep →
      ep ∈ s.activeExits ∧ ep.currentPath = some path := by
    intro pick path ep hep
    obtain ⟨hpath, hmem⟩ := findEndpointByPath_some hep
    exact ⟨hmem, hb path ep.key ep hpath hmem rfl⟩
  refine ⟨hfound, fun path pick verified sent e he hne => mem_closeExit he fun ep hep => ?_⟩
  rw [(hfound pick path ep hep).2]
  exact hne

theorem endpoint_on_its_path_sample :
    ∃ s : ExitEndpoint ℕ ℕ ℕ, Run.Reaches (step sampleConfig) (FinePath sampleConfig) (start sampleConfig) s ∧
      ∃ ep, s.findEndpointByPath 0 7 = some ep ∧ ep.currentPath = some 7 := by
  have hreach : Run.Reaches (step sampleConfig) (FinePath sampleConfig) (start sampleConfig : ExitEndpoint ℕ ℕ ℕ)
      ((start sampleConfig : ExitEndpoint ℕ ℕ ℕ).allocateNewExit sampleConfig 1 7 true (some 7) false 0 5 []).2 :=
    .tail (.allocateNewExit 1 7 true (some 7) false 0 5 []) .refl
      (.inr (.inr ⟨rfl, fun _ h => (nomatch h), fun _ h => (nomatch h)⟩)) rfl
  exact ⟨_, hreach, ⟨1, some 7, 0xffff0a000002⟩, by decide +kernel,
    ((endpoint_on_its_path hreach).1 0 7 _ (by decide +kernel)).2⟩

/-- A client with exits on 7 and 8 closes that of 8, and that of 7 goes.  An endpoint moved from 7 to 8 is still found
by 7. -/
theorem endpoint_on_other_path : (∃ s, exec (step sampleConfig) [.allocateNewExit 1 7 true (some 7) false 0 5 [],
          .allocateNewExit 1 8 true (some 8) false 1 6 []] (start sampleConfig : ExitEndpoint ℕ ℕ ℕ) = .ok s ∧
      s.findEndpointByPath 0 8 = some ⟨1, some 7, 0xffff0a000002⟩ ∧
      (s.closeExit 8 0 true true).activeExits = [⟨1, some 8, 0xffff0a000002⟩]) ∧
    (∃ s, exec (step sampleConfig) [.allocateNewExit 1 7 true (some 7) false 0 5 [],
          .updateExit 7 8 0 true (some 8)] (start sampleConfig : ExitEndpoint ℕ ℕ ℕ) = .ok s ∧
      s.findEndpointByPath 0 7 = some ⟨1, some 8, 0xffff0a000002⟩) := by
  exact ⟨ok_sat, ok_sat⟩

def NoNull (s : ExitEndpoint Key PathID Cb) : Prop := ∀ router, s.mnodeSessions.lookup router ≠ some none

lemma hasNull_eq_false (h : s.NoNull) : s.hasNullSession = false := by
  apply any_eq_false.mpr
  rintro ⟨router, entry⟩ he hnone
  have hlookup := mem_lookup_iff.mpr he
  obtain rfl : entry = none := isNone_iff_eq_none.mp hnone
  exact h router hlookup

structure Live (c : ExitConfig Key) (s : ExitEndpoint Key PathID Cb) : Prop where
  noNull : s.NoNull
  us : s.mnodeKeys c.us = true

lemma Live.resumes (h : s.Live c) (hr : Resumes s s') : s'.Live c :=
  ⟨fun router hnull => h.noNull router (hr.null router hnull), hr.keys c.us h.us⟩

def FineSession (_ : ExitConfig Key) : Op Key PathID Cb → ExitEndpoint Key PathID Cb → Prop
  | .obtainMNodeSession router _ allowed _ _, s =>
    allowed = false ∨ s.mnodeKeys router = false ∨ router ∈ s.mnodeSessions
  | _, _ => True

lemma Live.obtainMNodeSession_iff (h : s.Live c) (router : Key) (cb : Cb) (now : ℕ) (order : List IP) :
    (∃ s', s.obtainMNodeSession c router cb true now order = .ok s') ↔
      s.mnodeKeys router = false ∨ router ∈ s.mnodeSessions := by
  have hafter := h.resumes (resumes_obtainIP (c := c) router now order)
  have hdone : (∃ s', s.obtainMNodeSession c router cb true now order = .ok s') ↔
      router ∈ (s.obtainMasterNodeIP c router now order).2.mnodeSessions := by
    rw [← lookup_isSome]
    unfold obtainMNodeSession
    dsimp only
    cases hlookup : (s.obtainMasterNodeIP c router now order).2.mnodeSessions.lookup router with
    | none => exact ⟨fun ⟨_, h'⟩ => (nomatch h'), fun h' => (nomatch h')⟩
    | some entry =>
      cases entry with
      | none => exact absurd hlookup (hafter.noNull router)
      | some => exact ⟨fun _ => rfl, fun _ => ⟨_, rfl⟩⟩
  rw [hdone]
  cases hkey : s.mnodeKeys router with
  | true =>
    rw [show (s.obtainMasterNodeIP c router now order).2.mnodeSessions = s.mnodeSessions from
      (Prod.ext_iff.mp (obtainIP_of_mem hkey now order)).2]
    exact ⟨.inr, fun h' => h'.resolve_left (fun h' => nomatch h')⟩
  | false =>
    have hus : router ≠ c.us := fun heq => by rw [heq, h.us] at hkey; cases hkey
    rw [show (s.obtainMasterNodeIP c router now order).2.mnodeSessions = s.mnodeSessions.insert router (some ⟨[]⟩) from
      (Prod.ext_iff.mp (obtainIP_of_notMem hus hkey now order)).2]
    exact ⟨fun _ => .inl rfl, fun _ => mem_insert _ |>.mpr (.inl rfl)⟩

lemma Live.step_fault_iff (h : s.Live c) (op : Op Key PathID Cb) :
    (∃ e, True ∧ step c op s = .error e) ↔ ¬ FineSession c op s := by
  have hnone : ∀ {r : ExitEndpoint Key PathID Cb}, (∃ e : SessionFault, True ∧ (.ok r : Except SessionFault _) = .error e) ↔
      ¬ True := ⟨fun ⟨_, _, he⟩ => (nomatch he), fun hn => absurd trivial hn⟩
  cases op with
  | obtainMNodeSession router cb allowed now order =>
    cases allowed with
    | false => exact ⟨fun ⟨_, _, he⟩ => (nomatch he), fun hn => absurd (.inl rfl) hn⟩
    | true =>
      have hiff := h.obtainMNodeSession_iff router cb now order
      show (∃ e, True ∧ s.obtainMNodeSession c router cb true now order = .error e) ↔ ¬ (true = false ∨ _)
      rw [← hiff]
      cases s.obtainMNodeSession c router cb true now order with
      | error e => exact ⟨fun _ hn => hn.elim (fun hn => nomatch hn) fun ⟨_, hn⟩ => (nomatch hn), fun _ => ⟨e, trivial, rfl⟩⟩
      | ok s' => exact ⟨fun ⟨_, _, he⟩ => (nomatch he), fun hn => absurd (.inr ⟨s', rfl⟩) hn⟩
  | flush =>
    simp only [step, flush, hasNull_eq_false h.noNull]
    exact hnone
  | tick =>
    simp only [step, tick, hasNull_eq_false h.noNull]
    exact hnone
  | _ => exact hnone

lemma live_start : (start c : ExitEndpoint Key PathID Cb).Live c :=
  ⟨fun _ hnull => (nomatch hnull), decide_eq_true rfl⟩

/-- No null pointer is met exactly when sessions are asked for only with routers that are no master nodes yet or have
one; then no entry is null, and an allowed callback waits for a session. -/
theorem sessions_live_iff (c : ExitConfig Key) (ops : List (Op Key PathID Cb)) :
    ((∃ s, exec (step c) ops (start c) = .ok s) ↔ Run.Obeys (step c) (FineSession c) ops (start c)) ∧
      ∀ s, exec (step c) ops (start c) = .ok s → (∀ router, s.mnodeSessions.lookup router ≠ some none) ∧
        ∀ router cb now order s', step c (.obtainMNodeSession router cb true now order) s = .ok s' →
          ∃ session, s'.mnodeSessions.lookup router = some (some session) ∧ cb ∈ session.pending := by
  constructor
  · rw [← no_fault_iff_of_inv (fun _ _ _ hl hs => hl.resumes (step_does hs).sessions) (fun _ => True)
      (fun op _ hl => hl.step_fault_iff op) ops _ live_start]
    cases exec (step c) ops (start c) with
    | error e => exact ⟨fun ⟨_, h⟩ => (nomatch h), fun h => absurd rfl (h e trivial)⟩
    | ok s => exact ⟨fun _ _ _ h => (nomatch h), fun _ => ⟨s, rfl⟩⟩
  · intro s hs
    have hreach : Run.Reaches (step c) (fun _ _ => True) (start c) s := exec_reaches (fun _ _ _ => trivial) hs
    have hlive : s.Live c := hreach.inv (fun _ _ _ hl _ hs => hl.resumes (step_does hs).sessions) live_start
    refine ⟨hlive.noNull, fun router cb now order s' hs' => ?_⟩
    simp only [step, obtainMNodeSession] at hs'
    split at hs'
    · rename_i hno
      exact absurd hno (by decide)
    split at hs'
    · rw [← Except.ok.inj hs']
      exact ⟨_, AList.lookup_insert _, mem_append_right _ mem_cons_self⟩
    · cases hs'

theorem sessions_live_iff_one : ∃ s, exec (step sampleConfig)
    [.obtainMNodeSession 5 70 true 3 [], .obtainMNodeSession 5 71 true 4 []] (start sampleConfig : ExitEndpoint ℕ ℕ ℕ) = .ok s :=
  (sessions_live_iff sampleConfig _).1.mpr ⟨.inr (.inl (by decide)), fun s' hs' => ⟨.inr (.inr (by
      obtain ⟨session, hlookup, -⟩ := ((sessions_live_iff sampleConfig []).2 _ rfl).2 5 70 3 [] s' hs'
      exact AList.lookup_isSome.mp (by rw [hlookup]; rfl))), fun _ _ => trivial⟩⟩

/-- There is no session to the router itself, to a master node whose session has expired, and to one that came as a client. -/
theorem session_is_null :
    exec (step sampleConfig) [.obtainMNodeSession 0 70 true 3 []] (start sampleConfig : ExitEndpoint ℕ ℕ ℕ) =
        .error .nullSession ∧
      exec (step sampleConfig) [.obtainMNodeSession 5 70 true 3 [], .tick (fun _ => true) (fun _ => false),
        .obtainMNodeSession 5 71 true 400000 []] (start sampleConfig : ExitEndpoint ℕ ℕ ℕ) = .error .nullSession ∧
      exec (step sampleConfig) [.allocateNewExit 5 7 false (some 7) true 0 3 [], .obtainMNodeSession 5 70 true 4 []]
        (start sampleConfig : ExitEndpoint ℕ ℕ ℕ) = .error .nullSession := by
  exact ⟨exec_fault (by decide +kernel), exec_fault (by decide +kernel), exec_fault (by decide +kernel)⟩

end ExitEndpoint

end Belnet.Handlers
