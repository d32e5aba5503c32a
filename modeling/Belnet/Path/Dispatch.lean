import Belnet.Path.Build

/-!
# Which hop a message is for

The lookups of `llarp/path/path_context.cpp`, with `SendLRCM` and `SendPathConfirm` of
`llarp/messages/relay_commit.cpp`, which install hops.
-/

namespace Belnet.Path
open List PathContext

open Iwp (Millis SecretKey)

inductive HopHandler (α : Type) where
  | path (p : α)
  | transitHop (hop : TransitHop)

def mapGet {α : Type} (map : List (PathID × α)) (k : PathID) (check : α → Bool) : Option α :=
  (map.find? fun e => e.1 = k && check e.2).map Prod.snd

structure Paths (α : Type) where
  ctx : PathContext
  ourPaths : List (PathID × α)

namespace Paths
variable {α : Type}

section
variable (us : RouterID) (encryption : SecretKey) (allowTransit : Bool)

def init : Paths α where
  ctx :=
    { us := us
      encryption := encryption
      allowTransit := allowTransit
      pathToRouterAllowed := fun _ => true
      transitPaths := []
      pathLimits := [] }
  ourPaths := []

def getByUpstream (s : Paths α) (remote : RouterID) (id : PathID) : Option (HopHandler α) :=
  match mapGet s.ourPaths id fun _ => true with
  | some own => some (.path own)
  | none => (mapGet s.ctx.transitPaths id fun hop => hop.info.upstream = remote).map .transitHop

def getByDownstream (s : Paths α) (remote : RouterID) (id : PathID) : Option (HopHandler α) :=
  (mapGet s.ctx.transitPaths id fun hop => hop.info.downstream = remote).map .transitHop

def expired (destroy : TransitHop → Bool) (now : Millis) (hop : TransitHop) : Bool :=
  destroy hop || hop.started + hop.lifetime ≤ now

inductive Op (α : Type) where
  | build (allowed : RouterID → Bool) (m : LRCommitMessage) (hop : TransitHop) (frames : Frames)
  /-- `ExpirePaths`, with the flags of the hops, the addresses that do not decay, and the paths of this router that expire -/
  | expirePaths (now : Millis) (destroy : TransitHop → Bool) (limited : BitVec 128 → Bool) (pathExpired : α → Bool)

def expirePaths (now : Millis) (destroy : TransitHop → Bool) (limited : BitVec 128 → Bool) (pathExpired : α → Bool)
    (s : Paths α) : Paths α where
  ctx :=
    { s.ctx with
      pathLimits := s.ctx.pathLimits.filter limited
      transitPaths := s.ctx.transitPaths.filter fun e => !expired destroy now e.2 }
  ourPaths := s.ourPaths.filter fun e => !pathExpired e.2

def step : Op α → Paths α → Except Empty (Paths α)
  | .build allowed m hop frames, s =>
    .ok { s with ctx := (finish { s.ctx with pathToRouterAllowed := allowed } m hop frames).1 }
  | .expirePaths now destroy limited pathExpired, s => .ok (s.expirePaths now destroy limited pathExpired)

def Installed (s : Paths α) (hop : TransitHop) : Prop := ∃ id, (id, hop) ∈ s.ctx.transitPaths

structure Distinct (s : Paths α) : Prop where
  upstream : ∀ remote ≠ s.ctx.us, ∀ id hop hop', s.Installed hop → s.Installed hop' →
    hop.info.upstream = remote → hop.info.txID = id → hop'.info.upstream = remote → hop'.info.txID = id → hop = hop'
  downstream : ∀ remote ≠ s.ctx.us, ∀ id hop hop', s.Installed hop → s.Installed hop' →
    hop.info.downstream = remote → hop.info.rxID = id → hop'.info.downstream = remote → hop'.info.rxID = id → hop = hop'

structure Unambiguous (s : Paths α) : Prop extends Distinct s where
  byUpstream : ∀ remote ≠ s.ctx.us, ∀ id hop, s.getByUpstream remote id = some (.transitHop hop) →
    hop.info.txID = id ∧ hop.info.upstream = remote
  byDownstream : ∀ remote ≠ s.ctx.us, ∀ id hop, s.getByDownstream remote id = some (.transitHop hop) →
    hop.info.rxID = id ∧ hop.info.downstream = remote

def Unlike (s : Paths α) (info : TransitHopInfo) : Prop :=
  (info.upstream ≠ s.ctx.us → ∀ hop, s.Installed hop → hop.info.upstream = info.upstream → hop.info.txID ≠ info.txID) ∧
  (info.downstream ≠ s.ctx.us → ∀ hop, s.Installed hop → hop.info.downstream = info.downstream → hop.info.rxID ≠ info.rxID)

def OneId (info : TransitHopInfo) : Prop := info.txID = info.rxID ∨ (info.upstream = us ∧ info.downstream = us)

def BuildUnlike : Op α → Paths α → Prop
  | .build allowed m hop _, s => Admits { s.ctx with pathToRouterAllowed := allowed } m hop → s.Unlike hop.info
  | .expirePaths .., _ => True

def BuildOneId : Op α → Paths α → Prop
  | .build allowed m hop _, s => Admits { s.ctx with pathToRouterAllowed := allowed } m hop → OneId s.ctx.us hop.info
  | .expirePaths .., _ => True

/-- a hop is in the map under both of its ids and under no other one, and there are no paths of this router -/
structure Inv (s : Paths α) : Prop where
  ours : s.ourPaths = []
  txID : ∀ hop, s.Installed hop → (hop.info.txID, hop) ∈ s.ctx.transitPaths
  key : ∀ id hop, (id, hop) ∈ s.ctx.transitPaths → id = hop.info.txID ∨ id = hop.info.rxID

lemma inv_init : Inv (init us encryption allowTransit : Paths α) where
  ours := rfl
  txID := by rintro hop ⟨id, ⟨⟩⟩
  key := by rintro id hop ⟨⟩

variable {hop : TransitHop} {s : Paths α} {g : TransitHop}

lemma Inv.not_installed (hs : s.Inv) {allowed : RouterID → Bool} {m : LRCommitMessage}
    (h : Admits { s.ctx with pathToRouterAllowed := allowed } m hop) (hg : s.Installed g) : g.info ≠ hop.info := by
  intro hinfo
  have hhas : s.ctx.hasTransitHop hop.info = true := by
    unfold hasTransitHop
    rw [any_eq_true]
    exact ⟨_, hs.txID g hg, by simp [hinfo]⟩
  have hnot : s.ctx.hasTransitHop hop.info = false := h.1
  rw [hhas] at hnot
  cases hnot

lemma finish_us (ctx : PathContext) (m : LRCommitMessage) (hop : TransitHop) (frames : Frames) :
    (finish ctx m hop frames).1.us = ctx.us := by
  unfold finish sendPathConfirm sendLRCM checkPathLimitHitByIP
  cases m.fromAddr <;> dsimp only <;> repeat' split
  all_goals rfl

variable {s' : Paths α} {op : Op α}

lemma step_us (h : step op s = .ok s') : s'.ctx.us = s.ctx.us := by
  cases op with
  | build allowed m hop frames =>
    cases h
    exact finish_us _ m hop frames
  | expirePaths =>
    cases h
    rfl

lemma step_cases (h : step op s = .ok s') : (∃ allowed m hop frames, op = .build allowed m hop frames ∧
      Admits { s.ctx with pathToRouterAllowed := allowed } m hop ∧ s'.ourPaths = s.ourPaths ∧
      s'.ctx.transitPaths = (hop.info.txID, hop) :: (hop.info.rxID, hop) :: s.ctx.transitPaths) ∨
    (BuildUnlike op s ∧ BuildOneId op s ∧ s'.ourPaths.Sublist s.ourPaths ∧
      ∃ keep : TransitHop → Bool, s'.ctx.transitPaths = s.ctx.transitPaths.filter fun e => keep e.2) := by
  cases op with
  | build allowed m hop frames =>
    cases h
    by_cases hadmits : Admits { s.ctx with pathToRouterAllowed := allowed } m hop
    · exact .inl ⟨allowed, m, hop, frames, rfl, hadmits, rfl, (finish_of_admits hadmits).1⟩
    refine .inr ⟨fun h => absurd h hadmits, fun h => absurd h hadmits, Sublist.refl _, fun _ => true, ?_⟩
    rw [filter_true]
    exact finish_of_not_admits hadmits
  | expirePaths now destroy =>
    cases h
    exact .inr ⟨trivial, trivial, filter_sublist, fun hop => !expired destroy now hop, rfl⟩

lemma installed_put
    (h : s'.ctx.transitPaths = (hop.info.txID, hop) :: (hop.info.rxID, hop) :: s.ctx.transitPaths) (g : TransitHop) :
    s'.Installed g ↔ g = hop ∨ s.Installed g := by
  unfold Installed
  rw [h]
  simp only [mem_cons, Prod.mk.injEq]
  constructor
  · rintro ⟨id, ⟨-, rfl⟩ | ⟨-, rfl⟩ | hg⟩
    · exact .inl rfl
    · exact .inl rfl
    · exact .inr ⟨id, hg⟩
  · rintro (rfl | ⟨id, hg⟩)
    · exact ⟨_, .inl ⟨rfl, rfl⟩⟩
    · exact ⟨id, .inr (.inr hg)⟩

lemma installed_filter {keep : TransitHop → Bool}
    (h : s'.ctx.transitPaths = s.ctx.transitPaths.filter fun e => keep e.2) (hg : s'.Installed g) :
    s.Installed g ∧ keep g = true := by
  obtain ⟨id, hid⟩ := hg
  rw [h, mem_filter] at hid
  exact ⟨⟨id, hid.1⟩, hid.2⟩

lemma Inv.step (hs : s.Inv) (h : step op s = .ok s') : s'.Inv := by
  rcases step_cases h with ⟨_, m, _, _, -, -, hours, hpaths⟩ | ⟨-, -, hours, _, hpaths⟩
  · refine ⟨hours.trans hs.ours, fun g hg => ?_, fun id g hg => ?_⟩
    · rw [hpaths]
      rcases (installed_put hpaths g).mp hg with rfl | hg
      · exact mem_cons_self
      · exact mem_cons_of_mem _ (mem_cons_of_mem _ (hs.txID g hg))
    · rw [hpaths] at hg
      simp only [mem_cons] at hg
      rcases hg with ⟨rfl, rfl⟩ | ⟨rfl, rfl⟩ | hg
      · exact .inl rfl
      · exact .inr rfl
      · exact hs.key id g hg
  · refine ⟨sublist_nil.mp (hs.ours ▸ hours), fun g hg => ?_, fun id g hg => ?_⟩
    · obtain ⟨hg, hkeep⟩ := installed_filter hpaths hg
      rw [hpaths, mem_filter]
      exact ⟨hs.txID g hg, hkeep⟩
    · rw [hpaths, mem_filter] at hg
      exact hs.key id g hg.1

lemma injOn_step (hs : s.Inv) (hinj : Set.InjOn TransitHop.info {g | s.Installed g}) (h : step op s = .ok s') :
    Set.InjOn TransitHop.info {g | s'.Installed g} := by
  rcases step_cases h with ⟨_, m, hop, _, -, hadmits, -, hpaths⟩ | ⟨-, -, -, _, hpaths⟩
  · have hin : {g | s'.Installed g} = insert hop {g | s.Installed g} := Set.ext (installed_put hpaths)
    have hnew : hop ∉ {g | s.Installed g} := fun hmem => hs.not_installed hadmits hmem rfl
    refine hin ▸ (Set.injOn_insert hnew).mpr ⟨hinj, ?_⟩
    rintro ⟨g, hg, hinfo⟩
    exact hs.not_installed hadmits hg hinfo
  · exact hinj.mono fun g hg => (installed_filter hpaths hg).1

/-- What one new hop asks of the hops before it, for a neighbour and an id read off each hop. -/
lemma unique_put_iff {S S' : TransitHop → Prop} {us : RouterID} (far : TransitHop → RouterID) (num : TransitHop → PathID)
    (hnew : ∀ g, S g → g.info ≠ hop.info) (hin : ∀ g, S' g ↔ g = hop ∨ S g)
    (hd : ∀ remote ≠ us, ∀ id g g', S g → S g' → far g = remote → num g = id → far g' = remote → num g' = id → g = g') :
    (∀ remote ≠ us, ∀ id g g', S' g → S' g' → far g = remote → num g = id → far g' = remote → num g' = id → g = g') ↔
      (far hop ≠ us → ∀ g, S g → far g = far hop → num g ≠ num hop) := by
  constructor
  · intro hd' hus g hg hfar hnum
    refine hnew g hg (congrArg _ ?_)
    exact hd' _ hus _ g hop ((hin g).mpr (.inr hg)) ((hin hop).mpr (.inl rfl)) hfar hnum rfl rfl
  · intro hunlike remote hremote id g g' hg hg' hfar hnum hfar' hnum'
    rcases (hin g).mp hg with rfl | hg <;> rcases (hin g').mp hg' with rfl | hg'
    · rfl
    · exact absurd (hnum'.trans hnum.symm) (hunlike (hfar ▸ hremote) g' hg' (hfar'.trans hfar.symm))
    · exact absurd (hnum.trans hnum'.symm) (hunlike (hfar' ▸ hremote) g hg (hfar.trans hfar'.symm))
    · exact hd remote hremote id g g' hg hg' hfar hnum hfar' hnum'

lemma Distinct.put_iff (hus : s'.ctx.us = s.ctx.us)
    (hnew : ∀ g, s.Installed g → g.info ≠ hop.info) (hin : ∀ g, s'.Installed g ↔ g = hop ∨ s.Installed g)
    (hd : s.Distinct) : s'.Distinct ↔ s.Unlike hop.info := by
  have hup := unique_put_iff (·.info.upstream) (·.info.txID) hnew hin hd.upstream
  have hdown := unique_put_iff (·.info.downstream) (·.info.rxID) hnew hin hd.downstream
  rw [← hus] at hup hdown
  unfold Unlike
  rw [← hus]
  exact ⟨fun h => ⟨hup.mp h.upstream, hdown.mp h.downstream⟩, fun h => ⟨hup.mpr h.1, hdown.mpr h.2⟩⟩

lemma Distinct.mono (hus : s'.ctx.us = s.ctx.us) (hin : ∀ g, s'.Installed g → s.Installed g)
    (hd : s.Distinct) : s'.Distinct where
  upstream remote hremote id g g' hg hg' := hd.upstream remote (hus ▸ hremote) id g g' (hin g hg) (hin g' hg')
  downstream remote hremote id g g' hg hg' := hd.downstream remote (hus ▸ hremote) id g g' (hin g hg) (hin g' hg')

lemma Distinct.step_iff (hs : s.Inv) (hd : s.Distinct) (h : step op s = .ok s') : s'.Distinct ↔ BuildUnlike op s := by
  have hus := step_us h
  rcases step_cases h with ⟨_, m, _, _, rfl, hadmits, -, hpaths⟩ | ⟨hunlike, -, -, _, hpaths⟩
  · rw [hd.put_iff hus (fun _ => hs.not_installed hadmits) (installed_put hpaths)]
    exact ⟨fun h _ => h, fun h => h hadmits⟩
  · exact ⟨fun _ => hunlike, fun _ => hd.mono hus fun g hg => (installed_filter hpaths hg).1⟩

lemma mapGet_some {β : Type} {map : List (PathID × β)} {k : PathID} {check : β → Bool} {b : β}
    (h : mapGet map k check = some b) : (k, b) ∈ map ∧ check b = true := by
  obtain ⟨⟨_, _⟩, hfind, rfl⟩ := Option.map_eq_some_iff.mp h
  have hpred := find?_some hfind
  simp only [Bool.and_eq_true, decide_eq_true_eq] at hpred
  obtain ⟨rfl, hcheck⟩ := hpred
  exact ⟨mem_of_find?_eq_some hfind, hcheck⟩

variable {remote : RouterID} {id : PathID}

lemma transit_some {P : TransitHop → Prop} [DecidablePred P]
    (h : (mapGet s.ctx.transitPaths id fun hop => decide (P hop)).map (HopHandler.transitHop (α := α)) =
      some (.transitHop hop)) : (id, hop) ∈ s.ctx.transitPaths ∧ P hop := by
  obtain ⟨g, hg, heq⟩ := Option.map_eq_some_iff.mp h
  cases heq
  obtain ⟨hmem, hcheck⟩ := mapGet_some hg
  exact ⟨hmem, of_decide_eq_true hcheck⟩

lemma getByUpstream_some (h : s.getByUpstream remote id = some (.transitHop hop)) :
    (id, hop) ∈ s.ctx.transitPaths ∧ hop.info.upstream = remote := by
  unfold getByUpstream at h
  split at h
  · cases h
  exact transit_some h

lemma getByDownstream_some (h : s.getByDownstream remote id = some (.transitHop hop)) :
    (id, hop) ∈ s.ctx.transitPaths ∧ hop.info.downstream = remote := by
  exact transit_some h

lemma Distinct.unambiguous (hs : s.Inv) (hd : s.Distinct)
    (hone : ∀ hop, s.Installed hop → OneId s.ctx.us hop.info) : s.Unambiguous where
  toDistinct := hd
  byUpstream remote hremote id hop h := by
    obtain ⟨hmem, hup⟩ := getByUpstream_some h
    refine ⟨?_, hup⟩
    rcases hone hop ⟨id, hmem⟩ with heq | hus
    · rcases hs.key id hop hmem with rfl | rfl
      · rfl
      · exact heq
    · exact absurd (hup.symm.trans hus.1) hremote
  byDownstream remote hremote id hop h := by
    obtain ⟨hmem, hdown⟩ := getByDownstream_some h
    refine ⟨?_, hdown⟩
    rcases hone hop ⟨id, hmem⟩ with heq | hus
    · rcases hs.key id hop hmem with rfl | rfl
      · exact heq.symm
      · rfl
    · exact absurd (hdown.symm.trans hus.2) hremote

lemma oneId_of_put (hours : s'.ourPaths = [])
    (hpaths : s'.ctx.transitPaths = (hop.info.txID, hop) :: (hop.info.rxID, hop) :: s.ctx.transitPaths)
    (hs' : s'.Unambiguous) : OneId s'.ctx.us hop.info := by
  by_cases hup : hop.info.upstream = s'.ctx.us
  · by_cases hdown : hop.info.downstream = s'.ctx.us
    · exact .inr ⟨hup, hdown⟩
    -- from below it is found under the id for above
    have hfound : s'.getByDownstream hop.info.downstream hop.info.txID = some (.transitHop hop) := by
      unfold getByDownstream mapGet
      rw [hpaths, find?_cons_of_pos (by simp)]
      rfl
    exact .inl (hs'.byDownstream _ hdown _ hop hfound).1.symm
  · by_cases heq : hop.info.txID = hop.info.rxID
    · exact .inl heq
    have hfound : s'.getByUpstream hop.info.upstream hop.info.rxID = some (.transitHop hop) := by
      unfold getByUpstream mapGet
      rw [hours, hpaths, find?_cons_of_neg (by simp [heq]), find?_cons_of_pos (by simp)]
      rfl
    exact .inl (hs'.byUpstream _ hup _ hop hfound).1

def Plain (s : Paths α) : Prop := s.Distinct ∧ ∀ hop, s.Installed hop → OneId s.ctx.us hop.info

lemma plain_init : Plain (init us encryption allowTransit : Paths α) := by
  have hnone : ∀ hop, ¬ (init us encryption allowTransit : Paths α).Installed hop := by rintro hop ⟨_, ⟨⟩⟩
  exact ⟨⟨fun _ _ _ hop _ h => absurd h (hnone hop), fun _ _ _ hop _ h => absurd h (hnone hop)⟩,
    fun hop h => absurd h (hnone hop)⟩

lemma Plain.step_iff (hs : s.Inv) (hp : s.Plain) (h : step op s = .ok s') :
    s'.Plain ↔ BuildUnlike op s ∧ BuildOneId op s := by
  have hd := hp.1.step_iff hs h
  have hus := step_us h
  unfold Plain
  rw [hd, hus]
  rcases step_cases h with ⟨_, m, hop, _, rfl, hadmits, -, hpaths⟩ | ⟨-, hone, -, _, hpaths⟩
  · refine and_congr_right fun _ => ⟨fun h _ => h hop ((installed_put hpaths hop).mpr (.inl rfl)), fun h g hg => ?_⟩
    rcases (installed_put hpaths g).mp hg with rfl | hg
    · exact h hadmits
    · exact hp.2 g hg
  · exact and_congr_right fun _ => ⟨fun _ => hone, fun _ g hg => hp.2 g (installed_filter hpaths hg).1⟩

lemma Plain.of_unambiguous (hs : s.Inv) (hp : s.Plain) (h : step op s = .ok s') (hs' : s'.Unambiguous) : s'.Plain := by
  refine ⟨hs'.toDistinct, fun g hg => ?_⟩
  rcases step_cases h with ⟨_, m, _, _, -, -, -, hpaths⟩ | ⟨-, -, -, _, hpaths⟩
  · rcases (installed_put hpaths g).mp hg with rfl | hg
    · exact oneId_of_put (hs.step h).ours hpaths hs'
    · rw [step_us h]
      exact hp.2 g hg
  · rw [step_us h]
    exact hp.2 g (installed_filter hpaths hg).1

/-- In any order of requests and expiry a router and an id belong to one hop at most exactly if every admitted request
is unlike the hops there; the lookups find that hop only, exactly if these requests also have one id. -/
theorem dispatch_unambiguous_iff (ops : List (Op α)) : (Run.Always step Distinct ops (init us encryption allowTransit) ↔
      Run.Obeys step BuildUnlike ops (init us encryption allowTransit)) ∧
    (Run.Always step Unambiguous ops (init us encryption allowTransit) ↔
      Run.Obeys step (fun op s => BuildUnlike op s ∧ BuildOneId op s) ops (init us encryption allowTransit)) := by
  have hinv := inv_init (α := α) us encryption allowTransit
  have hplain := plain_init (α := α) us encryption allowTransit
  have hstep : ∀ (op : Op α) s s', Inv s → step op s = .ok s' → Inv s' := fun _ _ _ hs h => hs.step h
  have hnofault : ∀ (op : Op α) (s : Paths α) (e : Empty), step op s = .error e → False := fun _ _ e _ => e.elim
  constructor
  · exact Run.always_iff_obeys hstep (fun op s e h => (hnofault op s e h).elim)
      (fun _ _ _ hs hd => hd.step_iff hs) ops _ hinv hplain.1
  · rw [Run.always_congr hstep (fun s hs hp => hp.1.unambiguous hs hp.2)
      (fun _ _ _ hs hp => hp.of_unambiguous hs) ops _ hinv hplain]
    exact Run.always_iff_obeys hstep (fun op s e h => (hnofault op s e h).elim)
      (fun _ _ _ hs hp => hp.step_iff hs) ops _ hinv hplain

end

/-- Two requests for one upstream router with one id: only one of the two paths is found from there.  The first alone
is found from upstream under its downstream id. -/
theorem two_paths_one_id :
    let us : RouterID := .zero 32
    let up : RouterID := ⟨1 :: replicate 31 0, rfl⟩
    let id : Fin 3 → PathID := fun i => ⟨.ofNat (i + 1) :: replicate 15 0, rfl⟩
    let hop : Fin 2 → TransitHop := fun i =>
      { info := ⟨id 0, id i.succ, up, ⟨.ofNat (i + 2) :: replicate 31 0, rfl⟩⟩
        pathKey := .zero 32, nonceXOR := .zero 32, started := 0, lifetime := defaultLifetime }
    let build : Fin 2 → Op Unit := fun i =>
      .build (fun _ => true) ⟨.replicate 8 (.new 0), (hop i).info.downstream, none⟩ (hop i) (.replicate 8 (.new 0))
    ∃ s₁ s₂, step (build 0) (init us (.zero 64) true) = .ok s₁ ∧ step (build 1) s₁ = .ok s₂ ∧
      s₁.getByUpstream up (id 1) = some (.transitHop (hop 0)) ∧
      s₂.Installed (hop 0) ∧ s₂.Installed (hop 1) ∧ s₂.getByUpstream up (id 0) = some (.transitHop (hop 1)) ∧
      ¬ s₁.Unambiguous ∧ ¬ s₂.Distinct := by
  intro us up id hop build
  have hup : up ≠ us := fun h => absurd (congrArg List.Vector.head h) (by decide)
  have hids : id 0 ≠ id 1 := fun h => absurd (congrArg List.Vector.head h) (by decide)
  have hhops : hop 0 ≠ hop 1 := by decide
  refine ⟨_, _, rfl, rfl, rfl, ⟨id 0, by decide +kernel⟩, ⟨id 0, by decide +kernel⟩, rfl, fun h => ?_, fun h => ?_⟩
  · exact hids (h.byUpstream up hup (id 1) (hop 0) rfl).1
  · exact hhops (h.upstream up hup (id 0) (hop 0) (hop 1) ⟨id 0, by decide +kernel⟩ ⟨id 0, by decide +kernel⟩ rfl rfl rfl rfl)

/-- A hop is in the map under its `txID` and no ids but its two, and no two hops have the same ids and neighbours. -/
theorem hops_told_apart (us : RouterID) (encryption : SecretKey) (allowTransit : Bool) (ops : List (Op α)) :
    Run.Always step (fun s => Inv s ∧ Set.InjOn TransitHop.info {g | s.Installed g}) ops
      (init us encryption allowTransit) := by
  refine Run.always_of_inv (fun _ _ _ hs h => ⟨hs.1.step h, injOn_step hs.1 hs.2 h⟩) (fun _ h => h) ops ⟨inv_init .., ?_⟩
  rintro _ ⟨_, ⟨⟩⟩

end Paths

end Belnet.Path
