import Belnet.Path.Messages

/-!
# The newest path to a router

`GetNewestPathByRouter` of `llarp/path/pathset.cpp` and the cache that `Tick` fills for it.

* `PathSet.step`  what happens to the paths, and `PathInfo.after` to one of them;
* `getPathByRouter_eq`, `search_eq`  the two searches: least latency, and latest expiry;
* `lock_run`  the path behind a weak pointer is what became of the path it was made for;
* `newest_iff`  when the answer is the newest path, by what was true at the last `Tick`.
-/

namespace Belnet.Path.PathSets
open List

/-- A path that is alive: its number tells it from all others, `member` says whether `m_Paths` has
it or only someone else holds it. -/
structure PathInfo where
  number : ℕ
  endpoint : RouterID
  member : Bool
  ready : Bool
  latency : ℕ
  expiresAt : ℕ
deriving DecidableEq

structure PathSet where
  live : List PathInfo := []
  cache : RouterID → Option ℕ := fun _ => none
  next : ℕ := 0

/-- `pos` is the place of a new path in the hash map; `keeps`: someone else holds an expired path -/
inductive Op where
  | addPath (endpoint : RouterID) (ready : Bool) (latency expiresAt pos : ℕ)
  | expirePaths (expired keeps : PathInfo → Bool)
  | tick
  | change (number : ℕ) (ready : Bool) (latency expiresAt : ℕ)
  | release (number : ℕ)

/-- what becomes of a path; `none` if it is destroyed -/
def PathInfo.after (p : PathInfo) : Op → Option PathInfo
  | .expirePaths expired keeps =>
    if p.member && expired p then if keeps p then some { p with member := false } else none
    else some p
  | .change number ready latency expiresAt =>
    if p.number = number then some { p with ready, latency, expiresAt } else some p
  | .release number => if p.number = number && !p.member then none else some p
  | _ => some p

namespace PathSet
variable (s : PathSet) (id : RouterID)

/-- a weak pointer to the path with the number `n` -/
def lock (n : ℕ) : Option PathInfo := s.live.find? (·.number = n)

def readyTo : List PathInfo := s.live.filter fun p => p.member && p.ready && p.endpoint = id

def getPathByRouter : Option PathInfo :=
  (s.readyTo id).foldl (fun chosen p =>
    match chosen with
    | none => some p
    | some c => if c.latency ≠ 0 ∧ c.latency > p.latency then some p else some c) none

def search : Option PathInfo :=
  (s.readyTo id).foldl (fun chosen p =>
    match chosen with
    | none => some p
    | some c => if c.expiresAt < p.expiresAt then some p else some c) none

def getNewestPathByRouter : Option PathInfo :=
  match s.cache id with
  | some n => s.lock n
  | none => s.search id

def tick : PathSet :=
  { s with cache := fun ep =>
      if s.live.any fun p => p.member && p.endpoint = ep then
        (s.getPathByRouter ep).map PathInfo.number
      else none }

def step (s : PathSet) : Op → PathSet
  | .addPath endpoint ready latency expiresAt pos =>
    { s with
      live := s.live.take pos ++ ⟨s.next, endpoint, true, ready, latency, expiresAt⟩ :: s.live.drop pos
      next := s.next + 1 }
  | .tick => s.tick
  | op => { s with live := s.live.filterMap (·.after op) }

def run (ops : List Op) : PathSet := ops.foldl step {}

/-- what the answer should be: a path with the latest expiry of the ready ones, and none only if
there is no such path -/
def Newest (chosen : Option PathInfo) : Prop :=
  (∀ p ∈ chosen, p ∈ s.readyTo id ∧ ∀ q ∈ s.readyTo id, q.expiresAt ≤ p.expiresAt) ∧
    (chosen = none → s.readyTo id = [])

variable {s id}

lemma mem_readyTo {p : PathInfo} :
    p ∈ s.readyTo id ↔ p ∈ s.live ∧ p.member = true ∧ p.ready = true ∧ p.endpoint = id := by
  simp [readyTo, and_assoc]

/-! ## the two searches -/

lemma search_eq : s.search id = (s.readyTo id).argmax PathInfo.expiresAt := by
  unfold search argmax
  congr 1
  funext chosen p
  cases chosen <;> rfl

lemma search_newest : s.Newest id (s.search id) := by
  rw [search_eq]
  exact ⟨fun p hp => ⟨argmax_mem hp, fun q hq => le_of_mem_argmax hq hp⟩, argmax_eq_none.mp⟩

/-- the latency 0 is the least, so it needs no case of its own -/
lemma getPathByRouter_eq : s.getPathByRouter id = (s.readyTo id).argmin PathInfo.latency := by
  unfold getPathByRouter argmin
  congr 1
  funext chosen p
  cases chosen with
  | none => rfl
  | some c =>
    have hiff : (c.latency ≠ 0 ∧ c.latency > p.latency) ↔ p.latency < c.latency := by omega
    simp only [hiff]
    rfl

lemma tick_cache : s.tick.cache id
    = ((s.readyTo id).argmin PathInfo.latency).map PathInfo.number := by
  unfold tick
  dsimp only
  rw [getPathByRouter_eq]
  split
  · rfl
  rename_i hnone
  have hempty : s.readyTo id = [] := by
    refine eq_nil_iff_forall_not_mem.mpr fun p hp => hnone ?_
    obtain ⟨hlive, hmember, -, hend⟩ := mem_readyTo.mp hp
    exact any_eq_true.mpr ⟨p, hlive, by simp [hmember, hend]⟩
  rw [hempty]
  rfl

/-! ## one path through a run -/

lemma after_same {p q : PathInfo} {op : Op} (h : p.after op = some q) :
    q.number = p.number ∧ q.endpoint = p.endpoint := by
  cases op <;> simp only [PathInfo.after] at h <;> (try split_ifs at h) <;> cases h <;> exact ⟨rfl, rfl⟩

/-- numbers are not given twice -/
structure Numbered (s : PathSet) : Prop where
  distinct : (s.live.map PathInfo.number).Nodup
  below : ∀ p ∈ s.live, p.number < s.next

lemma Numbered.lock_iff (h : s.Numbered) {n : ℕ} {p : PathInfo} :
    s.lock n = some p ↔ p ∈ s.live ∧ p.number = n := by
  constructor
  · intro hp
    exact ⟨mem_of_find?_eq_some hp, by simpa using find?_some hp⟩
  · rintro ⟨hmem, rfl⟩
    cases hfound : s.lock p.number with
    | none => exact absurd (decide_eq_true rfl) (find?_eq_none.mp hfound p hmem)
    | some q =>
      have hq : q.number = p.number := by simpa using find?_some hfound
      rw [inj_on_of_nodup_map h.distinct (mem_of_find?_eq_some hfound) hmem hq]

lemma step_live {op : Op} {p : PathInfo} (hp : p.number < s.next) :
    p ∈ (s.step op).live ↔ ∃ q ∈ s.live, q.after op = some p := by
  cases op with
  | addPath endpoint ready latency expiresAt pos =>
    have hnew : p ≠ ⟨s.next, endpoint, true, ready, latency, expiresAt⟩ := by
      rintro rfl
      exact absurd hp (lt_irrefl _)
    have hsplit : p ∈ s.live ↔ p ∈ s.live.take pos ∨ p ∈ s.live.drop pos := by
      rw [← mem_append, take_append_drop]
    simp [step, PathInfo.after, hnew, hsplit]
  | tick => simp [step, tick, PathInfo.after]
  | _ => exact mem_filterMap

lemma numbers_sublist (op : Op) (l : List PathInfo) :
    (l.filterMap (·.after op)).map PathInfo.number <+ l.map PathInfo.number := by
  induction l with
  | nil => exact .slnil
  | cons p l ih =>
    cases hp : p.after op with
    | none =>
      rw [filterMap_cons, hp]
      exact ih.cons _
    | some q =>
      rw [filterMap_cons, hp, map_cons, map_cons, (after_same hp).1]
      exact ih.cons_cons _

lemma Numbered.step (h : s.Numbered) (op : Op) :
    (s.step op).Numbered ∧ s.next ≤ (s.step op).next := by
  cases op with
  | addPath endpoint ready latency expiresAt pos =>
    have hperm : (s.step (.addPath endpoint ready latency expiresAt pos)).live.Perm
        (⟨s.next, endpoint, true, ready, latency, expiresAt⟩ :: s.live) := by
      refine perm_middle.trans ?_
      rw [take_append_drop]
    have hnew : s.next ∉ s.live.map PathInfo.number := by
      intro hmem
      obtain ⟨p, hp, hnum⟩ := mem_map.mp hmem
      exact absurd (h.below p hp) (by omega)
    refine ⟨⟨(hperm.map _).nodup_iff.mpr (nodup_cons.mpr ⟨hnew, h.distinct⟩), fun p hp => ?_⟩,
      Nat.le_succ _⟩
    rcases mem_cons.mp (hperm.mem_iff.mp hp) with rfl | hp
    · exact Nat.lt_succ_self _
    · exact Nat.lt_succ_of_lt (h.below p hp)
  | tick => exact ⟨⟨h.distinct, h.below⟩, le_rfl⟩
  | _ =>
    refine ⟨⟨h.distinct.sublist (numbers_sublist _ _), fun p hp => ?_⟩, le_rfl⟩
    obtain ⟨q, hq, hqp⟩ := mem_filterMap.mp hp
    rw [(after_same hqp).1]
    exact h.below q hq

lemma numbered_run (ops : List Op) : (run ops).Numbered := by
  unfold run
  induction ops using reverseRecOn with
  | nil => exact ⟨nodup_nil, fun _ hp => nomatch hp⟩
  | append_singleton ops op ih =>
    rw [foldl_append]
    exact (ih.step op).1

lemma Numbered.lock_step (h : s.Numbered) {n : ℕ} (hn : n < s.next) (op : Op) :
    (s.step op).lock n = (s.lock n).bind (·.after op) := by
  ext p
  rw [(h.step op).1.lock_iff, Option.bind_eq_some_iff]
  constructor
  · rintro ⟨hp, rfl⟩
    obtain ⟨q, hq, hqp⟩ := (step_live hn).mp hp
    exact ⟨q, h.lock_iff.mpr ⟨hq, (after_same hqp).1.symm⟩, hqp⟩
  · rintro ⟨q, hq, hqp⟩
    obtain ⟨hlive, rfl⟩ := h.lock_iff.mp hq
    obtain ⟨hnum, -⟩ := after_same hqp
    exact ⟨(step_live (hnum ▸ hn)).mpr ⟨q, hlive, hqp⟩, hnum⟩

lemma lock_run (since : List Op) : ∀ {s : PathSet} {n : ℕ}, s.Numbered → n < s.next →
    (since.foldl step s).lock n = (s.lock n).bind (since.foldlM PathInfo.after) := by
  induction since with
  | nil => exact fun _ _ => (Option.bind_fun_some _).symm
  | cons op since ih =>
    intro s n h hn
    obtain ⟨hnext, hle⟩ := h.step op
    rw [foldl_cons, ih hnext (lt_of_lt_of_le hn hle), h.lock_step hn, Option.bind_assoc]
    rfl

lemma after_endpoint (since : List Op) : ∀ {c p : PathInfo},
    since.foldlM PathInfo.after c = some p → p.endpoint = c.endpoint := by
  induction since with
  | nil =>
    intro c p h
    cases h
    rfl
  | cons op since ih =>
    intro c p h
    rw [foldlM_cons] at h
    obtain ⟨q, hq, hp⟩ := Option.bind_eq_some_iff.mp h
    exact (ih hp).trans (after_same hq).2

lemma cache_kept {since : List Op} (hsince : ∀ op ∈ since, op ≠ .tick) :
    (since.foldl step s).cache = s.cache := by
  induction since generalizing s with
  | nil => rfl
  | cons op since ih =>
    rw [foldl_cons, ih fun op' hmem => hsince op' (mem_cons_of_mem _ hmem)]
    cases op with
    | tick => exact absurd rfl (hsince .tick mem_cons_self)
    | _ => rfl

/-- Before the first `Tick` the answer is right.  After it, it is the path `c` that had the least
latency of the ready ones at the last `Tick`: the answer is right exactly when what became of `c`
is still in the set, ready and expires last, or `c` is destroyed and no path is ready. -/
theorem newest_iff (id : RouterID) {since : List Op} (hsince : ∀ op ∈ since, op ≠ .tick) :
    (run since).Newest id ((run since).getNewestPathByRouter id) ∧ ∀ before : List Op,
      let s := run (before ++ .tick :: since)
      s.Newest id (s.getNewestPathByRouter id) ↔
        ∀ c, ((run before).readyTo id).argmin PathInfo.latency = some c →
          (∀ p, since.foldlM PathInfo.after c = some p → p.member = true ∧ p.ready = true ∧
            ∀ q ∈ s.readyTo id, q.expiresAt ≤ p.expiresAt) ∧
          (since.foldlM PathInfo.after c = none → s.readyTo id = []) := by
  have hcache (s : PathSet) : (since.foldl step s).cache id = s.cache id :=
    congrFun (cache_kept hsince) id
  constructor
  · have hnone : (run since).cache id = none := hcache {}
    unfold getNewestPathByRouter
    rw [hnone]
    exact search_newest
  intro before
  have hrun : run (before ++ .tick :: since) = since.foldl step (run before).tick := by
    unfold run
    rw [foldl_append]
    rfl
  rw [hrun]
  have hnumbered : (since.foldl step (run before).tick).Numbered := hrun ▸ numbered_run _
  dsimp only
  unfold getNewestPathByRouter
  rw [hcache, tick_cache]
  cases hleast : ((run before).readyTo id).argmin PathInfo.latency with
  | none => exact iff_of_true search_newest nofun
  | some c =>
    obtain ⟨hlive, -, -, hend⟩ := mem_readyTo.mp (argmin_mem hleast)
    have htick : (run before).tick.Numbered := ((numbered_run before).step .tick).1
    have hlock : (since.foldl step (run before).tick).lock c.number
        = since.foldlM PathInfo.after c := by
      rw [lock_run since htick (htick.below c hlive), htick.lock_iff.mpr ⟨hlive, rfl⟩]
      rfl
    have hready {p : PathInfo} (hp : since.foldlM PathInfo.after c = some p) :
        p ∈ (since.foldl step (run before).tick).readyTo id ↔ p.member = true ∧ p.ready = true := by
      have hmem := (hnumbered.lock_iff.mp (hlock.trans hp)).1
      have hid : p.endpoint = id := (after_endpoint since hp).trans hend
      rw [mem_readyTo]
      exact ⟨fun h => ⟨h.2.1, h.2.2.1⟩, fun h => ⟨hmem, h.1, h.2, hid⟩⟩
    rw [Option.map_some]
    dsimp only
    rw [hlock]
    constructor
    · rintro ⟨hsome, hnone⟩ c' heq
      cases heq
      refine ⟨fun p hp => ?_, hnone⟩
      obtain ⟨hin, hmax⟩ := hsome p hp
      exact ⟨((hready hp).mp hin).1, ((hready hp).mp hin).2, hmax⟩
    · intro h
      obtain ⟨hsome, hnone⟩ := h c rfl
      refine ⟨fun p hp => ?_, hnone⟩
      obtain ⟨hmember, hr, hmax⟩ := hsome p hp
      exact ⟨(hready hp).mpr ⟨hmember, hr⟩, hmax⟩

namespace Sample

def before : List Op := [.addPath (.zero 32) true 5 30 0, .addPath (.zero 32) true 9 20 0]

def since : List Op := [.change 1 true 2 25, .addPath (.zero 32) true 1 10 0]

def stale : List Op := [.addPath (.zero 32) true 5 10 0, .addPath (.zero 32) true 9 20 1, .tick]

end Sample

open Sample in
/-- the path with the least latency expires last, and stays the newest when another one changes and
a third is added -/
theorem newest_iff_least : (run (before ++ .tick :: since)).Newest (.zero 32)
    ((run (before ++ .tick :: since)).getNewestPathByRouter (.zero 32)) := by
  refine ((newest_iff (.zero 32) ?_).2 before).mpr fun c hc => ?_
  · intro op hop
    fin_cases hop <;> nofun
  have hleast : ((run before).readyTo (.zero 32)).argmin PathInfo.latency
      = some ⟨0, .zero 32, true, true, 5, 30⟩ := by decide +kernel
  obtain rfl := Option.some.inj (hleast.symm.trans hc)
  exact ⟨fun p hp => by cases hp; decide +kernel, nofun⟩

open Sample in
/-- the first path is cached, and the second one expires later -/
theorem cached_not_newest :
    ¬ (run stale).Newest (.zero 32) ((run stale).getNewestPathByRouter (.zero 32)) := by
  intro h
  have hchosen : (run stale).getNewestPathByRouter (.zero 32)
      = some ⟨0, .zero 32, true, true, 5, 10⟩ := by decide +kernel
  have hmax := (h.1 _ hchosen).2 ⟨1, .zero 32, true, true, 9, 20⟩ (by decide +kernel)
  exact absurd hmax (by decide)

end PathSet

end Belnet.Path.PathSets
