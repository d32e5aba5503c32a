import Mathlib

/-!
# Reachability tests of routers

`llarp/consensus/reachability_testing.cpp`, and the testing timer of `Router::Run`.

* `nextRandom`  a call of `next_random`, which may go on with a refilled queue;
* `random_test_iff`  when it finds a router to test;
* `RouterTesting.step`  a tick of the timer, a test that is started, a session attempt that is answered;
* `failing_routers_retested`  no failing router is forgotten.
-/

namespace Belnet.Router
open List Function

/-- the back of the queue comes first -/
structure ReachabilityTesting (R : Type) where
  testingQueue : List R := []
  nextGeneralTest : ℤ
  failing : R → Bool := fun _ => false

namespace ReachabilityTesting
variable {R : Type} [DecidableEq R] (us : R) (now interval : ℤ) (refill : List R) (s : ReachabilityTesting R)

def pull (failing : R → Bool) : List R → Option R × List R
  | [] => (none, [])
  | pk :: queue => if pk ≠ us ∧ failing pk = false then (some pk, queue) else pull failing queue

/-- a call of `next_random` that ends with `exhausted` when the queue is -/
def nextRandomOr (exhausted : ReachabilityTesting R → Option R × ReachabilityTesting R) :
    Option R × ReachabilityTesting R :=
  if now < s.nextGeneralTest then (none, s)
  else
    let s := { s with nextGeneralTest := now + interval }
    match pull us s.failing s.testingQueue with
    | (some pk, queue) => (some pk, { s with testingQueue := queue })
    | (none, queue) => exhausted { s with testingQueue := queue }

/-- `interval` and `interval'` are drawn by the call and by the one it makes, `refill` is the shuffled whitelist -/
def nextRandom (interval' : ℤ) (requeue : Bool) : Option R × ReachabilityTesting R :=
  s.nextRandomOr us now interval fun s =>
    if !requeue then (none, s)
    else nextRandomOr us now interval' { s with testingQueue := refill } fun s => (none, s)

/-- the routers that calls without a refill return, each with the routers that are failing at its time -/
def returned (s : ReachabilityTesting R) : List (ℤ × ℤ × (R → Bool)) → List R
  | [] => []
  | (now, interval, failing) :: calls =>
    let r := { s with failing }.nextRandomOr us now interval fun s => (none, s)
    r.1.toList ++ returned r.2 calls

lemma pull_spec (failing : R → Bool) (queue : List R) :
    (∀ pk, (pull us failing queue).1 = some pk → pk ≠ us ∧ failing pk = false) ∧
      ((pull us failing queue).1.isSome ↔ ∃ pk ∈ queue, pk ≠ us ∧ failing pk = false) ∧
      ∀ pk, (pull us failing queue).1.toList.count pk + (pull us failing queue).2.count pk ≤ queue.count pk := by
  induction queue with
  | nil => exact ⟨nofun, ⟨nofun, nofun⟩, fun _ => le_rfl⟩
  | cons pk' queue ih =>
    rw [pull]
    by_cases hpk : pk' ≠ us ∧ failing pk' = false
    · rw [if_pos hpk]
      refine ⟨fun pk h => by cases h; exact hpk, ⟨fun _ => ⟨pk', mem_cons_self, hpk⟩, fun _ => rfl⟩, fun pk => ?_⟩
      exact (@count_append _ _ pk [pk'] queue).ge
    · rw [if_neg hpk]
      refine ⟨ih.1, ih.2.1.trans ⟨fun ⟨pk, h, hgood⟩ => ⟨pk, mem_cons_of_mem _ h, hgood⟩, ?_⟩, fun pk => ?_⟩
      · rintro ⟨pk, h, hgood⟩
        rcases mem_cons.mp h with rfl | h
        · exact absurd hgood hpk
        · exact ⟨pk, h, hgood⟩
      · exact (ih.2.2 pk).trans count_le_count_cons

lemma nextRandomOr_count (pk : R) :
    (s.nextRandomOr us now interval fun s => (none, s)).1.toList.count pk +
      (s.nextRandomOr us now interval fun s => (none, s)).2.testingQueue.count pk ≤ s.testingQueue.count pk := by
  have hpull := (pull_spec us s.failing s.testingQueue).2.2 pk
  unfold nextRandomOr
  by_cases hearly : now < s.nextGeneralTest
  · rw [if_pos hearly]
    exact (Nat.zero_add _).le
  rw [if_neg hearly]
  dsimp only
  generalize pull us s.failing s.testingQueue = r at hpull ⊢
  obtain ⟨found, queue⟩ := r
  cases found with
  | none => exact hpull
  | some found => exact hpull

lemma returned_count (pk : R) (calls : List (ℤ × ℤ × (R → Bool))) :
    (s.returned us calls).count pk ≤ s.testingQueue.count pk := by
  induction calls generalizing s with
  | nil => exact Nat.zero_le _
  | cons call calls ih =>
    obtain ⟨now, interval, failing⟩ := call
    rw [returned, count_append]
    exact (Nat.add_le_add_left (ih _) _).trans (nextRandomOr_count us now interval { s with failing } pk)

/-- An exhausted queue is refilled, but the call that is to go on with it comes before the time that was just set. -/
theorem random_test_iff (h : s.nextGeneralTest ≤ now) (hwhite : ∃ pk ∈ refill, pk ≠ us ∧ s.failing pk = false)
    (interval' : ℤ) :
    ((∃ pk, (s.nextRandom us now interval refill interval' true).1 = some pk ∧ pk ≠ us ∧ s.failing pk = false) ↔
      interval ≤ 0 ∨ ∃ pk ∈ s.testingQueue, pk ≠ us ∧ s.failing pk = false) ∧
    ∀ calls pk, (s.returned us calls).count pk ≤ s.testingQueue.count pk := by
  refine ⟨?_, fun calls pk => returned_count us s pk calls⟩
  have hqueue := pull_spec us s.failing s.testingQueue
  have hrefill := pull_spec us s.failing refill
  unfold nextRandom nextRandomOr
  rw [if_neg (not_lt.mpr h)]
  dsimp only
  generalize pull us s.failing s.testingQueue = r at hqueue ⊢
  obtain ⟨found, queue⟩ := r
  cases found with
  | some pk => exact iff_of_true ⟨pk, rfl, hqueue.1 pk rfl⟩ (.inr (hqueue.2.1.mp rfl))
  | none =>
    have hnone : ¬ ∃ pk ∈ s.testingQueue, pk ≠ us ∧ s.failing pk = false := fun h =>
      absurd (hqueue.2.1.mpr h) Bool.false_ne_true
    dsimp only
    rw [Bool.not_true, if_neg Bool.false_ne_true]
    by_cases hpos : interval ≤ 0
    · -- no time was added, so that the call goes on with the refilled queue
      have hfound := hrefill.2.1.mpr hwhite
      rw [if_neg (by omega)]
      generalize pull us s.failing refill = r at hrefill hfound ⊢
      obtain ⟨found, queue⟩ := r
      cases found with
      | none => cases hfound
      | some pk => exact iff_of_true ⟨pk, rfl, hrefill.1 pk rfl⟩ (.inl hpos)
    · rw [if_pos (by omega)]
      exact iff_of_false (fun ⟨pk, h, _⟩ => nomatch h) (not_or.mpr ⟨hpos, hnone⟩)

/-- the own router and a failing one are passed over -/
theorem random_test_iff_first :
    ∃ pk, (nextRandom 1 0 10000 [2] { testingQueue := [1, 4, 3], nextGeneralTest := 0, failing := (· = 4) } 9000 true).1 =
      some pk ∧ pk ≠ 1 ∧ decide (pk = 4) = false :=
  (random_test_iff 1 0 10000 [2] ⟨[1, 4, 3], 0, (· = 4)⟩ le_rfl (by decide) 9000).1.mpr (.inr (by decide))

/-- the first call tests no router of the whitelist -/
theorem first_call_skips : (nextRandom 1 0 10000 [2, 1] { nextGeneralTest := 0 } 9000 true).1 = none := by decide

end ReachabilityTesting

/-! ## the testing timer -/

structure FailingPK (R : Type) where
  pk : R
  retestTime : ℤ
  failures : ℕ

abbrev maxRetestsPerTick : ℕ := 4

abbrev testingBackoff : ℤ := 10000

abbrev testingBackoffMax : ℤ := 120000

/-- the tests that the loop of the timer has still to start, and the session attempts that are not answered -/
structure RouterTesting (R : Type) extends ReachabilityTesting R where
  failingQueue : List (FailingPK R) := []
  tests : List (R × ℕ) := []
  inFlight : List (R × ℕ) := []

inductive TestingOp (R : Type) where
  | tick (now interval interval' : ℤ) (refill : List R)
  | start (allowed : Bool)
  | answer (attempt : ℕ) (established : Bool) (now interval : ℤ)

namespace RouterTesting
open ReachabilityTesting
variable {R : Type} [DecidableEq R] (us : R) (s : RouterTesting R) (now interval : ℤ)

def getFailing (failing : R → Bool) : ℕ → List (FailingPK R) → List (R × ℕ) × List (FailingPK R)
  | 0, queue => ([], queue)
  | _ + 1, [] => ([], [])
  | room + 1, e :: queue =>
    if now < e.retestTime then ([], e :: queue)
    else if failing e.pk then
      let r := getFailing failing room queue
      ((e.pk, e.failures) :: r.1, r.2)
    else getFailing failing (room + 1) queue

def addFailingNode (pk : R) (previousFailures : ℕ) : RouterTesting R :=
  let nextTestIn := min (previousFailures * testingBackoff + interval) testingBackoffMax
  { s with
    failing := update s.failing pk true
    failingQueue := s.failingQueue.orderedInsert (·.retestTime ≤ ·.retestTime)
      ⟨pk, now + nextTestIn, previousFailures + 1⟩ }

def removeNodeFromFailing (pk : R) : RouterTesting R := { s with failing := update s.failing pk false }

def step : TestingOp R → RouterTesting R
  | .tick now interval interval' refill =>
    if s.tests = [] then
      let due := getFailing now s.failing maxRetestsPerTick s.failingQueue
      let next := s.nextRandom us now interval refill interval' true
      { s with toReachabilityTesting := next.2, failingQueue := due.2, tests := due.1 ++ next.1.toList.map (·, 0) }
    else s
  | .start allowed => match s.tests with
    | [] => s
    | test :: tests =>
      let s := { s with tests }
      if allowed then { s with inFlight := s.inFlight ++ [test] } else s.removeNodeFromFailing test.1
  | .answer attempt established now interval => match s.inFlight[attempt]? with
    | none => s
    | some (router, previousFails) =>
      let s := { s with inFlight := s.inFlight.eraseIdx attempt }
      if established then s.removeNodeFromFailing router else s.addFailingNode now interval router previousFails

/-- a failing router is queued, has a test in flight or one that the loop has still to start -/
def Covered : Prop := ∀ r, s.failing r = true →
  r ∈ s.failingQueue.map FailingPK.pk ∨ r ∈ s.inFlight.map Prod.fst ∨ r ∈ s.tests.map Prod.fst

/-- a failing router is queued for a retest or has a test in flight, whenever the timer's loop is not running -/
def Retested : Prop :=
  s.tests = [] → ∀ r, s.failing r = true → r ∈ s.failingQueue.map FailingPK.pk ∨ r ∈ s.inFlight.map Prod.fst

variable {s}

omit [DecidableEq R] in
lemma getFailing_keeps {failing : R → Bool} {r : R} (hr : failing r = true) (room : ℕ) (queue : List (FailingPK R))
    (h : r ∈ queue.map FailingPK.pk) : r ∈ (getFailing now failing room queue).2.map FailingPK.pk ∨
      r ∈ (getFailing now failing room queue).1.map Prod.fst := by
  fun_induction getFailing now failing room queue with
  | case1 | case3 => exact .inl h
  | case2 => cases h
  | case4 room e queue hdue hfails due ih =>
    rcases mem_cons.mp h with rfl | h
    · exact .inr mem_cons_self
    · exact (ih h).imp_right (mem_cons_of_mem _)
  | case5 room e queue hdue hfails ih =>
    rcases mem_cons.mp h with rfl | h
    · exact absurd hr hfails
    · exact ih h

lemma nextRandomOr_failing (s : ReachabilityTesting R) {exhausted : ReachabilityTesting R → Option R × ReachabilityTesting R}
    (h : ∀ s', (exhausted s').2.failing = s'.failing) :
    (s.nextRandomOr us now interval exhausted).2.failing = s.failing := by
  unfold nextRandomOr
  split
  · rfl
  dsimp only
  split
  · rfl
  · exact h _

lemma nextRandom_failing (interval' : ℤ) (refill : List R) (s : ReachabilityTesting R) :
    (s.nextRandom us now interval refill interval' true).2.failing = s.failing := by
  exact nextRandomOr_failing us now interval s fun s' => nextRandomOr_failing us now interval' _ fun _ => rfl

lemma addFailingNode_queue (pk : R) (fails : ℕ) (r : R) :
    r ∈ (s.addFailingNode now interval pk fails).failingQueue.map FailingPK.pk ↔
      r = pk ∨ r ∈ s.failingQueue.map FailingPK.pk := by simp [addFailingNode, eq_comm]

lemma still_failing {failing : R → Bool} {pk r : R} (h : update failing pk false r = true) :
    r ≠ pk ∧ failing r = true := by
  by_cases hr : r = pk
  · rw [hr, update_self] at h
    cases h
  · rw [update_of_ne hr] at h
    exact ⟨hr, h⟩

lemma Covered.tick (h : s.Covered) (now interval interval' : ℤ) (refill : List R) :
    (s.step us (.tick now interval interval' refill)).Covered := by
  intro r hr
  unfold RouterTesting.step at hr ⊢
  dsimp only at hr ⊢
  by_cases htests : s.tests = []
  · rw [if_pos htests] at hr ⊢
    have hfails : s.failing r = true := nextRandom_failing us now interval interval' refill _ ▸ hr
    rcases h r hfails with hqueue | hflight | htest
    · refine (getFailing_keeps now hfails maxRetestsPerTick _ hqueue).imp_right fun hdue => .inr ?_
      rw [map_append]
      exact mem_append_left _ hdue
    · exact .inr (.inl hflight)
    · rw [htests] at htest
      cases htest
  · rw [if_neg htests] at hr ⊢
    exact h r hr

lemma Covered.start (h : s.Covered) (allowed : Bool) : (s.step us (.start allowed)).Covered := by
  intro r hr
  have hold := h r
  unfold RouterTesting.step at hr ⊢
  dsimp only at hr ⊢
  cases htests : s.tests with
  | nil =>
    rw [htests] at hr
    exact h r hr
  | cons test tests =>
    simp only [htests, map_cons, mem_cons] at hr hold ⊢
    cases allowed with
    | true =>
      show _ ∨ r ∈ (s.inFlight ++ [test]).map Prod.fst ∨ r ∈ tests.map Prod.fst
      rw [map_append, mem_append]
      rcases hold hr with hqueue | hflight | rfl | htest
      · exact .inl hqueue
      · exact .inr (.inl (.inl hflight))
      · exact .inr (.inl (.inr mem_cons_self))
      · exact .inr (.inr htest)
    | false =>
      obtain ⟨hne, hr⟩ := still_failing hr
      exact (hold hr).imp_right (.imp_right fun h => h.resolve_left hne)

lemma Covered.answer (h : s.Covered) (attempt : ℕ) (established : Bool) (now interval : ℤ) :
    (s.step us (.answer attempt established now interval)).Covered := by
  intro r hr
  unfold RouterTesting.step at hr ⊢
  dsimp only at hr ⊢
  cases hattempt : s.inFlight[attempt]? with
  | none =>
    rw [hattempt] at hr
    exact h r hr
  | some answered =>
    -- the other attempts stay in flight
    have hflight (hne : r ≠ answered.1) (hmem : r ∈ s.inFlight.map Prod.fst) :
        r ∈ (s.inFlight.eraseIdx attempt).map Prod.fst := by
      obtain ⟨hi, heq⟩ := List.getElem?_eq_some_iff.mp hattempt
      have hperm := (getElem_cons_eraseIdx_perm hi).map Prod.fst
      rw [heq, map_cons] at hperm
      exact (mem_cons.mp (hperm.mem_iff.mpr hmem)).resolve_left hne
    simp only [hattempt] at hr ⊢
    cases established with
    | true =>
      obtain ⟨hne, hr⟩ := still_failing hr
      exact (h r hr).imp_right (.imp_left (hflight hne))
    | false =>
      by_cases hne : r = answered.1
      · exact .inl ((addFailingNode_queue now interval _ _ r).mpr (.inl hne))
      have hr : update s.failing answered.1 true r = true := hr
      rw [update_of_ne hne] at hr
      exact (h r hr).imp (fun hq => (addFailingNode_queue now interval _ _ r).mpr (.inr hq)) (.imp_left (hflight hne))

lemma Covered.step (h : s.Covered) (op : TestingOp R) : (s.step us op).Covered := by
  cases op with
  | tick now interval interval' refill => exact h.tick us now interval interval' refill
  | start allowed => exact h.start us allowed
  | answer attempt established now interval => exact h.answer us attempt established now interval

/-- Session attempts are answered at any time and in any order, also while the timer's loop is running. -/
theorem failing_routers_retested (ops : List (TestingOp R)) (start : ℤ) :
    (ops.foldl (step us) { nextGeneralTest := start }).Retested := by
  have hcovered : (ops.foldl (step us) { nextGeneralTest := start }).Covered :=
    foldlRecOn ops _ (fun _ h => nomatch h) fun _ hs op _ => hs.step us op
  intro htests r hr
  have hmem := hcovered r hr
  rw [htests] at hmem
  exact hmem.imp_right fun h => h.resolve_right not_mem_nil

end RouterTesting

end Belnet.Router
