import Belnet.Lib.Run
import Mathlib.Data.List.Basic
import Mathlib.Logic.Function.Basic

/-!
# Name lookups and what their peers agree on

`BNSLookupTracker` of `llarp/service/bns_tracker.cpp` asks several peers, and calls the handler with the one address
all gave.
-/

namespace Belnet.Service
open List Function Option Nat
variable {Name Addr : Type} [DecidableEq Name] [DecidableEq Addr]

/-! ## the model -/

structure LookupInfo (Addr : Type) where
  currentValues : List Addr
  handleResult : ℕ
  resultsGotten : ℕ
  resultsNeeded : ℕ

namespace LookupInfo
variable (info : LookupInfo Addr)

def isDone : Bool := info.resultsGotten = info.resultsNeeded

def addResult (result : Option Addr) : LookupInfo Addr :=
  { info with
    currentValues := match result with
      | some a => info.currentValues.insert a
      | none => info.currentValues
    resultsGotten := info.resultsGotten + 1 }

def value : Option Addr := match info.currentValues with
  | [a] => some a
  | _ => none

end LookupInfo

structure Lookup (Name Addr : Type) where
  name : Name
  numPeers : ℕ
  results : List (Option Addr)
  called : List (Option Addr)

structure NameTracker (Name Addr : Type) where
  pendingLookups : Name → Option (LookupInfo Addr)
  lookups : ℕ → Lookup Name Addr
  next : ℕ
  stack : List Name

inductive TrackerFault where
  | danglingIterator

namespace NameTracker

inductive Op (Name Addr : Type) where
  | makeResultHandler (name : Name) (numPeers : ℕ)
  | result (id : ℕ) (found : Option Addr)
  | handlerReturns

def makeResultHandler (name : Name) (numPeers : ℕ) (s : NameTracker Name Addr) : NameTracker Name Addr :=
  { s with
    pendingLookups := match s.pendingLookups name with
      | some _ => s.pendingLookups
      | none => update s.pendingLookups name (some ⟨[], s.next, 0, numPeers⟩)
    lookups := update s.lookups s.next ⟨name, numPeers, [], []⟩
    next := s.next + 1 }

def call (id : ℕ) (v : Option Addr) (s : NameTracker Name Addr) : NameTracker Name Addr :=
  { s with lookups := update s.lookups id { s.lookups id with called := (s.lookups id).called ++ [v] } }

/-- the function that `MakeResultHandler` returned, up to the end or to the call of the handler -/
def handleResult (name : Name) (found : Option Addr) (s : NameTracker Name Addr) : NameTracker Name Addr :=
  match s.pendingLookups name with
  | none => s
  | some info =>
    let info := info.addResult found
    let s := { s with pendingLookups := update s.pendingLookups name (some info) }
    if info.isDone then { s.call info.handleResult info.value with stack := name :: s.stack } else s

def result (id : ℕ) (found : Option Addr) (s : NameTracker Name Addr) : NameTracker Name Addr :=
  let l := s.lookups id
  if id < s.next ∧ l.results.length < l.numPeers then
    handleResult l.name found
      { s with lookups := update s.lookups id { l with results := l.results ++ [found] } }
  else s

def handlerReturns (s : NameTracker Name Addr) : Except TrackerFault (NameTracker Name Addr) :=
  match s.stack with
  | [] => .ok s
  | name :: stack => match s.pendingLookups name with
    | none => .error .danglingIterator
    | some info =>
      if info.isDone then
        .ok { s with pendingLookups := update s.pendingLookups name none, stack := stack }
      else .ok { s with stack := stack }

def step : Op Name Addr → NameTracker Name Addr → Except TrackerFault (NameTracker Name Addr)
  | .makeResultHandler name numPeers, s => .ok (s.makeResultHandler name numPeers)
  | .result id found, s => .ok (s.result id found)
  | .handlerReturns, s => s.handlerReturns

def start (name : Name) : NameTracker Name Addr := ⟨fun _ => none, fun _ => ⟨name, 0, [], []⟩, 0, []⟩

def Fine : Op Name Addr → NameTracker Name Addr → Prop
  | .makeResultHandler name numPeers, s => s.pendingLookups name = none ∧ 0 < numPeers
  | _, _ => True

def Agreed (results : List (Option Addr)) (v : Option Addr) : Prop :=
  ∀ a, v = some a ↔ some a ∈ results ∧ ∀ b, some b ∈ results → b = a

structure Collects (info : LookupInfo Addr) (results : List (Option Addr)) : Prop where
  gotten : info.resultsGotten = results.length
  mem : ∀ a, a ∈ info.currentValues ↔ some a ∈ results
  nodup : info.currentValues.Nodup

variable {info : LookupInfo Addr} {results : List (Option Addr)}

lemma Collects.addResult (h : Collects info results)
    (found : Option Addr) : Collects (info.addResult found) (results ++ [found]) := by
  refine ⟨?_, ?_, ?_⟩
  · simp [LookupInfo.addResult, h.gotten]
  · intro a
    cases found with
    | none => simp [LookupInfo.addResult, h.mem]
    | some b =>
      simp only [LookupInfo.addResult, mem_insert_iff, h.mem, mem_append, mem_singleton, some.injEq]
      exact or_comm
  · cases found with
    | none => exact h.nodup
    | some b => exact h.nodup.insert

omit [DecidableEq Addr] in
lemma Collects.agreed (h : Collects info results) : Agreed results info.value := by
  obtain ⟨values, _, _, _⟩ := info
  obtain ⟨-, hmem, hnodup⟩ := h
  intro a
  match values with
  | [] =>
    have hno : some a ∉ results := fun ha => by simpa using (hmem a).mpr ha
    simp [LookupInfo.value, hno]
  | [x] =>
    have hx : ∀ b, some b ∈ results ↔ b = x := fun b => by simpa using (hmem b).symm
    constructor
    · intro hv
      obtain rfl : x = a := some.inj hv
      exact ⟨(hx x).mpr rfl, fun b hb => (hx b).mp hb⟩
    · rintro ⟨ha, -⟩
      exact congrArg some ((hx a).mp ha).symm
  | x :: y :: rest =>
    -- two values, so no address is that of all results
    have hne : x ≠ y := by
      intro he
      simp [he] at hnodup
    constructor
    · intro hv
      exact nomatch hv
    · rintro ⟨-, hall⟩
      have hxa := hall x ((hmem x).mp (by simp))
      have hya := hall y ((hmem y).mp (by simp))
      exact absurd (hxa.trans hya.symm) hne

/-- a lookup waits for peers and its handler was not called, or all have answered and it was called with their value -/
def Answered (l : Lookup Name Addr) : Prop :=
  (l.results.length < l.numPeers ∧ l.called = []) ∨
    (l.results.length = l.numPeers ∧ ∃ v, l.called = [v] ∧ Agreed l.results v)

structure EntryOf (s : NameTracker Name Addr) (name : Name) (info : LookupInfo Addr) : Prop where
  made : info.handleResult < s.next
  name_eq : (s.lookups info.handleResult).name = name
  needed : info.resultsNeeded = (s.lookups info.handleResult).numPeers
  collects : Collects info (s.lookups info.handleResult).results

structure Inv (s : NameTracker Name Addr) : Prop where
  entry : ∀ name info, s.pendingLookups name = some info → EntryOf s name info
  answered : ∀ id < s.next, Answered (s.lookups id)
  waits : ∀ id < s.next, (s.lookups id).results.length < (s.lookups id).numPeers →
    ∃ info, s.pendingLookups (s.lookups id).name = some info ∧ info.handleResult = id
  running : ∀ name ∈ s.stack, ∃ info, s.pendingLookups name = some info ∧ info.isDone = true
  nodup : s.stack.Nodup

omit [DecidableEq Name] [DecidableEq Addr] in
lemma inv_start (name : Name) : Inv (start name : NameTracker Name Addr) :=
  ⟨(fun _ _ h => nomatch h), fun _ h => absurd h (not_lt_zero _), fun _ h => absurd h (not_lt_zero _),
    fun _ h => absurd h not_mem_nil, nodup_nil⟩

variable {name : Name} {s : NameTracker Name Addr}

omit [DecidableEq Addr] in
lemma Inv.makeResultHandler (h : Inv s) {numPeers : ℕ}
    (hnone : s.pendingLookups name = none) (hpos : 0 < numPeers) : Inv (s.makeResultHandler name numPeers) := by
  have hp : (s.makeResultHandler name numPeers).pendingLookups =
      update s.pendingLookups name (some ⟨[], s.next, 0, numPeers⟩) := by
    simp only [NameTracker.makeResultHandler, hnone]
  have hnew : (s.makeResultHandler name numPeers).lookups s.next = ⟨name, numPeers, [], []⟩ := update_self ..
  have hold : ∀ id < s.next, (s.makeResultHandler name numPeers).lookups id = s.lookups id := fun id hid =>
    update_of_ne (Nat.ne_of_lt hid) ..
  have hnext : (s.makeResultHandler name numPeers).next = s.next + 1 := rfl
  have hstack : (s.makeResultHandler name numPeers).stack = s.stack := rfl
  -- the entries of other names stay
  have hother : ∀ {name' : Name} {info : LookupInfo Addr}, s.pendingLookups name' = some info →
      (s.makeResultHandler name numPeers).pendingLookups name' = some info := by
    intro name' info hi
    rw [hp, update_of_ne]
    · exact hi
    · rintro rfl
      exact nomatch hnone.symm.trans hi
  generalize s.makeResultHandler name numPeers = s' at hp hnew hold hnext hstack hother ⊢
  refine ⟨?_, ?_, ?_, ?_, ?_⟩
  · intro name' info hi
    by_cases hn : name' = name
    · subst hn
      rw [hp, update_self] at hi
      obtain rfl := some.inj hi
      have hlt : s.next < s'.next := hnext ▸ lt_succ_self _
      refine ⟨hlt, ?_, ?_, ?_⟩
      · rw [hnew]
      · rw [hnew]
      · rw [hnew]
        exact ⟨rfl, fun a => by simp, nodup_nil⟩
    · rw [hp, update_of_ne hn] at hi
      obtain ⟨hmade, hname, hneeded, hcollects⟩ := h.entry name' info hi
      rw [← hold _ hmade] at hname hneeded hcollects
      exact ⟨by omega, hname, hneeded, hcollects⟩
  · intro id hid
    rcases Nat.lt_succ_iff_lt_or_eq.mp (hnext ▸ hid) with hlt | rfl
    · rw [hold id hlt]
      exact h.answered id hlt
    · rw [hnew]
      exact .inl ⟨hpos, rfl⟩
  · intro id hid hwait
    rcases Nat.lt_succ_iff_lt_or_eq.mp (hnext ▸ hid) with hlt | rfl
    · rw [hold id hlt] at hwait ⊢
      obtain ⟨info, hi, hid'⟩ := h.waits id hlt hwait
      exact ⟨info, hother hi, hid'⟩
    · rw [hnew]
      exact ⟨_, by rw [hp, update_self], rfl⟩
  · intro name' hmem
    obtain ⟨info, hi, hdone⟩ := h.running name' (hstack ▸ hmem)
    exact ⟨info, hother hi, hdone⟩
  · rw [hstack]
    exact h.nodup

lemma Inv.answer (h : Inv s) {id : ℕ} {found : Option Addr}
    {l : Lookup Name Addr} {stack : List Name} (hid : id < s.next)
    (hi : s.pendingLookups (s.lookups id).name = some info) (hinfo : info.handleResult = id)
    (hwait : (s.lookups id).results.length < (s.lookups id).numPeers)
    (hname : l.name = (s.lookups id).name) (hpeers : l.numPeers = (s.lookups id).numPeers)
    (hresults : l.results = (s.lookups id).results ++ [found]) (hanswered : Answered l)
    (hstack : stack = s.stack ∨ stack = (s.lookups id).name :: s.stack ∧ (info.addResult found).isDone = true) :
    Inv { s with
      pendingLookups := update s.pendingLookups (s.lookups id).name (some (info.addResult found))
      lookups := update s.lookups id l
      stack := stack } := by
  have hentry := h.entry _ _ hi
  -- the handler of this name was not called, so it is not running
  have hnotdone : info.isDone = false := by
    have h1 := hentry.collects.gotten
    have h2 := hentry.needed
    rw [hinfo] at h1 h2
    simp only [LookupInfo.isDone, decide_eq_false_iff_not]
    omega
  have hfresh : (s.lookups id).name ∉ s.stack := by
    intro hmem
    obtain ⟨info', hi', hdone⟩ := h.running _ hmem
    obtain rfl := some.inj (hi.symm.trans hi')
    rw [hnotdone] at hdone
    exact nomatch hdone
  refine ⟨?_, ?_, ?_, ?_, ?_⟩
  · intro name' info' hi'
    dsimp only at hi'
    by_cases hn : name' = (s.lookups id).name
    · subst hn
      rw [update_self] at hi'
      obtain rfl := some.inj hi'
      have hid' : (info.addResult found).handleResult = id := hinfo
      have hneeded : (info.addResult found).resultsNeeded = (s.lookups id).numPeers := hinfo ▸ hentry.needed
      have hl : update s.lookups id l (info.addResult found).handleResult = l := by rw [hid', update_self]
      refine ⟨hid' ▸ hid, (congrArg Lookup.name hl).trans hname, ?_, ?_⟩
      · exact hneeded.trans (hpeers.symm.trans (congrArg Lookup.numPeers hl).symm)
      · show Collects _ (update s.lookups id l (info.addResult found).handleResult).results
        rw [hl, hresults]
        exact (hinfo ▸ hentry.collects).addResult found
    · rw [update_of_ne hn] at hi'
      obtain ⟨hmade, hname', hneeded, hcollects⟩ := h.entry name' info' hi'
      have hne : info'.handleResult ≠ id := by
        rintro rfl
        exact hn hname'.symm
      refine ⟨hmade, ?_, ?_, ?_⟩ <;> dsimp only <;> rw [update_of_ne hne]
      · exact hname'
      · exact hneeded
      · exact hcollects
  · intro id' hid'
    dsimp only
    by_cases hne : id' = id
    · rw [hne, update_self]
      exact hanswered
    · rw [update_of_ne hne]
      exact h.answered id' hid'
  · intro id' hid' hwait'
    dsimp only at hwait' ⊢
    by_cases hne : id' = id
    · rw [hne, update_self, hname]
      exact ⟨_, update_self .., hinfo⟩
    rw [update_of_ne hne] at hwait' ⊢
    obtain ⟨info', hi', hid''⟩ := h.waits id' hid' hwait'
    refine ⟨info', ?_, hid''⟩
    rw [update_of_ne]
    · exact hi'
    intro hn
    rw [hn, hi] at hi'
    obtain rfl := some.inj hi'
    exact hne (hid''.symm.trans hinfo)
  · intro name' hmem
    dsimp only at hmem ⊢
    by_cases hn : name' = (s.lookups id).name
    · subst hn
      refine ⟨_, update_self .., ?_⟩
      rcases hstack with rfl | ⟨-, hdone⟩
      · exact absurd hmem hfresh
      · exact hdone
    · rw [update_of_ne hn]
      refine h.running name' ?_
      rcases hstack with rfl | ⟨rfl, -⟩
      · exact hmem
      · exact (mem_cons.mp hmem).resolve_left hn
  · rcases hstack with rfl | ⟨rfl, -⟩
    · exact h.nodup
    · exact nodup_cons.mpr ⟨hfresh, h.nodup⟩

lemma Inv.result (h : Inv s) (id : ℕ) (found : Option Addr) : Inv (s.result id found) := by
  unfold NameTracker.result
  dsimp only
  split
  · rename_i hguard
    obtain ⟨hid, hwait⟩ := hguard
    obtain ⟨info, hi, hinfo⟩ := h.waits id hid hwait
    obtain ⟨_, _, hneeded, hcollects⟩ := h.entry _ _ hi
    have hadd := hcollects.addResult found
    rw [hinfo] at hneeded hadd
    have hcalled : (s.lookups id).called = [] := by
      rcases h.answered id hid with ⟨-, hc⟩ | ⟨hfull, -⟩
      · exact hc
      · omega
    have hgot : (info.addResult found).resultsGotten = (s.lookups id).results.length + 1 := by
      rw [hadd.gotten, length_append, length_singleton]
    have hneed : (info.addResult found).resultsNeeded = (s.lookups id).numPeers := hneeded
    unfold handleResult
    rw [hi]
    dsimp only
    split
    · rename_i hdone
      have hfull : (s.lookups id).results.length + 1 = (s.lookups id).numPeers := by
        have := of_decide_eq_true hdone
        omega
      have hid' : (info.addResult found).handleResult = id := hinfo
      simp only [call, hid', update_self, update_idem]
      refine h.answer hid hi hinfo hwait rfl rfl rfl (.inr ⟨?_, (info.addResult found).value, ?_, hadd.agreed⟩)
        (.inr ⟨rfl, hdone⟩)
      · simpa using hfull
      · simp [hcalled]
    · rename_i hdone
      have hless : (s.lookups id).results.length + 1 ≠ (s.lookups id).numPeers := by
        intro he
        exact hdone (decide_eq_true (hgot.trans (he.trans hneed.symm)))
      have hlt : (s.lookups id).results.length + 1 < (s.lookups id).numPeers := by omega
      refine h.answer hid hi hinfo hwait rfl rfl rfl (.inl ⟨?_, hcalled⟩) (.inl rfl)
      simpa using hlt
  · exact h

omit [DecidableEq Addr] in
lemma Inv.handlerReturns (h : Inv s) : ∃ s', s.handlerReturns = .ok s' ∧ Inv s' := by
  unfold NameTracker.handlerReturns
  split
  · exact ⟨s, rfl, h⟩
  rename_i name stack hstack
  obtain ⟨info, hi, hdone⟩ := h.running name (hstack ▸ mem_cons_self)
  have hnodup := nodup_cons.mp (hstack ▸ h.nodup)
  rw [hi]
  dsimp only
  rw [if_pos hdone]
  refine ⟨_, rfl, ?_, h.answered, ?_, ?_, hnodup.2⟩
  · intro name' info' hi'
    dsimp only at hi'
    by_cases hn : name' = name
    · subst hn
      rw [update_self] at hi'
      exact nomatch hi'
    · rw [update_of_ne hn] at hi'
      obtain ⟨hmade, hname, hneeded, hcollects⟩ := h.entry name' info' hi'
      exact ⟨hmade, hname, hneeded, hcollects⟩
  · intro id hid hwait
    dsimp only at hwait ⊢
    obtain ⟨info', hi', hid'⟩ := h.waits id hid hwait
    refine ⟨info', ?_, hid'⟩
    rw [update_of_ne]
    · exact hi'
    -- the lookup waits, and the entry that is erased is done
    intro hn
    rw [hn, hi] at hi'
    obtain rfl := some.inj hi'
    have hentry := h.entry name info hi
    have h1 := hentry.collects.gotten
    have h2 := hentry.needed
    have h3 := of_decide_eq_true hdone
    rw [hid'] at h1 h2
    omega
  · intro name' hmem
    dsimp only at hmem ⊢
    obtain ⟨info', hi', hdone'⟩ := h.running name' (hstack ▸ mem_cons_of_mem _ hmem)
    refine ⟨info', ?_, hdone'⟩
    rw [update_of_ne]
    · exact hi'
    · rintro rfl
      exact hnodup.1 hmem

lemma Inv.step {op : Op Name Addr} (h : Inv s) (hf : Fine op s) : ∃ s', NameTracker.step op s = .ok s' ∧ Inv s' := by
  cases op with
  | makeResultHandler => exact ⟨_, rfl, h.makeResultHandler hf.1 hf.2⟩
  | result id found => exact ⟨_, rfl, h.result id found⟩
  | handlerReturns => exact h.handlerReturns

lemma inv_of_reaches (h : Run.Reaches step Fine (start name) s) : Inv s := by
  refine h.inv (fun _ a b ha hf hs => ?_) (inv_start name)
  obtain ⟨_, hs', hb'⟩ := ha.step hf
  obtain rfl := Except.ok.inj (hs.symm.trans hs')
  exact hb'

/-- If a lookup starts only while none of its name is pending, its handler is called once, when its own peers have
answered, with what they agree on or nothing; and no step stops. -/
theorem handler_called_on_agreement {name : Name} {s : NameTracker Name Addr}
    (h : Run.Reaches step Fine (start name) s) :
    (∀ id < s.next, Answered (s.lookups id)) ∧ ∀ op, Fine op s → ∃ s', step op s = .ok s' := by
  have hinv := inv_of_reaches h
  refine ⟨hinv.answered, fun op hf => ?_⟩
  obtain ⟨s', hs, -⟩ := hinv.step hf
  exact ⟨s', hs⟩

theorem handler_called_on_agreement_two : ∃ s : NameTracker ℕ ℕ, Run.Reaches step Fine (start 0) s ∧
    (s.lookups 0).called = [some 5] ∧ (s.lookups 1).called = [none] ∧ Answered (s.lookups 0) := by
  have hreach : ∃ s : NameTracker ℕ ℕ, Run.Reaches step Fine (start 0) s ∧
      s.next = 2 ∧ (s.lookups 0).called = [some 5] ∧ (s.lookups 1).called = [none] :=
    ⟨_, .tail (.result 0 none) (.tail .handlerReturns (.tail (.result 1 none) (.tail (.result 0 (some 5))
      (.tail (.makeResultHandler 2 1) (.tail (.makeResultHandler 1 2) .refl
        ⟨rfl, by decide⟩ rfl) ⟨rfl, by decide⟩ rfl) trivial rfl) trivial rfl) trivial rfl) trivial rfl,
      rfl, rfl, rfl⟩
  obtain ⟨s, hs, hnext, h0, h1⟩ := hreach
  exact ⟨s, hs, h0, h1, (handler_called_on_agreement hs).1 0 (by omega)⟩

/-- Two lookups of one name: the first handler gets nothing though its peers agree on 5, by a result of the second,
whose handler is not called. -/
theorem lookups_of_one_name_mixed : ∃ s : NameTracker ℕ ℕ,
    Run.exec step [.makeResultHandler 1 2, .makeResultHandler 1 2, .result 0 (some 5), .result 1 (some 6),
      .handlerReturns, .result 0 (some 5), .result 1 (some 6)] (start 0) = .ok s ∧
    s.lookups 0 = ⟨1, 2, [some 5, some 5], [none]⟩ ∧ s.lookups 1 = ⟨1, 2, [some 6, some 6], []⟩ := ⟨_, rfl, rfl, rfl⟩

end NameTracker

end Belnet.Service
