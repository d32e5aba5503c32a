import Belnet.Lib.Run

/-!
# Hooks that wait for a path to a service

`m_PendingServiceLookups` of `llarp/service/endpoint.cpp` has the hooks of `EnsurePathToService`,
which three functions walk and call.

* `PathHooks`, `step`  the table with the walks that are under way, and the operations;
* `Inv.step`  what every operation keeps;
* `hooks_called_once`  if no walk is under way when the table changes no hook is lost or repeated.
-/

set_option linter.unusedSectionVars false

namespace Belnet.Service
open List Nat
variable {Addr : Type} [DecidableEq Addr]

/-! ## the model -/

/-- what is erased: all hooks behind the walk, which `rounds` more contexts repeat; or each behind
its call -/
inductive Erases where
  | bucket (rounds : ℕ)
  | each

/-- A hook that is being called: by `EnsurePathToService` itself, or by a walk that has the hooks
`todo` ahead.  The source walks the table itself up to `range.second`; these are the same hooks
unless the table changes before the walk ends. -/
inductive HookFrame (Addr : Type) where
  | direct
  | walk (addr : Addr) (erases : Erases) (current : ℕ) (todo : List ℕ)

structure PathHooks (Addr : Type) where
  pending : List (Addr × ℕ)
  stack : List (HookFrame Addr)
  calls : List ℕ
  next : ℕ

inductive HookFault where
  | danglingIterator
deriving DecidableEq

namespace PathHooks

def start : PathHooks Addr := ⟨[], [], [], 0⟩

section
variable (addr : Addr)

def bucket (s : PathHooks Addr) : List ℕ := (s.pending.filter fun e => e.1 = addr).map Prod.snd

def call (erases : Erases) (hook : ℕ) (todo : List ℕ) (s : PathHooks Addr) : PathHooks Addr :=
  { s with calls := s.calls ++ [hook], stack := .walk addr erases hook todo :: s.stack }

def walk (erases : Erases) (s : PathHooks Addr) : PathHooks Addr :=
  match s.bucket addr with
  | [] => s
  | hook :: todo => s.call addr erases hook todo

def informPathToService (s : PathHooks Addr) : PathHooks Addr := s.walk addr (.bucket 0)

/-- `wants` and `ready`: outbound sessions to the address are wanted, one is ready.  Lookups started otherwise do not
touch the hooks. -/
def ensurePathToService (wants ready : Bool) (s : PathHooks Addr) : PathHooks Addr :=
  let hook := s.next
  let s := { s with next := s.next + 1 }
  if !wants then { s with calls := s.calls ++ [hook], stack := .direct :: s.stack }
  else
    let s := { s with pending := (addr, hook) :: s.pending }
    if ready then s.informPathToService addr else s

/-- `found`: there is an unexpired introset, `ready`: the number of ready contexts, `more`: other lookups of the
address are pending -/
def onLookup (found : Bool) (ready : ℕ) (more : Bool) (s : PathHooks Addr) : PathHooks Addr :=
  if found then match ready with
    | 0 => s
    | rounds + 1 => s.walk addr (.bucket rounds)
  else if more then s else s.walk addr .each

def goOn (erases : Erases) (hook : ℕ) (todo : List ℕ) (s : PathHooks Addr) : Except HookFault (PathHooks Addr) :=
  if (addr, hook) ∈ s.pending then .ok (s.call addr erases hook todo) else .error .danglingIterator

end

def hookReturns (s : PathHooks Addr) : Except HookFault (PathHooks Addr) :=
  match s.stack with
  | [] => .ok s
  | .direct :: stack => .ok { s with stack }
  | .walk addr erases current todo :: stack =>
    if (addr, current) ∉ s.pending then .error .danglingIterator
    else match erases, todo with
      | .each, [] => .ok { s with pending := s.pending.erase (addr, current), stack }
      | .each, hook :: todo => goOn addr .each hook todo { s with pending := s.pending.erase (addr, current), stack }
      | .bucket 0, [] => .ok { s with pending := s.pending.filter fun e => e.1 ≠ addr, stack }
      | .bucket (rounds + 1), [] =>
        .ok (walk addr (.bucket rounds) { s with pending := s.pending.filter fun e => e.1 ≠ addr, stack })
      | .bucket rounds, hook :: todo => goOn addr (.bucket rounds) hook todo { s with stack }

inductive Op (Addr : Type) where
  | ensurePathToService (addr : Addr) (wants ready : Bool)
  | informPathToService (addr : Addr)
  | onLookup (addr : Addr) (found : Bool) (ready : ℕ) (more : Bool)
  | hookReturns

def step : Op Addr → PathHooks Addr → Except HookFault (PathHooks Addr)
  | .ensurePathToService addr wants ready, s => .ok (s.ensurePathToService addr wants ready)
  | .informPathToService addr, s => .ok (s.informPathToService addr)
  | .onLookup addr found ready more, s => .ok (s.onLookup addr found ready more)
  | .hookReturns, s => s.hookReturns

end PathHooks

def HookFrame.addr : HookFrame Addr → Option Addr
  | .direct => none
  | .walk addr _ _ _ => some addr

namespace PathHooks

/-- the addresses whose hooks are being called -/
def walked (s : PathHooks Addr) : List Addr := s.stack.filterMap HookFrame.addr

/-- No walk is under way when an operation may change the table, for any address: the entry that
`range.second` of a walk points to may be of another one. -/
def Fine : Op Addr → PathHooks Addr → Prop
  | .ensurePathToService _ wants _, s => wants = false ∨ s.walked = []
  | .informPathToService _, s => s.walked = []
  | .onLookup _ _ _ _, s => s.walked = []
  | .hookReturns, _ => True

/-- a walk is at a hook that was called, those before it were not, and all others of the address were -/
structure WalkOk (s : PathHooks Addr) (addr : Addr) (erases : Erases) (current : ℕ) (todo : List ℕ) : Prop where
  here : (addr, current) ∈ s.pending
  done : current ∈ s.calls
  ahead : ∀ h ∈ todo, (addr, h) ∈ s.pending ∧ h ∉ s.calls
  nodup : todo.Nodup
  all : ∀ h, (addr, h) ∈ s.pending → h ∈ todo ∨ h ∈ s.calls
  each : erases = .each → ∀ h, (addr, h) ∈ s.pending → h ∈ todo ∨ h = current

/-- Hooks are numbered, wait once and are called once, and at most one walk is under way.  Only hooks
of a walked or a `free` address wait after their call. -/
structure Inv (free : Addr → Prop) (s : PathHooks Addr) : Prop where
  below : ∀ e ∈ s.pending, e.2 < s.next
  belowCalls : ∀ h ∈ s.calls, h < s.next
  distinct : (s.pending.map Prod.snd).Nodup
  once : s.calls.Nodup
  kept : ∀ h < s.next, h ∈ s.calls ∨ h ∈ s.pending.map Prod.snd
  alone : s.walked.length ≤ 1
  walks : ∀ addr erases current todo, HookFrame.walk addr erases current todo ∈ s.stack → s.WalkOk addr erases current todo
  idle : ∀ e ∈ s.pending, ¬ free e.1 → e.1 ∉ s.walked → e.2 ∉ s.calls

variable {s s' : PathHooks Addr} {free : Addr → Prop} {addr : Addr} {erases : Erases} {current hook : ℕ} {todo : List ℕ}

lemma mem_bucket : hook ∈ s.bucket addr ↔ (addr, hook) ∈ s.pending := by
  unfold bucket
  rw [mem_map]
  constructor
  · rintro ⟨e, he, rfl⟩
    obtain ⟨_, heq⟩ := mem_filter.mp he
    rwa [← of_decide_eq_true heq]
  · intro h
    exact ⟨(addr, hook), mem_filter.mpr ⟨h, decide_eq_true rfl⟩, rfl⟩

lemma not_walked (hidle : s.walked = []) : HookFrame.walk addr erases current todo ∉ s.stack := by
  intro hmem
  have hin : addr ∈ s.walked := mem_filterMap.mpr ⟨_, hmem, rfl⟩
  rw [hidle] at hin
  cases hin

lemma WalkOk.next (hok : s.WalkOk addr erases current (hook :: todo)) : (addr, hook) ∈ s.pending ∧ hook ∉ s.calls ∧
    (∀ x ∈ todo, (addr, x) ∈ s.pending ∧ x ∉ s.calls ∧ x ≠ hook) ∧ todo.Nodup := by
  obtain ⟨hnot, hnodup⟩ := nodup_cons.mp hok.nodup
  obtain ⟨hhere, hno⟩ := hok.ahead hook mem_cons_self
  refine ⟨hhere, hno, fun x hx => ?_, hnodup⟩
  obtain ⟨hin, hnx⟩ := hok.ahead x (mem_cons_of_mem _ hx)
  exact ⟨hin, hnx, fun heq => hnot (heq ▸ hx)⟩

lemma Inv.call (h : s.Inv fun a => a = addr) (hidle : s.walked = []) (hhere : (addr, hook) ∈ s.pending)
    (hno : hook ∉ s.calls) (hahead : ∀ x ∈ todo, (addr, x) ∈ s.pending ∧ x ∉ s.calls ∧ x ≠ hook) (hnodup : todo.Nodup)
    (hall : ∀ x, (addr, x) ∈ s.pending → x = hook ∨ x ∈ todo ∨ x ∈ s.calls)
    (heach : erases = .each → ∀ x, (addr, x) ∈ s.pending → x = hook ∨ x ∈ todo) :
    (s.call addr erases hook todo).Inv free where
  below := h.below
  belowCalls x hx := by
    rcases mem_concat.mp hx with hx | rfl
    · exact h.belowCalls x hx
    · exact h.below _ hhere
  distinct := h.distinct
  once := nodup_append_comm.mpr (nodup_cons.mpr ⟨hno, h.once⟩)
  kept x hx := (h.kept x hx).imp_left fun hx => mem_append_left _ hx
  alone := by
    show (addr :: s.walked).length ≤ 1
    rw [hidle]
    exact le_rfl
  walks a e cur td hmem := by
    rcases mem_cons.mp hmem with heq | hmem
    · cases heq
      refine ⟨hhere, mem_append_right _ mem_cons_self, fun x hx => ?_, hnodup, fun x hx => ?_, fun he x hx => ?_⟩
      · obtain ⟨hin, hnot, hne⟩ := hahead x hx
        refine ⟨hin, fun hcall => ?_⟩
        rcases mem_concat.mp hcall with hcall | heq
        · exact hnot hcall
        · exact hne heq
      · rcases hall x hx with rfl | hx | hx
        · exact .inr (mem_append_right _ mem_cons_self)
        · exact .inl hx
        · exact .inr (mem_append_left _ hx)
      · exact (heach he x hx).symm
    · exact absurd hmem (not_walked hidle)
  idle e he _ hnot hcall := by
    have hne : e.1 ≠ addr := fun heq => hnot (heq ▸ mem_cons_self)
    rcases mem_concat.mp hcall with hcall | heq
    · exact h.idle e he hne (fun hin => hnot (mem_cons_of_mem _ hin)) hcall
    have hin : (e.1, hook) ∈ s.pending := by
      rw [← heq]
      exact he
    exact hne (congrArg Prod.fst (inj_on_of_nodup_map h.distinct hin hhere rfl))

lemma Inv.mono {free' : Addr → Prop} (h : s.Inv free) (hfree : ∀ a, free a → free' a) : s.Inv free' :=
  ⟨h.below, h.belowCalls, h.distinct, h.once, h.kept, h.alone, h.walks,
    fun e he hno => h.idle e he fun hf => hno (hfree _ hf)⟩

lemma Inv.walk (h : s.Inv fun _ => False) (hidle : s.walked = []) : (s.walk addr erases).Inv fun _ => False := by
  unfold PathHooks.walk
  split
  · exact h
  rename_i hook todo hbucket
  have hmem : ∀ x, x ∈ hook :: todo ↔ (addr, x) ∈ s.pending := fun x => hbucket ▸ mem_bucket
  have hdistinct : (s.bucket addr).Nodup := h.distinct.sublist (filter_sublist.map Prod.snd)
  obtain ⟨hnot, hnodup⟩ := nodup_cons.mp (hbucket ▸ hdistinct)
  have huncalled : ∀ x, (addr, x) ∈ s.pending → x ∉ s.calls := fun x hx =>
    h.idle (addr, x) hx (fun hf => hf) (by rw [hidle]; exact not_mem_nil)
  have hcases : ∀ x, (addr, x) ∈ s.pending → x = hook ∨ x ∈ todo := fun x hx => mem_cons.mp ((hmem x).mpr hx)
  have hhere := (hmem hook).mp mem_cons_self
  refine (h.mono fun _ hf => hf.elim).call hidle hhere (huncalled _ hhere) (fun x hx => ?_) hnodup
    (fun x hx => (hcases x hx).imp_right .inl) fun _ => hcases
  have hin := (hmem x).mp (mem_cons_of_mem _ hx)
  exact ⟨hin, huncalled x hin, fun heq => hnot (heq ▸ hx)⟩

lemma Inv.pop {stack : List (HookFrame Addr)} (h : s.Inv fun _ => False)
    (hstack : s.stack = .walk addr erases current todo :: stack) :
    ({ s with stack } : PathHooks Addr).Inv (fun a => a = addr) ∧
      ({ s with stack } : PathHooks Addr).walked = [] := by
  have hwalked : s.walked = addr :: ({ s with stack } : PathHooks Addr).walked := by
    unfold walked
    rw [hstack]
    rfl
  have hidle : ({ s with stack } : PathHooks Addr).walked = [] := by
    have halone := h.alone
    rw [hwalked, length_cons] at halone
    exact length_eq_zero_iff.mp (by omega)
  refine ⟨⟨h.below, h.belowCalls, h.distinct, h.once, h.kept, (hidle ▸ zero_le _),
    fun a e cur td hmem => absurd hmem (not_walked hidle), fun e he hne hno => ?_⟩, hidle⟩
  · refine h.idle e he (fun hf => hf) fun hin => ?_
    rw [hwalked] at hin
    rcases mem_cons.mp hin with heq | hin
    · exact hne heq
    · exact hno hin

section
variable (h : s.Inv fun a => a = addr)
include h

lemma Inv.erase {pending : List (Addr × ℕ)} (hidle : s.walked = [])
    (hsub : pending.Sublist s.pending) (hgone : ∀ e ∈ s.pending, e ∉ pending → e.1 = addr ∧ e.2 ∈ s.calls) :
    ({ s with pending } : PathHooks Addr).Inv fun a => a = addr where
  below e he := h.below e (hsub.subset he)
  belowCalls := h.belowCalls
  distinct := h.distinct.sublist (hsub.map Prod.snd)
  once := h.once
  kept x hx := by
    rcases h.kept x hx with hcall | hin
    · exact .inl hcall
    obtain ⟨e, he, rfl⟩ := mem_map.mp hin
    by_cases hstays : e ∈ pending
    · exact .inr (mem_map.mpr ⟨e, hstays, rfl⟩)
    · exact .inl (hgone e he hstays).2
  alone := h.alone
  walks a e cur td hmem := absurd hmem (not_walked hidle)
  idle e he hne hno := h.idle e (hsub.subset he) hne hno

lemma Inv.close (hnone : ∀ x, (addr, x) ∈ s.pending → x ∉ s.calls) : s.Inv fun _ => False :=
  ⟨h.below, h.belowCalls, h.distinct, h.once, h.kept, h.alone, h.walks, fun e he _ hno => by
    by_cases heq : e.1 = addr
    · exact hnone e.2 (heq ▸ he)
    · exact h.idle e he heq hno⟩

lemma Inv.clear (hidle : s.walked = []) (hall : ∀ x, (addr, x) ∈ s.pending → x ∈ s.calls) :
    ({ s with pending := s.pending.filter fun e => e.1 ≠ addr } : PathHooks Addr).Inv fun _ => False := by
  refine (h.erase hidle filter_sublist fun e he hno => ?_).close fun x hx => ?_
  · have heq : e.1 = addr := by
      by_contra hne
      exact hno (mem_filter.mpr ⟨he, decide_eq_true hne⟩)
    exact ⟨heq, hall e.2 (heq ▸ he)⟩
  · have hne := of_decide_eq_true (mem_filter.mp hx).2
    exact absurd rfl hne

end

section
variable (h : s.Inv fun _ => False)
include h

lemma Inv.hookReturns : ∃ s', s.hookReturns = .ok s' ∧ s'.Inv fun _ => False := by
  unfold PathHooks.hookReturns
  split
  · exact ⟨s, rfl, h⟩
  · rename_i stack hstack
    have hwalked : s.walked = ({ s with stack } : PathHooks Addr).walked := by
      unfold walked
      rw [hstack]
      rfl
    refine ⟨_, rfl, ⟨h.below, h.belowCalls, h.distinct, h.once, h.kept, hwalked ▸ h.alone,
      fun a e cur td hmem => ?_, fun e he hno hnot => h.idle e he hno (hwalked ▸ hnot)⟩⟩
    have hok := h.walks a e cur td (hstack ▸ mem_cons_of_mem _ hmem)
    exact ⟨hok.here, hok.done, hok.ahead, hok.nodup, hok.all, hok.each⟩
  · rename_i addr erases current todo stack hstack
    have hok := h.walks addr erases current todo (hstack ▸ mem_cons_self)
    obtain ⟨hpop, hidle⟩ := h.pop hstack
    rw [if_neg (not_not_intro hok.here)]
    have hcurrent : current ∉ todo := fun hin => (hok.ahead current hin).2 hok.done
    -- the entry of the hook that has returned is erased
    have hgone : ∀ e ∈ s.pending, e ∉ s.pending.erase (addr, current) → e.1 = addr ∧ e.2 ∈ s.calls := by
      intro e he hno
      have heq : e = (addr, current) := by
        by_contra hne
        exact hno ((mem_erase_of_ne hne).mpr he)
      rw [heq]
      exact ⟨rfl, hok.done⟩
    have hstays : ∀ x, (addr, x) ∈ s.pending.erase (addr, current) ↔ (addr, x) ∈ s.pending ∧ x ≠ current := by
      intro x
      rw [h.distinct.of_map.mem_erase_iff]
      exact ⟨fun hx => ⟨hx.2, fun heq => hx.1 (by rw [heq])⟩, fun hx => ⟨fun heq => hx.2 (congrArg Prod.snd heq), hx.1⟩⟩
    split
    · refine ⟨_, rfl, (hpop.erase hidle erase_sublist hgone).close fun x hx => ?_⟩
      obtain ⟨hin, hne⟩ := (hstays x).mp hx
      exact ((hok.each rfl x hin).resolve_left not_mem_nil |> hne).elim
    · rename_i hook todo
      obtain ⟨hhook, hno, hahead, hnodup⟩ := hok.next
      have hne : hook ≠ current := fun heq => hcurrent (heq ▸ mem_cons_self)
      have hhere := (hstays hook).mpr ⟨hhook, hne⟩
      have hleft : ∀ x, (addr, x) ∈ s.pending.erase (addr, current) → x = hook ∨ x ∈ todo := by
        intro x hx
        obtain ⟨hin, hnc⟩ := (hstays x).mp hx
        exact mem_cons.mp ((hok.each rfl x hin).resolve_right hnc)
      unfold goOn
      rw [if_pos hhere]
      refine ⟨_, rfl, (hpop.erase hidle erase_sublist hgone).call hidle hhere hno (fun x hx => ?_) hnodup
        (fun x hx => (hleft x hx).imp_right .inl) fun _ => hleft⟩
      have hxc : x ≠ current := fun heq => hcurrent (heq ▸ mem_cons_of_mem _ hx)
      exact (hahead x hx).imp_left fun hin => (hstays x).mpr ⟨hin, hxc⟩
    · exact ⟨_, rfl, hpop.clear hidle fun x hx => (hok.all x hx).resolve_left not_mem_nil⟩
    · exact ⟨_, rfl, (hpop.clear hidle fun x hx => (hok.all x hx).resolve_left not_mem_nil).walk hidle⟩
    · rename_i rounds hook todo
      obtain ⟨hhere, hno, hahead, hnodup⟩ := hok.next
      unfold goOn
      rw [if_pos hhere]
      refine ⟨_, rfl, hpop.call hidle hhere hno hahead hnodup (fun x hx => ?_) fun he => nomatch he⟩
      rcases hok.all x hx with hx | hx
      · exact (mem_cons.mp hx).imp_right .inl
      · exact .inr (.inr hx)

lemma Inv.direct : ({ s with
    next := s.next + 1, calls := s.calls ++ [s.next], stack := .direct :: s.stack } : PathHooks Addr).Inv fun _ => False where
  below e he := lt_succ_of_lt (h.below e he)
  belowCalls x hx := by
    rcases mem_concat.mp hx with hx | rfl
    · exact lt_succ_of_lt (h.belowCalls x hx)
    · exact lt_succ_self _
  distinct := h.distinct
  once := nodup_append_comm.mpr (nodup_cons.mpr ⟨fun hx => lt_irrefl _ (h.belowCalls _ hx), h.once⟩)
  kept x hx := by
    rcases Nat.lt_succ_iff_lt_or_eq.mp hx with hx | rfl
    · exact (h.kept x hx).imp_left fun hx => mem_append_left _ hx
    · exact .inl (mem_append_right _ mem_cons_self)
  alone := h.alone
  walks a e cur td hmem := by
    have hok := h.walks a e cur td ((mem_cons.mp hmem).resolve_left (fun heq => nomatch heq))
    have hgrows {x : ℕ} : x ∈ s.calls → x ∈ s.calls ++ [s.next] := mem_append_left _
    refine ⟨hok.here, hgrows hok.done, fun x hx => ?_, hok.nodup,
      fun x hx => (hok.all x hx).imp_right hgrows, hok.each⟩
    obtain ⟨hin, hno⟩ := hok.ahead x hx
    refine ⟨hin, fun hcall => ?_⟩
    rcases mem_concat.mp hcall with hcall | rfl
    · exact hno hcall
    -- the number of a hook that waits is not the next one
    · exact lt_irrefl _ (h.below _ hin)
  idle e he hno hnot hcall := by
    rcases mem_concat.mp hcall with hcall | heq
    · exact h.idle e he hno hnot hcall
    · exact absurd (h.below e he) (by rw [heq]; exact lt_irrefl _)

lemma Inv.insert (hidle : s.walked = []) : ({ s with
    next := s.next + 1, pending := (addr, s.next) :: s.pending } : PathHooks Addr).Inv fun _ => False where
  below e he := by
    rcases mem_cons.mp he with rfl | he
    · exact lt_succ_self _
    · exact lt_succ_of_lt (h.below e he)
  belowCalls x hx := lt_succ_of_lt (h.belowCalls x hx)
  distinct := nodup_cons.mpr ⟨fun hin => by
    obtain ⟨e, he, heq⟩ := mem_map.mp hin
    exact absurd (h.below e he) (by rw [heq]; exact lt_irrefl _), h.distinct⟩
  once := h.once
  kept x hx := by
    rcases Nat.lt_succ_iff_lt_or_eq.mp hx with hx | rfl
    · exact (h.kept x hx).imp_right fun hx => mem_cons_of_mem _ hx
    · exact .inr mem_cons_self
  alone := h.alone
  walks a e cur td hmem := absurd hmem (not_walked hidle)
  idle e he hno hnot hcall := by
    rcases mem_cons.mp he with rfl | he
    · exact absurd (h.belowCalls _ hcall) (lt_irrefl _)
    · exact h.idle e he hno hnot hcall

lemma Inv.step {op : Op Addr} (hfine : Fine op s) : ∃ s', step op s = .ok s' ∧ s'.Inv fun _ => False := by
  cases op with
  | ensurePathToService addr wants ready =>
    refine ⟨_, rfl, ?_⟩
    unfold ensurePathToService
    cases wants with
    | false => exact h.direct
    | true =>
      have hidle : s.walked = [] := hfine.resolve_left fun hw => nomatch hw
      cases ready with
      | false => exact h.insert hidle
      | true => exact (h.insert hidle).walk hidle
  | informPathToService addr => exact ⟨_, rfl, h.walk hfine⟩
  | onLookup addr found ready =>
    refine ⟨_, rfl, ?_⟩
    unfold onLookup
    split
    · cases ready with
      | zero => exact h
      | succ => exact h.walk hfine
    · split
      · exact h
      · exact h.walk hfine
  | hookReturns => exact h.hookReturns

end

omit [DecidableEq Addr] in
lemma inv_start : (start : PathHooks Addr).Inv fun _ => False where
  below _ he := nomatch he
  belowCalls _ hx := nomatch hx
  distinct := nodup_nil
  once := nodup_nil
  kept x hx := absurd hx (not_lt_zero x)
  alone := zero_le _
  walks _ _ _ _ hmem := nomatch hmem
  idle _ he := nomatch he

/-- If the table is not changed while hooks are called by a walk, a hook is called at most once and
waits or was called, and no operation stops. -/
theorem hooks_called_once (h : Run.Reaches step Fine (start : PathHooks Addr) s) :
    s.calls.Nodup ∧ (∀ hook < s.next, hook ∈ s.calls ∨ ∃ addr, (addr, hook) ∈ s.pending) ∧
      ∀ op, Fine op s → ∃ s', step op s = .ok s' := by
  have hinv : s.Inv fun _ => False := h.inv (fun op a b ha hfine hs => by
    obtain ⟨s', hs', hinv⟩ := ha.step hfine
    rw [hs] at hs'
    rw [Except.ok.inj hs']
    exact hinv) inv_start
  refine ⟨hinv.once, fun hook hlt => ?_, fun op hfine => ?_⟩
  · refine (hinv.kept hook hlt).imp_right fun hin => ?_
    obtain ⟨e, he, rfl⟩ := mem_map.mp hin
    exact ⟨e.1, he⟩
  · obtain ⟨s', hs', -⟩ := hinv.step hfine
    exact ⟨s', hs'⟩

/-- two hooks are called by a walk, and the first one has a third called for another address -/
theorem hooks_called_once_sample : ∃ s : PathHooks ℕ, Run.Reaches step Fine start s ∧
    s.calls = [1, 2, 0] ∧ s.pending = [] ∧ s.calls.Nodup := by
  have hwaiting : Run.Reaches step Fine (start : PathHooks ℕ) ⟨[(1, 1), (1, 0)], [], [], 2⟩ :=
    .tail (.ensurePathToService 1 true false) (.tail (.ensurePathToService 1 true false) .refl
      (.inr rfl) rfl) (.inr rfl) rfl
  have hcalled : Run.Reaches step Fine (start : PathHooks ℕ)
      ⟨[(1, 1), (1, 0)], [.walk 1 (.bucket 0) 1 [0]], [1, 2], 3⟩ :=
    .tail .hookReturns (.tail (.ensurePathToService 2 false false)
      (.tail (.informPathToService 1) hwaiting rfl rfl) (.inl rfl) rfl) trivial rfl
  have hdone : Run.Reaches step Fine (start : PathHooks ℕ) ⟨[], [], [1, 2, 0], 3⟩ :=
    .tail .hookReturns (.tail .hookReturns hcalled trivial rfl) trivial rfl
  exact ⟨_, hdone, rfl, rfl, (hooks_called_once hdone).1⟩

/-- A hook told of a failure asks again, and its new hook is erased uncalled.  Of two hooks told of a path the first
asks again: it is called twice, and its entry is gone. -/
theorem hook_lost_or_repeated :
    (∃ s : PathHooks ℕ, Run.exec step [.ensurePathToService 1 true false, .informPathToService 1,
        .ensurePathToService 1 true false, .hookReturns] start = .ok s ∧ s.next = 2 ∧ s.calls = [0] ∧ s.pending = []) ∧
      (∃ s : PathHooks ℕ, Run.exec step [.ensurePathToService 1 true true, .ensurePathToService 1 true true, .hookReturns]
        start = .ok s ∧ s.calls = [0, 1, 0]) ∧
      Run.exec step [.ensurePathToService 1 true true, .ensurePathToService 1 true true, .hookReturns, .hookReturns,
        .hookReturns] (start : PathHooks ℕ) = .error .danglingIterator := by
  exact ⟨Run.ok_sat, Run.ok_sat, Run.exec_fault (by decide +kernel)⟩

end PathHooks

end Belnet.Service
