import Belnet.Lib.Queues
import Belnet.Lib.Threads
import Belnet.Router.Lookups
import Mathlib.Tactic.Abel

/-!
# Sessions that are being made, and the callbacks for them

`llarp/router/outbound_session_maker.cpp`, with several threads, number 0 that of the event loop; a section under
`_mutex` is a step.
-/

namespace Belnet.Router
open Multiset Queues Threads AList
variable {R : Type} [DecidableEq R]

/-! ## the model -/

inductive SessionResult where
  | establish
  | timeout
  | routerNotFound
  | invalidRouter
  | noLink
  | establishFail

/-- where a thread is in a call; `rc` tells the two overloads of `CreateSessionTo` apart -/
inductive SessionFrame (R : Type) where
  | check (router : R) (rc : Bool)
  | create (router : R) (rc : Bool)
  | created (router : R) (rc : Bool)
  | gotRouterContact (router : R)
  | shouldConnect (router : R)
  | onRouterContactResult (router : R) (rc : Bool) (result : RCRequestResult)
  | doEstablish (router : R)
  | finalize (router : R) (type : SessionResult)
  | finalizing (router : R) (type : SessionResult) (movedCallbacks : List ℕ)
  | callback (c : ℕ)

inductive SessionJob (R : Type) where
  | callback (c : ℕ)
  | doEstablish (router : R)

inductive SessionFault where
  | nullSession

structure SessionMaker (R : Type) [DecidableEq R] where
  pendingCallbacks : AList (fun _ : R => List ℕ)
  pendingSessions : AList (fun _ : R => Bool)
  frames : List (ℕ × SessionFrame R)
  posted : List (SessionJob R)
  calls : List ℕ
  next : ℕ

namespace SessionMaker

def start : SessionMaker R := ⟨∅, ∅, [], [], [], 0⟩

def enter (t : ℕ) (f : SessionFrame R) (s : SessionMaker R) : SessionMaker R := { s with frames := (t, f) :: s.frames }

def run (job : SessionJob R) (s : SessionMaker R) : SessionMaker R :=
  match job with
  | .callback c => { s with calls := s.calls ++ [c] }.enter 0 (.callback c)
  | .doEstablish router => s.enter 0 (.doEstablish router)

def loopCall (t : ℕ) (job : SessionJob R) (s : SessionMaker R) : SessionMaker R :=
  if t = 0 then s.run job else { s with posted := s.posted ++ [job] }

def createPendingSession (router : R) (s : SessionMaker R) : SessionMaker R :=
  { s with
    pendingSessions := if router ∈ s.pendingSessions then s.pendingSessions else s.pendingSessions.insert router false }

/-- The thread `t` goes on from `f` to the end of the next section; the input is what it asks elsewhere (a session, a
link, a connection, `TryEstablishTo`). -/
def resume (t : ℕ) (input : Bool) (f : SessionFrame R) (s : SessionMaker R) : Except SessionFault (SessionMaker R) :=
  match f with
  | .check router rc =>
    if router ∈ s.pendingSessions then .ok (if rc then s.enter t (.created router rc) else s)
    else .ok (s.enter t (.create router rc))
  | .create router rc => .ok ((s.createPendingSession router).enter t (.created router rc))
  | .created router rc =>
    if input then .ok (s.enter t (.finalize router .establish))
    else if rc then .ok (s.enter t (.gotRouterContact router))
    -- GetRC calls back with OnRouterContactResult
    else .ok s
  | .gotRouterContact router =>
    if router ∈ s.pendingSessions then
      if input then
        .ok ({ s with pendingSessions := s.pendingSessions.insert router true }.enter t (.shouldConnect router))
      else .ok (s.enter t (.finalize router .noLink))
    else .ok s
  | .shouldConnect router =>
    if input then .ok (s.loopCall t (.doEstablish router)) else .ok (s.enter t (.finalize router .noLink))
  | .onRouterContactResult router rc result =>
    if router ∈ s.pendingSessions then
      match result with
      | .success => .ok (s.enter t (if rc then .gotRouterContact router else .finalize router .invalidRouter))
      | .invalidRouter => .ok (s.enter t (.finalize router .invalidRouter))
      | .routerNotFound | .badRC => .ok (s.enter t (.finalize router .routerNotFound))
    else .ok s
  | .doEstablish router =>
    match s.pendingSessions.lookup router with
    | none => .ok s
    | some false => .error .nullSession
    | some true => .ok (if input then s else s.enter t (.finalize router .establishFail))
  | .finalize router type =>
    .ok ({ s with pendingCallbacks := s.pendingCallbacks.erase router }.enter t
      (.finalizing router type (queue s.pendingCallbacks router)))
  | .finalizing router type (c :: cs) => .ok ((s.enter t (.finalizing router type cs)).loopCall t (.callback c))
  | .finalizing router _ [] => .ok { s with pendingSessions := s.pendingSessions.erase router }
  -- the callback returns
  | .callback _ => .ok s

inductive Call (R : Type) where
  | createSessionTo (router : R) (rc onResult : Bool)
  | onRouterContactResult (router : R) (rc : Bool) (result : RCRequestResult)
  | onConnectTimeout (router : R)
  | onSessionEstablished (router : R)
  | verifyRC (router : R) (checked : Bool)

def call (t : ℕ) (c : Call R) (s : SessionMaker R) : SessionMaker R :=
  match c with
  | .createSessionTo router rc onResult =>
    (if onResult then
      { s with pendingCallbacks := append s.pendingCallbacks router [s.next], next := s.next + 1 }
    else s).enter t (.check router rc)
  | .onRouterContactResult router rc result => s.enter t (.onRouterContactResult router rc result)
  | .onConnectTimeout router => s.enter t (.finalize router .timeout)
  | .onSessionEstablished router => s.enter t (.finalize router .invalidRouter)
  | .verifyRC router checked => s.enter t (.finalize router (if checked then .establish else .invalidRouter))

def outside (s : SessionMaker R) (t : ℕ) : Bool :=
  match top s.frames t with
  | none => true
  | some (.callback _) => true
  | some _ => false

inductive Op (R : Type) where
  | call (t : ℕ) (c : Call R)
  | resume (t : ℕ) (input : Bool)
  | runPosted

def step : Op R → SessionMaker R → Except SessionFault (SessionMaker R)
  | .call t c, s => .ok (if s.outside t then s.call t c else s)
  | .resume t input, s => match top s.frames t with
    | none => .ok s
    | some f => resume t input f { s with frames := pop s.frames t }
  | .runPosted, s => match top s.frames 0, s.posted with
    | none, job :: jobs => .ok (run job { s with posted := jobs })
    | _, _ => .ok s

end SessionMaker

def SessionFrame.starts : SessionFrame R → Option R
  | .check router _ | .create router _ => some router
  | _ => none

def SessionFrame.between : SessionFrame R → Option R
  | .finalizing router _ _ => some router
  | _ => none

def SessionFrame.moved : SessionFrame R → List ℕ
  | .finalizing _ _ movedCallbacks => movedCallbacks
  | _ => []

def SessionJob.callbacks : SessionJob R → List ℕ
  | .callback c => [c]
  | .doEstablish _ => []

namespace SessionMaker

def Starts (s : SessionMaker R) (router : R) : Prop := ∃ x ∈ s.frames, x.2.starts = some router

def Between (s : SessionMaker R) (router : R) : Prop := ∃ x ∈ s.frames, x.2.between = some router

def tokens (s : SessionMaker R) : Multiset ℕ :=
  ↑s.calls + items s.pendingCallbacks + ↑(s.frames.flatMap fun x => x.2.moved) + ↑(s.posted.flatMap SessionJob.callbacks)

variable {s s' : SessionMaker R} {t : ℕ} {f g : SessionFrame R} {router r : R}

lemma starts_enter : (s.enter t f).Starts r ↔ f.starts = some r ∨ s.Starts r := by
  unfold Starts enter
  simp

lemma between_enter : (s.enter t f).Between r ↔ f.between = some r ∨ s.Between r := by
  unfold Between enter
  simp

lemma tokens_enter : (s.enter t f).tokens = s.tokens + ↑f.moved := by
  unfold tokens enter
  simp only [List.flatMap_cons, ← coe_add]
  abel

/-- nothing changes for the waiting callbacks and the sessions, and the callbacks `cs` get a place -/
structure Neutral (cs : List ℕ) (s s' : SessionMaker R) : Prop where
  callbacks : s'.pendingCallbacks = s.pendingCallbacks
  sessions : ∀ r, r ∈ s'.pendingSessions ↔ r ∈ s.pendingSessions
  starts : ∀ r, s'.Starts r ↔ s.Starts r
  between : ∀ r, s'.Between r ↔ s.Between r
  tokens : s'.tokens = s.tokens + ↑cs
  next : s'.next = s.next

lemma Neutral.replace (hstarts : g.starts = f.starts) (hbetween : g.between = f.between) (hmoved : g.moved = f.moved) :
    Neutral [] (s.enter t f) (s.enter t g) where
  callbacks := rfl
  sessions _ := .rfl
  starts r := by rw [starts_enter, starts_enter, hstarts]
  between r := by rw [between_enter, between_enter, hbetween]
  tokens := by rw [tokens_enter, tokens_enter, hmoved, coe_nil, add_zero]
  next := rfl

def Silent (f : SessionFrame R) : Prop := f.starts = none ∧ f.between = none ∧ f.moved = []

lemma Neutral.enter (t : ℕ) (hf : Silent f := by exact ⟨rfl, rfl, rfl⟩) : Neutral [] s (s.enter t f) where
  callbacks := rfl
  sessions _ := .rfl
  starts r := by rw [starts_enter, hf.1]; exact ⟨fun h => h.resolve_left nofun, .inr⟩
  between r := by rw [between_enter, hf.2.1]; exact ⟨fun h => h.resolve_left nofun, .inr⟩
  tokens := by rw [tokens_enter, hf.2.2]
  next := rfl

lemma Neutral.leave {cs : List ℕ} (hf : Silent f) (h : Neutral cs s s') : Neutral cs (s.enter t f) s' where
  callbacks := h.callbacks
  sessions := h.sessions
  starts r := by rw [h.starts, starts_enter, hf.1]; exact ⟨.inr, fun h => h.resolve_left nofun⟩
  between r := by rw [h.between, between_enter, hf.2.1]; exact ⟨.inr, fun h => h.resolve_left nofun⟩
  tokens := by rw [h.tokens, tokens_enter, hf.2.2, coe_nil, add_zero]
  next := h.next

lemma Neutral.refl (s : SessionMaker R) : Neutral [] s s :=
  ⟨rfl, fun _ => .rfl, fun _ => .rfl, fun _ => .rfl, (add_zero _).symm, rfl⟩

lemma run_neutral (job : SessionJob R) (s : SessionMaker R) : Neutral job.callbacks s (run job s) := by
  cases job with
  | callback c =>
    have h : Neutral [] _ (run (.callback c) s) := .enter 0
    refine ⟨rfl, fun _ => .rfl, h.starts, h.between, h.tokens.trans ?_, rfl⟩
    unfold tokens
    simp only [← coe_add, SessionJob.callbacks]
    abel
  | doEstablish => exact .enter 0

lemma loopCall_neutral (t : ℕ) (job : SessionJob R) (s : SessionMaker R) :
    Neutral job.callbacks s (loopCall t job s) := by
  unfold loopCall
  split
  · exact run_neutral job s
  refine ⟨rfl, fun _ => .rfl, fun _ => .rfl, fun _ => .rfl, ?_, rfl⟩
  simp only [tokens, List.flatMap_append, List.flatMap_singleton, ← coe_add]
  abel

variable {input : Bool}

lemma resume_silent (hf : Silent f) (hne : ∀ router type, f ≠ .finalize router type)
    (h : resume t input f s = .ok s') : Neutral [] s s' := by
  cases f with
  | check | create => cases hf.1
  | finalizing => cases hf.2.1
  | finalize router type => exact absurd rfl (hne router type)
  | created router rc =>
    dsimp only [resume] at h
    split at h
    · cases h
      exact .enter t
    split at h
    · cases h
      exact .enter t
    · cases h
      exact .refl s
  | gotRouterContact router =>
    dsimp only [resume] at h
    split at h
    · rename_i hpending
      split at h
      · cases h
        have hn : Neutral [] { s with pendingSessions := s.pendingSessions.insert router true }
            (SessionMaker.enter t (.shouldConnect router) _) := .enter t
        refine ⟨rfl, fun r => ?_, hn.starts, hn.between, hn.tokens, rfl⟩
        exact (mem_insert _).trans ⟨fun h => h.elim (fun h => h ▸ hpending) id, .inr⟩
      · cases h
        exact .enter t
    · cases h
      exact .refl s
  | shouldConnect router =>
    dsimp only [resume] at h
    split at h
    · cases h
      exact loopCall_neutral t (.doEstablish router) s
    · cases h
      exact .enter t
  | onRouterContactResult router rc result =>
    dsimp only [resume] at h
    split at h
    · cases result with
      | success =>
        cases h
        cases rc <;> exact .enter t
      | invalidRouter | routerNotFound | badRC =>
        cases h
        exact .enter t
    · cases h
      exact .refl s
  | doEstablish router =>
    dsimp only [resume] at h
    split at h
    · cases h
      exact .refl s
    · cases h
    cases h
    cases input with
    | true => exact .refl s
    | false => exact .enter t
  | callback =>
    cases h
    exact .refl s

lemma resume_cases (h : resume t input f s = .ok s') : Neutral [] (s.enter t f) s' ∨
    (∃ router rc, f = .check router rc ∧ router ∈ s.pendingSessions ∧ Neutral [] s s') ∨
    (∃ router rc, f = .create router rc ∧ s'.pendingCallbacks = s.pendingCallbacks ∧
      (∀ r, r ∈ s'.pendingSessions ↔ r = router ∨ r ∈ s.pendingSessions) ∧ (∀ r, s'.Starts r ↔ s.Starts r) ∧
      (∀ r, s'.Between r ↔ s.Between r) ∧ s'.tokens = s.tokens ∧ s'.next = s.next) ∨
    (∃ router type, f = .finalize router type ∧
      s' = { s with pendingCallbacks := s.pendingCallbacks.erase router }.enter t
        (.finalizing router type (queue s.pendingCallbacks router))) ∨
    (∃ router type, f = .finalizing router type [] ∧
      s' = { s with pendingSessions := s.pendingSessions.erase router }) := by
  cases f with
  | check router rc =>
    dsimp only [resume] at h
    split at h
    · rename_i hpending
      refine .inr (.inl ⟨router, rc, rfl, hpending, ?_⟩)
      cases h
      cases rc with
      | true => exact .enter t
      | false => exact .refl s
    · cases h
      exact .inl (.replace rfl rfl rfl)
  | create router rc =>
    cases h
    have hn : Neutral [] _ ((s.createPendingSession router).enter t (.created router rc)) := .enter t
    refine .inr (.inr (.inl ⟨router, rc, rfl, rfl, fun r => ?_, hn.starts, hn.between, hn.tokens.trans (add_zero _), rfl⟩))
    show r ∈ (if router ∈ s.pendingSessions then s.pendingSessions else s.pendingSessions.insert router false) ↔ _
    split
    · rename_i hpending
      exact ⟨.inr, fun h => h.elim (fun h => h ▸ hpending) id⟩
    · exact mem_insert _
  | finalize router type =>
    cases h
    exact .inr (.inr (.inr (.inl ⟨router, type, rfl, rfl⟩)))
  | finalizing router type movedCallbacks =>
    cases movedCallbacks with
    | nil =>
      cases h
      exact .inr (.inr (.inr (.inr ⟨router, type, rfl, rfl⟩)))
    | cons c cs =>
      cases h
      -- the callback goes from the frame to the event loop
      have hn := loopCall_neutral t (.callback c) (s.enter t (.finalizing router type cs))
      refine .inl ⟨hn.callbacks, hn.sessions, fun r => ?_, fun r => ?_, ?_, hn.next⟩
      · rw [hn.starts, starts_enter, starts_enter]
        rfl
      · rw [hn.between, between_enter, between_enter]
        rfl
      · rw [hn.tokens, tokens_enter, tokens_enter]
        simp only [SessionFrame.moved, SessionJob.callbacks, ← cons_coe, ← singleton_add, coe_nil, add_zero]
        abel
  | _ => exact .inl (.leave ⟨rfl, rfl, rfl⟩ (resume_silent ⟨rfl, rfl, rfl⟩ (by rintro _ _ ⟨⟩) h))

lemma pop_neutral (h : top s.frames t = some f) :
    Neutral [] s (SessionMaker.enter t f { s with frames := pop s.frames t }) := by
  have hperm := perm_of_top h
  refine ⟨rfl, fun _ => .rfl, fun r => ?_, fun r => ?_, ?_, rfl⟩
  · exact ⟨fun ⟨x, hx, h⟩ => ⟨x, hperm.mem_iff.mpr hx, h⟩, fun ⟨x, hx, h⟩ => ⟨x, hperm.mem_iff.mp hx, h⟩⟩
  · exact ⟨fun ⟨x, hx, h⟩ => ⟨x, hperm.mem_iff.mpr hx, h⟩, fun ⟨x, hx, h⟩ => ⟨x, hperm.mem_iff.mp hx, h⟩⟩
  · have hmoved := coe_eq_coe.mpr (hperm.flatMap_right fun x => x.2.moved)
    unfold tokens enter
    rw [← hmoved, coe_nil, add_zero]

def Placed (s : SessionMaker R) : Prop := s.tokens = range s.next

lemma Placed.congr (hs : Placed s) (htokens : s'.tokens = s.tokens) (hnext : s'.next = s.next) : Placed s' := by
  unfold Placed
  rw [htokens, hnext]
  exact hs

lemma resume_tokens (h : resume t input f s = .ok s') : s'.tokens = (s.enter t f).tokens ∧ s'.next = s.next := by
  rcases resume_cases h with hn | ⟨router, rc, rfl, -, hn⟩ | ⟨router, rc, rfl, -, -, -, -, htokens, hnext⟩ |
    ⟨router, type, rfl, rfl⟩ | ⟨router, type, rfl, rfl⟩
  · exact ⟨hn.tokens.trans (add_zero _), hn.next⟩
  · rw [tokens_enter]
    exact ⟨hn.tokens, hn.next⟩
  · rw [tokens_enter]
    exact ⟨htokens.trans (add_zero _).symm, hnext⟩
  · -- the queue of the router is now in the frame
    refine ⟨?_, rfl⟩
    rw [tokens_enter, tokens_enter]
    simp only [tokens, ← items_take s.pendingCallbacks router]
    abel
  · rw [tokens_enter]
    exact ⟨(add_zero _).symm, rfl⟩

lemma Placed.call (hs : Placed s) (c : Call R) : Placed (s.call t c) := by
  have henter : ∀ f : SessionFrame R, f.moved = [] → Placed (s.enter t f) := by
    intro f hf
    refine hs.congr ?_ rfl
    rw [tokens_enter, hf, coe_nil, add_zero]
  cases c with
  | createSessionTo router rc onResult =>
    cases onResult with
    | false => exact henter _ rfl
    | true =>
      unfold Placed
      dsimp only [SessionMaker.call]
      rw [if_pos rfl, tokens_enter]
      show SessionMaker.tokens _ + 0 = range (s.next + 1)
      have hplaced : s.tokens = range s.next := hs
      rw [range_succ, ← singleton_add, ← hplaced]
      simp only [tokens, items_append, coe_singleton]
      abel
  | onRouterContactResult router rc result | onConnectTimeout router | onSessionEstablished router
  | verifyRC router => exact henter _ rfl

lemma Placed.step {op : Op R} (hs : Placed s) (h : SessionMaker.step op s = .ok s') : Placed s' := by
  cases op with
  | call t c =>
    cases h
    split
    · exact hs.call c
    · exact hs
  | resume t =>
    dsimp only [SessionMaker.step] at h
    split at h
    · cases h
      exact hs
    rename_i f htop
    have hn := pop_neutral htop
    obtain ⟨htokens, hnext⟩ := resume_tokens h
    exact hs.congr (htokens.trans (hn.tokens.trans (add_zero _))) hnext
  | runPosted =>
    dsimp only [SessionMaker.step] at h
    split at h
    · rename_i job jobs htop hposted
      cases h
      have hn := run_neutral job { s with posted := jobs }
      refine hs.congr (hn.tokens.trans ?_) hn.next
      simp only [tokens, hposted, List.flatMap_cons, ← coe_add]
      abel
    · cases h
      exact hs

lemma placed_start : Placed (start : SessionMaker R) := rfl

lemma Placed.calls_nodup (hs : Placed s) : s.calls.Nodup := by
  have hle : (s.calls : Multiset ℕ) ≤ range s.next := by
    have hplaced : s.tokens = range s.next := hs
    rw [← hplaced]
    unfold tokens
    rw [add_assoc, add_assoc]
    exact le_add_right _ _
  exact coe_nodup.mp (nodup_of_le hle (nodup_range _))

def Kept (s : SessionMaker R) : Prop :=
  ∀ r, ¬ s.Between r → queue s.pendingCallbacks r ≠ [] → r ∈ s.pendingSessions ∨ s.Starts r

def Fine : Op R → SessionMaker R → Prop
  | .call t (.createSessionTo router _ true), s => s.outside t = true → ¬ s.Between router
  | _, _ => True

structure Sound (s : SessionMaker R) : Prop where
  between : ∀ r, s.Between r → queue s.pendingCallbacks r = []
  kept : ∀ r, queue s.pendingCallbacks r ≠ [] → r ∈ s.pendingSessions ∨ s.Starts r

lemma Neutral.sound {cs : List ℕ} (h : Neutral cs s s') (hs : Sound s) : Sound s' where
  between r hr := by
    rw [h.callbacks]
    exact hs.between r ((h.between r).mp hr)
  kept r hr := by
    rw [h.callbacks] at hr
    rw [h.sessions, h.starts]
    exact hs.kept r hr

lemma Sound.resume (hs : Sound (s.enter t f)) (h : SessionMaker.resume t input f s = .ok s') : Sound s' := by
  rcases resume_cases h with hn | ⟨router, rc, rfl, hpending, hn⟩ |
    ⟨router, rc, rfl, hcallbacks, hsessions, hstarts, hbetween, -, -⟩ | ⟨router, type, rfl, rfl⟩ | ⟨router, type, rfl, rfl⟩
  · exact hn.sound hs
  · refine hn.sound ⟨fun r hr => hs.between r (between_enter.mpr (.inr hr)), fun r hr => ?_⟩
    rcases hs.kept r hr with h | h
    · exact .inl h
    -- the call that has looked relies on the session it has found
    rcases starts_enter.mp h with h | h
    · cases h
      exact .inl hpending
    · exact .inr h
  · constructor
    · intro r hr
      rw [hcallbacks]
      exact hs.between r (between_enter.mpr (.inr ((hbetween r).mp hr)))
    intro r hr
    rw [hcallbacks] at hr
    rw [hsessions, hstarts]
    rcases hs.kept r hr with h | h
    · exact .inl (.inr h)
    rcases starts_enter.mp h with h | h
    · cases h
      exact .inl (.inl rfl)
    · exact .inr h
  · constructor
    · intro r hr
      show queue (s.pendingCallbacks.erase router) r = []
      rw [queue_erase]
      split
      · rfl
      rename_i hne
      refine hs.between r (between_enter.mpr (.inr ((between_enter.mp hr).resolve_left fun h => ?_)))
      cases h
      exact hne rfl
    · intro r hr
      have hr : queue (s.pendingCallbacks.erase router) r ≠ [] := hr
      rw [queue_erase] at hr
      split at hr
      · exact absurd rfl hr
      rcases hs.kept r hr with h | h
      · exact .inl h
      · exact .inr (starts_enter.mpr (.inr ((starts_enter.mp h).resolve_left nofun)))
  · -- the session is erased, but no callback waits for it
    have hempty := hs.between router (between_enter.mpr (.inl rfl))
    refine ⟨fun r hr => hs.between r (between_enter.mpr (.inr hr)), fun r hr => ?_⟩
    have hr : queue s.pendingCallbacks r ≠ [] := hr
    have hne : r ≠ router := by
      rintro rfl
      exact hr hempty
    rcases hs.kept r hr with h | h
    · exact .inl (mem_erase.mpr ⟨hne, h⟩)
    · exact .inr ((starts_enter.mp h).resolve_left nofun)

lemma Sound.call (hs : Sound s) {c : Call R} (hfine : Fine (.call t c) s) (hout : s.outside t = true) :
    Sound (s.call t c) := by
  cases c with
  | createSessionTo router rc onResult =>
    cases onResult with
    | false =>
      refine ⟨fun r hr => hs.between r ((between_enter.mp hr).resolve_left nofun), fun r hr => ?_⟩
      exact (hs.kept r hr).imp_right fun h => starts_enter.mpr (.inr h)
    | true =>
      have hfree : ¬ s.Between router := hfine hout
      have hqueue := queue_append s.pendingCallbacks router
      constructor
      · intro r hr
        have hin : s.Between r := (between_enter.mp hr).resolve_left nofun
        have hne : r ≠ router := by
          rintro rfl
          exact hfree hin
        show queue (append s.pendingCallbacks router [s.next]) r = []
        rw [hqueue, if_neg hne]
        exact hs.between r hin
      · intro r hr
        by_cases hne : r = router
        · exact .inr (starts_enter.mpr (.inl (by rw [hne]; rfl)))
        have hr : queue (append s.pendingCallbacks router [s.next]) r ≠ [] := hr
        rw [hqueue, if_neg hne] at hr
        exact (hs.kept r hr).imp_right fun h => starts_enter.mpr (.inr h)
  | onRouterContactResult router rc result | onConnectTimeout router | onSessionEstablished router
  | verifyRC router => exact (Neutral.enter t).sound hs

lemma Sound.step {op : Op R} (hs : Sound s) (hfine : Fine op s) (h : SessionMaker.step op s = .ok s') : Sound s' := by
  cases op with
  | call t =>
    cases h
    split
    · rename_i hout
      exact hs.call hfine hout
    · exact hs
  | resume t =>
    dsimp only [SessionMaker.step] at h
    split at h
    · cases h
      exact hs
    · rename_i f htop
      exact ((pop_neutral htop).sound hs).resume h
  | runPosted =>
    dsimp only [SessionMaker.step] at h
    split at h
    · rename_i job jobs htop hposted
      cases h
      exact (run_neutral job _).sound ⟨hs.between, hs.kept⟩
    · cases h
      exact hs

lemma sound_start : Sound (start : SessionMaker R) where
  between _ _ := rfl
  kept _ h := absurd rfl h

/-- With calls from callbacks and other threads no callback is called twice; if none comes in between the two sections
of `FinalizeRequest`, every waiting one has a pending session. -/
theorem callbacks_kept (ops : List (Op R)) :
    Run.Always step (fun s => s.calls.Nodup) ops start ∧ (Run.Obeys step Fine ops start → Run.Always step Kept ops start) := by
  constructor
  · exact Run.always_of_inv (fun _ _ _ hs => hs.step) (fun _ hs => hs.calls_nodup) ops placed_start
  · exact Run.always_of_obeys (fun _ _ _ hs => hs.step) (fun _ hs r _ => hs.kept r) ops sound_start

theorem callbacks_kept_one :
    Run.Always step Kept [.call 0 (.createSessionTo () false true), .resume 0 false, .resume 0 false] start := by
  refine (callbacks_kept _).2 ⟨?_, fun _ _ => ⟨trivial, fun _ _ => ⟨trivial, fun _ _ => trivial⟩⟩⟩
  rintro - ⟨x, hx, -⟩
  cases hx

/-- Every callback so far is in one place: called, waiting, in the hands of a call, or in a posted job. -/
theorem callbacks_placed (ops : List (Op R)) : Run.Always step Placed ops start :=
  Run.always_of_inv (fun _ _ _ hs => hs.step) (fun _ h => h) ops placed_start

def reentrant : List (Op Unit) :=
  [.call 0 (.createSessionTo () false true), .resume 0 false, .resume 0 false,
   -- there is an outbound session
   .resume 0 true,
   -- the first section of FinalizeRequest, and the callback
   .resume 0 false, .resume 0 false,
   .call 0 (.createSessionTo () false true),
   -- a session is pending
   .resume 0 false,
   -- the callback returns, and the second section follows
   .resume 0 false, .resume 0 false]

/-- the second callback is left without a session, and no call is in progress -/
theorem callback_left : ∃ s, Run.exec step reentrant start = .ok s ∧ s.frames = [] ∧ s.posted = [] ∧
    queue s.pendingCallbacks () = [1] ∧ () ∉ s.pendingSessions ∧ s.calls = [0] := by
  refine ⟨_, rfl, rfl, rfl, rfl, ?_, rfl⟩
  decide

end SessionMaker

end Belnet.Router
