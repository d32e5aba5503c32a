import Belnet.Path.Messages

/-!
# The status of a path

`Path::EnterState` of `llarp/path/path.cpp` and all that calls it: `Tick`, the handlers, `Builder::Stop`,
`PathBuilderKeysGenerated`.
-/

namespace Belnet.Path
open Iwp (Millis)

inductive PathStatus where
  | building
  | established
  | timeout
  | failed
  | ignore
  | expired
deriving DecidableEq

inductive PathEvent where
  | entered (st : PathStatus)
  | builtHook
deriving DecidableEq

structure PathState where
  status : PathStatus
  buildStarted : Millis
  lifetime : Millis
  role : BitVec 32
  lastRecvMessage : Millis := 0
  lastLatencyTestTime : Millis := 0
  lastLatencyTestID : UInt64 := 0
  latencySamples : List Millis := []
  introLatency : Millis := 0
  introExpiresAt : Millis := 0
  exitTrafficHandler : Bool := false
  builtHook : Bool := false
  log : List PathEvent

abbrev buildTimeout : Millis := 10000

abbrev latencyInterval : Millis := 20000

abbrev aliveTimeout : Millis := 30000

abbrev pathReanimationTimeout : Millis := 45000

abbrev maxLatencySamples : ℕ := 8

abbrev ePathRoleAny : BitVec 32 := 0

abbrev ePathRoleExit : BitVec 32 := 4

abbrev ePathRoleSVC : BitVec 32 := 8

namespace PathState

def enterState (st : PathStatus) (now : Millis) (s : PathState) : PathState :=
  { s with
    status := st
    buildStarted := if st = .building then now else s.buildStarted
    log := .entered st :: s.log }

def init (now lifetime : Millis) (role : BitVec 32) : PathState where
  status := .building
  buildStarted := now
  lifetime := lifetime
  role := role
  builtHook := true
  log := [.entered .building]

section
variable (now : Millis) (s : PathState)

def markActive : PathState := { s with lastRecvMessage := max now s.lastRecvMessage }

def supportsAnyRoles (roles : BitVec 32) : Bool := roles = ePathRoleAny || (s.role ||| roles) != 0

def expireTime : Millis := s.buildStarted + s.lifetime

def expired (now : Millis) : Bool :=
  match s.status with
  | .failed => true
  | .building => false
  | .timeout => s.lastRecvMessage + pathReanimationTimeout ≤ now
  | .established | .ignore => s.expireTime ≤ now
  | .expired => true

def sendLatencyMessage (T : UInt64) (s : PathState) : PathState :=
  { s with lastLatencyTestID := T, lastLatencyTestTime := now }

def tickIgnored : PathState :=
  if s.status = .ignore ∧ aliveTimeout ≤ now - s.lastRecvMessage then s.enterState .expired now else s

def tick (T : UInt64) (s : PathState) : PathState :=
  if s.expired now then s
  else if s.status = .building then
    if s.buildStarted ≠ 0 ∧ s.buildStarted ≤ now ∧ buildTimeout ≤ now - s.buildStarted then s.enterState .expired now else s
  else if s.status = .established then
    if latencyInterval < now - s.lastLatencyTestTime ∧ s.lastLatencyTestID = 0 then s.sendLatencyMessage now T
    else if aliveTimeout ≤ now - s.lastRecvMessage then (s.enterState .timeout now).tickIgnored now
    else s.tickIgnored now
  else s.tickIgnored now

def handlePathConfirmMessage (T : UInt64) (s : PathState) : PathState :=
  if s.status = .building then
    ({ s with introExpiresAt := s.expireTime }.markActive now).sendLatencyMessage now T
  else s

def handleLRSM (result : LRSMResult) (now : Millis) (T : UInt64) (s : PathState) : PathState :=
  match result with
  | .confirm => s.handlePathConfirmMessage now T
  | .failed _ _ => s.enterState .failed now

def computeLatency (samples : List Millis) : Millis := samples.sum / samples.length

def callBuiltHook (ignores : Bool) (s : PathState) : PathState :=
  if s.builtHook then
    let called := { s with log := .builtHook :: s.log, builtHook := false }
    if ignores then called.enterState .ignore now else called
  else s

def addLatencySample : PathState :=
  let samples := s.latencySamples ++ [now - s.lastLatencyTestTime]
  let samples := samples.drop (samples.length - maxLatencySamples)
  { s with latencySamples := samples, introLatency := computeLatency samples, lastLatencyTestID := 0 }

def handlePathLatencyMessage (ignores : Bool) (s : PathState) : PathState :=
  let s := s.markActive now
  if s.lastLatencyTestID ≠ 0 then
    ((s.addLatencySample now).enterState .established now).callBuiltHook now ignores
  else s

def handlePacket (pkt : Bytes × Bool) : PathState :=
  if pkt.1.length ≤ 8 then s
  else if pkt.2 then (s.markActive now).enterState .established now
  else s

def handleTransferTrafficMessage (X : List (Bytes × Bool)) (s : PathState) : PathState :=
  if !s.supportsAnyRoles (ePathRoleExit ||| ePathRoleSVC) then s
  else if !s.exitTrafficHandler then s
  else X.foldl (handlePacket now) s

end

inductive Op where
  | tick (now : Millis) (T : UInt64)
  | handleLRSM (result : LRSMResult) (now : Millis) (T : UInt64)
  | handlePathConfirmMessage (now : Millis) (T : UInt64)
  | handlePathLatencyMessage (now : Millis) (ignores : Bool)
  | handleTransferTrafficMessage (now : Millis) (X : List (Bytes × Bool))
  | stop (now : Millis)
  | lrcmSent (success : Bool) (now : Millis)
  | latencyFec (now : Millis) (T : UInt64)
  | received (now : Millis)
  | setExitTrafficHandler (set : Bool)
  | setRole (role : BitVec 32)

def step : Op → PathState → Except Empty PathState
  | .tick now T, s => .ok (s.tick now T)
  | .handleLRSM result now T, s => .ok (s.handleLRSM result now T)
  | .handlePathConfirmMessage now T, s => .ok (s.handlePathConfirmMessage now T)
  | .handlePathLatencyMessage now ignores, s => .ok (s.handlePathLatencyMessage now ignores)
  | .handleTransferTrafficMessage now X, s => .ok (s.handleTransferTrafficMessage now X)
  | .stop now, s => .ok (s.enterState .ignore now)
  | .lrcmSent success now, s => .ok (if success then s else s.enterState .failed now)
  | .latencyFec now T, s => .ok (if s.lastLatencyTestID ≠ 0 then s.sendLatencyMessage now T else s)
  | .received now, s => .ok { s with lastRecvMessage := now }
  | .setExitTrafficHandler set, s => .ok { s with exitTrafficHandler := set }
  | .setRole role, s => .ok { s with role := role }

def Terminal : PathEvent → Prop
  | .entered .failed | .entered .expired => True
  | _ => False

def Live : PathEvent → Prop
  | .entered .established | .builtHook => True
  | _ => False

def Dead (s : PathState) : Prop := ∃ e ∈ s.log, Terminal e

structure Absorbing (s : PathState) : Prop where
  status : s.Dead → s.status ≠ .established
  log : s.log.Pairwise fun later earlier => Terminal earlier → ¬ Live later

def Taken (pkt : Bytes × Bool) : Prop := 8 < pkt.1.length ∧ pkt.2 = true

def Fine : Op → PathState → Prop
  | .handlePathLatencyMessage .., s => s.Dead → s.lastLatencyTestID = 0
  | .handleTransferTrafficMessage _ X, s => s.Dead → s.exitTrafficHandler = true → ∀ pkt ∈ X, ¬ Taken pkt
  | _, _ => True

variable {s : PathState} {s' : PathState}

lemma Absorbing.congr (hs : s.Absorbing) (hstatus : s'.status = s.status) (hlog : s'.log = s.log) : s'.Absorbing where
  status hd := by
    rw [hstatus]
    exact hs.status (by unfold Dead at hd ⊢; rwa [← hlog])
  log := hlog ▸ hs.log

lemma dead_enterState (st : PathStatus) (now : Millis) (s : PathState) :
    (s.enterState st now).Dead ↔ Terminal (.entered st) ∨ s.Dead := by
  unfold Dead enterState
  simp

section
variable (hs : s.Absorbing)
include hs

lemma pairwise_cons (e : PathEvent) (he : Live e → ¬ s.Dead) :
    (e :: s.log).Pairwise fun later earlier => Terminal earlier → ¬ Live later :=
  List.pairwise_cons.mpr ⟨fun e' he' hterm hlive => he hlive ⟨e', he', hterm⟩, hs.log⟩

lemma enter_absorbing (st : PathStatus) (now : Millis) :
    (s.enterState st now).Absorbing ↔ (st = .established → ¬ s.Dead) := by
  constructor
  · rintro h rfl hdead
    exact h.status ((dead_enterState _ _ _).mpr (.inr hdead)) rfl
  · intro h
    refine ⟨fun hdead hst => ?_, pairwise_cons hs _ fun hlive => ?_⟩
    · -- the status is the one that was entered
      have hst : st = .established := hst
      subst hst
      rcases (dead_enterState _ _ _).mp hdead with hterm | hdead
      · exact hterm
      · exact h rfl hdead
    · cases st with
      | established => exact h rfl
      | building | timeout | failed | ignore | expired => exact hlive.elim

lemma absorbing_of_ne {st : PathStatus} (now : Millis)
    (hst : st ≠ .established) : (s.enterState st now).Absorbing :=
  (enter_absorbing hs st now).mpr fun h => absurd h hst

lemma ignored_absorbing (now : Millis) : (s.tickIgnored now).Absorbing := by
  unfold tickIgnored
  split
  · exact absorbing_of_ne hs now (by decide)
  · exact hs

lemma tick_absorbing (now : Millis) (T : UInt64) : (s.tick now T).Absorbing := by
  unfold tick
  split
  · exact hs
  split
  · split
    · exact absorbing_of_ne hs now (by decide)
    · exact hs
  split
  · split
    · exact hs.congr rfl rfl
    split
    · exact ignored_absorbing (absorbing_of_ne hs now (by decide)) now
    · exact ignored_absorbing hs now
  · exact ignored_absorbing hs now

lemma confirm_absorbing (now : Millis) (T : UInt64) :
    (s.handlePathConfirmMessage now T).Absorbing := by
  unfold handlePathConfirmMessage
  split
  · exact hs.congr rfl rfl
  · exact hs

lemma builtHook_absorbing (hdead : ¬ s.Dead) (now : Millis) (ignores : Bool) :
    (s.callBuiltHook now ignores).Absorbing := by
  have hcalled : Absorbing { s with log := .builtHook :: s.log, builtHook := false } := by
    refine ⟨fun h => absurd h ?_, pairwise_cons hs _ fun _ => hdead⟩
    unfold Dead at hdead ⊢
    simpa [Terminal] using hdead
  unfold callBuiltHook
  split
  · cases ignores with
    | true => exact absorbing_of_ne hcalled now (by decide)
    | false => exact hcalled
  · exact hs

end

variable {now : Millis}

lemma pairwise_of_hook {ignores : Bool}
    (h : (s.callBuiltHook now ignores).Absorbing) : s.log.Pairwise fun later earlier => Terminal earlier → ¬ Live later := by
  have hlog := h.log
  unfold callBuiltHook at hlog
  split at hlog
  · cases ignores with
    | true => exact (List.pairwise_cons.mp (List.pairwise_cons.mp hlog).2).2
    | false => exact (List.pairwise_cons.mp hlog).2
  · exact hlog

lemma latency_absorbing_iff (hs : s.Absorbing) (now : Millis) (ignores : Bool) :
    (s.handlePathLatencyMessage now ignores).Absorbing ↔ (s.Dead → s.lastLatencyTestID = 0) := by
  have hactive : (s.markActive now).Absorbing := hs.congr rfl rfl
  unfold handlePathLatencyMessage
  dsimp only
  split
  · rename_i hid
    have hid : s.lastLatencyTestID ≠ 0 := hid
    have hsample : ((s.markActive now).addLatencySample now).Absorbing := hs.congr rfl rfl
    constructor
    · -- the entry of the new status stands behind the end
      rintro h ⟨e, he, hterm⟩
      exact absurd trivial ((List.pairwise_cons.mp (pairwise_of_hook h)).1 e he hterm)
    · intro h
      have hdead : ¬ s.Dead := fun hd => hid (h hd)
      refine builtHook_absorbing ((enter_absorbing hsample _ now).mpr fun _ => hdead) (fun hd => ?_) now ignores
      rcases (dead_enterState _ _ _).mp hd with hterm | hd
      · exact hterm
      · exact hdead hd
  · rename_i hid
    exact ⟨fun _ _ => not_not.mp hid, fun _ => hactive⟩

lemma packet_absorbing_iff (hs : s.Absorbing) (now : Millis) (pkt : Bytes × Bool) :
    (s.handlePacket now pkt).Absorbing ↔ (s.Dead → ¬ Taken pkt) := by
  unfold handlePacket Taken
  split
  · rename_i hshort
    exact ⟨fun _ _ h => absurd h.1 (not_lt.mpr hshort), fun _ => hs⟩
  rename_i hlong
  split
  · rename_i htaken
    have hactive : (s.markActive now).Absorbing := hs.congr rfl rfl
    rw [enter_absorbing hactive]
    exact ⟨fun h hdead => absurd hdead (h rfl), fun h _ hdead => h hdead ⟨not_le.mp hlong, htaken⟩⟩
  · rename_i htaken
    exact ⟨fun _ _ h => htaken h.2, fun _ => hs⟩

lemma dead_handlePacket (s : PathState) (now : Millis) (pkt : Bytes × Bool) : (s.handlePacket now pkt).Dead ↔ s.Dead := by
  unfold handlePacket
  split
  · exact .rfl
  split
  · rw [dead_enterState]
    exact ⟨fun h => h.resolve_left id, .inr⟩
  · exact .rfl

lemma pairwise_of_packets (X : List (Bytes × Bool))
    (h : (X.foldl (handlePacket now) s).log.Pairwise fun later earlier => Terminal earlier → ¬ Live later) :
    s.log.Pairwise fun later earlier => Terminal earlier → ¬ Live later := by
  induction X generalizing s with
  | nil => exact h
  | cons pkt X ih =>
    have hlog := ih h
    unfold handlePacket at hlog
    split at hlog
    · exact hlog
    split at hlog
    · exact (List.pairwise_cons.mp hlog).2
    · exact hlog

lemma not_taken_of_pairwise {pkt : Bytes × Bool}
    (h : (s.handlePacket now pkt).log.Pairwise fun later earlier => Terminal earlier → ¬ Live later) (hdead : s.Dead) :
    ¬ Taken pkt := by
  rintro ⟨hlong, htaken⟩
  obtain ⟨e, he, hterm⟩ := hdead
  unfold handlePacket at h
  rw [if_neg (not_le.mpr hlong), if_pos htaken] at h
  exact (List.pairwise_cons.mp h).1 e he hterm trivial

lemma packets_absorbing_iff (now : Millis) (X : List (Bytes × Bool)) (hs : s.Absorbing) :
    (X.foldl (handlePacket now) s).Absorbing ↔ (s.Dead → ∀ pkt ∈ X, ¬ Taken pkt) := by
  induction X generalizing s with
  | nil => exact ⟨fun _ _ _ h => absurd h List.not_mem_nil, fun _ => hs⟩
  | cons pkt X ih =>
    rw [List.foldl_cons]
    constructor
    · intro h hdead
      have hpkt := not_taken_of_pairwise (pairwise_of_packets X h.log) hdead
      have hs' := (packet_absorbing_iff hs now pkt).mpr fun _ => hpkt
      have hX := (ih hs').mp h ((dead_handlePacket s now pkt).mpr hdead)
      rintro p (_ | ⟨_, hp⟩)
      · exact hpkt
      · exact hX p hp
    · intro h
      have hs' := (packet_absorbing_iff hs now pkt).mpr fun hdead => h hdead pkt List.mem_cons_self
      refine (ih hs').mpr fun hdead p hp => ?_
      exact h ((dead_handlePacket s now pkt).mp hdead) p (List.mem_cons_of_mem _ hp)

lemma supportsAnyRoles_exit (s : PathState) : s.supportsAnyRoles (ePathRoleExit ||| ePathRoleSVC) = true := by
  have hbit : (s.role ||| (ePathRoleExit ||| ePathRoleSVC)) ≠ 0 := by
    intro h
    have hbit := congrArg (fun x : BitVec 32 => x.getLsbD 2) h
    simp at hbit
  unfold supportsAnyRoles
  simp only [Bool.or_eq_true, bne_iff_ne, ne_eq]
  exact .inr hbit

lemma traffic_absorbing_iff (hs : s.Absorbing) (now : Millis) (X : List (Bytes × Bool)) :
    (s.handleTransferTrafficMessage now X).Absorbing ↔
      (s.Dead → s.exitTrafficHandler = true → ∀ pkt ∈ X, ¬ Taken pkt) := by
  unfold handleTransferTrafficMessage
  rw [supportsAnyRoles_exit, Bool.not_true, if_neg Bool.false_ne_true]
  cases hhandler : s.exitTrafficHandler with
  | false => exact ⟨fun _ _ h => (nomatch h), fun _ => hs⟩
  | true =>
    refine (packets_absorbing_iff now X hs).trans ?_
    exact ⟨fun h hdead _ => h hdead, fun h hdead => h hdead rfl⟩

lemma step_absorbing_iff {op : Op} (hs : s.Absorbing) (h : step op s = .ok s') : s'.Absorbing ↔ Fine op s := by
  cases op with cases h
  | handlePathLatencyMessage now ignores => exact latency_absorbing_iff hs now ignores
  | handleTransferTrafficMessage now X => exact traffic_absorbing_iff hs now X
  | tick now T => exact iff_of_true (tick_absorbing hs now T) trivial
  | handleLRSM result now T =>
    refine iff_of_true ?_ trivial
    cases result with
    | confirm => exact confirm_absorbing hs now T
    | failed => exact absorbing_of_ne hs now (by decide)
  | handlePathConfirmMessage now T => exact iff_of_true (confirm_absorbing hs now T) trivial
  | stop now => exact iff_of_true (absorbing_of_ne hs now (by decide)) trivial
  | lrcmSent success now =>
    refine iff_of_true ?_ trivial
    cases success with
    | true => exact hs
    | false => exact absorbing_of_ne hs now (by decide)
  | latencyFec now T =>
    refine iff_of_true ?_ trivial
    split
    · exact hs.congr rfl rfl
    · exact hs
  | received now | setExitTrafficHandler | setRole => exact iff_of_true (hs.congr rfl rfl) trivial

lemma absorbing_init (now lifetime : Millis) (role : BitVec 32) : (init now lifetime role).Absorbing where
  status _ h := nomatch h
  log := List.pairwise_singleton _ _

/-- Behind `ePathFailed` or `ePathExpired` a path is not established and the hook not called, exactly if no latency
test is open when an answer comes, and no packet is taken. -/
theorem terminal_absorbing_iff (now lifetime : Millis) (role : BitVec 32) (ops : List Op) :
    Run.Always step Absorbing ops (init now lifetime role) ↔ Run.Obeys step Fine ops (init now lifetime role) :=
  Run.always_iff_obeys (fun _ _ _ _ _ => trivial) (fun _ _ e _ => e.elim)
    (fun _ _ _ (_ : True) hs h => step_absorbing_iff hs h) ops _ trivial (absorbing_init now lifetime role)

/-- The first latency test is not answered in ten seconds and the path expires; then the answer comes, and it is
established. -/
theorem late_answer_revives : ∃ s₁ s₂,
    Run.exec step [.handleLRSM .confirm 1500 7, .tick 11000 8] (init 1000 1200000 0) = .ok s₁ ∧ s₁.status = .expired ∧
    step (.handlePathLatencyMessage 11001 false) s₁ = .ok s₂ ∧ s₂.status = .established ∧ .builtHook ∈ s₂.log ∧
    ¬ s₂.Absorbing := by
  refine ⟨_, _, rfl, by decide, rfl, by decide, by decide, fun h => ?_⟩
  exact h.status ⟨.entered .expired, by decide, trivial⟩ (by decide)

end PathState

end Belnet.Path
