import Belnet.Lib.Assoc

/-!
# Anonymous lookups of routers

`LookupRouterAnon` and `HandleGotRouterMessage` of `llarp/service/endpoint.cpp`.
-/

namespace Belnet.Service
open Assoc AList

structure RouterLookupJob (H : Type) where
  handler : H
  txid : UInt64

/-- `m_PendingLookups`, of which only the ids are read, and `m_PendingRouters` -/
structure RouterLookups (R H : Type) where
  pendingLookups : List UInt64
  pendingRouters : AList fun _ : R => RouterLookupJob H

namespace RouterLookups
variable {R H : Type} [DecidableEq R] (s : RouterLookups R H)

/-- `while (lookups.find(txid) != lookups.end()) ++txid` ends after as many steps as there are lookups -/
def nextTXID : ℕ → UInt64 → UInt64
  | 0, txid => txid
  | n + 1, txid => if txid ∈ s.pendingLookups then nextTXID n (txid + 1) else txid

/-- `GenTXID`, with the drawn number -/
def genTXID : UInt64 → UInt64 := s.nextTXID s.pendingLookups.length

/-- The id of the message that is sent, if it is, and the lookups after the call.  `sends`: a path takes the message.
The message draws an id, and so does the job. -/
def lookupRouterAnon (router : R) (handler : H) (sends : Bool) (drawn drawn' : UInt64) :
    Option UInt64 × RouterLookups R H :=
  if (s.pendingRouters.lookup router).isSome || !sends then (none, s)
  else (some (s.genTXID drawn), { s with pendingRouters := s.pendingRouters.insert router ⟨handler, s.genTXID drawn'⟩ })

/-- a reply without contacts: the handlers that are called with an empty result, and the lookups after it -/
def handleGotRouterMessage (txid : UInt64) : List H × RouterLookups R H :=
  ((s.pendingRouters.entries.filter (·.2.txid = txid)).map (·.2.handler),
    { s with pendingRouters := restrict (·.2.txid ≠ txid) s.pendingRouters })

/-- the reply with the id calls the handler and ends its lookup only, and no other reply ends it -/
def EndedBy (txid : UInt64) (router : R) (handler : H) (s s' : RouterLookups R H) : Prop :=
  s'.handleGotRouterMessage txid = ([handler], s) ∧
    ∀ reply ≠ txid, ((s'.handleGotRouterMessage reply).2.pendingRouters.lookup router).isSome

variable {s} {s' : RouterLookups R H} {router : R} {handler : H} {sends : Bool} {drawn drawn' txid : UInt64}

/-- The job has an id of its own, so the reply to the message ends the lookup only when both numbers lead to one id. -/
theorem ended_by_reply_iff (h : s.lookupRouterAnon router handler sends drawn drawn' = (some txid, s')) :
    EndedBy txid router handler s s' ↔
      s.genTXID drawn' = s.genTXID drawn ∧ ∀ e ∈ s.pendingRouters.entries, e.2.txid ≠ s.genTXID drawn := by
  unfold lookupRouterAnon at h
  split at h
  · cases h
  rename_i hnew
  obtain ⟨⟨rfl⟩, rfl⟩ := Prod.mk.inj h
  have hmem : router ∉ s.pendingRouters := fun h => hnew (by rw [lookup_isSome.mpr h]; rfl)
  have hentries : (s.pendingRouters.insert router ⟨handler, s.genTXID drawn'⟩).entries
      = ⟨router, handler, s.genTXID drawn'⟩ :: s.pendingRouters.entries := entries_insert_of_notMem hmem
  unfold EndedBy handleGotRouterMessage
  simp only [hentries, lookup_restrict, AList.lookup_insert]
  constructor
  · rintro ⟨hcalled, hothers⟩
    have heq : s.genTXID drawn' = s.genTXID drawn := by
      by_contra hne
      simpa using hothers _ hne
    simpa [heq] using congrArg Prod.fst hcalled
  · rintro ⟨heq, hothers⟩
    refine ⟨Prod.ext (by simpa [heq] using hothers) ?_, fun reply hne => by simpa [heq] using hne.symm⟩
    rw [restrict_insert_drop hmem (by simp [heq]), restrict_all (by simpa using hothers)]

def sampleLookup : UInt64 → Option UInt64 × RouterLookups ℕ ℕ := lookupRouterAnon ⟨[5], ∅⟩ 1 0 true 5

theorem ended_by_reply_iff_drawn : ¬ EndedBy 6 1 0 ⟨[5], ∅⟩ (sampleLookup 9).2 ∧
    EndedBy 6 1 0 ⟨[5], ∅⟩ (sampleLookup 6).2 :=
  ⟨fun h => absurd ((ended_by_reply_iff (show sampleLookup 9 = (some 6, _) from rfl)).mp h).1 (by decide),
    (ended_by_reply_iff (show sampleLookup 6 = (some 6, _) from rfl)).mpr (by decide)⟩

/-- the reply with the sent id 6 calls no handler -/
theorem answered_lookup_pends : (sampleLookup 9).1 = some 6 ∧ ((sampleLookup 9).2.handleGotRouterMessage 6).1 = [] := by
  decide

end RouterLookups

end Belnet.Service
