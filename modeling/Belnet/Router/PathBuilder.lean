import Belnet.Router.Lookups

/-!
# The hops of a path

`SelectFirstHop` and `GetHopsAlignedToForBuild` of `llarp/path/pathbuilder.cpp`; the database is shuffled for each hop.
-/

namespace Belnet.Router
open List
open Belnet.Path hiding RouterContact

structure LinkSession where
  remoteRC : RouterContact
  established : Bool
  outbound : Bool

structure Builder where
  numHops : ℕ
  numHops_pos : 0 < numHops
  sessions : List LinkSession
  nodedb : NodeDB
  shuffle : ℕ → List RouterContact
  shuffled : ∀ idx, (shuffle idx).Perm nodedb.all
  isBootstrapNode : RouterID → Bool
  buildCooldownHit : RouterID → Bool
  isBadForPath : RouterID → ℕ → Bool
  acceptable : List RouterContact → Bool

namespace Builder
variable (b : Builder) (endpoint : RouterID) (exclude : List RouterID)

def selectFirstHop : Option RouterContact :=
  (b.sessions.find? fun s => s.established && s.outbound && !b.isBootstrapNode s.remoteRC.pubkey &&
    s.remoteRC.pubkey ∉ exclude && !b.buildCooldownHit s.remoteRC.pubkey &&
    !b.isBadForPath s.remoteRC.pubkey 4).map LinkSession.remoteRC

def getRandom (idx : ℕ) (filter : RouterContact → Bool) : Option RouterContact := (b.shuffle idx).find? filter

def filter (endpointRC : RouterContact) (hops : List RouterContact) (rc : RouterContact) : Bool :=
  rc.pubkey ∉ exclude && !b.isBadForPath rc.pubkey 1 && ((endpointRC :: hops).all fun hop => hop.pubkey ≠ rc.pubkey) &&
    b.acceptable (endpointRC :: hops ++ [rc]) && rc.pubkey ≠ endpointRC.pubkey

def extend (endpointRC : RouterContact) : ℕ → List RouterContact → Option (List RouterContact)
  | 0, hops => some hops
  | 1, hops => some (hops ++ [endpointRC])
  | n+2, hops => do
    let rc ← b.getRandom hops.length (b.filter exclude endpointRC hops)
    extend endpointRC (n + 1) (hops ++ [rc])

def getHopsAlignedToForBuild : Option (List RouterContact) := do
  let first ← b.selectFirstHop exclude
  let endpointRC ← b.nodedb.get endpoint
  b.extend exclude endpointRC (b.numHops - 1) [first]

/-- a path of the length asked for, through different routers, to the endpoint and around the excluded ones -/
structure Proper (hops : List RouterContact) : Prop where
  length : hops.length = b.numHops
  nodup : (hops.map (·.pubkey)).Nodup
  last : (hops.getLast?.map (·.pubkey)) = some endpoint
  avoids : ∀ hop ∈ hops.dropLast, hop.pubkey ∉ exclude

variable {b endpoint exclude} {endpointRC first : RouterContact} {hops path : List RouterContact}

lemma extend_spec (n : ℕ) (h : b.extend exclude endpointRC (n + 1) hops = some path)
    (hnodup : (hops.map (·.pubkey)).Nodup) : ∃ mid, path = hops ++ mid ++ [endpointRC] ∧ mid.length = n ∧
      ((hops ++ mid).map (·.pubkey)).Nodup ∧ ∀ rc ∈ mid, rc.pubkey ∉ exclude ∧ rc.pubkey ≠ endpointRC.pubkey := by
  induction n generalizing hops with
  | zero =>
    cases h
    exact ⟨[], by simp, rfl, by simpa using hnodup, by simp⟩
  | succ n ih =>
    obtain ⟨rc, hrc, hrest⟩ := Option.bind_eq_some_iff.mp h
    have hfilter := find?_some hrc
    simp only [filter, Bool.and_eq_true, decide_eq_true_eq, all_eq_true, mem_cons] at hfilter
    obtain ⟨⟨⟨⟨hex, -⟩, hnew⟩, -⟩, hend⟩ := hfilter
    have hnodup' : ((hops ++ [rc]).map (·.pubkey)).Nodup := by
      rw [map_append]
      refine List.Nodup.append hnodup (nodup_singleton _) fun k hk hk' => ?_
      obtain ⟨hop, hhop, rfl⟩ := mem_map.mp hk
      exact hnew hop (.inr hhop) (by simpa using hk')
    obtain ⟨mid, rfl, hlen, hall, hmid⟩ := ih hrest hnodup'
    refine ⟨rc :: mid, by simp, congrArg (· + 1) hlen, by simpa using hall, ?_⟩
    exact forall_mem_cons.mpr ⟨⟨hex, hend⟩, hmid⟩

lemma selectFirstHop_avoids (h : b.selectFirstHop exclude = some first) : first.pubkey ∉ exclude := by
  obtain ⟨s, hs, rfl⟩ := Option.map_eq_some_iff.mp h
  have hpass := find?_some hs
  simp only [Bool.and_eq_true, decide_eq_true_eq] at hpass
  exact hpass.1.1.2

lemma get_pubkey (h : b.nodedb.get endpoint = some endpointRC) : endpointRC.pubkey = endpoint := by
  obtain ⟨e, he, rfl⟩ := Option.map_eq_some_iff.mp h
  exact b.nodedb.keyed endpoint e he

/-- Everything but the first hop is checked: the path is proper if the first hop is the endpoint just when there is no
other. -/
theorem hops_proper_iff (b : Builder) (endpoint : RouterID) (exclude : List RouterID) :
    (∀ path, b.getHopsAlignedToForBuild endpoint exclude = some path → b.Proper endpoint exclude path) ↔
      ∀ first path, b.selectFirstHop exclude = some first →
        b.getHopsAlignedToForBuild endpoint exclude = some path → (first.pubkey = endpoint ↔ b.numHops = 1) := by
  have hpaths {first : RouterContact} {path : List RouterContact} (hfirst : b.selectFirstHop exclude = some first)
      (hpath : b.getHopsAlignedToForBuild endpoint exclude = some path) :
      b.Proper endpoint exclude path ↔ (first.pubkey = endpoint ↔ b.numHops = 1) := by
    obtain ⟨first', hfirst', hrest⟩ := Option.bind_eq_some_iff.mp hpath
    obtain rfl : first' = first := Option.some.inj (hfirst'.symm.trans hfirst)
    obtain ⟨endpointRC, hend, hextend⟩ := Option.bind_eq_some_iff.mp hrest
    have hkey := get_pubkey hend
    have hpos := b.numHops_pos
    by_cases hone : b.numHops = 1
    · rw [hone] at hextend
      cases hextend
      simp only [hone, iff_true]
      exact ⟨fun h => by simpa using h.last, fun h => ⟨by simp [hone], by simp, by simp [h], by simp⟩⟩
    · obtain ⟨n, hn⟩ : ∃ n, b.numHops - 1 = n + 1 := ⟨b.numHops - 2, by omega⟩
      rw [hn] at hextend
      obtain ⟨mid, rfl, hlen, hnodup, hmid⟩ := extend_spec n hextend (by simp)
      simp only [hone, iff_false]
      constructor
      · intro h heq
        have hdup := h.nodup
        simp [heq, hkey] at hdup
      · intro hne
        refine ⟨by simp [hlen]; omega, ?_, ?_, fun hop hhop => ?_⟩
        · rw [map_append]
          refine List.Nodup.append hnodup (nodup_singleton _) fun k hk hk' => ?_
          obtain ⟨hop, hhop, rfl⟩ := mem_map.mp hk
          have hsame : hop.pubkey = endpoint := by simpa [hkey] using hk'
          rcases mem_cons.mp hhop with rfl | hhop
          · exact hne hsame
          · exact (hmid hop hhop).2 (hsame.trans hkey.symm)
        · rw [getLast?_concat, Option.map_some, hkey]
        · rw [dropLast_concat] at hhop
          rcases mem_cons.mp hhop with rfl | hhop
          · exact selectFirstHop_avoids hfirst
          · exact (hmid hop hhop).1
  constructor
  · exact fun h first path hfirst hpath => (hpaths hfirst hpath).mp (h path hpath)
  · intro h path hpath
    obtain ⟨first, hfirst, -⟩ := Option.bind_eq_some_iff.mp hpath
    exact (hpaths hfirst hpath).mpr (h first path hfirst hpath)

def Sample.builder : Builder where
  numHops := 2
  numHops_pos := by decide
  sessions := [⟨Sample.contact 1 0, true, true⟩]
  nodedb := ({} : NodeDB).put 0 (Sample.contact 1 0)
  shuffle := fun _ => [Sample.contact 1 0]
  shuffled := fun _ => .refl _
  isBootstrapNode := fun _ => false
  buildCooldownHit := fun _ => false
  isBadForPath := fun _ _ => false
  acceptable := fun _ => true

theorem endpoint_twice : ¬ ∀ path, Sample.builder.getHopsAlignedToForBuild (Sample.key 1) [] = some path →
    Sample.builder.Proper (Sample.key 1) [] path :=
  fun h => absurd (h [Sample.contact 1 0, Sample.contact 1 0] (by decide +kernel)).nodup (by decide +kernel)

end Builder

end Belnet.Router
