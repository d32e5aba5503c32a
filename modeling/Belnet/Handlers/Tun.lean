import Belnet.Lib.Bimap
import Belnet.Net.Ranges

/-!
# The addresses of a tun interface

`TunEndpoint` of `llarp/handlers/tun.cpp` gives remotes addresses of its range and keeps them in
two maps.

* `obtainIPForAddr`, `mapAddress`  a new address for a remote, and one that is configured;
* `mapping_inverse_of_fine`  the maps are inverse as long as every remote finds a free address;
* `least_active_iff`  when the address taken over is the one silent for longest.
-/

set_option linter.unusedSectionVars false

namespace Belnet.Handlers
open Net Bimap BitVec List Function Option Except

abbrev IP := BitVec 128

/-- `std::numeric_limits` is not specialised for a `std::chrono` duration, so its `max()` is a
duration without a value given: 0 ms. -/
def timeMax : ℕ := 0

variable {Addr : Type} [DecidableEq Addr]

/-- `forever` records for which addresses `MarkIPActiveForever` was called; the code keeps their time only. -/
structure TunEndpoint (Addr : Type) where
  ipToAddr : IP → Option Addr
  addrToIP : Addr → Option IP
  mNodes : Addr → Option Bool
  ipActivity : IP → Option ℕ
  forever : IP → Bool
  nextIP : IP
  maxIP : IP

namespace TunEndpoint

/-- The address of the interface is mapped by a first step `mapAddress` of the run. -/
def setupTun (range : IPRange) : TunEndpoint Addr where
  ipToAddr _ := none
  addrToIP _ := none
  mNodes _ := none
  ipActivity _ := none
  forever _ := false
  nextIP := range.addr
  maxIP := range.highestAddr

def markIPActive (now : ℕ) (ip : IP) (s : TunEndpoint Addr) : TunEndpoint Addr :=
  { s with ipActivity := update s.ipActivity ip (some (max now ((s.ipActivity ip).getD 0))) }

def markIPActiveForever (ip : IP) (s : TunEndpoint Addr) : TunEndpoint Addr :=
  { s with
    ipActivity := update s.ipActivity ip (some timeMax)
    forever := update s.forever ip true }

def assign (addr : Addr) (ip : IP) (mnode : Bool) (s : TunEndpoint Addr) : TunEndpoint Addr :=
  { s with
    ipToAddr := update s.ipToAddr ip (some addr)
    addrToIP := update s.addrToIP addr (some ip)
    mNodes := update s.mNodes addr (some mnode) }

def mapAddress (addr : Addr) (ip : IP) (mnode : Bool) (s : TunEndpoint Addr) : Bool × TunEndpoint Addr :=
  if (s.ipToAddr ip).isSome then (false, s)
  else (true, (s.assign addr ip mnode).markIPActiveForever ip)

def nextFree (mapped : IP → Bool) (maxIP : IP) : ℕ → IP → IP
  | 0, ip => ip
  | k + 1, ip => if mapped (ip + 1) && ip + 1 < maxIP then nextFree mapped maxIP k (ip + 1) else ip + 1

/-- the loop that looks for the oldest entry, in the order `order` of the hash map -/
def oldest (activity : IP → Option ℕ) (now : ℕ) (order : List IP) : IP × ℕ :=
  order.foldl (fun oldest ip => match activity ip with
    | none => oldest
    | some t => if t ≤ now ∧ oldest.2 < now - t then (ip, t) else oldest) (0, 0)

def recycle (ident : Addr) (mnode : Bool) (now : ℕ) (order : List IP) (s : TunEndpoint Addr) : IP × TunEndpoint Addr :=
  let nextIP := (oldest s.ipActivity now order).1
  let s := s.assign ident nextIP mnode
  (nextIP, { s with ipActivity := update s.ipActivity nextIP (some (max ((s.ipActivity nextIP).getD 0) now)) })

def obtainIPForAddr (ident : Addr) (mnode : Bool) (now : ℕ) (order : List IP) (s : TunEndpoint Addr) :
    IP × TunEndpoint Addr :=
  match s.addrToIP ident with
  | some ip => (ip, s.markIPActive now ip)
  | none =>
    if s.nextIP < s.maxIP then
      let nextIP := nextFree (fun ip => (s.ipToAddr ip).isSome) s.maxIP (s.maxIP.toNat - s.nextIP.toNat) s.nextIP
      let s := { s with nextIP }
      if nextIP < s.maxIP then (nextIP, (s.assign ident nextIP mnode).markIPActive now nextIP)
      else s.recycle ident mnode now order
    else s.recycle ident mnode now order

inductive Op (Addr : Type) where
  | mapAddress (addr : Addr) (ip : IP) (mnode : Bool)
  | obtainIPForAddr (ident : Addr) (mnode : Bool) (now : ℕ) (order : List IP)
  | markIPActive (now : ℕ) (ip : IP)

def step : Op Addr → TunEndpoint Addr → Except Empty (TunEndpoint Addr)
  | .mapAddress addr ip mnode, s => .ok (s.mapAddress addr ip mnode).2
  | .obtainIPForAddr ident mnode now order, s => .ok (s.obtainIPForAddr ident mnode now order).2
  | .markIPActive now ip, s => .ok (s.markIPActive now ip)

lemma nextFree_spec (mapped : IP → Bool) (maxIP : IP) (k : ℕ) : ∀ ip : IP, ip < maxIP → k = maxIP.toNat - ip.toNat →
    ip < nextFree mapped maxIP k ip ∧
      (nextFree mapped maxIP k ip < maxIP → mapped (nextFree mapped maxIP k ip) = false) ∧
      ∀ x, ip < x → x < nextFree mapped maxIP k ip → mapped x = true := by
  induction k with
  | zero =>
    intro ip hlt hk
    have := lt_def.mp hlt
    omega
  | succ k ih =>
    intro ip hlt hk
    have hlt' := lt_def.mp hlt
    have hnext : (ip + 1).toNat = ip.toNat + 1 := by
      have := maxIP.isLt
      rw [toNat_add, show (1 : IP).toNat = 1 from rfl]
      omega
    have hup : ip < ip + 1 := lt_def.mpr (by omega)
    -- nothing lies between an address and the next one
    have hgap : ∀ x, ip < x → x ≠ ip + 1 → ip + 1 < x := by
      intro x hx hne
      have hx' := lt_def.mp hx
      have hne' : x.toNat ≠ (ip + 1).toNat := fun h => hne (eq_of_toNat_eq h)
      exact lt_def.mpr (by omega)
    unfold nextFree
    split
    · rename_i hcond
      obtain ⟨hmapped, hbelow⟩ := Bool.and_eq_true_iff.mp hcond
      have hbelow' := of_decide_eq_true hbelow
      obtain ⟨hstep, hfree, hall⟩ := ih (ip + 1) hbelow' (by omega)
      refine ⟨BitVec.lt_trans hup hstep, hfree, fun x hx hxr => ?_⟩
      by_cases hxe : x = ip + 1
      · rw [hxe]
        exact hmapped
      · exact hall x (hgap x hx hxe) hxr
    · rename_i hcond
      refine ⟨hup, fun hbelow => ?_, fun x hx hxr => ?_⟩
      · rw [decide_eq_true hbelow, Bool.and_true] at hcond
        exact Bool.eq_false_iff.mpr hcond
      · have hx' := lt_def.mp hx
        have hxr' := lt_def.mp hxr
        omega

lemma nextFree_lt {mapped : IP → Bool} {maxIP ip x : IP} (hx : ip < x) (hmax : x < maxIP) (hfree : mapped x = false) :
    nextFree mapped maxIP (maxIP.toNat - ip.toNat) ip < maxIP := by
  obtain ⟨-, -, hall⟩ := nextFree_spec mapped maxIP _ ip (BitVec.lt_trans hx hmax) rfl
  by_contra hge
  have hbelow : x < nextFree mapped maxIP (maxIP.toNat - ip.toNat) ip := by
    have := lt_def.mp hmax
    have := mt lt_def.mpr hge
    exact lt_def.mpr (by omega)
  rw [hall x hx hbelow] at hfree
  cases hfree

def HasRoom (s : TunEndpoint Addr) : Prop := ∃ ip, s.nextIP < ip ∧ ip < s.maxIP ∧ s.ipToAddr ip = none

def Fine : Op Addr → TunEndpoint Addr → Prop
  | .mapAddress addr ip _, s => s.ipToAddr ip ≠ none ∨ s.addrToIP addr = none
  | .obtainIPForAddr ident _ _ _, s => s.addrToIP ident ≠ none ∨ s.HasRoom
  | .markIPActive _ _, _ => True

/-- what holds in every state: the maps are inverse, and the addresses given out start at that of the interface -/
structure Inv (range : IPRange) (s : TunEndpoint Addr) : Prop where
  inverse : Inverse s.addrToIP s.ipToAddr
  low : range.addr ≤ s.nextIP
  high : s.maxIP = range.highestAddr

lemma obtainIPForAddr_new {s : TunEndpoint Addr} {ident : Addr} (hnew : s.addrToIP ident = none) (hroom : s.HasRoom)
    (mnode : Bool) (now : ℕ) (order : List IP) : ∃ ip, s.nextIP < ip ∧ ip < s.maxIP ∧ s.ipToAddr ip = none ∧
      s.obtainIPForAddr ident mnode now order =
        (ip, (({ s with nextIP := ip } : TunEndpoint Addr).assign ident ip mnode).markIPActive now ip) := by
  obtain ⟨x, hx, hmax, hfree⟩ := hroom
  have hlt := BitVec.lt_trans hx hmax
  obtain ⟨hup, hunmapped, -⟩ := nextFree_spec (fun ip => (s.ipToAddr ip).isSome) s.maxIP _ s.nextIP hlt rfl
  have hbelow : nextFree (fun ip => (s.ipToAddr ip).isSome) s.maxIP (s.maxIP.toNat - s.nextIP.toNat) s.nextIP < s.maxIP :=
    nextFree_lt hx hmax (by rw [hfree]; rfl)
  refine ⟨_, hup, hbelow, not_isSome_iff_eq_none.mp (Bool.eq_false_iff.mp (hunmapped hbelow)), ?_⟩
  unfold obtainIPForAddr
  rw [hnew]
  dsimp only
  rw [if_pos hlt, if_pos hbelow]

lemma Inv.step {range : IPRange} (op : Op Addr) {s s' : TunEndpoint Addr} (h : s.Inv range) (hfine : Fine op s)
    (hs : step op s = .ok s') : s'.Inv range := by
  cases op with
  | mapAddress addr ip mnode =>
    obtain rfl : (s.mapAddress addr ip mnode).2 = s' := ok.inj hs
    unfold mapAddress
    split
    · exact h
    rename_i hfree
    have hip : s.ipToAddr ip = none := not_isSome_iff_eq_none.mp hfree
    have haddr : s.addrToIP addr = none := hfine.resolve_left fun hne => hne hip
    exact ⟨h.inverse.insert haddr hip, h.low, h.high⟩
  | obtainIPForAddr ident mnode now order =>
    obtain rfl : (s.obtainIPForAddr ident mnode now order).2 = s' := ok.inj hs
    cases hknown : s.addrToIP ident with
    | some ip =>
      rw [obtainIPForAddr, hknown]
      exact ⟨h.inverse, h.low, h.high⟩
    | none =>
      have hroom := hfine.resolve_left fun hne => hne hknown
      obtain ⟨ip, hup, -, hfree, heq⟩ := obtainIPForAddr_new hknown hroom mnode now order
      rw [heq]
      exact ⟨h.inverse.insert hknown hfree, BitVec.le_trans h.low (BitVec.le_of_lt hup), h.high⟩
  | markIPActive now ip =>
    obtain rfl : s.markIPActive now ip = s' := ok.inj hs
    exact ⟨h.inverse, h.low, h.high⟩

lemma inv_setupTun (range : IPRange) : (setupTun range : TunEndpoint Addr).Inv range :=
  ⟨inverse_empty, BitVec.le_refl _, rfl⟩

/-- If every remote is mapped once by the configuration and every new one finds a free address, the maps are inverse
and new addresses are in the range. -/
theorem mapping_inverse_of_fine {range : IPRange} {n : ℕ} (hn : n ≤ 128) (hmask : range.netmaskBits = netmaskIpv6Bits n)
    {s : TunEndpoint Addr} (h : Run.Reaches step Fine (setupTun range) s) :
    Inverse s.addrToIP s.ipToAddr ∧ ∀ ident mnode now order, s.addrToIP ident = none →
      Fine (.obtainIPForAddr ident mnode now order) s →
        range.contains (s.obtainIPForAddr ident mnode now order).1 = true := by
  have hinv : s.Inv range := h.inv (fun op _ _ ha hfine => ha.step op hfine) (inv_setupTun range)
  refine ⟨hinv.inverse, fun ident mnode now order hnew hfine => ?_⟩
  have hroom := hfine.resolve_left fun hne => hne hnew
  obtain ⟨ip, hup, hbelow, -, heq⟩ := obtainIPForAddr_new hnew hroom mnode now order
  rw [heq]
  have hhigh : ip ≤ range.highestAddr := hinv.high ▸ BitVec.le_of_lt hbelow
  exact IPRange.contains_of_between hn hmask (BitVec.le_trans hinv.low (BitVec.le_of_lt hup)) hhigh

def sampleRange : IPRange := ⟨0xffff0a000001, netmaskIpv6Bits 125⟩

theorem mapping_inverse_of_fine_sample : Run.Reaches step Fine (setupTun sampleRange)
        ((setupTun sampleRange : TunEndpoint ℕ).mapAddress 7 0xffff0a000001 false).2 ∧
      sampleRange.contains (((setupTun sampleRange : TunEndpoint ℕ).mapAddress 7 0xffff0a000001 false).2.obtainIPForAddr
        8 false 0 []).1 = true := by
  have hreach : Run.Reaches step Fine (setupTun sampleRange)
      ((setupTun sampleRange : TunEndpoint ℕ).mapAddress 7 0xffff0a000001 false).2 :=
    .tail (.mapAddress 7 0xffff0a000001 false) .refl (Or.inr rfl) rfl
  exact ⟨hreach, (mapping_inverse_of_fine (by norm_num) rfl hreach).2 8 false 0 [] (by decide +kernel)
    (Or.inr ⟨0xffff0a000003, by decide +kernel, by decide +kernel, by decide +kernel⟩)⟩

/-- With one address in `10.0.0.1/30` the second remote takes it over, and the first still sends to it.  A remote
mapped twice is at two addresses.  Without an address to take over the remote gets 0, outside of the range. -/
theorem two_remotes_share :
    (∃ s, Run.exec step [.obtainIPForAddr 1 false 5 [], .obtainIPForAddr 2 false 50 [0xffff0a000002]]
        (setupTun ⟨0xffff0a000001, netmaskIpv6Bits 126⟩ : TunEndpoint ℕ) = .ok s ∧
      s.addrToIP 1 = some 0xffff0a000002 ∧ s.addrToIP 2 = some 0xffff0a000002 ∧ s.ipToAddr 0xffff0a000002 = some 2) ∧
    (∃ s, Run.exec step [.mapAddress 1 0xffff0a000002 false, .mapAddress 1 0xffff0a000003 false]
        (setupTun sampleRange : TunEndpoint ℕ) = .ok s ∧
      s.addrToIP 1 = some 0xffff0a000003 ∧ s.ipToAddr 0xffff0a000002 = some 1) ∧
    ((setupTun ⟨0xffff0a000001, netmaskIpv6Bits 128⟩ : TunEndpoint ℕ).obtainIPForAddr 1 false 5 []).1 = 0 ∧
      (⟨0xffff0a000001, netmaskIpv6Bits 128⟩ : IPRange).contains 0 = false := by
  refine ⟨Run.ok_sat, Run.ok_sat, by decide +kernel, by decide +kernel⟩

/-! ## the address that is taken over -/

/-- a remote has the address, and it is not marked active forever -/
def MayRecycle (s : TunEndpoint Addr) (ip : IP) : Prop :=
  (s.ipToAddr ip).isSome ∧ s.forever ip = false

/-- of the addresses that may be taken over none was silent for longer than `ip` -/
def LeastActive (s : TunEndpoint Addr) (ip : IP) : Prop :=
  s.MayRecycle ip ∧ ∃ t, s.ipActivity ip = some t ∧
    ∀ x u, s.MayRecycle x → s.ipActivity x = some u → t ≤ u

section
variable {activity : IP → Option ℕ} {t : ℕ} {ip : IP} {order : List IP} (now : ℕ)

lemma oldest_concat (hip : activity ip = some t) : oldest activity now (order ++ [ip])
    = if t ≤ now ∧ (oldest activity now order).2 < now - t then (ip, t)
      else oldest activity now order := by
  unfold oldest
  rw [foldl_append, foldl_cons, foldl_nil, hip]

variable (h : ∀ ip ∈ order, (activity ip).isSome)
include h

lemma oldest_entry : activity (oldest activity now order).1 = some (oldest activity now order).2 ∧
      (oldest activity now order).2 < now ∨
    (oldest activity now order).2 = 0 ∧ ∀ ip ∈ order, ∀ t, activity ip = some t → now ≤ t := by
  induction order using reverseRecOn with
  | nil => exact .inr ⟨rfl, by simp⟩
  | append_singleton order ip ih =>
    obtain ⟨t, hip⟩ := isSome_iff_exists.mp (h ip (by simp))
    rw [oldest_concat _ hip]
    split
    · rename_i hage
      exact .inl ⟨hip, by omega⟩
    rename_i hkept
    rcases ih fun x hx => h x (by simp [hx]) with hentry | ⟨hzero, hnone⟩
    · exact .inl hentry
    refine .inr ⟨hzero, fun x hx u hu => ?_⟩
    rcases mem_append.mp hx with hx | hx
    · exact hnone x hx u hu
    -- the last address was compared with 0
    · obtain rfl := mem_singleton.mp hx
      obtain rfl : t = u := some.inj (hip.symm.trans hu)
      omega

lemma oldest_lt {bound : ℕ} (hpos : 0 < bound)
    (hall : ∀ ip ∈ order, ∀ t, activity ip = some t → t < bound) :
    (oldest activity now order).2 < bound := by
  induction order using reverseRecOn with
  | nil => exact hpos
  | append_singleton order ip ih =>
    obtain ⟨t, hip⟩ := isSome_iff_exists.mp (h ip (by simp))
    rw [oldest_concat _ hip]
    split
    · exact hall ip (by simp) t hip
    · exact ih (fun x hx => h x (by simp [hx])) fun x hx => hall x (by simp [hx])

lemma oldest_keeps {before : List IP}
    (hlater : ∀ x ∈ order, ∀ u, activity x = some u → now ≤ (oldest activity now before).2 + u) :
    oldest activity now (before ++ order) = oldest activity now before := by
  induction order using reverseRecOn with
  | nil => rw [append_nil]
  | append_singleton order x ih =>
    obtain ⟨u, hx⟩ := isSome_iff_exists.mp (h x (by simp))
    have hsum := hlater x (by simp) u hx
    have hbefore := ih (fun y hy => h y (by simp [hy])) fun y hy => hlater y (by simp [hy])
    rw [← List.append_assoc, oldest_concat _ hx, hbefore, if_neg (by omega)]

/-- Every address that was silent for a while is taken over in some order of the hash map: those
it replaces are visited before it, and those that do not replace it after it. -/
lemma oldest_reached (hmem : ip ∈ order) (hip : activity ip = some t) (ht : t < now) :
    ∃ order', order'.Perm order ∧ (oldest activity now order').1 = ip := by
  let replaced : IP → Bool := fun x => (activity x).any (· + t < now)
  let others := order.erase ip
  have hothers : ∀ x ∈ others, (activity x).isSome := fun x hx => h x (mem_of_mem_erase hx)
  refine ⟨others.filter replaced ++ ip :: others.filter (!replaced ·), ?_, ?_⟩
  · calc others.filter replaced ++ ip :: others.filter (!replaced ·)
      _ ~ ip :: (others.filter replaced ++ others.filter (!replaced ·)) := perm_middle
      _ ~ ip :: others := (filter_append_perm replaced others).cons ip
      _ ~ order := (perm_cons_erase hmem).symm
  have hbefore : (oldest activity now (others.filter replaced)).2 < now - t := by
    refine oldest_lt now (fun x hx => hothers x (mem_of_mem_filter hx)) (by omega) ?_
    intro x hx u hu
    have hsum : replaced x = true := of_mem_filter hx
    simp only [replaced, hu, any_some, decide_eq_true_eq] at hsum
    omega
  have htaken : oldest activity now (others.filter replaced ++ [ip]) = (ip, t) := by
    rw [oldest_concat _ hip, if_pos ⟨ht.le, hbefore⟩]
  rw [append_cons, oldest_keeps now fun x hx => hothers x (mem_of_mem_filter hx), htaken]
  intro x hx u hu
  have hsum := (mem_filter.mp hx).2
  simp only [replaced, hu, any_some, Bool.not_eq_true', decide_eq_false_iff_not] at hsum
  rw [htaken]
  omega

end

/-- The loop compares the age of an address with the time of the oldest one, and a mark "active
forever" is the time 0.  So the address taken over is right for every order of the hash map exactly
when all addresses last active before `now` may be taken over and were last active at one time. -/
theorem least_active_iff {s : TunEndpoint Addr} {ident : Addr} (hnew : s.addrToIP ident = none)
    (hfull : s.nextIP < s.maxIP → ¬ nextFree (fun ip => (s.ipToAddr ip).isSome) s.maxIP
      (s.maxIP.toNat - s.nextIP.toNat) s.nextIP < s.maxIP)
    {order : List IP} (horder : ∀ ip, ip ∈ order ↔ (s.ipActivity ip).isSome) {now : ℕ}
    (hbefore : ∃ ip, ∃ t < now, s.MayRecycle ip ∧ s.ipActivity ip = some t) (mnode : Bool) :
    (∀ order', order'.Perm order → s.LeastActive (s.obtainIPForAddr ident mnode now order').1) ↔
      ∃ t, ∀ ip, ∀ u < now, s.ipActivity ip = some u → s.MayRecycle ip ∧ u = t := by
  have hobtain : ∀ order', (s.obtainIPForAddr ident mnode now order').1
      = (oldest s.ipActivity now order').1 := by
    intro order'
    unfold obtainIPForAddr
    rw [hnew]
    dsimp only
    split
    · rw [if_neg (hfull ‹_›)]
      rfl
    · rfl
  have hsome {order'} (hsub : order' ⊆ order) : ∀ ip ∈ order', (s.ipActivity ip).isSome :=
    fun ip hip => (horder ip).mp (hsub hip)
  simp only [hobtain]
  obtain ⟨ip, t, ht, hmay, hip⟩ := hbefore
  constructor
  · intro hall
    have hleast : ∀ x, ∀ u < now, s.ipActivity x = some u → s.LeastActive x := by
      intro x u hu hx
      have hmem : x ∈ order := (horder x).mpr (by rw [hx]; rfl)
      obtain ⟨order', hperm, htaken⟩ := oldest_reached now (hsome (Subset.refl _)) hmem hx hu
      exact htaken ▸ hall order' hperm
    refine ⟨t, fun x u hu hx => ?_⟩
    obtain ⟨hxmay, u', hx', hxmin⟩ := hleast x u hu hx
    obtain ⟨-, t', hip', hipmin⟩ := hleast ip t ht hip
    obtain rfl : u = u' := some.inj (hx.symm.trans hx')
    obtain rfl : t = t' := some.inj (hip.symm.trans hip')
    exact ⟨hxmay, le_antisymm (hxmin ip t hmay hip) (hipmin x u hxmay hx)⟩
  · rintro ⟨t', hsame⟩ order' hperm
    have hmem : ip ∈ order' := hperm.mem_iff.mpr ((horder ip).mpr (by rw [hip]; rfl))
    rcases oldest_entry now (hsome hperm.subset) with ⟨hentry, hlt⟩ | ⟨-, hnone⟩
    · obtain ⟨htaken, htime⟩ := hsame _ _ hlt hentry
      refine ⟨htaken, _, hentry, fun x u _ hx => ?_⟩
      rcases Nat.lt_or_ge u now with hu | hu
      · exact (htime.trans (hsame x u hu hx).2.symm).le
      · omega
    · exact absurd (hnone ip hmem t hip) (by omega)

/-- the addresses 2 and 3 in use, the first one last at the time `t`, the other at 500, and 4 marked
active forever and in use at 1000 -/
def sampleFull (t : ℕ) : TunEndpoint ℕ :=
  { (setupTun sampleRange).assign 6 2 false |>.assign 7 3 false |>.assign 9 4 false with
    nextIP := sampleRange.highestAddr
    forever := fun ip => ip = 4
    ipActivity := fun ip =>
      if ip = 2 then some t else if ip = 3 then some 500 else if ip = 4 then some 1000 else none }

theorem least_active_iff_full : (sampleFull 500).addrToIP 8 = none ∧ ∀ order, order.Perm [2, 3, 4] →
    (sampleFull 500).LeastActive ((sampleFull 500).obtainIPForAddr 8 false 1000 order).1 := by
  have horder : ∀ ip, ip ∈ [2, 3, 4] ↔ ((sampleFull 500).ipActivity ip).isSome := by
    intro ip
    simp only [sampleFull]
    split_ifs <;> simp_all
  refine ⟨rfl, (least_active_iff rfl (by decide +kernel) horder
    ⟨2, 500, by decide, ⟨rfl, by decide⟩, rfl⟩ false).mpr ⟨500, fun ip u hu hip => ?_⟩⟩
  simp only [sampleFull] at hip
  split_ifs at hip with htwo hthree hfour
  · exact ⟨htwo ▸ ⟨rfl, by decide⟩, (some.inj hip).symm⟩
  · exact ⟨hthree ▸ ⟨rfl, by decide⟩, (some.inj hip).symm⟩
  · have := some.inj hip
    omega

/-- The address that was silent for longer is kept; and in `10.0.0.1/30` a second remote takes over
the address of the interface itself, which is marked active forever. -/
theorem active_address_recycled :
    ((sampleFull 900).obtainIPForAddr 8 false 1000 [2, 3, 4]).1 = 2 ∧
      (sampleFull 900).ipActivity 3 = some 500 ∧ (sampleFull 900).ipActivity 2 = some 900 ∧
    ∃ s, Run.exec step [.mapAddress 0 0xffff0a000001 false, .obtainIPForAddr 7 false 500 []]
        (setupTun ⟨0xffff0a000001, netmaskIpv6Bits 126⟩ : TunEndpoint ℕ) = .ok s ∧
      s.forever 0xffff0a000001 = true ∧ s.ipActivity 0xffff0a000002 = some 500 ∧
      (s.obtainIPForAddr 8 false 1000 [0xffff0a000002, 0xffff0a000001]).1 = 0xffff0a000001 :=
  ⟨by decide +kernel, by decide +kernel, by decide +kernel, Run.ok_sat⟩

end TunEndpoint

end Belnet.Handlers
