import Belnet.Net.Ranges

/-!
# Socket addresses

`SockAddr` of `llarp/net/sock_addr.cpp` stores an address as IPv6 and once more as IPv4, each with its port.
-/

namespace Belnet.Net
open IPRange Decimal

structure SockaddrIn6 where
  sin6Addr : BitVec 128 := 0
  sin6Port : UInt16 := 0

structure SockaddrIn where
  sinAddr : BitVec 32 := 0
  sinPort : UInt16 := 0

structure SockAddr where
  addr : SockaddrIn6 := {}
  addr4 : SockaddrIn := {}
  empty : Bool := true

inductive SockAddrError where
  | invalidSockaddr (family : UInt16)
  | notIPv4Address (str : Bytes)
  | invalidNumericValue (str : Bytes)
  | portNotAllowed (str : Bytes)
  | invalidPort (str : Bytes)

inductive Sockaddr where
  | inet (addr : SockaddrIn)
  | inet6 (addr : SockaddrIn6)
  | other (family : UInt16)

def parseInt (w : ℕ) (b : Bytes) : Option ℕ :=
  if b ≠ [] ∧ b.all isDigit ∧ digitsValue b < 2^w then some (digitsValue b) else none

namespace SockAddr

def init (s : SockAddr) : SockAddr := { s with addr := {}, addr4 := {} }

def isIPv4 (s : SockAddr) : Bool := v4MappedRange.contains s.addr.sin6Addr

def setIPv4 (ip : BitVec 32) (s : SockAddr) : SockAddr where
  addr := { s.addr with sin6Addr := expandV4 ip }
  addr4 := { s.addr4 with sinAddr := ip }
  empty := false

def syncIPv4 (s : SockAddr) : SockAddr :=
  if s.isIPv4 then
    let t := s.setIPv4 (truncateV6 s.addr.sin6Addr)
    { t with addr4 := { t.addr4 with sinPort := t.addr.sin6Port } }
  else s

def setIPv6 (ip : BitVec 128) (s : SockAddr) : SockAddr := { s with addr := { s.addr with sin6Addr := ip } }.syncIPv4

def setIP (ip : BitVec 32 ⊕ BitVec 128) (s : SockAddr) : SockAddr := ip.elim s.setIPv4 s.setIPv6

def setPort (port : UInt16) (s : SockAddr) : SockAddr where
  addr := { s.addr with sin6Port := port }
  addr4 := { s.addr4 with sinPort := port }
  empty := s.empty

def assignIn (other : SockaddrIn) : SockAddr := ⟨⟨expandV4 other.sinAddr, other.sinPort⟩, other, false⟩

def assignIn6 (other : SockaddrIn6) (s : SockAddr) : SockAddr :=
  { { s.init with addr := other }.syncIPv4 with empty := false }

def assignIn6Addr (other : BitVec 128) (s : SockAddr) : SockAddr :=
  { { s.init with addr := { sin6Addr := other } }.syncIPv4 with empty := false }

inductive Source where
  | sockAddr (other : SockAddr)
  | sockaddr (other : Sockaddr)
  | sockaddrIn (other : SockaddrIn)
  | sockaddrIn6 (other : SockaddrIn6)
  | in6Addr (other : BitVec 128)

def assign (s : SockAddr) : Source → Except SockAddrError SockAddr
  | .sockAddr other => .ok (s.assignIn6 other.addr)
  | .sockaddr (.inet6 other) => .ok (s.assignIn6 other)
  | .sockaddr (.inet other) => .ok (assignIn other)
  | .sockaddr (.other family) => .error (.invalidSockaddr family)
  | .sockaddrIn other => .ok (assignIn other)
  | .sockaddrIn6 other => .ok (s.assignIn6 other)
  | .in6Addr other => .ok (s.assignIn6Addr other)

/-- A text with two colons is IPv6.  `inet_pton` leaves the address when it cannot read the text; only an unknown
family throws. -/
def fromString (lib : Libs) (str : Bytes) (allowPort : Bool) (s : SockAddr) : Except SockAddrError SockAddr :=
  if str = [] then .ok { s.init with empty := true }
  else
    let splits := str.splitOn 58
    if 2 < splits.length then
      .ok { s with addr := { s.addr with sin6Addr := (lib.pton6 (cStr str)).getD s.addr.sin6Addr } }
    else
      match (splits.headD []).splitOn 46 with
      | [a, b, c, d] =>
        match parseInt 8 a, parseInt 8 b, parseInt 8 c, parseInt 8 d with
        | some a, some b, some c, some d =>
          let ip := BitVec.ofNat 32 (2^24 * a + 2^16 * b + 2^8 * c + d)
          match splits[1]? with
          | none => .ok (s.setIPv4 ip)
          | some text =>
            if !allowPort then .error (.portNotAllowed str)
            else
              match parseInt 16 text with
              | some port => .ok ((s.setPort (.ofNat port)).setIPv4 ip)
              | none => .error (.invalidPort text)
        | _, _, _, _ => .error (.invalidNumericValue str)
      | _ => .error (.notIPv4Address str)

inductive Ctor where
  | default
  | ipv4 (ip : BitVec 32) (port : UInt16)
  | ipv6 (ip : BitVec 128) (port : UInt16)
  | text (str : Bytes)
  | textPort (str : Bytes) (port : UInt16)
  | addressInfo (ip : BitVec 128) (port : UInt16)
  | assigned (other : Source)

def Ctor.build (lib : Libs) : Ctor → Except SockAddrError SockAddr
  | .default => .ok {}
  | .ipv4 ip port => .ok ((setIPv4 ip {}).setPort port)
  | .ipv6 ip port => .ok ((setIPv6 ip {}).setPort port)
  | .text str => fromString lib str true {}
  | .textPort str port => fromString lib str false (setPort port {})
  | .addressInfo ip port => .ok ((assignIn6Addr ip {}).setPort port)
  | .assigned other => assign {} other

inductive Op where
  | setIPv4 (ip : BitVec 32)
  | setIPv6 (ip : BitVec 128)
  | setIP (ip : BitVec 32 ⊕ BitVec 128)
  | setPort (port : UInt16)
  | assign (other : Source)

def step : Op → SockAddr → Except SockAddrError SockAddr
  | .setIPv4 ip, s => .ok (s.setIPv4 ip)
  | .setIPv6 ip, s => .ok (s.setIPv6 ip)
  | .setIP ip, s => .ok (s.setIP ip)
  | .setPort port, s => .ok (s.setPort port)
  | .assign other, s => s.assign other

def Agree (s : SockAddr) : Prop :=
  s.isIPv4 = true → s.addr4.sinAddr = truncateV6 s.addr.sin6Addr ∧ s.addr4.sinPort = s.addr.sin6Port

def SamePort (s : SockAddr) : Prop := s.addr4.sinPort = s.addr.sin6Port

def Careful : Op → SockAddr → Prop
  | .setIPv4 _, s | .setIP (.inl _), s => s.SamePort
  | _, _ => True

def Ctor.ipv6Text (lib : Libs) : Ctor → Option (BitVec 128)
  | .text str | .textPort str _ => if 2 < (str.splitOn 58).length then lib.pton6 (cStr str) else none
  | _ => none

def Mapped (ip : BitVec 128) : Prop := v4MappedRange.contains ip = true

def Ctor.Plain (lib : Libs) (c : Ctor) : Prop := ∀ ip, c.ipv6Text lib = some ip → Mapped ip → truncateV6 ip = 0

/-- the operation sets an address and clears the flag: `setIPv6` does so for a mapped address only -/
def Op.Fills : Op → Prop
  | .setIPv4 _ | .setIP (.inl _) | .assign _ => True
  | .setIPv6 ip | .setIP (.inr ip) => Mapped ip
  | .setPort _ => False

def Ctor.Fills : Ctor → Prop
  | .default => False
  | .ipv6 ip _ => Mapped ip
  | .text str | .textPort str _ => str ≠ [] ∧ (str.splitOn 58).length ≤ 2
  | .ipv4 .. | .addressInfo .. | .assigned _ => True

lemma truncateV6_expandV4 (ip : BitVec 32) : truncateV6 (expandV4 ip) = ip := by
  apply BitVec.eq_of_getLsbD_eq
  intro i hi
  unfold truncateV6 expandV4
  rw [BitVec.getLsbD_setWidth, BitVec.getLsbD_or, BitVec.getLsbD_setWidth, mapped_bits i hi]
  simp [hi, show i < 128 by omega]

lemma mapped_expandV4 (ip : BitVec 32) : v4MappedRange.contains (expandV4 ip) = true := by
  refine decide_eq_true (BitVec.eq_of_getLsbD_eq fun i hi => ?_)
  unfold v4MappedRange expandV4
  simp only [BitVec.getLsbD_and, BitVec.getLsbD_or, BitVec.getLsbD_setWidth, netmask96_bits i hi]
  by_cases h : 32 ≤ i
  · simp [BitVec.getLsbD_of_ge ip i h]
  · simp [h]

lemma not_mapped_zero : ¬ v4MappedRange.contains 0 = true := by decide +kernel

variable {s t : SockAddr}

lemma agree_setIPv4 (ip : BitVec 32) : (s.setIPv4 ip).Agree ↔ s.SamePort :=
  ⟨fun h => (h (mapped_expandV4 ip)).2, fun h _ => ⟨(truncateV6_expandV4 ip).symm, h⟩⟩

lemma agree_syncIPv4 (s : SockAddr) : s.syncIPv4.Agree := by
  unfold syncIPv4
  split
  · exact fun _ => ⟨(truncateV6_expandV4 _).symm, rfl⟩
  · rename_i h
    exact fun h' => absurd h' h

lemma agree_setPort (port : UInt16) (h : s.Agree) : (s.setPort port).Agree := fun h4 => ⟨(h h4).1, rfl⟩

variable {other : Source}

lemma agree_assign (h : s.assign other = .ok t) : t.Agree := by
  unfold assign at h
  split at h <;> cases h
  case h_3 | h_5 => exact fun _ => ⟨(truncateV6_expandV4 _).symm, rfl⟩
  all_goals exact agree_syncIPv4 _

lemma agree_step {op : Op} (hs : s.Agree) (h : step op s = .ok t) : t.Agree ↔ Careful op s := by
  unfold step at h
  split at h
  · cases h
    exact agree_setIPv4 _
  · cases h
    exact iff_of_true (agree_syncIPv4 _) trivial
  · rename_i ip
    cases h
    cases ip with
    | inl ip => exact agree_setIPv4 ip
    | inr ip => exact iff_of_true (agree_syncIPv4 _) trivial
  · cases h
    exact iff_of_true (agree_setPort _ hs) trivial
  · exact iff_of_true (agree_assign h) trivial

variable {lib : Libs}

lemma fromString_new {str : Bytes} {allowPort : Bool} (hport : s.SamePort) (hnew : s.addr4.sinAddr = 0)
    (h0 : s.addr.sin6Addr = 0) (hempty : s.empty = true) (h : fromString lib str allowPort s = .ok t) :
    (t.Agree ↔ ∀ ip, (if 2 < (str.splitOn 58).length then lib.pton6 (cStr str) else none) = some ip → Mapped ip →
      truncateV6 ip = 0) ∧ (t.empty = false ↔ str ≠ [] ∧ (str.splitOn 58).length ≤ 2) := by
  unfold fromString at h
  split at h
  · rename_i hstr
    cases h
    subst hstr
    exact ⟨iff_of_true (fun h => absurd h not_mapped_zero) (fun _ h => absurd h (by simp)), by simp⟩
  · rename_i hstr
    dsimp only at h
    split at h
    · rename_i hlen
      cases h
      rw [if_pos hlen]
      refine ⟨?_, by simp [hempty, hlen]⟩
      unfold Agree isIPv4
      cases lib.pton6 (cStr str) with
      | none => exact iff_of_true (fun h => absurd (h0 ▸ h) not_mapped_zero) nofun
      | some ip =>
        constructor
        · rintro h _ ⟨⟩ hm
          exact (h hm).1.symm.trans hnew
        · exact fun h hm => ⟨hnew.trans (h ip rfl hm).symm, hport⟩
    · rename_i hlen
      rw [if_neg hlen]
      have hfilled : t.Agree ∧ t.empty = false := by
        split at h
        · split at h
          · split at h
            · cases h
              exact ⟨(agree_setIPv4 _).mpr hport, rfl⟩
            split at h
            · cases h
            split at h
            · cases h
              exact ⟨(agree_setIPv4 _).mpr rfl, rfl⟩
            · cases h
          · cases h
        · cases h
      exact ⟨iff_of_true hfilled.1 nofun, iff_of_true hfilled.2 ⟨hstr, not_lt.mp hlen⟩⟩

lemma empty_syncIPv4 (hs : s.empty = true) : s.syncIPv4.empty = false ↔ Mapped s.addr.sin6Addr := by
  unfold syncIPv4
  split
  · rename_i h
    exact iff_of_true rfl h
  · rename_i h
    exact iff_of_false (by simp [hs]) h

lemma filled_syncIPv4 (hs : s.empty = false) : s.syncIPv4.empty = false := by
  unfold syncIPv4
  split
  · rfl
  · exact hs

lemma filled_assign (h : s.assign other = .ok t) : t.empty = false := by
  unfold assign at h
  split at h <;> cases h <;> rfl

lemma build_new {c : Ctor} (h : c.build lib = .ok s) : (s.Agree ↔ c.Plain lib) ∧ (s.empty = false ↔ c.Fills) := by
  unfold Ctor.build at h
  split at h
  · cases h
    exact ⟨iff_of_true (fun h => absurd h not_mapped_zero) nofun, iff_of_false nofun id⟩
  · cases h
    exact ⟨iff_of_true (agree_setPort _ ((agree_setIPv4 _).mpr rfl)) nofun, iff_of_true rfl trivial⟩
  · cases h
    exact ⟨iff_of_true (agree_setPort _ (agree_syncIPv4 _)) nofun, empty_syncIPv4 rfl⟩
  · exact fromString_new (s := {}) rfl rfl rfl rfl h
  · exact fromString_new (s := setPort _ {}) rfl rfl rfl rfl h
  · cases h
    exact ⟨iff_of_true (agree_setPort _ (agree_syncIPv4 _)) nofun, iff_of_true rfl trivial⟩
  · exact ⟨iff_of_true (agree_assign h) nofun, iff_of_true (filled_assign h) trivial⟩

lemma filled_step {op : Op} (h : step op s = .ok t) : t.empty = false ↔ s.empty = false ∨ op.Fills := by
  have hsix (ip : BitVec 128) : (s.setIPv6 ip).empty = false ↔ s.empty = false ∨ Mapped ip := by
    by_cases hs : s.empty = false
    · exact iff_of_true (filled_syncIPv4 hs) (.inl hs)
    · rw [or_iff_right hs]
      exact empty_syncIPv4 (eq_true_of_ne_false hs)
  unfold step at h
  split at h
  · cases h
    exact iff_of_true rfl (.inr trivial)
  · cases h
    exact hsix _
  · rename_i ip
    cases h
    cases ip with
    | inl ip => exact iff_of_true rfl (.inr trivial)
    | inr ip => exact hsix ip
  · cases h
    exact (or_iff_left id).symm
  · exact iff_of_true (filled_assign h) (.inr trivial)

lemma filled_exec (ops : List Op) : ∀ {s}, Run.exec step ops s = .ok t →
    (t.empty = false ↔ s.empty = false ∨ ∃ op ∈ ops, op.Fills) := by
  induction ops with
  | nil =>
    intro s h
    cases h
    simp
  | cons op ops ih =>
    intro s h
    unfold Run.exec at h
    cases hop : step op s with
    | error =>
      rw [hop] at h
      cases h
    | ok =>
      rw [hop] at h
      rw [ih h, filled_step hop, or_assoc, List.exists_mem_cons_iff]

/-- After every constructor the two addresses agree throughout just when no IPv6 text gave a mapped address and
`setIPv4` was called while the ports agreed; and an address is set just when a call clears the flag. -/
theorem stored_addresses_agree_iff (lib : Libs) (c : Ctor) (ops : List Op) (h : c.build lib = .ok s) :
    (Run.Always step Agree ops s ↔ c.Plain lib ∧ Run.Obeys step Careful ops s) ∧
    ∀ t, Run.exec step ops s = .ok t → (t.empty = false ↔ c.Fills ∨ ∃ op ∈ ops, op.Fills) := by
  obtain ⟨hagree, hfills⟩ := build_new h
  refine ⟨?_, fun t ht => ?_⟩
  · rw [← hagree]
    have hiff (hs : s.Agree) : Run.Always step Agree ops s ↔ Run.Obeys step Careful ops s :=
      Run.always_iff_obeys (J := fun _ => True) (fun _ _ _ _ _ => trivial) (fun op _ _ _ => by cases op <;> trivial)
        (fun _ _ _ _ => agree_step) ops s trivial hs
    exact ⟨fun hall => ⟨hall.now, (hiff hall.now).mp hall⟩, fun ⟨hs, hobeys⟩ => (hiff hs).mpr hobeys⟩
  · rw [filled_exec ops ht, hfills]

theorem stored_addresses_agree_iff_loopback : Run.Always step Agree [.setPort 53] ((setIPv4 0x7f000001 {}).setPort 80) ↔
      (Ctor.ipv4 0x7f000001 80).Plain .decimals ∧
        Run.Obeys step Careful [.setPort 53] ((setIPv4 0x7f000001 {}).setPort 80) :=
  (stored_addresses_agree_iff .decimals (.ipv4 0x7f000001 80) _ rfl).1

/-- `setIPv6(::1)` leaves the flag on; `setIPv4` after `[::1]:80` leaves the IPv4 port at 0 -/
theorem stored_addresses_differ : (∃ s, Run.exec step [.setIPv6 1] {} = .ok s ∧ s.addr.sin6Addr = 1 ∧ s.empty = true) ∧
    ∃ s, Run.exec step [.assign (.sockaddrIn6 ⟨1, 80⟩), .setIPv4 0x7f000001] {} = .ok s ∧ s.isIPv4 = true ∧
      s.addr.sin6Port = 80 ∧ s.addr4.sinPort = 0 := ⟨⟨_, rfl, by decide +kernel⟩, ⟨_, rfl, by decide +kernel⟩⟩

end SockAddr

end Belnet.Net
