import Mathlib.Data.Sym.Sym2
import Netscope.Model.Stats
import Netscope.Text.AddressText

/-! # Flow keys

A flow is keyed by its protocol and the unordered pair of its endpoints. The table
stores the addresses as texts in a canonical order; the texts determine the
addresses and the order forgets the direction, so the stored texts and ports
determine the key and depend on nothing else.
-/
namespace Netscope.FlowKey
open ByteString Numerals Netscope.AddressText

/-- Raw address bytes with their family. -/
inductive Address where
  | ipv4 (addr : Ipv4Address)
  | ipv6 (addr : Ipv6Address)
deriving DecidableEq

abbrev Endpoint := Address × UInt16
abbrev Key := Proto × Sym2 Endpoint

def Address.text : Address → Bytes
  | .ipv4 addr => ipv4Text addr
  | .ipv6 addr => ipv6Text addr

/-- The protocol, source and destination of a packet that has a flow. -/
def packetEndpoints (pkt : Packet) : Option (Proto × Endpoint × Endpoint) :=
  match pkt.networkProto with
  | .arp => some (.arp,(.ipv4 pkt.net.getArp.senderIp,0),(.ipv4 pkt.net.getArp.targetIp,0))
  | .ipv4 => (transportPorts pkt).map fun t =>
      (t.1,(.ipv4 pkt.net.getIpv4.source,t.2.1),(.ipv4 pkt.net.getIpv4.destination,t.2.2))
  | .ipv6 => (transportPorts pkt).map fun t =>
      (t.1,(.ipv6 pkt.net.getIpv6.source,t.2.1),(.ipv6 pkt.net.getIpv6.destination,t.2.2))
  | _ => none

/-- The key of a packet that has a flow. -/
def packetKey (pkt : Packet) : Option Key := (packetEndpoints pkt).map fun t => (t.1,s(t.2.1,t.2.2))

/-! ## Address texts -/

theorem Address.printable_text (addr : Address) : ∀ c ∈ addr.text, Printable c := by
  cases addr with
  | ipv4 addr => exact printable_ipv4Text addr
  | ipv6 addr => exact printable_ipv6Text addr

theorem Address.text_length_lt (addr : Address) : addr.text.length < addrSize := by
  cases addr with
  | ipv4 addr => exact (ipv4Text_length_le addr).trans_lt (by norm_num)
  | ipv6 addr => exact (ipv6Text_length_le addr).trans_lt (by norm_num)

@[simp] theorem cString_text (addr : Address) : cString addr.text = addr.text := cString_of_printable addr.printable_text

@[simp] theorem snprintf_text (addr : Address) : snprintf addrSize addr.text = addr.text :=
  snprintf_of_lt addr.text_length_lt

/-- Different addresses, also of different families, have different texts. -/
theorem Address.text_injective : Function.Injective Address.text := by
  intro a b h
  cases a with
  | ipv4 a =>
    cases b with
    | ipv4 b => exact congrArg Address.ipv4 (ipv4Text_injective h)
    | ipv6 b => exact absurd h (ipv4Text_ne_ipv6Text a b)
  | ipv6 a =>
    cases b with
    | ipv4 b => exact absurd h.symm (ipv4Text_ne_ipv6Text b a)
    | ipv6 b => exact congrArg Address.ipv6 (ipv6Text_injective h)

/-! ## The canonical order -/

theorem compareBytes_swap (a b : Bytes) : compareBytes b a = -compareBytes a b := by
  induction a generalizing b with
  | nil =>
    cases b with
    | nil => rfl
    | cons y b => simp [compareBytes]
  | cons x a ih =>
    cases b with
    | nil => simp [compareBytes]
    | cons y b =>
      by_cases h : x = y
      · subst h
        simp [compareBytes, ih b]
      · simp [compareBytes, h, Ne.symm h]

theorem compareBytes_eq_zero {a b : Bytes} (ha : (0 : UInt8) ∉ a) (hb : (0 : UInt8) ∉ b) : compareBytes a b = 0 ↔ a = b := by
  have hne : ∀ x : UInt8, x ≠ 0 → (x.toNat : ℤ) ≠ 0 := by
    intro x hx h
    exact hx (UInt8.toNat_inj.mp (by exact_mod_cast h))
  induction a generalizing b with
  | nil =>
    cases b with
    | nil => simp [compareBytes]
    | cons y b =>
      have hy : y ≠ 0 := fun h => hb (h ▸ List.mem_cons_self)
      simpa [compareBytes] using hne y hy
  | cons x a ih =>
    have hx : x ≠ 0 := fun h => ha (h ▸ List.mem_cons_self)
    cases b with
    | nil => simpa [compareBytes] using hne x hx
    | cons y b =>
      by_cases h : x = y
      · subst h
        have hi := ih (fun h => ha (List.mem_cons_of_mem _ h)) (fun h => hb (List.mem_cons_of_mem _ h))
        simpa [compareBytes] using hi
      · have hxy : (x.toNat : ℤ) - y.toNat ≠ 0 := by
          intro h0
          exact h (UInt8.toNat_inj.mp (by omega))
        simp [compareBytes, h, hxy]

theorem zero_notMem_cString (s : Bytes) : (0 : UInt8) ∉ cString s := by
  intro h
  simpa using List.mem_takeWhile_imp h

theorem strcmp_swap (a b : Bytes) : strcmp b a = -strcmp a b := compareBytes_swap _ _

theorem strcmp_eq_zero (a b : Bytes) : strcmp a b = 0 ↔ cString a = cString b :=
  compareBytes_eq_zero (zero_notMem_cString a) (zero_notMem_cString b)

/-- The endpoints of a flow, as `extract_endpoints` writes them. -/
def endpointTexts (proto : Proto) (a b : Endpoint) : Endpoints := ⟨proto,a.1.text,a.2,b.1.text,b.2⟩

theorem extractEndpoints_eq (pkt : Packet) :
    extractEndpoints pkt = (packetEndpoints pkt).map fun t => endpointTexts t.1 t.2.1 t.2.2 := by
  have h4 : ∀ addr : Ipv4Address, nsFormatIpv4 addr addrSize = Address.text (.ipv4 addr) := fun addr =>
    snprintf_text (.ipv4 addr)
  have h6 : ∀ addr : Ipv6Address, nsFormatIpv6 addr addrSize = Address.text (.ipv6 addr) := fun addr =>
    snprintf_text (.ipv6 addr)
  unfold extractEndpoints packetEndpoints networkAddresses
  cases pkt.networkProto with
  | arp => simp [h4, endpointTexts]
  | ipv4 => cases transportPorts pkt <;> simp [h4, endpointTexts]
  | ipv6 => cases transportPorts pkt <;> simp [h6, endpointTexts]
  | _ => rfl

/-- The canonical endpoints keep or exchange the two endpoints. -/
theorem canonical_cases (proto : Proto) (a b : Endpoint) :
    (endpointTexts proto a b).canonical = endpointTexts proto a b ∨
      (endpointTexts proto a b).canonical = endpointTexts proto b a := by
  unfold Endpoints.canonical
  split
  · exact .inr rfl
  · exact .inl rfl

theorem isReversed_iff (proto : Proto) (a b : Endpoint) :
    (endpointTexts proto a b).isReversed = true ↔
      0 < strcmp a.1.text b.1.text ∨ (a.1.text = b.1.text ∧ b.2.toNat < a.2.toNat) := by
  have hzero := strcmp_eq_zero a.1.text b.1.text
  rw [cString_text, cString_text] at hzero
  simp [Endpoints.isReversed, endpointTexts, hzero, UInt16.lt_iff_toNat_lt]

/-- The canonical order forgets the direction. -/
theorem canonical_swap (proto : Proto) (a b : Endpoint) :
    (endpointTexts proto b a).canonical = (endpointTexts proto a b).canonical := by
  have hab := isReversed_iff proto a b
  have hba := isReversed_iff proto b a
  have hswap := strcmp_swap a.1.text b.1.text
  have hzero := strcmp_eq_zero a.1.text b.1.text
  rw [cString_text, cString_text] at hzero
  unfold Endpoints.canonical
  by_cases h1 : (endpointTexts proto a b).isReversed = true
  · have h2 : ¬(endpointTexts proto b a).isReversed = true := by
      intro h2
      rcases hab.mp h1 with hpos | ⟨heq,hport⟩
      · rcases hba.mp h2 with hpos' | ⟨heq',_⟩
        · omega
        · have := hzero.mpr heq'.symm
          omega
      · rcases hba.mp h2 with hpos' | ⟨_,hport'⟩
        · have := hzero.mpr heq
          omega
        · omega
    rw [if_pos h1, if_neg h2]
    rfl
  · rw [if_neg h1]
    by_cases h2 : (endpointTexts proto b a).isReversed = true
    · rw [if_pos h2]
      rfl
    · -- Neither order is reversed, so the two endpoints print alike.
      rw [if_neg h2]
      rw [hab] at h1
      rw [hba] at h2
      have hcmp : strcmp a.1.text b.1.text = 0 := by omega
      have htext := hzero.mp hcmp
      have hport : a.2 = b.2 := by
        apply UInt16.toNat_inj.mp
        have ha : ¬b.2.toNat < a.2.toNat := fun h => h1 (.inr ⟨htext,h⟩)
        have hb : ¬a.2.toNat < b.2.toNat := fun h => h2 (.inr ⟨htext.symm,h⟩)
        omega
      simp only [endpointTexts, htext, hport]

/-- The texts and ports that the table stores for a key. -/
def storedTexts (k : Key) : Endpoints :=
  Sym2.lift ⟨fun a b => (endpointTexts k.1 a b).canonical,fun a b => canonical_swap k.1 b a⟩ k.2

@[simp] theorem storedTexts_mk (proto : Proto) (a b : Endpoint) :
    storedTexts (proto,s(a,b)) = (endpointTexts proto a b).canonical := rfl

theorem endpointTexts_injective {proto proto' : Proto} {a b c d : Endpoint}
    (h : endpointTexts proto a b = endpointTexts proto' c d) : proto = proto' ∧ a = c ∧ b = d := by
  simp only [endpointTexts, Endpoints.mk.injEq] at h
  obtain ⟨hp,ha,hpa,hb,hpb⟩ := h
  exact ⟨hp,Prod.ext (Address.text_injective ha) hpa,Prod.ext (Address.text_injective hb) hpb⟩

/-- A key whose endpoints, in one order, have the stored texts is the key. -/
theorem eq_of_storedTexts {k : Key} {proto : Proto} {a b : Endpoint} (h : storedTexts k = endpointTexts proto a b) :
    k = (proto,s(a,b)) := by
  obtain ⟨proto',pair⟩ := k
  induction pair using Sym2.inductionOn with
  | hf c d =>
    rw [storedTexts_mk] at h
    rcases canonical_cases proto' c d with hc | hc
    · obtain ⟨rfl,rfl,rfl⟩ := endpointTexts_injective (hc.symm.trans h)
      rfl
    · obtain ⟨rfl,rfl,rfl⟩ := endpointTexts_injective (hc.symm.trans h)
      rw [Sym2.eq_swap]

theorem storedTexts_shape (k : Key) : ∃ a b : Endpoint, storedTexts k = endpointTexts k.1 a b ∧ k.2 = s(a,b) := by
  obtain ⟨proto,pair⟩ := k
  induction pair using Sym2.inductionOn with
  | hf a b =>
    rw [storedTexts_mk]
    rcases canonical_cases proto a b with hc | hc
    · exact ⟨a,b,hc,rfl⟩
    · exact ⟨b,a,hc,Sym2.eq_swap⟩

theorem storedTexts_injective : Function.Injective storedTexts := by
  intro k k' h
  obtain ⟨a,b,hab,hk'⟩ := storedTexts_shape k'
  rw [eq_of_storedTexts (h.trans hab), ← hk']

end Netscope.FlowKey
