import Netscope.CommandLine.FilterExpression
import Netscope.Library.AddressGrammar
import Netscope.Library.FilterLanguage

/-! # What a simplified filter selects

The pieces of the builder are phrases of the filter language, so the expression selects
the packets for which every piece holds. The help text promises ICMP and ICMPv6 for the
flag whose piece is `icmp`, which holds of IPv4 packets only.
-/
namespace Netscope.FilterMeaning
open ByteString Numerals PartialMemory FilterExpression
open FilterLanguage hiding conjunction

section Meaning
variable (names : Bytes → Option Address)

/-- The address that an argument names. -/
def addressOf (o : Option CString) : Option Address := (nonEmpty o).bind names

/-- An argument that is missing, empty or one word of at most 45 bytes that names an address. -/
def IsToken (o : Option CString) : Prop := ∀ s, nonEmpty o = some s → IsWord s ∧ s.length ≤ 45 ∧ ∃ a, names s = some a

/-- A specification without a raw filter whose addresses are tokens. -/
structure Simple (spec : FilterSpec) : Prop where
  raw : nonEmpty spec.raw = none
  host : IsToken names spec.host
  src : IsToken names spec.src
  dst : IsToken names spec.dst

/-- A packet meets every condition that the help text gives for the flags. -/
structure Requested (spec : FilterSpec) (p : Traffic) : Prop where
  tcp : spec.tcp = true → p.carries 6
  udp : spec.udp = true → p.carries 17
  icmp : spec.icmp = true → p.carriesV4 1 ∨ p.carriesV6 58
  port : 0 ≤ spec.port → (p.carries 6 ∨ p.carries 17) ∧ p.usesPort spec.port.toInt.toNat
  host : ∀ a, addressOf names spec.host = some a → p.source = some a ∨ p.destination = some a
  src : ∀ a, addressOf names spec.src = some a → p.source = some a
  dst : ∀ a, addressOf names spec.dst = some a → p.destination = some a

/-- Whenever the builder succeeds, its expression selects the packets that were asked for. -/
def Selects (spec : FilterSpec) : Prop :=
  ∀ out out', nsFilterBuildBpf spec out = .ok (true,out') →
    ∃ text, loadString out' = .ok text ∧ ∀ p, Accepts names text p ↔ Requested names spec p

/-- The conditions beside `--icmp` can be met by an ICMPv6 packet: no other protocol or
port is asked for, every address is an IPv6 address, and a host next to both a source
and a destination is one of these. -/
structure AdmitsIcmpv6 (spec : FilterSpec) : Prop where
  tcp : spec.tcp = false
  udp : spec.udp = false
  port : spec.port < 0
  host : ∀ a, addressOf names spec.host = some (.v4 a) → False
  src : ∀ a, addressOf names spec.src = some (.v4 a) → False
  dst : ∀ a, addressOf names spec.dst = some (.v4 a) → False
  ends : ∀ h s d, addressOf names spec.host = some h → addressOf names spec.src = some s →
    addressOf names spec.dst = some d → h = s ∨ h = d

end Meaning

/-! ## The pieces as phrases -/

/-- Pieces that spell phrases which together say a condition. -/
def Says (names : Bytes → Option Address) (pieces : List Bytes) (cond : Traffic → Prop) : Prop :=
  ∃ phs : List (Phrase names), phs.map Phrase.text = pieces ∧ ∀ p, (∀ ph ∈ phs, ph.meaning.Holds p) ↔ cond p

section Phrases
variable {names : Bytes → Option Address}

theorem Says.append {xs ys : List Bytes} {P Q : Traffic → Prop} (hx : Says names xs P) (hy : Says names ys Q) :
    Says names (xs ++ ys) (fun p => P p ∧ Q p) := by
  obtain ⟨phs,rfl,hP⟩ := hx
  obtain ⟨phs',rfl,hQ⟩ := hy
  refine ⟨phs ++ phs',List.map_append,?_⟩
  intro p
  rw [List.forall_mem_append, hP, hQ]

theorem says_if (c : Prop) [Decidable c] (ph : c → Phrase names) (piece : Bytes) (hpiece : ∀ h, (ph h).text = piece) :
    Says names (if c then [piece] else []) (fun p => ∀ h : c, (ph h).meaning.Holds p) := by
  by_cases h : c
  · refine ⟨[ph h],by rw [if_pos h, List.map_singleton, hpiece],?_⟩
    intro p
    rw [List.forall_mem_singleton]
    exact ⟨fun hp _ => hp,fun hp => hp h⟩
  · refine ⟨[],by rw [if_neg h]; rfl,?_⟩
    intro p
    exact iff_of_true (List.forall_mem_nil _) (fun h' => absurd h' h)

/-- The piece of an address argument. -/
theorem says_address {o : Option CString} (h : IsToken names o) (key : Bytes) (q : Address → Primitive)
    (phrase : ∀ w a, IsWord w → names w = some a → ∃ ph : Phrase names, ph.text = key ++ w ∧ ph.meaning = q a) :
    Says names ((nonEmpty o).map fun s => key ++ s).toList (fun p => ∀ a, addressOf names o = some a → (q a).Holds p) := by
  unfold addressOf
  cases ho : nonEmpty o with
  | none => exact ⟨[],rfl,fun p => iff_of_true (List.forall_mem_nil _) (fun a ha => nomatch ha)⟩
  | some s =>
    obtain ⟨hword,-,a,ha⟩ := h s ho
    obtain ⟨ph,htext,hmeaning⟩ := phrase s a hword ha
    refine ⟨[ph],congrArg (fun t => [t]) htext,?_⟩
    intro p
    rw [List.forall_mem_singleton, hmeaning, Option.bind_some, ha]
    constructor
    · rintro hp b hb
      rwa [← Option.some.inj hb]
    · intro hp
      exact hp a rfl

/-- The number of a port piece is a word that is read back. -/
theorem signedDecimal_word {n : ℤ} (h : 0 ≤ n) :
    IsWord (signedDecimal n) ∧ readNumber (signedDecimal n) = some n.toNat := by
  obtain ⟨k,rfl⟩ := Int.eq_ofNat_of_zero_le h
  have hdec : signedDecimal (k : ℤ) = decimal k := by rw [signedDecimal, if_neg (by omega), Int.natAbs_natCast]
  have hd : ∀ d < 10, (48 : UInt8) ≤ digitByte d ∧ digitByte d ≤ 57 := by decide
  have hdigit : ∀ c ∈ decimal k, (48 : UInt8) ≤ c ∧ c ≤ 57 := forall_mem_numeral (by norm_num) hd
  rw [hdec]
  refine ⟨⟨numeral_ne_nil 10 k,fun hb => absurd (hdigit blank hb) (by decide)⟩,?_⟩
  rw [readNumber, if_pos ⟨numeral_ne_nil 10 k,hdigit⟩, value_numeral (by norm_num) (by norm_num), Int.toNat_natCast]

/-- What the pieces of a specification say: the conditions of the flags, but for `--icmp`. -/
def Selected (names : Bytes → Option Address) (spec : FilterSpec) (p : Traffic) : Prop :=
  ((((((spec.tcp = true → p.carries 6) ∧ (spec.udp = true → p.carries 17)) ∧ (spec.icmp = true → p.carriesV4 1)) ∧
    (0 ≤ spec.port → (p.carries 6 ∨ p.carries 17) ∧ p.usesPort spec.port.toInt.toNat)) ∧
    (∀ a, addressOf names spec.host = some a → p.source = some a ∨ p.destination = some a)) ∧
    (∀ a, addressOf names spec.src = some a → p.source = some a)) ∧
    (∀ a, addressOf names spec.dst = some a → p.destination = some a)

theorem says_fullPieces {spec : FilterSpec} (h : Simple names spec) : Says names (fullPieces spec) (Selected names spec) := by
  have hnonneg : spec.port ≥ 0 → 0 ≤ spec.port.toInt := Int32.le_iff_toInt_le.mp
  have htcp := says_if (spec.tcp = true) (fun _ => (Phrase.tcp : Phrase names)) (ascii "tcp") (fun _ => rfl)
  have hudp := says_if (spec.udp = true) (fun _ => (Phrase.udp : Phrase names)) (ascii "udp") (fun _ => rfl)
  have hicmp := says_if (spec.icmp = true) (fun _ => (Phrase.icmp : Phrase names)) (ascii "icmp") (fun _ => rfl)
  have hport := says_if (spec.port ≥ 0)
    (fun hp => (Phrase.port _ _ (signedDecimal_word (hnonneg hp)).1 (signedDecimal_word (hnonneg hp)).2 : Phrase names))
    (ascii "port " ++ signedDecimal spec.port.toInt) (fun _ => Phrase.text_port _ _ _ _)
  have hhost := says_address h.host (ascii "host ") .host
    (fun w a hw ha => ⟨Phrase.host w a hw ha,Phrase.text_host w a hw ha,rfl⟩)
  have hsrc := says_address h.src (ascii "src host ") .srcHost
    (fun w a hw ha => ⟨Phrase.srcHost w a hw ha,Phrase.text_srcHost w a hw ha,rfl⟩)
  have hdst := says_address h.dst (ascii "dst host ") .dstHost
    (fun w a hw ha => ⟨Phrase.dstHost w a hw ha,Phrase.text_dstHost w a hw ha,rfl⟩)
  exact (((((htcp.append hudp).append hicmp).append hport).append hhost).append hsrc).append hdst

theorem short_fullPieces {spec : FilterSpec} (h : Simple names spec) : ∀ piece ∈ fullPieces spec, piece.length < pieceSize := by
  have hdigits : (signedDecimal spec.port.toInt).length ≤ 11 := by
    have hlo := spec.port.le_toInt
    have hhi := spec.port.toInt_lt
    have hdec : (decimal spec.port.toInt.natAbs).length ≤ 10 := numeral_length_le (by norm_num) (by norm_num) (by omega)
    unfold signedDecimal
    split
    · rw [List.length_append, List.length_singleton]
      omega
    · omega
  have haddress : ∀ (o : Option CString) (key : Bytes), IsToken names o → key.length ≤ 9 →
      ∀ s, nonEmpty o = some s → (key ++ s).length < pieceSize := by
    intro o key ho hkey s hs
    have hs := (ho s hs).2.1
    rw [List.length_append]
    change _ < 128
    omega
  apply forall_mem_fullPieces (fun piece => piece.length < pieceSize) (by decide) (by decide) (by decide)
  · rw [List.length_append]
    change 5 + _ < 128
    omega
  · exact haddress _ _ h.host (by decide)
  · exact haddress _ _ h.src (by decide)
  · exact haddress _ _ h.dst (by decide)

/-- The expression of a simple specification accepts what its pieces say. -/
theorem accepts_writtenExpression {spec : FilterSpec} (h : Simple names spec) (p : Traffic) :
    Accepts names (writtenExpression spec) p ↔ Selected names spec p := by
  obtain ⟨phs,htexts,hjoin⟩ := says_fullPieces h
  rw [writtenExpression, h.raw, Option.getD_none, cutExpression_of_short (short_fullPieces h), ← htexts, ← hjoin]
  exact accepts_phrases phs p

end Phrases

/-! ## The texts that the builder leaves -/

theorem loadString_begins {len : ℕ} {text : Bytes} {out : Cells} (hnul : 0 ∉ text) (h : BeginsWith len (text ++ [0]) out) :
    loadString out = .ok text := by
  obtain ⟨-,rest,rfl⟩ := h
  rw [loadString_holding]
  exact congrArg Except.ok ((cString_eq_self_iff text).mpr hnul)

theorem nsFilterBuildBpf_text {spec : FilterSpec} {out out' : Cells} (h : nsFilterBuildBpf spec out = .ok (true,out')) :
    loadString out' = .ok (writtenExpression spec) := by
  have hout : 1 ≤ out.length := by
    rw [Nat.one_le_iff_ne_zero]
    intro h0
    rw [nsFilterBuildBpf, if_pos h0] at h
    cases h
  obtain ⟨ok,out₁,hbuild,-,hbegins⟩ := nsFilterBuildBpf_spec spec hout
  obtain ⟨rfl,rfl⟩ := Prod.mk.inj (Except.ok.inj (hbuild.symm.trans h))
  exact loadString_begins (nul_notMem_writtenExpression spec) (hbegins rfl)

theorem nsFilterBuildBpf_fits (spec : FilterSpec) :
    ∃ out', nsFilterBuildBpf spec (fresh ((writtenExpression spec).length + 1)) = .ok (true,out') := by
  obtain ⟨ok,out',hbuild,hok,-⟩ := @nsFilterBuildBpf_spec spec (fresh ((writtenExpression spec).length + 1)) (by simp)
  rw [fresh_length] at hok
  rw [hok.mpr (Nat.lt_succ_self _)] at hbuild
  exact ⟨out',hbuild⟩

/-! ## Which filters select what they promise -/

section Promise
variable {names : Bytes → Option Address} {spec : FilterSpec} {p : Traffic}

theorem selected_iff : Selected names spec p ↔ Requested names spec p ∧ (spec.icmp = true → p.carriesV4 1) := by
  constructor
  · rintro ⟨⟨⟨⟨⟨⟨htcp,hudp⟩,hicmp⟩,hport⟩,hhost⟩,hsrc⟩,hdst⟩
    exact ⟨⟨htcp,hudp,fun h => .inl (hicmp h),hport,hhost,hsrc,hdst⟩,hicmp⟩
  · rintro ⟨h,hicmp⟩
    exact ⟨⟨⟨⟨⟨⟨h.tcp,h.udp⟩,hicmp⟩,h.port⟩,h.host⟩,h.src⟩,h.dst⟩

/-- An ICMPv6 packet that was asked for. -/
theorem admitsIcmpv6_of_requested (h : Requested names spec p) (hicmp : p.carriesV6 58) : AdmitsIcmpv6 names spec := by
  have hother : ∀ n, n ≠ 58 → ¬p.carries n := fun n hn hc => hn (Traffic.carriesV6_inj hicmp hc).symm
  obtain ⟨s,d,hs,hd⟩ : ∃ s d, p.source = some (.v6 s) ∧ p.destination = some (.v6 d) := by
    unfold Traffic.carriesV6 at hicmp
    unfold Traffic.source Traffic.destination
    cases hnet : p.network with
    | ipv6 source destination nextHeader => exact ⟨source,destination,rfl,rfl⟩
    | ipv4 | arp | other =>
      rw [hnet] at hicmp
      exact hicmp.elim
  refine ⟨?_,?_,?_,?_,?_,?_,?_⟩
  · exact Bool.eq_false_iff.mpr (fun ht => hother 6 (by decide) (h.tcp ht))
  · exact Bool.eq_false_iff.mpr (fun ht => hother 17 (by decide) (h.udp ht))
  · by_contra hn
    rcases (h.port (Int32.not_lt.mp hn)).1 with hc | hc
    · exact hother 6 (by decide) hc
    · exact hother 17 (by decide) hc
  · intro a ha
    rcases h.host _ ha with he | he
    · cases hs.symm.trans he
    · cases hd.symm.trans he
  · intro a ha
    cases hs.symm.trans (h.src _ ha)
  · intro a ha
    cases hd.symm.trans (h.dst _ ha)
  · intro a b c ha hb hc
    rcases h.host a ha with he | he
    · exact .inl (Option.some.inj (he.symm.trans (h.src b hb)))
    · exact .inr (Option.some.inj (he.symm.trans (h.dst c hc)))

/-- An end of the packet that stands for a missing argument. -/
def endpoint (a b : Option Address) : Vector UInt8 16 :=
  match a, b with
  | some (.v6 x), _ => x
  | none, some (.v6 y) => y
  | _, _ => .replicate 16 0

/-- An ICMPv6 packet between the addresses of a specification. -/
def icmpv6Packet (names : Bytes → Option Address) (spec : FilterSpec) : Traffic where
  network := .ipv6 (endpoint (addressOf names spec.src) (addressOf names spec.host))
    (endpoint (addressOf names spec.dst) (addressOf names spec.host)) 58
  ports := none

theorem endpoint_of_some {a b : Option Address} (ha : ∀ x, a = some (.v4 x) → False) {x : Address} (h : a = some x) :
    Address.v6 (endpoint a b) = x := by
  subst h
  cases x with
  | v4 x => exact (ha x rfl).elim
  | v6 x => rfl

theorem endpoint_of_none {a b : Option Address} (hb : ∀ x, b = some (.v4 x) → False) (ha : a = none) {x : Address}
    (h : b = some x) : Address.v6 (endpoint a b) = x := by
  subst ha h
  cases x with
  | v4 x => exact (hb x rfl).elim
  | v6 x => rfl

theorem icmpv6Packet_requested (h : AdmitsIcmpv6 names spec) : Requested names spec (icmpv6Packet names spec) := by
  refine ⟨?_,?_,?_,?_,?_,?_,?_⟩
  · intro ht
    cases h.tcp.symm.trans ht
  · intro hu
    cases h.udp.symm.trans hu
  · intro _
    exact .inr rfl
  · intro hp
    exact absurd hp (Int32.not_le.mpr h.port)
  · intro a ha
    cases hs : addressOf names spec.src with
    | none =>
      left
      exact congrArg some (endpoint_of_none h.host hs ha)
    | some s =>
      cases hd : addressOf names spec.dst with
      | none =>
        right
        exact congrArg some (endpoint_of_none h.host hd ha)
      | some d =>
        rcases h.ends a s d ha hs hd with rfl | rfl
        · left
          exact congrArg some (endpoint_of_some h.src hs)
        · right
          exact congrArg some (endpoint_of_some h.dst hd)
  · intro a ha
    exact congrArg some (endpoint_of_some h.src ha)
  · intro a ha
    exact congrArg some (endpoint_of_some h.dst ha)

end Promise

/-- The flags select what the help text promises exactly when `--icmp` is not among them
or the others leave no ICMPv6 packet to select. -/
theorem selects_iff (names : Bytes → Option Address) (spec : FilterSpec) (h : Simple names spec) :
    Selects names spec ↔ spec.icmp = false ∨ ¬AdmitsIcmpv6 names spec := by
  constructor
  · intro hselects
    by_contra hnot
    rw [not_or, not_not, Bool.not_eq_false] at hnot
    obtain ⟨hicmp,hadmits⟩ := hnot
    obtain ⟨out',hbuild⟩ := nsFilterBuildBpf_fits spec
    obtain ⟨text,htext,hall⟩ := hselects _ _ hbuild
    obtain rfl := Except.ok.inj ((nsFilterBuildBpf_text hbuild).symm.trans htext)
    have haccepts := (hall _).mpr (icmpv6Packet_requested hadmits)
    exact (selected_iff.mp ((accepts_writtenExpression h _).mp haccepts)).2 hicmp
  · intro hcond out out' hbuild
    refine ⟨_,nsFilterBuildBpf_text hbuild,?_⟩
    intro p
    rw [accepts_writtenExpression h, selected_iff]
    constructor
    · exact And.left
    · intro hreq
      refine ⟨hreq,?_⟩
      intro hicmp
      rcases hreq.icmp hicmp with hv4 | hv6
      · exact hv4
      · rcases hcond with hoff | hno
        · cases hoff.symm.trans hicmp
        · exact absurd (admitsIcmpv6_of_requested hreq hv6) hno

/-! ## ICMP -/

/-- The addresses of dotted quads and IPv6 texts. -/
def readAddress (w : Bytes) : Option Address :=
  match AddressGrammar.readIpv4 w with
  | some quad => some (.v4 quad)
  | none => (AddressGrammar.readIpv6 w).map .v6

/-- TCP packets of one host. -/
def tcpOfHost : FilterSpec where
  tcp := true
  udp := false
  icmp := false
  port := -1
  host := some ⟨ascii "192.168.1.10",by decide⟩
  src := none
  dst := none
  raw := none

theorem tcpOfHost_simple : Simple readAddress tcpOfHost := by
  refine ⟨rfl,?_,?_,?_⟩
  · intro s hs
    obtain rfl := Option.some.inj (hs.symm.trans (show nonEmpty tcpOfHost.host = some (ascii "192.168.1.10") from rfl))
    exact ⟨by decide,by decide,.v4 #v[192,168,1,10],by decide +kernel⟩
  · intro s hs
    cases hs
  · intro s hs
    cases hs

theorem selects_iff_tcpOfHost :
    Simple readAddress tcpOfHost ∧
      (Selects readAddress tcpOfHost ↔ tcpOfHost.icmp = false ∨ ¬AdmitsIcmpv6 readAddress tcpOfHost) :=
  ⟨tcpOfHost_simple,selects_iff readAddress tcpOfHost tcpOfHost_simple⟩

/-- The flag `--icmp` alone. -/
def icmpOnly : FilterSpec where
  tcp := false
  udp := false
  icmp := true
  port := -1
  host := some .empty
  src := some .empty
  dst := some .empty
  raw := none

/-- An ICMPv6 packet to all nodes of a link. -/
def allNodes : Traffic where
  network := .ipv6 #v[0xfe,0x80,0,0,0,0,0,0,0,0,0,0,0,0,0,1] #v[0xff,2,0,0,0,0,0,0,0,0,0,0,0,0,0,1] 58
  ports := none

/-- An ICMPv6 packet is asked for and does not pass the filter. -/
theorem icmpOnly_drops_icmpv6 :
    Simple readAddress icmpOnly ∧ nsFilterBuildBpf icmpOnly (fresh 5) = .ok (true,holding (ascii "icmp" ++ [0]) []) ∧
      Requested readAddress icmpOnly allNodes ∧ ¬Accepts readAddress (ascii "icmp") allNodes ∧
      ¬Selects readAddress icmpOnly := by
  have hnone : ∀ s, nonEmpty (some CString.empty) ≠ some s := by
    intro s hs
    cases hs
  have hbuild : nsFilterBuildBpf icmpOnly (fresh 5) = .ok (true,holding (ascii "icmp" ++ [0]) []) := by decide +kernel
  have hrequested : Requested readAddress icmpOnly allNodes :=
    ⟨nofun,nofun,fun _ => .inr rfl,fun h => absurd h (by decide),nofun,nofun,nofun⟩
  have hrejected : ¬Accepts readAddress (ascii "icmp") allNodes := by
    rintro ⟨qs,hqs,hholds⟩
    have hread : readFilter readAddress (ascii "icmp") = some [.icmp] := by decide +kernel
    obtain rfl := Option.some.inj (hread.symm.trans hqs)
    exact hholds .icmp List.mem_cons_self
  refine ⟨⟨rfl,fun s hs => absurd hs (hnone s),fun s hs => absurd hs (hnone s),fun s hs => absurd hs (hnone s)⟩,hbuild,
    hrequested,hrejected,?_⟩
  intro hselects
  obtain ⟨text,htext,hall⟩ := hselects _ _ hbuild
  obtain rfl : ascii "icmp" = text := Except.ok.inj htext
  exact hrejected ((hall allNodes).mpr hrequested)

end Netscope.FilterMeaning
