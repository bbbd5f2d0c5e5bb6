import Netscope.Layers.HeaderSpecs

/-! # Chains of IPv6 extension headers

A chain is stated over the bytes alone: each header says how long it is and what
follows it. The walk of `ns_ipv6_skip_extension_headers` takes the longest chain
that is in bounds, but it looks at the next-header number only while its budget
lasts, so the number behind the eighth header is never accepted.
-/
namespace Netscope.ExtensionChain
open ByteString

/-- The length of the extension header of this number at `offset`; other numbers
announce the upper layer. -/
def extensionLength (data : Bytes) (offset : ℕ) (nextHeader : UInt8) : Option ℕ :=
  if nextHeader = 0 ∨ nextHeader = 43 ∨ nextHeader = 60 then some (((u8 data (offset + 1)).toNat + 1) * 8)
  else if nextHeader = 44 then some 8
  else none

/-- The number announces neither of the four extension headers. -/
def IsUpper (nextHeader : UInt8) : Prop :=
  nextHeader ≠ 0 ∧ nextHeader ≠ 43 ∧ nextHeader ≠ 60 ∧ nextHeader ≠ 44

instance : DecidablePred IsUpper := fun _ => inferInstanceAs (Decidable (_ ∧ _))

/-- `Chain data offset nextHeader n stop last`: from `offset`, where `nextHeader` was
announced, `n` extension headers lie inside the data; they end at `stop`, and the last
of them announces `last`. -/
inductive Chain (data : Bytes) : ℕ → UInt8 → ℕ → ℕ → UInt8 → Prop where
  | nil {offset : ℕ} {nextHeader : UInt8} : Chain data offset nextHeader 0 offset nextHeader
  | cons {offset len n stop : ℕ} {nextHeader last : UInt8} (hlen : extensionLength data offset nextHeader = some len)
      (hin : offset + len ≤ data.length) (rest : Chain data (offset + len) (u8 data offset) n stop last) :
      Chain data offset nextHeader (n + 1) stop last

section Lengths
variable {data : Bytes} {offset : ℕ} {nextHeader : UInt8}

theorem extensionLength_eq_none : extensionLength data offset nextHeader = none ↔ IsUpper nextHeader := by
  unfold extensionLength IsUpper
  split
  · rename_i h
    simp only [reduceCtorEq, false_iff]
    tauto
  · split
    · rename_i h
      simp only [reduceCtorEq, false_iff]
      tauto
    · simp only [true_iff]
      tauto

theorem eight_dvd_extensionLength {len : ℕ} (h : extensionLength data offset nextHeader = some len) : 8 ∣ len := by
  unfold extensionLength at h
  split at h
  · obtain rfl := Option.some.inj h
    exact Nat.dvd_mul_left 8 _
  · split at h
    · obtain rfl := Option.some.inj h
      exact Nat.dvd_refl 8
    · cases h

end Lengths

/-! ## Facts about chains -/

namespace Chain
variable {data : Bytes} {start n stop : ℕ} {nextHeader last : UInt8}

theorem stop_le (h : Chain data start nextHeader n stop last) (hstart : start ≤ data.length) : stop ≤ data.length := by
  induction h with
  | nil => exact hstart
  | cons _ hin _ ih => exact ih hin

theorem start_le (h : Chain data start nextHeader n stop last) : start ≤ stop := by
  induction h with
  | nil => exact le_rfl
  | cons _ _ _ ih => omega

theorem eight_dvd (h : Chain data start nextHeader n stop last) : 8 ∣ stop - start := by
  induction h with
  | nil => simp
  | cons hlen _ rest ih =>
    have hle := rest.start_le
    have hdvd := eight_dvd_extensionLength hlen
    omega

/-- A longer chain goes on from where a shorter one ends. -/
theorem step_of_lt {m stop' : ℕ} {last' : UInt8} (h : Chain data start nextHeader n stop last)
    (h' : Chain data start nextHeader m stop' last') (hlt : n < m) :
    ∃ len, extensionLength data stop last = some len ∧ stop + len ≤ data.length := by
  induction h generalizing m with
  | nil =>
    cases h' with
    | nil => omega
    | cons hlen hin _ => exact ⟨_,hlen,hin⟩
  | cons hlen _ _ ih =>
    cases h' with
    | nil => omega
    | cons hlen' _ rest' =>
      obtain rfl := Option.some.inj (hlen.symm.trans hlen')
      exact ih rest' (by omega)

/-- The number of headers decides where a chain ends. -/
theorem unique {stop' : ℕ} {last' : UInt8} (h : Chain data start nextHeader n stop last)
    (h' : Chain data start nextHeader n stop' last') : stop' = stop ∧ last' = last := by
  induction h with
  | nil =>
    cases h'
    exact ⟨rfl,rfl⟩
  | cons hlen _ _ ih =>
    cases h' with
    | cons hlen' _ rest' =>
      obtain rfl := Option.some.inj (hlen.symm.trans hlen')
      exact ih rest'

end Chain

/-! ## The walk -/

/-- Nothing goes on from here: the upper layer is reached or the next header leaves the data. -/
def Stuck (data : Bytes) (offset : ℕ) (nextHeader : UInt8) : Prop :=
  ∀ len, extensionLength data offset nextHeader = some len → data.length < offset + len

/-- How the walk ends with a budget of `budget` headers. -/
inductive Walked (data : Bytes) (budget start : ℕ) (nextHeader : UInt8) : Bool × ℕ × UInt8 → Prop where
  | upper {n stop : ℕ} {last : UInt8} (chain : Chain data start nextHeader n stop last) (hn : n < budget)
      (hupper : IsUpper last) : Walked data budget start nextHeader (true,stop,last)
  | outside {n stop : ℕ} {last : UInt8} (chain : Chain data start nextHeader n stop last) (hn : n < budget)
      (hext : ¬IsUpper last) (hstuck : Stuck data stop last) : Walked data budget start nextHeader (false,stop,last)
  | exhausted {stop : ℕ} {last : UInt8} (chain : Chain data start nextHeader budget stop last) :
      Walked data budget start nextHeader (false,stop,last)

/-- One more header in front of a walk. -/
theorem Walked.cons {data : Bytes} {budget start len : ℕ} {nextHeader : UInt8} {r : Bool × ℕ × UInt8}
    (hlen : extensionLength data start nextHeader = some len) (hin : start + len ≤ data.length)
    (h : Walked data budget (start + len) (u8 data start) r) : Walked data (budget + 1) start nextHeader r := by
  cases h with
  | upper chain hn hupper => exact .upper (.cons hlen hin chain) (Nat.succ_lt_succ hn) hupper
  | outside chain hn hext hstuck => exact .outside (.cons hlen hin chain) (Nat.succ_lt_succ hn) hext hstuck
  | exhausted chain => exact .exhausted (.cons hlen hin chain)

theorem Walked.start_le {data : Bytes} {budget start : ℕ} {nextHeader : UInt8} {r : Bool × ℕ × UInt8}
    (h : Walked data budget start nextHeader r) : start ≤ r.2.1 := by
  cases h with
  | upper chain | outside chain | exhausted chain => exact chain.start_le

theorem Walked.stop_le {data : Bytes} {budget start : ℕ} {nextHeader : UInt8} {r : Bool × ℕ × UInt8}
    (h : Walked data budget start nextHeader r) (hstart : start ≤ data.length) : r.2.1 ≤ data.length := by
  cases h with
  | upper chain | outside chain | exhausted chain => exact chain.stop_le hstart

/-- One iteration at an extension header. -/
theorem skipExtensionHeaders_step {data : Bytes} {start len : ℕ} {nextHeader : UInt8} (budget : ℕ)
    (hlen : extensionLength data start nextHeader = some len) :
    skipExtensionHeaders data (budget + 1) start nextHeader =
      if start + len ≤ data.length then skipExtensionHeaders data budget (start + len) (u8 data start)
      else (false,start,nextHeader) := by
  unfold extensionLength at hlen
  split at hlen
  · rename_i hkind
    have hopt : isOptionsHeader nextHeader = true := by
      simp only [isOptionsHeader, Bool.or_eq_true, decide_eq_true_eq]
      tauto
    have hsize : optionsHeaderLength data start = len := Option.some.inj hlen
    by_cases hin : start + len ≤ data.length
    · rw [if_pos hin, skipExtensionHeaders_options hopt (by rw [hsize]; exact hin), hsize]
    · rw [if_neg hin]
      simp only [skipExtensionHeaders, hopt, hsize, nsBoundsCheck_eq, hin, decide_false, Bool.not_false, ↓reduceIte,
        ite_self]
  · split at hlen
    · rename_i hother hkind
      obtain rfl := Option.some.inj hlen
      subst hkind
      by_cases hin : start + 8 ≤ data.length
      · rw [if_pos hin, skipExtensionHeaders_fragment hin]
      · have hopt : isOptionsHeader 44 = false := by decide
        rw [if_neg hin]
        simp only [skipExtensionHeaders, hopt, nsBoundsCheck_eq, hin, decide_false, Bool.not_false, Bool.or_true,
          Bool.false_eq_true, ↓reduceIte]
    · cases hlen

/-- The walk ends where no extension header is announced. -/
theorem skipExtensionHeaders_isUpper {data : Bytes} {start : ℕ} {nextHeader : UInt8} (budget : ℕ)
    (hupper : IsUpper nextHeader) : skipExtensionHeaders data (budget + 1) start nextHeader = (true,start,nextHeader) := by
  have hopt : isOptionsHeader nextHeader = false := by
    simp only [isOptionsHeader, hupper.1, hupper.2.1, hupper.2.2.1, decide_false, Bool.or_self]
  exact skipExtensionHeaders_upper hopt hupper.2.2.2

theorem skipExtensionHeaders_walked (data : Bytes) (budget start : ℕ) (nextHeader : UInt8) :
    Walked data budget start nextHeader (skipExtensionHeaders data budget start nextHeader) := by
  induction budget generalizing start nextHeader with
  | zero => exact .exhausted .nil
  | succ budget ih =>
    cases hlen : extensionLength data start nextHeader with
    | none =>
      have hupper := extensionLength_eq_none.mp hlen
      rw [skipExtensionHeaders_isUpper budget hupper]
      exact .upper .nil (Nat.succ_pos budget) hupper
    | some len =>
      rw [skipExtensionHeaders_step budget hlen]
      by_cases hin : start + len ≤ data.length
      · rw [if_pos hin]
        exact (ih (start + len) (u8 data start)).cons hlen hin
      · rw [if_neg hin]
        refine .outside .nil (Nat.succ_pos budget) ?_ ?_
        · intro hupper
          rw [extensionLength_eq_none.mpr hupper] at hlen
          cases hlen
        · intro len' hlen'
          obtain rfl := Option.some.inj (hlen.symm.trans hlen')
          omega

/-! ## The rule -/

/-- The walk accepts the chains of at most eight extension headers, and in any case
reports the longest chain of at most eight that is in bounds. -/
structure AcceptsChains (data : Bytes) (start : ℕ) (nextHeader : UInt8) (r : Bool × ℕ × UInt8) : Prop where
  accepted : r.1 = true ↔ ∃ n ≤ 8, ∃ stop last, Chain data start nextHeader n stop last ∧ IsUpper last
  result : r.1 = true → (∃ n ≤ 8, Chain data start nextHeader n r.2.1 r.2.2) ∧ IsUpper r.2.2 ∧ 8 ∣ r.2.1 - start
  inside : r.2.1 ≤ data.length
  longest : ∃ n ≤ 8, Chain data start nextHeader n r.2.1 r.2.2 ∧
    (n < 8 → ∀ stop last, ¬Chain data start nextHeader (n + 1) stop last)

section Rule
variable {data : Bytes} {start : ℕ} {nextHeader : UInt8}

/-- A chain that ends at the upper layer is the longest one. -/
theorem Chain.not_succ {n stop : ℕ} {last : UInt8} (h : Chain data start nextHeader n stop last)
    (hstuck : Stuck data stop last) (stop' : ℕ) (last' : UInt8) : ¬Chain data start nextHeader (n + 1) stop' last' := by
  intro h'
  obtain ⟨len,hlen,hin⟩ := h.step_of_lt h' (Nat.lt_succ_self n)
  exact absurd (hstuck len hlen) (by omega)

theorem stuck_of_isUpper {stop : ℕ} {last : UInt8} (hupper : IsUpper last) : Stuck data stop last := by
  intro len hlen
  rw [extensionLength_eq_none.mpr hupper] at hlen
  cases hlen

/-- Two chains that both end at the upper layer have the same number of headers. -/
theorem Chain.length_unique {n m stop stop' : ℕ} {last last' : UInt8} (h : Chain data start nextHeader n stop last)
    (h' : Chain data start nextHeader m stop' last') (hs : Stuck data stop last) (hs' : Stuck data stop' last') : n = m := by
  rcases Nat.lt_trichotomy n m with hlt | heq | hlt
  · obtain ⟨len,hlen,hin⟩ := h.step_of_lt h' hlt
    exact absurd (hs len hlen) (by omega)
  · exact heq
  · obtain ⟨len,hlen,hin⟩ := h'.step_of_lt h hlt
    exact absurd (hs' len hlen) (by omega)

/-- The walk accepts the chains of fewer headers than its budget in front of an upper layer. -/
theorem skipExtensionHeaders_eq_true_iff {budget stop : ℕ} {last : UInt8} :
    skipExtensionHeaders data budget start nextHeader = (true,stop,last) ↔
      ∃ n < budget, Chain data start nextHeader n stop last ∧ IsUpper last := by
  have hwalk := skipExtensionHeaders_walked data budget start nextHeader
  constructor
  · intro h
    rw [h] at hwalk
    cases hwalk with
    | upper chain hn hupper => exact ⟨_,hn,chain,hupper⟩
  · rintro ⟨n,hn,chain,hupper⟩
    generalize skipExtensionHeaders data budget start nextHeader = r at hwalk ⊢
    cases hwalk with
    | upper chain' _ hupper' =>
      obtain rfl := chain'.length_unique chain (stuck_of_isUpper hupper') (stuck_of_isUpper hupper)
      obtain ⟨rfl,rfl⟩ := chain.unique chain'
      rfl
    | outside chain' _ hext hstuck =>
      obtain rfl := chain'.length_unique chain hstuck (stuck_of_isUpper hupper)
      obtain ⟨rfl,rfl⟩ := chain.unique chain'
      exact absurd hupper hext
    | exhausted chain' =>
      obtain ⟨len,hlen,hin⟩ := chain.step_of_lt chain' hn
      exact absurd (stuck_of_isUpper hupper len hlen) (by omega)

theorem Walked.acceptsChains {r : Bool × ℕ × UInt8} (h : Walked data 8 start nextHeader r) (hstart : start ≤ data.length)
    (hnot : ¬∃ stop last, Chain data start nextHeader 8 stop last ∧ IsUpper last) :
    AcceptsChains data start nextHeader r := by
  cases h with
  | @upper n stop last chain hn hupper =>
    refine ⟨⟨fun _ => ⟨n,hn.le,stop,last,chain,hupper⟩,fun _ => rfl⟩,fun _ => ⟨⟨n,hn.le,chain⟩,hupper,chain.eight_dvd⟩,
      chain.stop_le hstart,n,hn.le,chain,?_⟩
    intro _
    exact chain.not_succ (stuck_of_isUpper hupper)
  | @outside n stop last chain hn hext hstuck =>
    refine ⟨⟨nofun,?_⟩,nofun,chain.stop_le hstart,n,hn.le,chain,fun _ => chain.not_succ hstuck⟩
    rintro ⟨m,_,stop',last',chain',hupper'⟩
    obtain rfl := chain.length_unique chain' hstuck (stuck_of_isUpper hupper')
    obtain ⟨rfl,rfl⟩ := chain.unique chain'
    exact absurd hupper' hext
  | @exhausted stop last chain =>
    refine ⟨⟨nofun,?_⟩,nofun,chain.stop_le hstart,8,le_rfl,chain,fun h => absurd h (lt_irrefl 8)⟩
    rintro ⟨m,hm,stop',last',chain',hupper'⟩
    rcases hm.lt_or_eq with hlt | rfl
    · obtain ⟨len,hlen,hin⟩ := chain'.step_of_lt chain hlt
      exact absurd (stuck_of_isUpper hupper' len hlen) (by omega)
    · exact absurd ⟨stop',last',chain',hupper'⟩ hnot

/-- The rule is broken exactly by the chains of eight extension headers in front of an
upper layer. -/
theorem nsIpv6SkipExtensionHeaders_acceptsChains_iff (data : Bytes) (start : ℕ) (nextHeader : UInt8)
    (hstart : start ≤ data.length) :
    AcceptsChains data start nextHeader (nsIpv6SkipExtensionHeaders data start nextHeader) ↔
      ¬∃ stop last, Chain data start nextHeader 8 stop last ∧ IsUpper last := by
  have hwalk : Walked data 8 start nextHeader (nsIpv6SkipExtensionHeaders data start nextHeader) :=
    skipExtensionHeaders_walked data 8 start nextHeader
  constructor
  · rintro hrule ⟨stop,last,chain,hupper⟩
    have htrue := hrule.accepted.mpr ⟨8,le_rfl,stop,last,chain,hupper⟩
    generalize nsIpv6SkipExtensionHeaders data start nextHeader = r at hwalk htrue
    cases hwalk with
    | upper chain' hn hupper' =>
      have heq := chain'.length_unique chain (stuck_of_isUpper hupper') (stuck_of_isUpper hupper)
      omega
    | outside | exhausted => cases htrue
  · exact hwalk.acceptsChains hstart

end Rule

/-- Destination Options headers of eight bytes, each before another one. -/
def optionsRun : ℕ → Bytes
  | 0 => []
  | n + 1 => [60,0,0,0,0,0,0,0] ++ optionsRun n

/-- Seven of them and one more before TCP. -/
def eightHeaders : Bytes := optionsRun 7 ++ [6,0,0,0,0,0,0,0]

theorem eightHeaders_chain : Chain eightHeaders 0 60 8 64 6 := by
  iterate 8 refine .cons rfl (by decide) ?_
  exact .nil

/-- The walk rejects the chain of eight headers. -/
theorem eightHeaders_rejected :
    nsIpv6SkipExtensionHeaders eightHeaders 0 60 = (false,64,6) ∧
      ¬AcceptsChains eightHeaders 0 60 (nsIpv6SkipExtensionHeaders eightHeaders 0 60) := by
  have hresult : nsIpv6SkipExtensionHeaders eightHeaders 0 60 = (false,64,6) := by decide
  refine ⟨hresult,?_⟩
  intro hrule
  have htrue := hrule.accepted.mpr ⟨8,le_rfl,64,6,eightHeaders_chain,by decide⟩
  rw [hresult] at htrue
  cases htrue

theorem nsIpv6SkipExtensionHeaders_acceptsChains_iff_seven :
    8 ≤ eightHeaders.length ∧
      (AcceptsChains eightHeaders 8 60 (nsIpv6SkipExtensionHeaders eightHeaders 8 60) ↔
        ¬∃ stop last, Chain eightHeaders 8 60 8 stop last ∧ IsUpper last) :=
  ⟨by decide,nsIpv6SkipExtensionHeaders_acceptsChains_iff eightHeaders 8 60 (by decide)⟩

end Netscope.ExtensionChain
