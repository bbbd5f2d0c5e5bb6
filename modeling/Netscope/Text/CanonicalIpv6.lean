import Netscope.Checked.DnsRecords
import Netscope.Library.AddressGrammar

/-! # The canonical text of an IPv6 address

The recommended text form is stated over the eight groups alone: lower-case fields without
leading zeros, and `::` for the leftmost longest run of zero groups. The formatter writes
it, and the grammar of addresses reads it back.
-/
namespace Netscope.CanonicalIpv6
open ByteString PartialMemory Numerals LongestRun AddressText
open AddressGrammar hiding dot colon

/-! ## The form -/

def IsLowerHex (c : UInt8) : Prop := 48 ≤ c ∧ c ≤ 57 ∨ 97 ≤ c ∧ c ≤ 102

instance : DecidablePred IsLowerHex := fun _ => inferInstanceAs (Decidable (_ ∨ _))

/-- The field of one group. -/
structure IsField (f : Bytes) (g : UInt16) : Prop where
  nonempty : f ≠ []
  digits : ∀ c ∈ f, IsLowerHex c
  value : value 16 f = g.toNat
  noLeadingZero : 1 < f.length → f.head? ≠ some 48

/-- The recommended texts of eight groups. -/
inductive Canonical (gs : List UInt16) : Bytes → Prop where
  | full {fs : List Bytes} (hnone : ∀ s, ¬IsRun (gs.map (· == 0)) s 2) (hfs : List.Forall₂ IsField fs gs) :
      Canonical gs ([colon].intercalate fs)
  | elided {start len : ℕ} {ls rs : List Bytes} (hlen : 2 ≤ len) (hrun : LeftmostLongest (gs.map (· == 0)) start len)
      (hls : List.Forall₂ IsField ls (gs.take start)) (hrs : List.Forall₂ IsField rs (gs.drop (start + len))) :
      Canonical gs ([colon].intercalate ls ++ [colon,colon] ++ [colon].intercalate rs)

theorem isField_hex (g : UInt16) : IsField (hex g.toNat) g := by
  have hdigit : ∀ d < 16, IsLowerHex (digitByte d) := by decide
  exact ⟨numeral_ne_nil 16 _,forall_mem_numeral (by norm_num) hdigit,value_numeral (by norm_num) le_rfl _,
    numeral_head_ne_zero (by norm_num) le_rfl⟩

theorem isField_hexFields (gs : List UInt16) : List.Forall₂ IsField (hexFields gs) gs := by
  rw [hexFields, List.forall₂_map_left_iff]
  exact List.forall₂_same.mpr (fun g _ => isField_hex g)

theorem emission_canonical (addr : Ipv6Address) : Canonical (ipv6Groups addr).toList (emission addr) := by
  rcases emission_cases addr with ⟨hnone,h⟩ | ⟨start,len,hlen,hbest,h⟩
  · rw [h]
    exact .full hnone (isField_hexFields _)
  · rw [h, intercalate_compressedFields]
    exact .elided hlen hbest (isField_hexFields _) (isField_hexFields _)

/-! ## Reading back -/

theorem spells_hexFields (gs : List UInt16) : Spells gs ([colon].intercalate (hexFields gs)) := by
  refine ⟨hexFields gs,?_,rfl⟩
  induction gs with
  | nil => rfl
  | cons g gs ih =>
    rw [hexFields, List.map_cons, List.mapM_cons, readGroup_hex, ← hexFields, ih]
    rfl

/-- The groups around the run and the zeros inside it. -/
theorem groups_around_run {addr : Ipv6Address} {start len : ℕ} (h : IsRun (zeroGroups addr) start len) :
    (ipv6Groups addr).toList.take start ++ List.replicate len 0 ++ (ipv6Groups addr).toList.drop (start + len) =
      (ipv6Groups addr).toList := by
  have hmiddle : ((ipv6Groups addr).toList.drop start).take len = List.replicate len 0 := by
    refine List.ext_getElem? ?_
    intro i
    rw [List.getElem?_take, List.getElem?_replicate]
    split
    · rename_i hi
      rw [List.getElem?_drop, zero_of_isRun h (by omega) (by omega)]
    · rfl
  rw [← hmiddle, List.append_assoc, ← List.drop_drop, List.take_append_drop, List.take_append_drop]

theorem readIpv6Groups_emission (addr : Ipv6Address) : readIpv6Groups (emission addr) = some (ipv6Groups addr).toList := by
  have hlength : (ipv6Groups addr).toList.length = 8 := by rw [Vector.length_toList]
  rcases emission_cases addr with ⟨_,h⟩ | ⟨start,len,hlen,hbest,h⟩
  · rw [h]
    exact readIpv6Groups_full (spells_hexFields _) hlength
  · have hle := hbest.run.end_le (by omega)
    rw [zeroGroups, List.length_map, hlength] at hle
    have hsides : ((ipv6Groups addr).toList.take start).length + ((ipv6Groups addr).toList.drop (start + len)).length =
        8 - len := by
      rw [List.length_take, List.length_drop, hlength]
      omega
    rw [h, intercalate_compressedFields]
    rw [readIpv6Groups_elided (spells_hexFields _) (spells_hexFields _) (by omega), hsides,
      show 8 - (8 - len) = len by omega, groups_around_run hbest.run]

theorem u16_flatMap_be16 {gs : List UInt16} {i : ℕ} (h : i < gs.length) : u16 (gs.flatMap be16) (2 * i) = gs[i] := by
  induction gs generalizing i with
  | nil => cases h
  | cons g gs ih =>
    rw [List.flatMap_cons]
    cases i with
    | zero => exact u16_be16 g _
    | succ i =>
      rw [u16_skip _ (by rw [be16_length]; omega), be16_length, show 2 * (i + 1) - 2 = 2 * i by omega,
        ih (Nat.lt_of_succ_lt_succ h)]
      rfl

/-- The groups in big-endian order are the address. -/
theorem slice_ipv6Groups (addr : Ipv6Address) : slice ((ipv6Groups addr).toList.flatMap be16) 0 16 = addr := by
  apply ipv6Groups_injective
  ext i hi
  have hlength : i < (ipv6Groups addr).toList.length := by rw [Vector.length_toList]; exact hi
  have hread := u16_flatMap_be16 hlength
  rw [Vector.getElem_toList] at hread
  rw [← hread]
  simp only [ipv6Groups, Vector.getElem_ofFn, slice, u16, Nat.zero_add]

theorem readIpv6_emission (addr : Ipv6Address) : readIpv6 (emission addr) = some addr := by
  rw [readIpv6, readIpv6Groups_emission, Option.map_some, slice_ipv6Groups]

/-- There is a `::` exactly when there are two zero groups side by side. -/
theorem splitElision_emission (addr : Ipv6Address) :
    splitElision (emission addr) ≠ none ↔ ∃ s, IsRun (zeroGroups addr) s 2 := by
  have hword : ∀ gs : List UInt16, ∀ f ∈ hexFields gs, f ≠ [] ∧ colon ∉ f :=
    fun _ f hf => ⟨hexFields_ne_nil_of_mem f hf,colon_notMem_hexFields f hf⟩
  rcases emission_cases addr with ⟨hnone,h⟩ | ⟨start,len,hlen,hbest,h⟩
  · rw [h, (splitElision_intercalate (hword _)).1]
    simp only [ne_eq, not_true_eq_false, false_iff, not_exists]
    exact hnone
  · rw [h, intercalate_compressedFields, splitElision_append _ (splitElision_intercalate (hword _)).2]
    simp only [ne_eq, reduceCtorEq, not_false_eq_true, true_iff]
    exact ⟨start,hbest.run.take hlen⟩

/-! ## The formatter -/

/-- The text of an address: canonical, read back by the grammar, and never that of an IPv4 address. -/
structure FormOf (addr : Ipv6Address) (text : Bytes) : Prop where
  canonical : Canonical (ipv6Groups addr).toList text
  elision : splitElision text ≠ none ↔ ∃ s, IsRun (zeroGroups addr) s 2
  readBack : readIpv6 text = some addr
  length : text.length ≤ 39
  notIpv4 : ∀ quad bufLen, nsFormatIpv4 quad bufLen ≠ text

theorem emission_formOf (addr : Ipv6Address) : FormOf addr (emission addr) := by
  have hcolon := colon_mem_ipv6Text addr
  have hlength := ipv6Text_length_le addr
  rw [ipv6Text_eq_emission] at hcolon hlength
  refine ⟨emission_canonical addr,splitElision_emission addr,readIpv6_emission addr,hlength,?_⟩
  intro quad bufLen heq
  rw [← heq] at hcolon
  exact colon_notMem_ipv4Text quad (List.mem_of_mem_take hcolon)

/-- The loop of the formatter fills `tmp` with the text, which is not empty. -/
theorem emitGroups_emission (addr : Ipv6Address) :
    ∃ rest, Checked.emitGroups (ipv6Groups addr).toList (bestZeroRun (zeroGroups addr)).1 (bestZeroRun (zeroGroups addr)).2 8 0
        (fresh 46) 0 = .ok (holding (emission addr) rest,(emission addr).length) ∧
      (emission addr).length + rest.length = 46 := by
  have hzero : (zeroGroups addr).length = 8 := by rw [zeroGroups, List.length_map, Vector.length_toList]
  obtain ⟨rest,he,_,hlen⟩ := @Checked.emitGroups_agrees (ipv6Groups addr) _ _ (Checked.bestZeroRun_inside hzero) 8 0
    le_rfl (Nat.zero_le 8) [] (fresh 46) (Nat.zero_le _) (by simp)
  rw [holding_nil, List.nil_append] at he
  rw [List.nil_append] at hlen
  exact ⟨rest,he,hlen⟩

/-- The formatter writes the canonical text of every address, without its fallback. -/
theorem nsFormatIpv6_formOf (addr : Ipv6Address) (buf : Cells) (hbuf : 46 ≤ buf.length) :
    ∃ text, FormOf addr text ∧ (∀ addr', FormOf addr' text → addr' = addr) ∧
      (∃ rest, Checked.nsFormatIpv6 addr.toList buf buf.length = .ok (holding (text ++ [0]) rest)) ∧
      ∃ tmp pos, Checked.emitGroups (ipv6Groups addr).toList (bestZeroRun (zeroGroups addr)).1
          (bestZeroRun (zeroGroups addr)).2 8 0 (fresh 46) 0 = .ok (tmp,pos) ∧ pos = text.length ∧ pos ≠ 0 := by
  have hform := emission_formOf addr
  have hlength := hform.length
  refine ⟨emission addr,hform,?_,?_,?_⟩
  · intro addr' h
    exact Option.some.inj (h.readBack.symm.trans hform.readBack)
  · obtain ⟨out,he,_,rest,hout⟩ := Checked.nsFormatIpv6_agrees (@Vector.length_toList _ _ addr).ge
      (show 0 < buf.length by omega) rfl
    have haddr : slice addr.toList 0 16 = addr := AddressGrammar.slice_groups addr rfl
    rw [haddr, Netscope.nsFormatIpv6, ipv6Text_eq_emission, snprintf_of_lt (by omega)] at hout
    exact ⟨rest,by rw [he, hout]⟩
  · obtain ⟨rest,he,_⟩ := emitGroups_emission addr
    exact ⟨_,_,he,rfl,fun h => emission_ne_nil addr (List.length_eq_zero_iff.mp h)⟩

/-- An address whose two longest runs of zero groups are equally long. -/
def tiedRuns : Ipv6Address := #v[0x20,1,0x0d,0xb8,0,0,0,0,0,1,0,0,0,0,0,1]

theorem nsFormatIpv6_formOf_tiedRuns :
    46 ≤ (fresh 46).length ∧
      ∃ text, FormOf tiedRuns text ∧ (∀ addr', FormOf addr' text → addr' = tiedRuns) ∧
        (∃ rest, Checked.nsFormatIpv6 tiedRuns.toList (fresh 46) (fresh 46).length = .ok (holding (text ++ [0]) rest)) ∧
        ∃ tmp pos, Checked.emitGroups (ipv6Groups tiedRuns).toList (bestZeroRun (zeroGroups tiedRuns)).1
            (bestZeroRun (zeroGroups tiedRuns)).2 8 0 (fresh 46) 0 = .ok (tmp,pos) ∧ pos = text.length ∧ pos ≠ 0 := by
  have hbuf : 46 ≤ (fresh 46).length := by rw [fresh_length]
  exact ⟨hbuf,nsFormatIpv6_formOf tiedRuns (fresh 46) hbuf⟩

example : nsFormatIpv6 tiedRuns 46 = ascii "2001:db8::1:0:0:1" := by decide +kernel

end Netscope.CanonicalIpv6
