import Netscope.Library.LongestRun
import Netscope.Model.Util

/-! # The texts of addresses

The emission loop of `ns_format_ipv6` writes colon-separated fields, with an
empty field for the run of zero groups that it leaves out. Reading the fields
back recovers the groups, so an address text determines its address.
-/
namespace Netscope.AddressText
open ByteString Numerals LongestRun

/-! ## The run of zero groups -/

/-- The search between two groups: it knows the run that ends here and the first longest one. -/
structure Scanned (xs : List Bool) (r : ZeroRun) : Prop where
  current : ∃ n : ℕ, Ending xs n ∧ r.curLen = n ∧ r.curStart = if n = 0 then -1 else (xs.length : ℤ) - n
  best : ∃ start len : ℕ, LeftmostLongest xs start len ∧ r.bestLen = len ∧ (0 < len → r.bestStart = start)

theorem scan_scanned {xs : List Bool} {r : ZeroRun} (h : Scanned xs r) (isZero : Bool) :
    Scanned (xs ++ [isZero]) (r.scan xs.length isZero) := by
  obtain ⟨⟨n,hend,hcurLen,hcurStart⟩,start,len,hbest,hbestLen,hbestStart⟩ := h
  cases isZero with
  | false => exact ⟨⟨0,ending_false xs,rfl,rfl⟩,start,len,hbest.pass,hbestLen,hbestStart⟩
  | true =>
    have hle := hend.le
    -- the current run starts here or goes on
    have hstart : (if r.curStart < 0 then (xs.length : ℤ) else r.curStart) = ((xs.length - n : ℕ) : ℤ) := by
      rw [hcurStart]
      by_cases hn : n = 0
      · subst hn
        rfl
      · rw [if_neg hn, if_neg (by omega), Nat.cast_sub hle]
    have hcurrent : ∃ m : ℕ, Ending (xs ++ [true]) m ∧ r.curLen + 1 = m ∧
        ((xs.length - n : ℕ) : ℤ) = if m = 0 then -1 else ((xs ++ [true]).length : ℤ) - m := by
      refine ⟨n + 1,hend.extend,by rw [hcurLen]; rfl,?_⟩
      rw [if_neg (Nat.succ_ne_zero n), List.length_append, List.length_singleton]
      omega
    unfold ZeroRun.scan
    simp only [↓reduceIte, hstart]
    split
    · rename_i hgt
      have hlt : len < n + 1 := by omega
      exact ⟨hcurrent,xs.length - n,n + 1,hbest.grow hend hlt,by rw [hcurLen]; rfl,fun _ => rfl⟩
    · rename_i hngt
      have hkeep : n + 1 ≤ len := by omega
      exact ⟨hcurrent,start,len,hbest.keep hend hkeep,hbestLen,hbestStart⟩

/-- The search over all groups. -/
theorem scan_run (xs : List Bool) :
    Scanned xs (xs.zipIdx.foldl (fun r z => r.scan z.2 z.1)
      { bestStart := -1, bestLen := 0, curStart := -1, curLen := 0 }) := by
  induction xs using List.reverseRecOn with
  | nil => exact ⟨⟨0,ending_nil,rfl,rfl⟩,0,0,leftmostLongest_nil 0,rfl,fun h => absurd h (lt_irrefl 0)⟩
  | append_singleton xs isZero ih =>
    have hstep := scan_scanned ih isZero
    simpa only [List.zipIdx_append, List.zipIdx_cons, List.zipIdx_nil, List.foldl_append, List.foldl_cons, List.foldl_nil,
      Nat.zero_add] using hstep

/-- The search finds the leftmost longest run of at least two zero groups, if there is one. -/
theorem bestZeroRun_cases (isZero : List Bool) :
    bestZeroRun isZero = (-1,0) ∧ (∀ s, ¬IsRun isZero s 2) ∨
      ∃ start len : ℕ, bestZeroRun isZero = ((start : ℤ),(len : ℤ)) ∧ 2 ≤ len ∧ LeftmostLongest isZero start len := by
  obtain ⟨_,start,len,hbest,hbestLen,hbestStart⟩ := scan_run isZero
  unfold bestZeroRun
  dsimp only
  by_cases h2 : len < 2
  · left
    rw [if_pos (by omega)]
    refine ⟨rfl,?_⟩
    intro s hs
    exact absurd (hbest.longest s 2 hs) (by omega)
  · right
    rw [if_neg (by omega), hbestStart (by omega), hbestLen]
    exact ⟨start,len,rfl,by omega,hbest⟩

/-! ## The fields of the text -/

section Fields
variable (groups : Vector UInt16 8)

/-- The hexadecimal fields of the groups from `i` on, each after a colon. -/
def colonFields (i : ℕ) : Bytes := (groups.toList.drop i).flatMap (fun g => colon :: hex g.toNat)

theorem colonFields_step {i : ℕ} (h : i < 8) :
    colonFields groups i = colon :: hex groups[i].toNat ++ colonFields groups (i + 1) := by
  have hd : groups.toList.drop i = groups[i] :: groups.toList.drop (i + 1) := by
    rw [List.drop_eq_getElem_cons (by simpa using h)]
    simp
  simp [colonFields, hd]

theorem colonFields_end : colonFields groups 8 = [] := by
  simp [colonFields, List.drop_eq_nil_of_le]

/-- Past the run, or without one, every group is written after a colon. -/
theorem emitGroups_after {bestStart bestLen : ℤ} {fuel i : ℕ} (hf : 8 ≤ i + fuel) (hi : i ≤ 8) (h0 : i ≠ 0)
    (hs : bestStart < i) (he : bestStart + bestLen < i) :
    emitGroups groups bestStart bestLen fuel i = colonFields groups i := by
  induction fuel generalizing i with
  | zero =>
    obtain rfl : i = 8 := by omega
    rw [colonFields_end]
    rfl
  | succ fuel ih =>
    rw [emitGroups]
    by_cases h8 : i < 8
    · rw [dif_pos h8, if_neg (by omega), if_pos ⟨h0,by omega⟩, ih (by omega) (by omega) (by omega) (by omega)
        (by omega), colonFields_step groups h8]
      simp
    · obtain rfl : i = 8 := by omega
      rw [dif_neg h8, colonFields_end]

/-- At the end of the run the first field follows the double colon directly. -/
theorem emitGroups_resume {start len fuel : ℕ} (hlen : 2 ≤ len) (hf : 8 ≤ start + len + fuel) (hle : start + len ≤ 8) :
    emitGroups groups start len fuel (start + len) =
      [colon].intercalate ((groups.toList.drop (start + len)).map (fun g => hex g.toNat)) := by
  by_cases h8 : start + len < 8
  · obtain ⟨fuel,rfl⟩ : ∃ k, fuel = k + 1 := ⟨fuel - 1,by omega⟩
    have hd : groups.toList.drop (start + len) = groups[start + len] :: groups.toList.drop (start + len + 1) := by
      rw [List.drop_eq_getElem_cons (by simpa using h8)]
      simp
    rw [emitGroups, dif_pos h8, if_neg (by push_cast; omega), if_neg (by push_cast; simp),
      emitGroups_after groups (by omega) (by omega) (by omega) (by push_cast; omega) (by push_cast; omega), hd,
      List.map_cons, intercalate_separator, List.flatMap_map, colonFields]
    rfl
  · have hd : groups.toList.drop (start + len) = [] := List.drop_eq_nil_of_le (by simp; omega)
    rw [hd]
    cases fuel with
    | zero => rfl
    | succ fuel => rw [emitGroups, dif_neg h8]; rfl

/-- From a group before the run: the fields up to the run, then the double colon. -/
theorem emitGroups_before {start len fuel i : ℕ} (hlen : 2 ≤ len) (hf : 8 ≤ i + fuel) (hle : start + len ≤ 8)
    (hi : i ≤ start) (h0 : i ≠ 0) :
    emitGroups groups start len fuel i =
      ((groups.toList.take start).drop i).flatMap (fun g => colon :: hex g.toNat) ++ [colon,colon] ++
        [colon].intercalate ((groups.toList.drop (start + len)).map (fun g => hex g.toNat)) := by
  induction fuel generalizing i with
  | zero => omega
  | succ fuel ih =>
    rw [emitGroups, dif_pos (by omega)]
    by_cases hs : i = start
    · subst hs
      have hd : (groups.toList.take i).drop i = [] := List.drop_eq_nil_of_le (by simp)
      rw [if_pos rfl, Int.toNat_natCast, emitGroups_resume groups hlen (by omega) hle, hd]
      simp
    · have hd : (groups.toList.take start).drop i = groups[i] :: (groups.toList.take start).drop (i + 1) := by
        rw [List.drop_eq_getElem_cons (by simp; omega)]
        simp
      rw [if_neg (by exact_mod_cast hs), if_pos ⟨h0,by omega⟩, ih (by omega) (by omega) (by omega), hd]
      simp

end Fields

/-- The hexadecimal fields of a list of groups. -/
def hexFields (gs : List UInt16) : List Bytes := gs.map (fun g => hex g.toNat)

/-- A missing end of the text still leaves an empty field before or after the run. -/
def orEmpty (fields : List Bytes) : List Bytes := if fields = [] then [[]] else fields

/-- The fields of a text that leaves out the groups from `start` to `start + len`. -/
def compressedFields (gs : List UInt16) (start len : ℕ) : List Bytes :=
  orEmpty (hexFields (gs.take start)) ++ [] :: orEmpty (hexFields (gs.drop (start + len)))

theorem intercalate_orEmpty (fields : List Bytes) : [colon].intercalate (orEmpty fields) = [colon].intercalate fields := by
  unfold orEmpty
  split
  · rename_i h
    simp [h]
  · rfl

theorem orEmpty_ne_nil (fields : List Bytes) : orEmpty fields ≠ [] := by
  unfold orEmpty
  split
  · simp
  · assumption

theorem intercalate_compressedFields (gs : List UInt16) (start len : ℕ) :
    [colon].intercalate (compressedFields gs start len) =
      [colon].intercalate (hexFields (gs.take start)) ++ [colon,colon] ++
        [colon].intercalate (hexFields (gs.drop (start + len))) := by
  rw [compressedFields, intercalate_append (orEmpty_ne_nil _) (by simp),
    List.intercalate_cons_of_ne_nil (orEmpty_ne_nil _), intercalate_orEmpty, intercalate_orEmpty]
  simp

theorem emitGroups_full (groups : Vector UInt16 8) :
    emitGroups groups (-1) 0 8 0 = [colon].intercalate (hexFields groups.toList) := by
  have hd : groups.toList = groups[0] :: groups.toList.drop 1 :=
    List.drop_eq_getElem_cons (l := groups.toList) (i := 0) (by simp)
  rw [emitGroups, dif_pos (by omega), if_neg (by omega), if_neg (by simp),
    emitGroups_after groups (by omega) (by omega) (by omega) (by omega) (by omega), hexFields, hd, List.map_cons,
    intercalate_separator, List.flatMap_map, colonFields]
  rfl

theorem emitGroups_compressed (groups : Vector UInt16 8) {start len : ℕ} (hlen : 2 ≤ len) (hle : start + len ≤ 8) :
    emitGroups groups start len 8 0 = [colon].intercalate (compressedFields groups.toList start len) := by
  rw [intercalate_compressedFields]
  cases start with
  | zero =>
    rw [emitGroups, dif_pos (by omega), if_pos rfl, Int.toNat_natCast]
    rw [emitGroups_resume groups hlen (by omega) hle]
    simp [hexFields]
  | succ start =>
    have hd : groups.toList.take (start + 1) = groups[0] :: (groups.toList.take (start + 1)).drop 1 := by
      have h := List.drop_eq_getElem_cons (l := groups.toList.take (start + 1)) (i := 0) (by simp)
      simpa using h
    rw [emitGroups, dif_pos (by omega), if_neg (by push_cast; omega), if_neg (by simp),
      emitGroups_before groups hlen (by omega) hle (by omega) (by omega), hexFields, hd, List.map_cons,
      intercalate_separator, List.flatMap_map, ← hd, hexFields]
    simp only [List.nil_append, List.append_assoc]

theorem intercalate_hexFields_ne_nil {gs : List UInt16} (h : gs ≠ []) : [colon].intercalate (hexFields gs) ≠ [] := by
  obtain ⟨g,gs,rfl⟩ := List.exists_cons_of_ne_nil h
  rw [hexFields, List.map_cons, intercalate_separator]
  simp

/-- The zero groups of an address. -/
def zeroGroups (addr : Ipv6Address) : List Bool := (ipv6Groups addr).toList.map (· == 0)

/-- The bytes that the emission loop writes for an address. -/
def emission (addr : Ipv6Address) : Bytes :=
  emitGroups (ipv6Groups addr) (bestZeroRun (zeroGroups addr)).1 (bestZeroRun (zeroGroups addr)).2 8 0

/-- The emitted fields are joined by colons around the run that the search finds. -/
theorem emission_cases (addr : Ipv6Address) :
    (∀ s, ¬IsRun (zeroGroups addr) s 2) ∧ emission addr = [colon].intercalate (hexFields (ipv6Groups addr).toList) ∨
    ∃ start len, 2 ≤ len ∧ LeftmostLongest (zeroGroups addr) start len ∧
      emission addr = [colon].intercalate (compressedFields (ipv6Groups addr).toList start len) := by
  unfold emission
  rcases bestZeroRun_cases (zeroGroups addr) with ⟨hr,hnone⟩ | ⟨start,len,hr,hlen,hbest⟩
  · left
    rw [hr, emitGroups_full]
    exact ⟨hnone,rfl⟩
  · right
    have hle := hbest.run.end_le (by omega)
    simp only [zeroGroups, List.length_map, Vector.length_toList] at hle
    rw [hr, emitGroups_compressed _ hlen hle]
    exact ⟨start,len,hlen,hbest,rfl⟩

/-- The loop writes something for every address. -/
theorem emission_ne_nil (addr : Ipv6Address) : emission addr ≠ [] := by
  rcases emission_cases addr with ⟨_,h⟩ | ⟨start,len,_,_,h⟩
  · rw [h]
    exact intercalate_hexFields_ne_nil (by simp)
  · rw [h, intercalate_compressedFields]
    simp

theorem ipv6Text_eq_emission (addr : Ipv6Address) : ipv6Text addr = emission addr :=
  if_neg (fun h => emission_ne_nil addr (List.length_eq_zero_iff.mp h))

theorem zero_of_isRun {addr : Ipv6Address} {start len i : ℕ} (h : IsRun (zeroGroups addr) start len) (hi : start ≤ i)
    (hlt : i < start + len) : (ipv6Groups addr).toList[i]? = some 0 := by
  have hget := h i hi hlt
  rw [zeroGroups, List.getElem?_map] at hget
  obtain ⟨g,hg,hzero⟩ := Option.map_eq_some_iff.mp hget
  rw [hg, beq_iff_eq.mp hzero]

theorem ipv6Text_fields (addr : Ipv6Address) :
    (ipv6Text addr = [colon].intercalate (hexFields (ipv6Groups addr).toList)) ∨
    ∃ start len, 2 ≤ len ∧ start + len ≤ 8 ∧
      (∀ i, start ≤ i → i < start + len → (ipv6Groups addr).toList[i]? = some 0) ∧
      ipv6Text addr = [colon].intercalate (compressedFields (ipv6Groups addr).toList start len) := by
  rw [ipv6Text_eq_emission]
  rcases emission_cases addr with ⟨_,h⟩ | ⟨start,len,hlen,hbest,h⟩
  · exact .inl h
  · have hle := hbest.run.end_le (by omega)
    simp only [zeroGroups, List.length_map, Vector.length_toList] at hle
    exact .inr ⟨start,len,hlen,hle,fun i hi hlt => zero_of_isRun hbest.run hi hlt,h⟩

/-! ## Reading the text back -/

theorem hexFields_length (gs : List UInt16) : (hexFields gs).length = gs.length := by simp [hexFields]

theorem colon_notMem_hexFields {gs : List UInt16} : ∀ f ∈ hexFields gs, colon ∉ f := by
  intro f hf hc
  obtain ⟨g,_,rfl⟩ := List.mem_map.mp hf
  obtain ⟨d,hd,he⟩ := mem_numeral (by norm_num) hc
  exact (digitByte_ne_separator hd).2.1 he.symm

theorem hexFields_ne_nil_of_mem {gs : List UInt16} : ∀ f ∈ hexFields gs, f ≠ [] := by
  intro f hf
  obtain ⟨g,_,rfl⟩ := List.mem_map.mp hf
  exact numeral_ne_nil 16 _

theorem hexFields_injective : Function.Injective hexFields := by
  refine List.map_injective_iff.mpr ?_
  intro g g' h
  exact UInt16.toNat_inj.mp (numeral_injective (by norm_num) (by norm_num) h)

theorem colon_notMem_compressedFields {gs : List UInt16} {start len : ℕ} :
    ∀ f ∈ compressedFields gs start len, colon ∉ f := by
  have hor : ∀ gs, ∀ f ∈ orEmpty (hexFields gs), colon ∉ f := by
    intro gs f hf
    unfold orEmpty at hf
    split at hf
    · simp_all
    · exact colon_notMem_hexFields f hf
  intro f hf
  rw [compressedFields, List.mem_append, List.mem_cons] at hf
  rcases hf with hf | rfl | hf
  · exact hor _ f hf
  · simp
  · exact hor _ f hf

/-- Fields that are not empty, up to an empty one. -/
theorem takeWhile_orEmpty {fields : List Bytes} (h : ∀ f ∈ fields, f ≠ []) (rest : List Bytes) :
    (orEmpty fields ++ [] :: rest).takeWhile (· ≠ []) = fields := by
  unfold orEmpty
  split
  · rename_i hnil
    simp [hnil]
  · rw [List.takeWhile_append_of_pos]
    · simp
    · intro f hf
      simpa using h f hf

theorem reverse_orEmpty (fields : List Bytes) : (orEmpty fields).reverse = orEmpty fields.reverse := by
  unfold orEmpty
  simp only [List.reverse_eq_nil_iff]
  split <;> rfl

/-- The fields before the first empty one are those before the run. -/
theorem takeWhile_compressedFields (gs : List UInt16) (start len : ℕ) :
    (compressedFields gs start len).takeWhile (· ≠ []) = hexFields (gs.take start) :=
  takeWhile_orEmpty hexFields_ne_nil_of_mem _

/-- The fields after the last empty one are those after the run. -/
theorem takeWhile_reverse_compressedFields (gs : List UInt16) (start len : ℕ) :
    (compressedFields gs start len).reverse.takeWhile (· ≠ []) = (hexFields (gs.drop (start + len))).reverse := by
  rw [compressedFields, List.reverse_append, List.reverse_cons, List.append_assoc, reverse_orEmpty, List.singleton_append]
  exact takeWhile_orEmpty (fun f hf => hexFields_ne_nil_of_mem f (List.mem_reverse.mp hf)) _

theorem ipv6Groups_injective : Function.Injective ipv6Groups := by
  intro a b h
  have hg : ∀ i : Fin 8, a[2 * i.val] = b[2 * i.val] ∧ a[2 * i.val + 1] = b[2 * i.val + 1] := by
    intro i
    have hi := congrArg (fun v => v[i.val]) h
    simp only [ipv6Groups, Vector.getElem_ofFn] at hi
    exact join16_inj hi
  ext j hj
  rcases Nat.even_or_odd' j with ⟨k,rfl | rfl⟩
  · exact congrArg UInt8.toNat (hg ⟨k,by omega⟩).1
  · exact congrArg UInt8.toNat (hg ⟨k,by omega⟩).2

theorem ne_nil_of_groups (addr : Ipv6Address) : hexFields (ipv6Groups addr).toList ≠ [] := by
  simp [hexFields]

theorem compressedFields_ne_nil (gs : List UInt16) (start len : ℕ) : compressedFields gs start len ≠ [] := by
  simp [compressedFields]

/-- A text without an empty field is not a text with one. -/
theorem hexFields_ne_compressedFields (gs gs' : List UInt16) (start len : ℕ) :
    hexFields gs ≠ compressedFields gs' start len := by
  intro h
  exact @hexFields_ne_nil_of_mem gs [] (by rw [h]; simp [compressedFields]) rfl

/-- The groups around the run and the zeros inside it are all the groups. -/
theorem groups_of_run {gs gs' : List UInt16} {start len start' len' : ℕ} (hg : gs.length = 8) (hg' : gs'.length = 8)
    (hle : start + len ≤ 8) (hle' : start' + len' ≤ 8)
    (hz : ∀ i, start ≤ i → i < start + len → gs[i]? = some 0)
    (hz' : ∀ i, start' ≤ i → i < start' + len' → gs'[i]? = some 0)
    (htake : gs.take start = gs'.take start') (hdrop : gs.drop (start + len) = gs'.drop (start' + len')) :
    gs = gs' := by
  have h1 := congrArg List.length htake
  have h2 := congrArg List.length hdrop
  simp only [List.length_take, List.length_drop] at h1 h2
  obtain rfl : start = start' := by omega
  obtain rfl : len = len' := by omega
  apply List.ext_getElem?
  intro i
  by_cases hi : i < start
  · have h := congrArg (fun l => l[i]?) htake
    simpa [List.getElem?_take, hi] using h
  · by_cases hr : i < start + len
    · rw [hz i (by omega) hr, hz' i (by omega) hr]
    · have h := congrArg (fun l => l[i - (start + len)]?) hdrop
      simp only [List.getElem?_drop] at h
      rwa [Nat.add_sub_cancel' (by omega)] at h

/-- Distinct IPv6 addresses have distinct texts. -/
theorem ipv6Text_injective : Function.Injective ipv6Text := by
  intro a b h
  apply ipv6Groups_injective
  apply Vector.toList_inj.mp
  rcases ipv6Text_fields a with ha | ⟨start,len,_,hle,hz,ha⟩ <;>
    rcases ipv6Text_fields b with hb | ⟨start',len',_,hle',hz',hb⟩
  · rw [ha,hb] at h
    exact hexFields_injective (intercalate_separator_inj colon_notMem_hexFields colon_notMem_hexFields
      (ne_nil_of_groups a) (ne_nil_of_groups b) h)
  · rw [ha,hb] at h
    exact absurd (intercalate_separator_inj colon_notMem_hexFields colon_notMem_compressedFields
      (ne_nil_of_groups a) (compressedFields_ne_nil _ _ _) h) (hexFields_ne_compressedFields _ _ _ _)
  · rw [ha,hb] at h
    exact absurd (intercalate_separator_inj colon_notMem_hexFields colon_notMem_compressedFields
      (ne_nil_of_groups b) (compressedFields_ne_nil _ _ _) h.symm) (hexFields_ne_compressedFields _ _ _ _)
  · rw [ha,hb] at h
    have hf := intercalate_separator_inj colon_notMem_compressedFields colon_notMem_compressedFields
      (compressedFields_ne_nil _ _ _) (compressedFields_ne_nil _ _ _) h
    have htake := congrArg (List.takeWhile (· ≠ [])) hf
    have hdrop := congrArg (fun l => l.reverse.takeWhile (· ≠ [])) hf
    simp only [takeWhile_compressedFields, takeWhile_reverse_compressedFields, List.reverse_inj] at htake hdrop
    exact groups_of_run (by simp) (by simp) hle hle' hz hz' (hexFields_injective htake) (hexFields_injective hdrop)

/-! ## IPv4 texts -/

/-- The decimal fields of an IPv4 address. -/
def decimalFields (addr : Ipv4Address) : List Bytes := addr.toList.map (fun b => decimal b.toNat)

theorem ipv4Text_fields (addr : Ipv4Address) : ipv4Text addr = [dot].intercalate (decimalFields addr) := by
  have h : addr.toList = [addr[0],addr[1],addr[2],addr[3]] := by
    apply List.ext_getElem
    · simp
    · intro i h1 h2
      have hi : i < 4 := by simpa using h1
      interval_cases i <;> simp
  simp [ipv4Text, decimalFields, h]

theorem separator_notMem_decimal (n : ℕ) : dot ∉ decimal n ∧ colon ∉ decimal n := by
  constructor
  · intro hc
    obtain ⟨d,hd,he⟩ := mem_numeral (by norm_num) hc
    exact (digitByte_ne_separator (by omega)).1 he.symm
  · intro hc
    obtain ⟨d,hd,he⟩ := mem_numeral (by norm_num) hc
    exact (digitByte_ne_separator (by omega)).2.1 he.symm

/-- Distinct IPv4 addresses have distinct texts. -/
theorem ipv4Text_injective : Function.Injective ipv4Text := by
  intro a b h
  rw [ipv4Text_fields, ipv4Text_fields] at h
  have hdot : ∀ addr : Ipv4Address, ∀ f ∈ decimalFields addr, dot ∉ f := by
    intro addr f hf
    obtain ⟨c,_,rfl⟩ := List.mem_map.mp hf
    exact (separator_notMem_decimal _).1
  have hf := intercalate_separator_inj (hdot a) (hdot b) (by simp [decimalFields]) (by simp [decimalFields]) h
  refine Vector.toList_inj.mp (List.map_injective_iff.mpr ?_ hf)
  intro c d hcd
  exact UInt8.toNat_inj.mp (numeral_injective (by norm_num) (by norm_num) hcd)

/-- An IPv6 text contains a colon and an IPv4 text does not. -/
theorem colon_mem_ipv6Text (addr : Ipv6Address) : colon ∈ ipv6Text addr := by
  rcases ipv6Text_fields addr with h | ⟨start,len,_,_,_,h⟩
  · have hlen : (ipv6Groups addr).toList.length = 8 := by simp
    match hgs : (ipv6Groups addr).toList, hlen with
    | g :: g' :: rest, _ =>
      rw [h, hgs, hexFields, List.map_cons, List.map_cons, List.intercalate_cons_cons]
      simp
  · rw [h, intercalate_compressedFields]
    simp

theorem colon_notMem_ipv4Text (addr : Ipv4Address) : colon ∉ ipv4Text addr := by
  have hd := fun n => (separator_notMem_decimal n).2
  have hne : colon ≠ dot := by decide
  simp [ipv4Text, hd, hne]

theorem ipv4Text_ne_ipv6Text (a : Ipv4Address) (b : Ipv6Address) : ipv4Text a ≠ ipv6Text b :=
  fun h => colon_notMem_ipv4Text a (h ▸ colon_mem_ipv6Text b)

/-! ## Lengths -/

theorem intercalate_length_le {k : ℕ} {fields : List Bytes} (h : ∀ f ∈ fields, f.length ≤ k) :
    ([colon].intercalate fields).length ≤ (k + 1) * fields.length - 1 := by
  cases fields with
  | nil => simp
  | cons f fields =>
    have hf := h f List.mem_cons_self
    have hrest : (fields.flatMap (fun f => colon :: f)).length ≤ (k + 1) * fields.length := by
      have hm : ∀ g ∈ fields, g.length ≤ k := fun g hg => h g (List.mem_cons_of_mem _ hg)
      clear h
      induction fields with
      | nil => simp
      | cons g fields ih =>
        have hg := hm g List.mem_cons_self
        have hi := ih (fun x hx => hm x (List.mem_cons_of_mem _ hx))
        simp only [List.flatMap_cons, List.length_append, List.length_cons, Nat.mul_add, Nat.mul_one] at hi ⊢
        omega
    rw [intercalate_separator]
    simp only [List.length_append, List.length_cons, Nat.mul_add, Nat.mul_one]
    omega

theorem hexFields_field_length {gs : List UInt16} : ∀ f ∈ hexFields gs, f.length ≤ 4 := by
  intro f hf
  obtain ⟨g,_,rfl⟩ := List.mem_map.mp hf
  exact numeral_length_le (by norm_num) (by norm_num) g.toNat_lt

/-- Every IPv6 text fits the 46 bytes of its buffers. -/
theorem ipv6Text_length_le (addr : Ipv6Address) : (ipv6Text addr).length ≤ 39 := by
  have hlen : (ipv6Groups addr).toList.length = 8 := by simp
  rcases ipv6Text_fields addr with h | ⟨start,len,_,hle,_,h⟩
  · have hb := intercalate_length_le (@hexFields_field_length (ipv6Groups addr).toList)
    rw [hexFields_length, hlen] at hb
    rw [h]
    exact hb
  · have hb := intercalate_length_le (@hexFields_field_length ((ipv6Groups addr).toList.take start))
    have ha := intercalate_length_le (@hexFields_field_length ((ipv6Groups addr).toList.drop (start + len)))
    rw [hexFields_length, List.length_take, hlen] at hb
    rw [hexFields_length, List.length_drop, hlen] at ha
    rw [h, intercalate_compressedFields]
    simp only [List.length_append, List.length_cons, List.length_nil]
    omega

theorem decimal_byte_length (b : UInt8) : (decimal b.toNat).length ≤ 3 :=
  numeral_length_le (by norm_num) (by norm_num) (b.toNat_lt.trans (by norm_num))

theorem ipv4Text_length_le (addr : Ipv4Address) : (ipv4Text addr).length ≤ 15 := by
  have h0 := decimal_byte_length addr[0]
  have h1 := decimal_byte_length addr[1]
  have h2 := decimal_byte_length addr[2]
  have h3 := decimal_byte_length addr[3]
  simp only [ipv4Text, List.length_append, List.length_singleton]
  omega

/-! ## Bytes -/

theorem printable_hexFields {gs : List UInt16} : ∀ f ∈ hexFields gs, ∀ c ∈ f, Printable c := by
  intro f hf
  obtain ⟨g,_,rfl⟩ := List.mem_map.mp hf
  exact numeral_printable (by norm_num) (by norm_num) _

theorem printable_intercalate {fields : List Bytes} (h : ∀ f ∈ fields, ∀ c ∈ f, Printable c) :
    ∀ c ∈ [colon].intercalate fields, Printable c := by
  cases fields with
  | nil => simp
  | cons f fields =>
    intro c hc
    rw [intercalate_separator, List.mem_append, List.mem_flatMap] at hc
    rcases hc with hc | ⟨g,hg,hc⟩
    · exact h f List.mem_cons_self c hc
    · rcases List.mem_cons.mp hc with rfl | hc
      · decide
      · exact h g (List.mem_cons_of_mem _ hg) c hc

theorem printable_ipv6Text (addr : Ipv6Address) : ∀ c ∈ ipv6Text addr, Printable c := by
  rcases ipv6Text_fields addr with h | ⟨start,len,_,_,_,h⟩
  · rw [h]
    exact printable_intercalate printable_hexFields
  · intro c hc
    rw [h, intercalate_compressedFields, List.mem_append, List.mem_append] at hc
    rcases hc with (hc | hc) | hc
    · exact printable_intercalate printable_hexFields c hc
    · have hcolon : Printable colon := by decide
      simp only [List.mem_cons, List.not_mem_nil, or_false, or_self] at hc
      rw [hc]
      exact hcolon
    · exact printable_intercalate printable_hexFields c hc

theorem printable_ipv4Text (addr : Ipv4Address) : ∀ c ∈ ipv4Text addr, Printable c := by
  have hd : ∀ n, ∀ c ∈ decimal n, Printable c := numeral_printable (by norm_num) (by norm_num)
  have hdot : Printable dot := by decide
  intro c hc
  simp only [ipv4Text, List.mem_append, List.mem_singleton] at hc
  rcases hc with (((((hc | rfl) | hc) | rfl) | hc) | rfl) | hc <;> first | exact hdot | exact hd _ c hc

/-- A printable text is a C string: it has no NUL to stop at. -/
theorem cString_of_printable {s : Bytes} (h : ∀ c ∈ s, Printable c) : cString s = s := by
  refine (cString_eq_self_iff s).mpr ?_
  intro h0
  exact absurd (h 0 h0).1 (by decide)

end Netscope.AddressText
