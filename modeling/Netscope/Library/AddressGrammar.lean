import Netscope.Library.Numerals

/-! # The textual grammar of internet addresses

Readers for dotted decimal quads and for the three textual forms of a 128-bit address:
eight groups of hexadecimal digits, groups with `::` for one or more groups of zeros,
and either of these with a dotted quad for its last two groups.
-/
namespace AddressGrammar
open ByteString Numerals

abbrev dot : UInt8 := 46
abbrev colon : UInt8 := 58

def isDecimalDigit (c : UInt8) : Bool := 48 ≤ c ∧ c ≤ 57

/-- The value of a hexadecimal digit of either case. -/
def hexValue (c : UInt8) : Option ℕ :=
  if 48 ≤ c ∧ c ≤ 57 then some (c.toNat - 48)
  else if 97 ≤ c ∧ c ≤ 102 then some (c.toNat - 87)
  else if 65 ≤ c ∧ c ≤ 70 then some (c.toNat - 55)
  else none

/-- One to three decimal digits of a value below 256. -/
def readOctet (f : Bytes) : Option UInt8 :=
  if f ≠ [] ∧ f.length ≤ 3 ∧ f.all isDecimalDigit ∧ value 10 f < 256 then some (UInt8.ofNat (value 10 f)) else none

def readIpv4 (text : Bytes) : Option (Vector UInt8 4) :=
  match (text.splitOn dot).mapM readOctet with
  | some [a,b,c,d] => some #v[a,b,c,d]
  | _ => none

/-- One to four hexadecimal digits. -/
def readGroup (f : Bytes) : Option UInt16 :=
  if f ≠ [] ∧ f.length ≤ 4 then (f.mapM hexValue).map fun ds => UInt16.ofNat (Nat.ofDigits 16 ds.reverse) else none

/-- The groups of fields of which the last may be a dotted quad. -/
def readFields : List Bytes → Option (List UInt16)
  | [] => some []
  | [f] =>
    if dot ∈ f then (readIpv4 f).map fun quad => [u16 quad.toList 0,u16 quad.toList 2]
    else (readGroup f).map fun g => [g]
  | f :: fs => do
    let g ← readGroup f
    let gs ← readFields fs
    return g :: gs

/-- The texts on the two sides of the first `::`. -/
def splitElision : Bytes → Option (Bytes × Bytes)
  | a :: b :: rest =>
    if a = colon ∧ b = colon then some ([],rest) else (splitElision (b :: rest)).map fun s => (a :: s.1,s.2)
  | _ => none

/-- The fields of a text, none for an empty one. -/
def fields (text : Bytes) : List Bytes := if text = [] then [] else text.splitOn colon

def readIpv6Groups (text : Bytes) : Option (List UInt16) :=
  match splitElision text with
  | none => (readFields (fields text)).filter fun gs => gs.length = 8
  | some (left,right) => do
    let ls ← (fields left).mapM readGroup
    let rs ← readFields (fields right)
    if ls.length + rs.length < 8 then some (ls ++ List.replicate (8 - (ls.length + rs.length)) 0 ++ rs) else none

def readIpv6 (text : Bytes) : Option (Vector UInt8 16) :=
  (readIpv6Groups text).map fun gs => slice (gs.flatMap be16) 0 16

/-! ## Fields -/

/-- A text that spells groups one after another. -/
def Spells (gs : List UInt16) (text : Bytes) : Prop :=
  ∃ fs, fs.mapM readGroup = some gs ∧ text = [colon].intercalate fs

theorem hexValue_separator : hexValue colon = none ∧ hexValue dot = none := by decide

theorem mapM_cons_eq_some {α β : Type} {f : α → Option β} {x : α} {xs : List α} {ys : List β}
    (h : (x :: xs).mapM f = some ys) : ∃ y zs, f x = some y ∧ xs.mapM f = some zs ∧ ys = y :: zs := by
  simp only [List.mapM_cons, Option.bind_eq_bind, Option.bind_eq_some_iff, Option.pure_def, Option.some.injEq] at h
  obtain ⟨y,hy,zs,hzs,rfl⟩ := h
  exact ⟨y,zs,hy,hzs,rfl⟩

theorem ne_none_of_mapM {α β : Type} {f : α → Option β} {xs : List α} {ys : List β} (h : xs.mapM f = some ys) :
    ∀ x ∈ xs, ∃ y, f x = some y := by
  induction xs generalizing ys with
  | nil => simp
  | cons x xs ih =>
    obtain ⟨y,zs,hy,hzs,-⟩ := mapM_cons_eq_some h
    intro a ha
    rcases List.mem_cons.mp ha with rfl | ha
    · exact ⟨y,hy⟩
    · exact ih hzs a ha

/-- A field with the digits of a group is not empty and has no separator in it. -/
theorem readGroup_word {f : Bytes} {g : UInt16} (h : readGroup f = some g) : f ≠ [] ∧ colon ∉ f ∧ dot ∉ f := by
  unfold readGroup at h
  split at h
  · rename_i hf
    obtain ⟨ds,hds,-⟩ := Option.map_eq_some_iff.mp h
    have hdigit := ne_none_of_mapM hds
    refine ⟨hf.1,?_,?_⟩
    · intro hmem
      obtain ⟨d,hd⟩ := hdigit _ hmem
      exact absurd (hexValue_separator.1.symm.trans hd) (Option.some_ne_none d).symm
    · intro hmem
      obtain ⟨d,hd⟩ := hdigit _ hmem
      exact absurd (hexValue_separator.2.symm.trans hd) (Option.some_ne_none d).symm
  · cases h

section Spelled
variable {fs : List Bytes} {gs : List UInt16} (h : fs.mapM readGroup = some gs)
include h

theorem readFields_groups : readFields fs = some gs := by
  induction fs generalizing gs with
  | nil => exact h
  | cons f fs ih =>
    obtain ⟨g,gs,hf,hfs,rfl⟩ := mapM_cons_eq_some h
    cases fs with
    | nil =>
      obtain rfl := Option.some.inj hfs
      rw [readFields, if_neg (readGroup_word hf).2.2, hf]
      rfl
    | cons f' fs =>
      rw [readFields, hf, ih hfs]
      · rfl
      · exact List.cons_ne_nil _ _

theorem word_of_spelled : ∀ f ∈ fs, f ≠ [] ∧ colon ∉ f := by
  intro f hf
  obtain ⟨g,hg⟩ := ne_none_of_mapM h f hf
  exact ⟨(readGroup_word hg).1,(readGroup_word hg).2.1⟩

theorem fields_intercalate : fields ([colon].intercalate fs) = fs := by
  cases fs with
  | nil => rfl
  | cons f fs =>
    have hword := word_of_spelled h
    have hne : [colon].intercalate (f :: fs) ≠ [] := by
      rw [intercalate_separator]
      exact List.append_ne_nil_of_left_ne_nil (hword f List.mem_cons_self).1 _
    rw [fields, if_neg hne, List.splitOn_intercalate colon (fun f hf => (hword f hf).2) (List.cons_ne_nil f fs)]

end Spelled

/-! ## The elision -/

theorem splitElision_append {l : Bytes} (r : Bytes) (h : splitElision (l ++ [colon]) = none) :
    splitElision (l ++ [colon,colon] ++ r) = some (l,r) := by
  induction l with
  | nil => rfl
  | cons a l ih =>
    cases l with
    | nil =>
      have ha : a ≠ colon := by
        rintro rfl
        cases h
      simp [splitElision, ha]
    | cons b l =>
      simp only [List.cons_append, splitElision] at h ih ⊢
      by_cases hab : a = colon ∧ b = colon
      · rw [if_pos hab] at h
        cases h
      · rw [if_neg hab] at h ⊢
        rw [ih (Option.map_eq_none_iff.mp h)]
        rfl

theorem splitElision_cons_of_ne {a : UInt8} (ha : a ≠ colon) (rest : Bytes) (h : splitElision rest = none) :
    splitElision (a :: rest) = none := by
  cases rest with
  | nil => rfl
  | cons b rest => rw [splitElision, if_neg (fun hab => ha hab.1), h]; rfl

theorem splitElision_append_of_notMem {f : Bytes} (hf : colon ∉ f) (rest : Bytes) (h : splitElision rest = none) :
    splitElision (f ++ rest) = none := by
  induction f with
  | nil => exact h
  | cons a f ih =>
    rw [List.mem_cons, not_or] at hf
    exact splitElision_cons_of_ne (Ne.symm hf.1) _ (ih hf.2)

/-- Non-empty fields do not put two separators side by side. -/
theorem splitElision_flatMap {fs : List Bytes} (h : ∀ f ∈ fs, f ≠ [] ∧ colon ∉ f) :
    splitElision (fs.flatMap (fun f => colon :: f)) = none ∧ splitElision (fs.flatMap (fun f => colon :: f) ++ [colon]) = none := by
  induction fs with
  | nil => exact ⟨rfl,rfl⟩
  | cons f fs ih =>
    obtain ⟨hne,hcolon⟩ := h f List.mem_cons_self
    obtain ⟨a,f,rfl⟩ := List.exists_cons_of_ne_nil hne
    obtain ⟨h1,h2⟩ := ih (fun g hg => h g (List.mem_cons_of_mem _ hg))
    have ha : colon ≠ a := fun heq => hcolon (heq ▸ List.mem_cons_self)
    have hstep : ∀ rest, splitElision rest = none → splitElision (colon :: (a :: f ++ rest)) = none := by
      intro rest hrest
      rw [List.cons_append, splitElision, if_neg (fun hab => ha hab.2.symm), ← List.cons_append,
        splitElision_append_of_notMem hcolon rest hrest]
      rfl
    rw [List.flatMap_cons]
    refine ⟨hstep _ h1,?_⟩
    simpa only [List.cons_append, List.append_assoc] using hstep _ h2

theorem splitElision_intercalate {fs : List Bytes} (h : ∀ f ∈ fs, f ≠ [] ∧ colon ∉ f) :
    splitElision ([colon].intercalate fs) = none ∧ splitElision ([colon].intercalate fs ++ [colon]) = none := by
  cases fs with
  | nil => exact ⟨rfl,rfl⟩
  | cons f fs =>
    have hcolon := (h f List.mem_cons_self).2
    obtain ⟨h1,h2⟩ := splitElision_flatMap (fun g hg => h g (List.mem_cons_of_mem _ hg))
    rw [intercalate_separator, List.append_assoc]
    exact ⟨splitElision_append_of_notMem hcolon _ h1,splitElision_append_of_notMem hcolon _ h2⟩

/-! ## Whole texts -/

/-- Eight groups without an elision are read back. -/
theorem readIpv6Groups_full {gs : List UInt16} {text : Bytes} (h : Spells gs text) (hlen : gs.length = 8) :
    readIpv6Groups text = some gs := by
  obtain ⟨fs,hfs,rfl⟩ := h
  rw [readIpv6Groups, (splitElision_intercalate (word_of_spelled hfs)).1]
  dsimp only
  rw [fields_intercalate hfs, readFields_groups hfs]
  simp [Option.filter, hlen]

/-- An elision stands for the groups that the two sides leave to eight. -/
theorem readIpv6Groups_elided {ls rs : List UInt16} {left right : Bytes} (hl : Spells ls left) (hr : Spells rs right)
    (hlen : ls.length + rs.length < 8) :
    readIpv6Groups (left ++ [colon,colon] ++ right) =
      some (ls ++ List.replicate (8 - (ls.length + rs.length)) 0 ++ rs) := by
  obtain ⟨lfs,hlfs,rfl⟩ := hl
  obtain ⟨rfs,hrfs,rfl⟩ := hr
  rw [readIpv6Groups, splitElision_append _ (splitElision_intercalate (word_of_spelled hlfs)).2]
  dsimp only
  rw [fields_intercalate hlfs, fields_intercalate hrfs, hlfs, readFields_groups hrfs]
  simp [hlen]

/-- Printed groups are read back. -/
theorem readGroup_hex (g : UInt16) : readGroup (hex g.toNat) = some g := by
  have hdigit : ∀ d < 16, hexValue (digitByte d) = some d := by decide
  have hmapM : ∀ n, ((hex n).mapM hexValue).map (fun ds => Nat.ofDigits 16 ds.reverse) = some n := by
    intro n
    induction n using Nat.base_induction 16 (by norm_num) with
    | single m hm => simp [hex, numeral_of_lt hm, hdigit m hm]
    | digit m k hk hm ih =>
      obtain ⟨ds,hds,hval⟩ := Option.map_eq_some_iff.mp ih
      rw [hex, numeral_append (by norm_num) hm hk, List.mapM_append, show (numeral 16 m).mapM hexValue = some ds from hds]
      simp [hdigit k hk, Nat.ofDigits_cons, hval]
      omega
  have hlen : (hex g.toNat).length ≤ 4 := numeral_length_le (by norm_num) (by norm_num) g.toNat_lt
  obtain ⟨ds,hds,hval⟩ := Option.map_eq_some_iff.mp (hmapM g.toNat)
  rw [readGroup, if_pos ⟨numeral_ne_nil 16 _,hlen⟩, hds, Option.map_some, hval, UInt16.ofNat_toNat]

theorem slice_groups {n : ℕ} (v : Vector UInt8 n) {bs : Bytes} (h : bs = v.toList) : slice bs 0 n = v := by
  have hv := slice_toList v []
  rwa [List.append_nil, ← h] at hv

example : readIpv6 (ascii "::ffff:192.0.2.1") = some #v[0,0,0,0,0,0,0,0,0,0,0xff,0xff,192,0,2,1] := by decide +kernel

end AddressGrammar
