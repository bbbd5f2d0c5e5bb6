import Mathlib.Data.List.TakeWhile
import Netscope.Library.ByteClasses
import Netscope.Library.Json

/-! # Writing JSON texts

What a writer produces is read back by rules that follow the grammar: a text spells a
value when the reader finds the value in front of anything that may stand behind it. A
text kept together with the value it spells is the result of a writer, and the pieces
of an object or an array are again such results.
-/
namespace Json
open ByteString Numerals ByteClasses

/-! ## Reading back -/

/-- A character that may stand behind a value. -/
def delimiters : Bytes := [comma,closeBracket,closeBrace,32,9,10,13]

/-- What may stand behind a value. -/
def Delimited (rest : Bytes) : Prop := ∀ c ∈ rest.head?, c ∈ delimiters

/-- A character that neither is skipped nor closes a sequence. -/
def Opens (c : UInt8) : Prop := isSpace c = false ∧ c ≠ closeBracket ∧ c ≠ closeBrace

instance : DecidablePred Opens := fun c => inferInstanceAs (Decidable (isSpace c = false ∧ c ≠ closeBracket ∧ c ≠ closeBrace))

/-- The text is read as this item, whatever stands behind it. -/
structure ReadBy {α : Type} (item : Bytes → Option (α × Bytes)) (s : Bytes) (x : α) : Prop where
  opens : ∃ c t, s = c :: t ∧ Opens c
  read : ∀ rest, Delimited rest → item (s ++ rest) = some (x,rest)

/-- The text is read as this value, with fuel for its length. -/
def Spells (s : Bytes) (v : Value) : Prop := ∀ fuel, s.length ≤ fuel → ReadBy (readValue fuel) s v

theorem delimited_nil : Delimited [] := by simp [Delimited]

theorem delimited_cons {c : UInt8} (h : c ∈ delimiters) (t : Bytes) : Delimited (c :: t) := by
  simpa [Delimited] using h

theorem skipSpace_cons {c : UInt8} (h : isSpace c = false) (t : Bytes) : skipSpace (c :: t) = c :: t := by
  simp [skipSpace, h]

/-- A spelled text parses to its value, also with space behind it. -/
theorem Spells.parse_space {s space : Bytes} {v : Value} (h : Spells s v) (hspace : ∀ c ∈ space, isSpace c = true)
    (hdelimited : Delimited space) : parse (s ++ space) = some v := by
  have hskip : skipSpace space = [] := List.dropWhile_eq_nil_iff.mpr hspace
  obtain ⟨⟨c,t,rfl,hc⟩,hread⟩ := h ((s ++ space).length + 1) (by rw [List.length_append]; omega)
  have hwhole := hread space hdelimited
  rw [Json.parse, List.cons_append, skipSpace_cons hc.1, ← List.cons_append, hwhole]
  exact if_pos hskip

theorem Spells.parse {s : Bytes} {v : Value} (h : Spells s v) : parse s = some v := by
  have hparse := h.parse_space (List.forall_mem_nil _) delimited_nil
  rwa [List.append_nil] at hparse

/-! ### Strings -/

/-- The text between two quotes is read as these code units. -/
def SpellsChars (s : Bytes) (us : List UInt16) : Prop := ∀ rest, readChars (s ++ quote :: rest) = some (us,rest)

/-- The text is read as one code unit of a string. -/
def SpellsUnit (s : Bytes) (u : UInt16) : Prop :=
  ∀ rest, readChars (s ++ rest) = (readChars rest).map fun r => (u :: r.1,r.2)

theorem SpellsChars.nil : SpellsChars [] [] := by
  intro rest
  rw [List.nil_append, readChars.eq_def]
  rfl

theorem SpellsUnit.append {s t : Bytes} {u : UInt16} {us : List UInt16} (hs : SpellsUnit s u) (ht : SpellsChars t us) :
    SpellsChars (s ++ t) (u :: us) := by
  intro rest
  rw [List.append_assoc, hs, ht]
  rfl

/-- A string whose characters are written one after the other. -/
theorem spellsChars_flatMap {s : Bytes} {f : UInt8 → Bytes} (h : ∀ c ∈ s, SpellsUnit (f c) c.toUInt16) :
    SpellsChars (s.flatMap f) (units s) := by
  induction s with
  | nil => exact SpellsChars.nil
  | cons c s ih =>
    obtain ⟨hc,hs⟩ := List.forall_mem_cons.mp h
    exact hc.append (ih hs)

theorem spellsUnit_escape {e : UInt8} {u : UInt16} (he : e ≠ 117) (h : escapedUnit e = some u) :
    SpellsUnit [backslash,e] u := by
  intro rest
  rw [List.cons_append, List.cons_append, List.nil_append, readChars.eq_def (backslash :: e :: rest)]
  dsimp only
  rw [if_neg (by decide), if_pos rfl, if_neg he, h]
  cases readChars rest <;> rfl

theorem spellsUnit_hex {a b c d : UInt8} {u : UInt16} (h : hexUnit a b c d = some u) :
    SpellsUnit [backslash,117,a,b,c,d] u := by
  intro rest
  simp only [List.cons_append, List.nil_append]
  rw [readChars.eq_def (backslash :: 117 :: a :: b :: c :: d :: rest)]
  dsimp only
  rw [if_neg (by decide), if_pos rfl, if_pos rfl, h]
  cases readChars rest <;> rfl

theorem spellsUnit_plain {c : UInt8} (hq : c ≠ quote) (hb : c ≠ backslash) (hc : 32 ≤ c ∧ c < 128) :
    SpellsUnit [c] c.toUInt16 := by
  intro rest
  rw [List.cons_append, List.nil_append, readChars.eq_def (c :: rest)]
  dsimp only
  rw [if_neg hq, if_neg hb, if_pos hc]
  cases readChars rest <;> rfl

theorem SpellsChars.spells {s : Bytes} {us : List UInt16} (h : SpellsChars s us) :
    Spells (quote :: (s ++ [quote])) (.string us) := by
  intro fuel hfuel
  obtain ⟨fuel,rfl⟩ := Nat.exists_eq_succ_of_ne_zero (Nat.ne_zero_of_lt hfuel)
  refine ⟨⟨quote,s ++ [quote],rfl,by decide⟩,?_⟩
  intro rest _
  have hchars := h rest
  simp [readValue, hchars]

/-! ### Numbers and literals -/

theorem isDigit_of_mem_decimal {n : ℕ} {c : UInt8} (h : c ∈ decimal n) : isDigit c = true := by
  have hdigit : ∀ d < 10, isDigit (digitByte d) = true := by decide
  have hdigits : ∀ c ∈ decimal n, isDigit c = true := forall_mem_numeral (by decide) hdigit
  exact hdigits c h

theorem Delimited.head_not_digit {rest : Bytes} (h : Delimited rest) : ∀ c ∈ rest.head?, isDigit c = false := by
  intro c hc
  have hdelimiters : Within (fun c => isDigit c = false) delimiters := by decide
  exact hdelimiters c (h c hc)

theorem digits_append {s rest : Bytes} (hs : ∀ c ∈ s, isDigit c = true) (hrest : Delimited rest) : digits (s ++ rest) = s := by
  have hstop : rest.takeWhile isDigit = [] := by
    cases rest with
    | nil => rfl
    | cons c t => simp [hrest.head_not_digit c rfl]
  rw [digits, List.takeWhile_append_of_pos hs, hstop, List.append_nil]

theorem Delimited.readFraction {rest : Bytes} (h : Delimited rest) : readFraction rest = some ([],rest) := by
  unfold Json.readFraction
  split
  · exact absurd (h 46 rfl) (by decide)
  · rfl

theorem Delimited.readExponent {rest : Bytes} (h : Delimited rest) : readExponent rest = some (0,rest) := by
  cases rest with
  | nil => rfl
  | cons c t =>
    have hdelimiters : Within (fun c => ¬(c = 101 ∨ c = 69)) delimiters := by decide
    exact if_neg (hdelimiters c (h c rfl))

theorem readUnsigned_decimal (n : ℕ) {rest : Bytes} (h : Delimited rest) :
    readUnsigned false (decimal n ++ rest) = some (.number n 0,rest) := by
  have hdigits : digits (decimal n ++ rest) = decimal n := digits_append (fun _ => isDigit_of_mem_decimal) h
  have hzero : ¬((decimal n) = [] ∨ ((decimal n).length > 1 ∧ (decimal n).head? = some 48)) := by
    rintro (hnil | ⟨hlen,hhead⟩)
    · exact numeral_ne_nil 10 n hnil
    · exact numeral_head_ne_zero (by decide) (by decide) hlen hhead
  unfold readUnsigned
  dsimp only
  rw [hdigits, if_neg hzero, List.drop_left, h.readFraction]
  simp [h.readExponent, value_numeral (b := 10) (by decide) (by decide) n]

section Digit
variable {c : UInt8} (h : isDigit c = true)
include h

theorem ne_of_isDigit {k : UInt8} (hk : isDigit k = false) : c ≠ k := by
  rintro rfl
  rw [h] at hk
  cases hk

theorem opens_of_isDigit : Opens c := by
  refine ⟨?_,ne_of_isDigit h rfl,ne_of_isDigit h rfl⟩
  have hspace : ¬(c = 32 ∨ c = 9 ∨ c = 10 ∨ c = 13) := by
    rintro (hc | hc | hc | hc) <;> exact ne_of_isDigit h rfl hc
  exact decide_eq_false hspace

theorem readValue_of_isDigit (fuel : ℕ) (t : Bytes) : readValue (fuel + 1) (c :: t) = readUnsigned false (c :: t) := by
  have hnumber : readNumber (c :: t) = readUnsigned false (c :: t) := by
    unfold readNumber
    split
    · rename_i heq
      exact absurd (List.cons.inj heq).1 (ne_of_isDigit h rfl)
    · rfl
  rw [readValue, if_neg (ne_of_isDigit h rfl), if_neg (ne_of_isDigit h rfl), if_neg (ne_of_isDigit h rfl),
    if_neg (ne_of_isDigit h rfl), if_neg (ne_of_isDigit h rfl), if_neg (ne_of_isDigit h rfl), hnumber]

end Digit

/-- A decimal numeral is a number. -/
theorem spells_decimal (n : ℕ) : Spells (decimal n) (.number n 0) := by
  intro fuel hfuel
  obtain ⟨c,t,hct⟩ : ∃ c t, decimal n = c :: t := List.exists_cons_of_ne_nil (numeral_ne_nil 10 n)
  have hdigit : isDigit c = true := isDigit_of_mem_decimal (n := n) (by simp [hct])
  have hne : fuel ≠ 0 := by
    rintro rfl
    simp [hct] at hfuel
  obtain ⟨fuel,rfl⟩ := Nat.exists_eq_succ_of_ne_zero hne
  refine ⟨⟨c,t,hct,opens_of_isDigit hdigit⟩,?_⟩
  intro rest hrest
  have hread := readUnsigned_decimal n hrest
  rw [hct, List.cons_append] at hread ⊢
  rw [readValue_of_isDigit hdigit, hread]

theorem readLiteral_append (text : Bytes) (v : Value) (rest : Bytes) : readLiteral text v (text ++ rest) = some (v,rest) := by
  simp [readLiteral]

theorem spells_bool (b : Bool) : Spells (ascii (if b then "true" else "false")) (.bool b) := by
  intro fuel hfuel
  have hne : fuel ≠ 0 := by
    rintro rfl
    cases b <;> cases hfuel
  obtain ⟨fuel,rfl⟩ := Nat.exists_eq_succ_of_ne_zero hne
  cases b with
  | false => exact ⟨⟨_,_,rfl,by decide⟩,fun rest _ => readLiteral_append (ascii "false") (.bool false) rest⟩
  | true => exact ⟨⟨_,_,rfl,by decide⟩,fun rest _ => readLiteral_append (ascii "true") (.bool true) rest⟩

/-! ### Arrays and objects -/

/-- The texts behind the first one of a sequence. -/
def moreText (texts : List Bytes) : Bytes := texts.flatMap fun t => comma :: t

theorem moreText_cons (t : Bytes) (texts : List Bytes) : moreText (t :: texts) = comma :: (t ++ moreText texts) := rfl

theorem length_le_moreText (texts : List Bytes) : texts.length ≤ (moreText texts).length := by
  induction texts with
  | nil => simp
  | cons t texts ih =>
    rw [moreText_cons, List.length_cons, List.length_cons, List.length_append]
    omega

section Sequences
variable {α : Type} {item : Bytes → Option (α × Bytes)} {close : UInt8}
  (hclose : close = closeBracket ∨ close = closeBrace)
include hclose

theorem isSpace_close : isSpace close = false := by
  rcases hclose with rfl | rfl <;> rfl

theorem delimited_moreText (texts : List Bytes) (rest : Bytes) : Delimited (moreText texts ++ close :: rest) := by
  have hmem : close ∈ delimiters := by rcases hclose with rfl | rfl <;> decide
  cases texts with
  | nil => exact delimited_cons hmem rest
  | cons t texts => exact delimited_cons (by decide) _

theorem readMore_spec {texts : List Bytes} {xs : List α} (h : List.Forall₂ (ReadBy item) texts xs) {n : ℕ}
    (hn : texts.length < n) (rest : Bytes) : readMore item close n (moreText texts ++ close :: rest) = some (xs,rest) := by
  have hcomma : comma ≠ close := by rcases hclose with rfl | rfl <;> decide
  induction h generalizing n with
  | nil =>
    obtain ⟨n,rfl⟩ := Nat.exists_eq_succ_of_ne_zero (Nat.ne_zero_of_lt hn)
    simp [moreText, readMore, skipSpace_cons (isSpace_close hclose)]
  | @cons text x texts xs htext _ ih =>
    obtain ⟨n,rfl⟩ := Nat.exists_eq_succ_of_ne_zero (Nat.ne_zero_of_lt hn)
    have hmore := ih (Nat.lt_of_succ_lt_succ hn)
    have hitem := htext.read _ (delimited_moreText hclose texts rest)
    obtain ⟨c,t,rfl,hc⟩ := htext.opens
    rw [moreText_cons, List.cons_append, List.append_assoc, readMore, skipSpace_cons (show isSpace comma = false from rfl)]
    dsimp only
    rw [List.cons_append] at hitem ⊢
    rw [if_neg hcomma, if_pos rfl, skipSpace_cons hc.1, hitem]
    simp [hmore]

/-- Items joined by commas are read as a sequence. -/
theorem readSequence_spec {texts : List Bytes} {xs : List α} (h : List.Forall₂ (ReadBy item) texts xs) (rest : Bytes) :
    readSequence item close ([comma].intercalate texts ++ close :: rest) = some (xs,rest) := by
  cases h with
  | nil => simp [readSequence, skipSpace_cons (isSpace_close hclose)]
  | @cons text x texts xs htext hrest =>
    have hitem := htext.read _ (delimited_moreText hclose texts rest)
    have hlength : texts.length < (moreText texts ++ close :: rest).length + 1 := by
      have hle := length_le_moreText texts
      rw [List.length_append]
      omega
    have hmore := readMore_spec hclose hrest hlength rest
    obtain ⟨c,t,rfl,hc⟩ := htext.opens
    have hne : c ≠ close := by
      rcases hclose with rfl | rfl
      · exact hc.2.1
      · exact hc.2.2
    change readSequence item close ([comma].intercalate ((c :: t) :: texts) ++ close :: rest) = _
    rw [intercalate_separator, ← moreText, List.append_assoc, List.cons_append, readSequence, skipSpace_cons hc.1]
    rw [List.cons_append] at hitem
    dsimp only
    rw [if_neg hne, hitem, Option.bind_eq_bind, Option.bind_some, hmore]
    rfl

end Sequences

def arrayText (texts : List Bytes) : Bytes := openBracket :: ([comma].intercalate texts ++ [closeBracket])
def objectText (texts : List Bytes) : Bytes := openBrace :: ([comma].intercalate texts ++ [closeBrace])
def memberText (name text : Bytes) : Bytes := quote :: (name ++ quote :: colon :: text)

/-- The text of a member of an object. -/
inductive SpellsMember : Bytes → List UInt16 × Value → Prop
  | intro {name text : Bytes} {us : List UInt16} {v : Value} (hname : SpellsChars name us) (htext : Spells text v) :
      SpellsMember (memberText name text) (us,v)

theorem length_le_intercalate {texts : List Bytes} {t : Bytes} (h : t ∈ texts) :
    t.length ≤ ([comma].intercalate texts).length := by
  cases texts with
  | nil => cases h
  | cons first texts =>
    rw [intercalate_separator, List.length_append]
    rcases List.mem_cons.mp h with rfl | h
    · omega
    · have hsub : (comma :: t).Sublist (texts.flatMap fun t => comma :: t) :=
        List.sublist_flatten_of_mem (List.mem_map_of_mem h)
      have hle := hsub.length_le
      rw [List.length_cons] at hle
      omega

/-- Fuel for a whole sequence is fuel for each of its texts. -/
theorem readBy_of_fuel {α : Type} {R : Bytes → α → Prop} {item : Bytes → Option (α × Bytes)} {texts : List Bytes}
    {xs : List α} (h : List.Forall₂ R texts xs) {fuel : ℕ} (hfuel : ([comma].intercalate texts).length ≤ fuel)
    (hitem : ∀ t x, R t x → t.length ≤ fuel → ReadBy item t x) : List.Forall₂ (ReadBy item) texts xs := by
  obtain ⟨hlength,hzip⟩ := List.forall₂_iff_zip.mp h
  refine List.forall₂_iff_zip.mpr ⟨hlength,?_⟩
  intro t x hmem
  exact hitem t x (hzip hmem) ((length_le_intercalate (List.of_mem_zip hmem).1).trans hfuel)

/-- A sequence of texts between two brackets, as the reader behind the first one takes it. -/
theorem spells_sequence {α : Type} {R : Bytes → α → Prop} {item : ℕ → Bytes → Option (α × Bytes)} {v : List α → Value}
    {c close : UInt8} (hc : isSpace c = false ∧ c ≠ closeBracket ∧ c ≠ closeBrace)
    (hclose : close = closeBracket ∨ close = closeBrace)
    (hread : ∀ fuel rest, readValue (fuel + 1) (c :: rest) =
      (readSequence (item fuel) close rest).map fun r => (v r.1,r.2))
    (hitem : ∀ fuel t x, R t x → t.length ≤ fuel → ReadBy (item fuel) t x) {texts : List Bytes} {xs : List α}
    (h : List.Forall₂ R texts xs) : Spells (c :: ([comma].intercalate texts ++ [close])) (v xs) := by
  intro fuel hfuel
  obtain ⟨fuel,rfl⟩ := Nat.exists_eq_succ_of_ne_zero (Nat.ne_zero_of_lt hfuel)
  refine ⟨⟨_,_,rfl,hc⟩,?_⟩
  intro rest _
  have hlength : ([comma].intercalate texts).length ≤ fuel := by
    rw [List.length_cons, List.length_append] at hfuel
    omega
  have hitems : List.Forall₂ (ReadBy (item fuel)) texts xs := readBy_of_fuel h hlength (hitem fuel)
  have hsequence := readSequence_spec hclose hitems rest
  rw [List.cons_append, List.append_assoc, hread, List.singleton_append, hsequence]
  rfl

/-- An array of spelled items. -/
theorem spells_array {texts : List Bytes} {vs : List Value} (h : List.Forall₂ Spells texts vs) :
    Spells (arrayText texts) (.array vs) := by
  refine spells_sequence (by decide) (.inl rfl) ?_ (fun fuel t v ht hle => ht fuel hle) h
  intro fuel rest
  rw [readValue, if_neg (by decide), if_pos rfl]

theorem SpellsMember.readBy {text : Bytes} {m : List UInt16 × Value} (h : SpellsMember text m) {fuel : ℕ}
    (hfuel : text.length ≤ fuel) : ReadBy (readMember (readValue fuel)) text m := by
  obtain ⟨hname,htext⟩ := h
  rename_i name text us v
  have hvalue := htext fuel (by simp [memberText] at hfuel; omega)
  refine ⟨⟨_,_,rfl,by decide⟩,?_⟩
  intro rest hrest
  have hread := hvalue.read rest hrest
  obtain ⟨c,t,rfl,hc⟩ := hvalue.opens
  have hchars := hname (colon :: (c :: t ++ rest))
  rw [memberText, List.cons_append, List.append_assoc, readMember]
  simp only [List.cons_append] at hchars hread ⊢
  rw [hchars]
  simp [skipSpace_cons (show isSpace colon = false from rfl), skipSpace_cons hc.1, hread]

/-- An object of spelled members. -/
theorem spells_object {texts : List Bytes} {ms : List (List UInt16 × Value)} (h : List.Forall₂ SpellsMember texts ms) :
    Spells (objectText texts) (.object ms) := by
  refine spells_sequence (by decide) (.inr rfl) ?_ (fun fuel t m ht hle => ht.readBy hle) h
  intro fuel rest
  rw [readValue, if_neg (by decide), if_neg (by decide), if_pos rfl]

/-! ## Written values -/

/-- A character that stands for itself in a string. -/
def Plain (c : UInt8) : Prop := Printable c ∧ c ≠ quote ∧ c ≠ backslash

instance : DecidablePred Plain := fun c => inferInstanceAs (Decidable (Printable c ∧ c ≠ quote ∧ c ≠ backslash))

theorem Plain.spellsUnit {c : UInt8} (h : Plain c) : SpellsUnit [c] c.toUInt16 := by
  obtain ⟨⟨hlow,hhigh⟩,hquote,hbackslash⟩ := h
  have hlimit : c < 128 := UInt8.lt_of_le_of_lt hhigh (by decide)
  exact spellsUnit_plain hquote hbackslash ⟨hlow,hlimit⟩

/-- A member name that needs no escapes. -/
structure Name where
  bytes : Bytes
  plain : Within Plain bytes

theorem Name.spellsChars (name : Name) : SpellsChars name.bytes (units name.bytes) := by
  have h := spellsChars_flatMap (f := fun c => [c]) fun c hc => (name.plain c hc).spellsUnit
  rwa [List.flatMap_singleton'] at h

theorem units_injective : Function.Injective units := List.map_injective_iff.mpr fun _ _ => UInt8.toUInt16_inj.mp

/-- A text with the value it spells. -/
structure Written where
  text : Bytes
  value : Value
  spells : Spells text value
  distinctNames : DistinctNames value
  printable : Within Printable text

namespace Written

/-- A string whose bytes are escaped one by one. -/
def string (s : Bytes) (escaped : UInt8 → Bytes) (hunit : ∀ c, SpellsUnit (escaped c) c.toUInt16)
    (hprintable : ∀ c, Within Printable (escaped c)) : Written where
  text := quote :: (s.flatMap escaped ++ [quote])
  value := .string (units s)
  spells := (spellsChars_flatMap fun c _ => hunit c).spells
  distinctNames := .string _
  printable := by
    have hchars : Within Printable (s.flatMap escaped) := by
      intro b hb
      obtain ⟨c,_,hc⟩ := List.mem_flatMap.mp hb
      exact hprintable c b hc
    have hquote : Printable quote := by decide
    simp [hchars, hquote]

def number (n : ℕ) : Written :=
  ⟨decimal n,.number n 0,spells_decimal n,.number _ _,numeral_printable (by decide) (by decide) n⟩

def bool (b : Bool) : Written :=
  ⟨ascii (if b then "true" else "false"),.bool b,spells_bool b,.bool b,by cases b <;> decide⟩

theorem printable_intercalate {texts : List Bytes} (h : ∀ t ∈ texts, Within Printable t) :
    Within Printable ([comma].intercalate texts) := by
  cases texts with
  | nil => exact within_nil
  | cons t texts =>
    rw [intercalate_separator]
    refine within_append.mpr ⟨h t List.mem_cons_self,?_⟩
    intro b hb
    obtain ⟨t',ht',hb⟩ := List.mem_flatMap.mp hb
    rcases List.mem_cons.mp hb with rfl | hb
    · decide
    · exact h t' (List.mem_cons_of_mem _ ht') b hb

def array (items : List Written) : Written where
  text := arrayText (items.map text)
  value := .array (items.map value)
  spells := spells_array (List.forall₂_map_left_iff.mpr (List.forall₂_map_right_iff.mpr
    (List.forall₂_same.mpr fun w _ => w.spells)))
  distinctNames := .array (List.forall_mem_map.mpr fun w _ => w.distinctNames)
  printable := by
    have hitems := printable_intercalate (List.forall_mem_map.mpr fun (w : Written) (_ : w ∈ items) => w.printable)
    have hopen : Printable openBracket := by decide
    have hclose : Printable closeBracket := by decide
    simp [arrayText, hitems, hopen, hclose]

/-- The members that are present. -/
def present (members : List (Name × Option Written)) : List (Name × Written) :=
  members.filterMap fun m => m.2.map fun w => (m.1,w)

def memberValue (m : Name × Written) : List UInt16 × Value := (units m.1.bytes,m.2.value)

theorem present_cons_none (name : Name) (members : List (Name × Option Written)) :
    present ((name,none) :: members) = present members := rfl

theorem present_cons_some (name : Name) (w : Written) (members : List (Name × Option Written)) :
    present ((name,some w) :: members) = (name,w) :: present members := rfl

theorem present_sublist (members : List (Name × Option Written)) :
    ((present members).map Prod.fst).Sublist (members.map Prod.fst) := by
  induction members with
  | nil => exact .slnil
  | cons m members ih =>
    obtain ⟨name,_ | w⟩ := m
    · exact ih.cons name
    · exact ih.cons_cons name

theorem nodup_present {members : List (Name × Option Written)} (h : (members.map fun m => m.1.bytes).Nodup) :
    (((present members).map memberValue).map Prod.fst).Nodup := by
  have hsub := (present_sublist members).map Name.bytes
  rw [List.map_map, List.map_map] at hsub
  have hunits := (h.sublist hsub).map units_injective
  rw [List.map_map] at hunits
  rw [List.map_map]
  exact hunits

/-- An object, some of whose members may be left out. -/
def object (members : List (Name × Option Written)) (hnames : (members.map fun m => m.1.bytes).Nodup) : Written where
  text := objectText ((present members).map fun m => memberText m.1.bytes m.2.text)
  value := .object ((present members).map memberValue)
  spells := spells_object (List.forall₂_map_left_iff.mpr (List.forall₂_map_right_iff.mpr
    (List.forall₂_same.mpr fun m _ => .intro m.1.spellsChars m.2.spells)))
  distinctNames := .object (nodup_present hnames) (List.forall_mem_map.mpr fun m _ => m.2.distinctNames)
  printable := by
    have hmember : ∀ m ∈ present members, Within Printable (memberText m.1.bytes m.2.text) := by
      intro m _
      have hname : Within Printable m.1.bytes := fun b hb => (m.1.plain b hb).1
      have hquote : Printable quote := by decide
      have hcolon : Printable colon := by decide
      simp [memberText, hname, hquote, hcolon, m.2.printable]
    have hmembers := printable_intercalate (List.forall_mem_map.mpr hmember)
    have hopen : Printable openBrace := by decide
    have hclose : Printable closeBrace := by decide
    simp [objectText, hmembers, hopen, hclose]

/-- A member as it stands behind another one. -/
def piece (m : Name × Option Written) : Bytes := (m.2.map fun w => comma :: memberText m.1.bytes w.text).getD []

theorem flatMap_present (members : List (Name × Option Written)) :
    (present members).flatMap (fun m => comma :: memberText m.1.bytes m.2.text) = members.flatMap piece := by
  induction members with
  | nil => rfl
  | cons m members ih =>
    rw [List.flatMap_cons, ← ih]
    obtain ⟨name,_ | w⟩ := m <;> rfl

/-- The text of an object whose first member is present. -/
theorem object_text {name : Name} {w : Written} {members : List (Name × Option Written)}
    (h : (((name,some w) :: members).map fun m => m.1.bytes).Nodup) :
    (object ((name,some w) :: members) h).text =
      openBrace :: (memberText name.bytes w.text ++ members.flatMap piece ++ [closeBrace]) := by
  simp only [object, present_cons_some, objectText, List.map_cons]
  rw [intercalate_separator, List.flatMap_map, flatMap_present]

/-- A name that is no member's is not found. -/
theorem find?_absent {members : List (Name × Option Written)} {name : Name}
    (h : name.bytes ∉ members.map fun m => m.1.bytes) :
    ((present members).map memberValue).find? (fun m => m.1 = units name.bytes) = none := by
  refine List.find?_eq_none.mpr ?_
  intro m hm
  obtain ⟨p,hp,rfl⟩ := List.mem_map.mp hm
  have hname : p.1 ∈ members.map Prod.fst := (present_sublist members).subset (List.mem_map_of_mem hp)
  obtain ⟨m,hm,heq⟩ := List.mem_map.mp hname
  intro hunits
  refine h (List.mem_map.mpr ⟨m,hm,?_⟩)
  rw [heq, units_injective (of_decide_eq_true hunits)]

/-- A member is found under its name. -/
theorem object_member {members : List (Name × Option Written)} (hnames : (members.map fun m => m.1.bytes).Nodup)
    {name : Name} {w : Option Written} (h : (name,w) ∈ members) :
    (object members hnames).value.member name.bytes = w.map value := by
  have hfind : ((present members).map memberValue).find? (fun m => m.1 = units name.bytes) =
      w.map fun w => memberValue (name,w) := by
    induction members with
    | nil => cases h
    | cons m members ih =>
      rw [List.map_cons, List.nodup_cons] at hnames
      obtain ⟨name',w'⟩ := m
      rcases List.mem_cons.mp h with heq | hrest
      · obtain ⟨rfl,rfl⟩ := Prod.mk.inj heq
        cases w with
        | none =>
          rw [present_cons_none]
          exact find?_absent hnames.1
        | some w => simp [present_cons_some, memberValue]
      · have hne : units name'.bytes ≠ units name.bytes := by
          intro hunits
          refine hnames.1 (List.mem_map.mpr ⟨_,hrest,?_⟩)
          exact (units_injective hunits).symm
        cases w' with
        | none => exact ih hnames.2 hrest
        | some w' =>
          have hskip : decide ((memberValue (name',w')).1 = units name.bytes) = false := decide_eq_false hne
          rw [present_cons_some, List.map_cons, List.find?_cons, hskip]
          exact ih hnames.2 hrest
  simp only [object, Value.member, hfind, Option.map_map]
  rfl

end Written

end Json
