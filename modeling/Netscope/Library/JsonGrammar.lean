import Netscope.Library.JsonWriting
import Netscope.Library.PrefixCodes

/-! # The grammar of JSON strings

The strings of RFC 8259 over code points, written rule by rule and apart from any reader.
A character of the grammar stands for UTF-16 code units; two escapes that form a surrogate
pair stand for one character. No character of the grammar is the start of another, and the
quote starts none, so a string ends in one place and decodes in one way.
-/
namespace JsonGrammar
open ByteString Json PrefixCodes

/-! ## Characters -/

/-- The code points that stand for themselves. -/
def Unescaped (c : ℕ) : Prop := 0x20 ≤ c ∧ c ≤ 0x21 ∨ 0x23 ≤ c ∧ c ≤ 0x5B ∨ 0x5D ≤ c ∧ c ≤ 0x10FFFF

/-- A hexadecimal digit of either case and its value. -/
inductive HexDigit : ℕ → ℕ → Prop where
  | digit {d : ℕ} (h : d < 10) : HexDigit (0x30 + d) d
  | upper {d : ℕ} (h : d < 6) : HexDigit (0x41 + d) (10 + d)
  | lower {d : ℕ} (h : d < 6) : HexDigit (0x61 + d) (10 + d)

/-- The character behind a reverse solidus in a short escape, and the code unit it stands for. -/
inductive ShortEscape : ℕ → ℕ → Prop where
  | quotationMark : ShortEscape 0x22 0x22
  | reverseSolidus : ShortEscape 0x5C 0x5C
  | solidus : ShortEscape 0x2F 0x2F
  | backspace : ShortEscape 0x62 0x08
  | formFeed : ShortEscape 0x66 0x0C
  | lineFeed : ShortEscape 0x6E 0x0A
  | carriageReturn : ShortEscape 0x72 0x0D
  | tab : ShortEscape 0x74 0x09

/-- The code units of a code point. -/
def utf16 (c : ℕ) : List ℕ :=
  if c < 0x10000 then [c] else [0xD800 + (c - 0x10000) / 0x400,0xDC00 + (c - 0x10000) % 0x400]

/-- A character of a string and the code units it stands for. -/
inductive IsChar : List ℕ → List ℕ → Prop where
  | unescaped {c : ℕ} (h : Unescaped c) : IsChar [c] (utf16 c)
  | escape {e u : ℕ} (h : ShortEscape e u) : IsChar [0x5C,e] [u]
  | hex {a b c d w x y z : ℕ} (ha : HexDigit a w) (hb : HexDigit b x) (hc : HexDigit c y) (hd : HexDigit d z) :
      IsChar [0x5C,0x75,a,b,c,d] [0x1000 * w + 0x100 * x + 0x10 * y + z]

theorem utf16_of_lt {c : ℕ} (h : c < 0x10000) : utf16 c = [c] := if_pos h

theorem HexDigit.lt {c x : ℕ} (h : HexDigit c x) : x < 16 := by
  cases h <;> omega

/-- A digit has one value. -/
theorem HexDigit.unique {c x y : ℕ} (hx : HexDigit c x) (hy : HexDigit c y) : x = y := by
  generalize hc : c = e at hy
  cases hx <;> cases hy <;> omega

theorem ShortEscape.unique {e u v : ℕ} (hu : ShortEscape e u) (hv : ShortEscape e v) : u = v := by
  cases hu <;> cases hv <;> rfl

/-- The letter of the long escape begins no short one. -/
theorem ShortEscape.ne_u {e u : ℕ} (h : ShortEscape e u) : e ≠ 0x75 := by
  cases h <;> decide

theorem Unescaped.ne_reverseSolidus {c : ℕ} (h : Unescaped c) : c ≠ 0x5C := by
  unfold Unescaped at h
  omega

theorem Unescaped.ne_quotationMark {c : ℕ} (h : Unescaped c) : c ≠ 0x22 := by
  unfold Unescaped at h
  omega

/-- No character of a string begins with the quote. -/
theorem IsChar.head_ne_quote {w us : List ℕ} (h : IsChar w us) : w.head? ≠ some 0x22 := by
  cases h with
  | unescaped h => exact fun heq => h.ne_quotationMark (Option.some.inj heq)
  | escape _ => simp
  | hex _ _ _ _ => simp

/-- No character of a string is the start of another. -/
theorem isChar_prefixCode : PrefixCode IsChar where
  ne_nil h := by cases h <;> exact List.cons_ne_nil _ _
  separate := by
    intro v w us vs hv hw hle
    cases hv with
    | unescaped hv =>
      cases hw with
      | unescaped _ =>
        obtain rfl : _ = _ := by simpa using hle
        exact ⟨rfl,rfl⟩
      | escape _ => exact absurd (by simpa using hle) hv.ne_reverseSolidus
      | hex _ _ _ _ => exact absurd (by simpa using hle) hv.ne_reverseSolidus
    | escape hv =>
      cases hw with
      | unescaped _ => simp at hle
      | escape hw =>
        obtain rfl : _ = _ := by simpa using hle
        exact ⟨rfl,congrArg (fun u => [u]) (hv.unique hw)⟩
      | hex _ _ _ _ => exact absurd (by simpa using hle) hv.ne_u
    | hex ha hb hc hd =>
      cases hw with
      | unescaped _ => simp at hle
      | escape _ => simp at hle
      | hex ha' hb' hc' hd' =>
        obtain ⟨rfl,rfl,rfl,rfl⟩ : _ ∧ _ ∧ _ ∧ _ := by simpa using hle
        rw [ha.unique ha', hb.unique hb', hc.unique hc', hd.unique hd']
        exact ⟨rfl,rfl⟩

/-! ## Texts -/

/-- The characters that code units spell; a surrogate pair spells one. -/
def characters : List ℕ → List ℕ
  | [] => []
  | [u] => [u]
  | u :: v :: us =>
    if 0xD800 ≤ u ∧ u < 0xDC00 ∧ 0xDC00 ≤ v ∧ v < 0xE000 then
      (0x10000 + 0x400 * (u - 0xD800) + (v - 0xDC00)) :: characters us
    else u :: characters (v :: us)

/-- The text between two quotes is a sequence of characters of the grammar, and these are what it means. -/
def Decodes (text chars : List ℕ) : Prop := ∃ us, Words IsChar text us ∧ characters us = chars

/-- The text is a string with its quotes, and these characters are what it means. -/
def DecodesString (text chars : List ℕ) : Prop := ∃ inner, text = 0x22 :: (inner ++ [0x22]) ∧ Decodes inner chars

theorem characters_cons {u : ℕ} (h : u < 0xD800) (us : List ℕ) : characters (u :: us) = u :: characters us := by
  cases us with
  | nil => rfl
  | cons v us => exact if_neg fun hpair => Nat.not_le_of_lt h hpair.1

/-- Units below the surrogates are the characters they spell, whatever follows them. -/
theorem characters_append {us : List ℕ} (h : ∀ u ∈ us, u < 0xD800) (vs : List ℕ) :
    characters (us ++ vs) = us ++ characters vs := by
  induction us with
  | nil => rfl
  | cons u us ih =>
    obtain ⟨hu,hus⟩ := List.forall_mem_cons.mp h
    rw [List.cons_append, characters_cons hu, ih hus, List.cons_append]

example : characters [0xD834,0xDD1E] = [0x1D11E] := by decide

section Strings
variable {s t rest text chars us : List ℕ}

/-- A sequence of characters below the surrogates keeps its meaning in front of any text. -/
theorem decodes_append_iff (hs : Words IsChar s us) (hus : ∀ u ∈ us, u < 0xD800) :
    Decodes (s ++ rest) chars ↔ ∃ ds, chars = us ++ ds ∧ Decodes rest ds := by
  constructor
  · rintro ⟨vs,hvs,rfl⟩
    obtain ⟨ws,rfl,hws⟩ := (isChar_prefixCode.words_append_iff hs).mp hvs
    exact ⟨characters ws,characters_append hus ws,ws,hws,rfl⟩
  · rintro ⟨_,rfl,ws,hws,rfl⟩
    exact ⟨us ++ ws,hs.append hws,characters_append hus ws⟩

/-- At the front of a text there is at most one string, with one meaning. -/
theorem DecodesString.unique {u cs ds : List ℕ} (ht : DecodesString t cs) (hu : DecodesString u ds)
    (htext : t <+: text) (hutext : u <+: text) : t = u ∧ cs = ds := by
  obtain ⟨inner,rfl,us,hus,rfl⟩ := ht
  obtain ⟨inner',rfl,vs,hvs,rfl⟩ := hu
  obtain ⟨after,rfl⟩ := htext
  obtain ⟨after',heq⟩ := hutext
  have hclosing : inner ++ 0x22 :: after = inner' ++ 0x22 :: after' := by simpa using heq.symm
  obtain ⟨rfl,rfl,_⟩ := isChar_prefixCode.words_terminated IsChar.head_ne_quote hus hvs hclosing
  exact ⟨rfl,rfl⟩

end Strings

/-! ## The reader -/

/-- A text of bytes as code points. -/
def codePoints (s : Bytes) : List ℕ := s.map UInt8.toNat

theorem toNat_toUInt16_sub {c : UInt8} (k : UInt16) (h : k.toNat ≤ c.toNat) :
    (c.toUInt16 - k).toNat = c.toNat - k.toNat := by
  rw [UInt16.toNat_sub_of_le _ _ (UInt16.le_iff_toNat_le.mpr (by simpa using h)), UInt8.toNat_toUInt16]

theorem hexDigit_sound {c : UInt8} {u : UInt16} (h : hexDigit c = some u) : HexDigit c.toNat u.toNat := by
  unfold hexDigit at h
  split_ifs at h with hdigit hlower hupper
  · obtain ⟨hle,hlt⟩ : 48 ≤ c.toNat ∧ c.toNat ≤ 57 := hdigit
    have hu : u.toNat = c.toNat - 48 := Option.some.inj h ▸ toNat_toUInt16_sub 48 hle
    obtain ⟨d,hd⟩ := Nat.exists_eq_add_of_le hle
    have hvalue : u.toNat = d := by omega
    rw [hd, hvalue]
    exact .digit (by omega)
  · obtain ⟨hle,hlt⟩ : 97 ≤ c.toNat ∧ c.toNat ≤ 102 := hlower
    have hu : u.toNat = c.toNat - 87 := Option.some.inj h ▸ toNat_toUInt16_sub 87 (Nat.le_trans (by decide) hle)
    obtain ⟨d,hd⟩ := Nat.exists_eq_add_of_le hle
    have hvalue : u.toNat = 10 + d := by omega
    rw [hd, hvalue]
    exact .lower (by omega)
  · obtain ⟨hle,hlt⟩ : 65 ≤ c.toNat ∧ c.toNat ≤ 70 := hupper
    have hu : u.toNat = c.toNat - 55 := Option.some.inj h ▸ toNat_toUInt16_sub 55 (Nat.le_trans (by decide) hle)
    obtain ⟨d,hd⟩ := Nat.exists_eq_add_of_le hle
    have hvalue : u.toNat = 10 + d := by omega
    rw [hd, hvalue]
    exact .upper (by omega)

theorem hexUnit_sound {a b c d : UInt8} {u : UInt16} (h : hexUnit a b c d = some u) :
    IsChar (codePoints [backslash,117,a,b,c,d]) [u.toNat] := by
  simp only [hexUnit, Option.bind_eq_bind, Option.bind_eq_some_iff, Option.pure_def] at h
  obtain ⟨w,hw,x,hx,y,hy,z,hz,hu⟩ := h
  have hw := hexDigit_sound hw
  have hx := hexDigit_sound hx
  have hy := hexDigit_sound hy
  have hz := hexDigit_sound hz
  have hvalue : u.toNat = 0x1000 * w.toNat + 0x100 * x.toNat + 0x10 * y.toNat + z.toNat := by
    have := hw.lt
    have := hx.lt
    have := hy.lt
    have := hz.lt
    rw [← Option.some.inj hu]
    simp only [UInt16.toNat_add, UInt16.toNat_mul, UInt16.reduceToNat]
    omega
  rw [hvalue]
  exact .hex hw hx hy hz

theorem escapedUnit_sound {e : UInt8} {u : UInt16} (h : escapedUnit e = some u) : ShortEscape e.toNat u.toNat := by
  unfold escapedUnit at h
  split_ifs at h <;> subst e <;> rw [← Option.some.inj h]
  · exact .quotationMark
  · exact .reverseSolidus
  · exact .solidus
  · exact .backspace
  · exact .formFeed
  · exact .lineFeed
  · exact .carriageReturn
  · exact .tab

/-- The text is characters of the grammar with these code units, then a quote, then this rest. -/
def Closes (t : Bytes) (us : List UInt16) (rest : Bytes) : Prop :=
  ∃ s, t = s ++ quote :: rest ∧ Words IsChar (codePoints s) (us.map UInt16.toNat)

theorem Closes.cons {w t rest : Bytes} {u : UInt16} {us : List UInt16} (hw : IsChar (codePoints w) [u.toNat])
    (ht : Closes t us rest) : Closes (w ++ t) (u :: us) rest := by
  obtain ⟨s,rfl,hs⟩ := ht
  refine ⟨w ++ s,(List.append_assoc _ _ _).symm,?_⟩
  rw [codePoints, List.map_append]
  exact .cons hw hs

/-- A byte that the reader takes for itself is a character of the grammar. -/
theorem isChar_plain {c : UInt8} (hquote : c ≠ quote) (hbackslash : c ≠ backslash) (hc : 32 ≤ c ∧ c < 128) :
    IsChar (codePoints [c]) [c.toUInt16.toNat] := by
  obtain ⟨hle,hlt⟩ : 32 ≤ c.toNat ∧ c.toNat < 128 := hc
  have hquote : c.toNat ≠ 34 := fun h => hquote (UInt8.toNat_inj.mp h)
  have hbackslash : c.toNat ≠ 92 := fun h => hbackslash (UInt8.toNat_inj.mp h)
  have hunescaped : Unescaped c.toNat := by
    unfold Unescaped
    omega
  have hchar := IsChar.unescaped hunescaped
  rwa [utf16_of_lt (by omega), ← UInt8.toNat_toUInt16] at hchar

/-- A character that was read, with the string behind it. -/
theorem readChars_bind (unit : Option UInt16) {t rest : Bytes} {us : List UInt16}
    (h : (do
      let u ← unit
      let (us,rest) ← readChars t
      return (u :: us,rest)) = some (us,rest)) :
    ∃ u vs, us = u :: vs ∧ unit = some u ∧ readChars t = some (vs,rest) := by
  simp only [Option.bind_eq_bind, Option.bind_eq_some_iff] at h
  obtain ⟨u,hu,⟨vs,rest⟩,hread,heq⟩ := h
  cases heq
  exact ⟨u,vs,rfl,hu,hread⟩

/-- What the reader accepts is a string of the grammar, up to its closing quote. -/
theorem readChars_sound {t rest : Bytes} {us : List UInt16} (h : readChars t = some (us,rest)) : Closes t us rest := by
  induction t using readChars.induct generalizing us rest with
  | case1 =>
    rw [readChars.eq_def] at h
    cases h
  | case2 t =>
    rw [readChars.eq_def] at h
    cases h
    exact ⟨[],rfl,.nil⟩
  | case3 _ =>
    rw [readChars.eq_def] at h
    cases h
  | case4 a b c d t _ ih =>
    rw [readChars.eq_def] at h
    obtain ⟨u,vs,rfl,hu,hread⟩ := readChars_bind (hexUnit a b c d) h
    exact Closes.cons (hexUnit_sound hu) (ih hread)
  | case5 t hshort _ =>
    rw [readChars.eq_def] at h
    dsimp only at h
    rw [if_neg (by decide), if_pos rfl, if_pos rfl] at h
    split at h
    · exact (hshort _ _ _ _ _ rfl).elim
    · cases h
  | case6 e t hlong _ ih =>
    rw [readChars.eq_def] at h
    dsimp only at h
    rw [if_neg (by decide), if_pos rfl, if_neg hlong] at h
    obtain ⟨u,vs,rfl,hu,hread⟩ := readChars_bind (escapedUnit e) h
    exact Closes.cons (w := [backslash,e]) (.escape (escapedUnit_sound hu)) (ih hread)
  | case7 c t hquote hbackslash hplain ih =>
    rw [readChars.eq_def] at h
    dsimp only at h
    rw [if_neg hquote, if_neg hbackslash, if_pos hplain] at h
    obtain ⟨u,vs,rfl,hu,hread⟩ := readChars_bind (some c.toUInt16) h
    exact Closes.cons (Option.some.inj hu ▸ isChar_plain hquote hbackslash hplain) (ih hread)
  | case8 c t hquote hbackslash hplain =>
    rw [readChars.eq_def] at h
    dsimp only at h
    rw [if_neg hquote, if_neg hbackslash, if_neg hplain] at h
    cases h

/-- A text that spells code units for the reader is a sequence of characters of the grammar. -/
theorem words_of_spellsChars {s : Bytes} {us : List UInt16} (h : SpellsChars s us) :
    Words IsChar (codePoints s) (us.map UInt16.toNat) := by
  obtain ⟨t,heq,hwords⟩ := readChars_sound (h [])
  obtain rfl : s = t := List.append_cancel_right heq
  exact hwords

end JsonGrammar
