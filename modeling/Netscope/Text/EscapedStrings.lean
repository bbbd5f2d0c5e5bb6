import Netscope.Library.JsonGrammar
import Netscope.Text.JsonOutput

/-! # Strings in the JSON output

A name from the wire is written as a string that says exactly what its bytes are. What is
asked of the string refers to the grammar alone: what it means, where it ends in front of
any text, and that each part of it means its part of the name whatever stands behind it.
-/
namespace Netscope.EscapedStrings
open ByteString Numerals ByteClasses Json JsonGrammar PrefixCodes JsonOutput

/-- The characters of `json_write_escaped` between the quotes. -/
def escaped (s : Bytes) : Bytes := s.flatMap jsonEscapedByte

/-- In front of any text, the first text means these bytes and leaves the rest its own meaning. -/
def StandsFor (first front : Bytes) : Prop :=
  ∀ rest chars, Decodes (codePoints first ++ rest) chars ↔ ∃ ds, chars = codePoints front ++ ds ∧ Decodes rest ds

/-- The text is a JSON string that means the bytes of `s`, one character for each. -/
structure Conveys (s text : Bytes) : Prop where
  printable : Within Printable text
  decodes : DecodesString (codePoints text) (codePoints s)
  /-- In front of any text, no other string is found. -/
  closed : ∀ rest t chars, t <+: codePoints text ++ rest → DecodesString t chars →
    t = codePoints text ∧ chars = codePoints s
  /-- Wherever the name is cut, the string falls apart with it, and neither part reaches into what follows. -/
  selfContained : ∀ front back, s = front ++ back → ∃ first second,
    text = quote :: (first ++ second ++ [quote]) ∧ StandsFor first front ∧ StandsFor second back

variable (s t : Bytes)

theorem escaped_append : escaped (s ++ t) = escaped s ++ escaped t := List.flatMap_append

/-- The characters written for a name stand for its bytes in the grammar. -/
theorem words_escaped : Words IsChar (codePoints (escaped s)) (codePoints s) := by
  have hwords := words_of_spellsChars (spellsChars_flatMap fun c (_ : c ∈ s) => spellsUnit_jsonEscapedByte c)
  have hunits : (units s).map UInt16.toNat = codePoints s := by simp [units, codePoints]
  rwa [hunits] at hwords

/-- A byte is never half of a surrogate pair. -/
theorem codePoints_lt : ∀ u ∈ codePoints s, u < 0xD800 := by
  intro u hu
  obtain ⟨c,_,rfl⟩ := List.mem_map.mp hu
  exact Nat.lt_trans c.toNat_lt (by decide)

theorem standsFor_escaped : StandsFor (escaped s) s := fun _ _ => decodes_append_iff (words_escaped s) (codePoints_lt s)

/-- The characters written for a name decode to its bytes. -/
theorem decodes_escaped : Decodes (codePoints (escaped s)) (codePoints s) := by
  have hempty : Decodes [] [] := ⟨[],.nil,rfl⟩
  have hfront := (standsFor_escaped s [] (codePoints s)).mpr ⟨[],(List.append_nil _).symm,hempty⟩
  rwa [List.append_nil] at hfront

variable {s t}

theorem jsonWriteEscaped_eq (hs : 0 ∉ s) : jsonWriteEscaped s = quote :: (escaped s ++ [quote]) := by
  have hcstring : cString s = s := (cString_eq_self_iff s).mpr hs
  rw [jsonWriteEscaped, hcstring]
  rfl

theorem conveys_jsonWriteEscaped (hs : 0 ∉ s) : Conveys s (jsonWriteEscaped s) := by
  have hstring : DecodesString (codePoints (jsonWriteEscaped s)) (codePoints s) := by
    rw [jsonWriteEscaped_eq hs]
    refine ⟨codePoints (escaped s),?_,decodes_escaped s⟩
    simp only [codePoints, List.map_cons, List.map_append, List.map_nil]
    rfl
  refine ⟨escapedString_text s ▸ (escapedString s).printable,hstring,?_,?_⟩
  · intro rest t chars htext ht
    exact ht.unique hstring htext (List.prefix_append _ _)
  · rintro front back rfl
    refine ⟨escaped front,escaped back,?_,standsFor_escaped front,standsFor_escaped back⟩
    rw [jsonWriteEscaped_eq hs, escaped_append]

/-- One text conveys one name. -/
theorem Conveys.source_unique {text : Bytes} (hs : Conveys s text) (ht : Conveys t text) : s = t := by
  have hchars : codePoints s = codePoints t := (hs.decodes.unique ht.decodes List.prefix_rfl List.prefix_rfl).2
  exact List.map_injective_iff.mpr (fun _ _ => UInt8.toNat_inj.mp) hchars

/-- Whatever bytes a name has, the string written for it says them and nothing else. -/
theorem jsonWriteEscaped_conveys : (∀ s : CString, Conveys s.bytes (jsonWriteEscaped s.bytes)) ∧
    Function.Injective fun s : CString => jsonWriteEscaped s.bytes := by
  have hconveys : ∀ s : CString, Conveys s.bytes (jsonWriteEscaped s.bytes) := fun s =>
    conveys_jsonWriteEscaped s.nul_notMem
  refine ⟨hconveys,?_⟩
  rintro ⟨s,hs⟩ ⟨t,ht⟩ heq
  have htext : jsonWriteEscaped s = jsonWriteEscaped t := heq
  obtain rfl : s = t := (hconveys ⟨s,hs⟩).source_unique (htext ▸ hconveys ⟨t,ht⟩)
  rfl

end Netscope.EscapedStrings
