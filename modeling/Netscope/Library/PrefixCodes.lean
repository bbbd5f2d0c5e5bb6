import Mathlib.Data.List.Infix

/-! # Prefix codes

Words over an alphabet, each with the symbols it stands for. When no word is the start of
another, a text falls into words in one way, and a sequence of words stands for the same
symbols whatever text follows it.
-/
namespace PrefixCodes

variable {α β : Type}

/-- No word is empty, none is the start of another, and each has one meaning. -/
structure PrefixCode (Word : List α → List β → Prop) : Prop where
  ne_nil : ∀ {w x}, Word w x → w ≠ []
  separate : ∀ {v w x y}, Word v x → Word w y → v <+: w → v = w ∧ x = y

/-- A text that falls into words. -/
inductive Words (Word : List α → List β → Prop) : List α → List β → Prop where
  | nil : Words Word [] []
  | cons {w t : List α} {x ys : List β} (hw : Word w x) (ht : Words Word t ys) : Words Word (w ++ t) (x ++ ys)

section Reading
variable {Word : List α → List β → Prop} {v w s t a b : List α} {x y xs ys zs : List β} {z : α}

theorem Words.append (hs : Words Word s xs) (ht : Words Word t ys) : Words Word (s ++ t) (xs ++ ys) := by
  induction hs with
  | nil => exact ht
  | cons hw _ ih =>
    rw [List.append_assoc, List.append_assoc]
    exact .cons hw ih

variable (h : PrefixCode Word)
include h

/-- Texts that are equal begin with the same word. -/
theorem PrefixCode.cancel (hv : Word v x) (hw : Word w y) (heq : v ++ s = w ++ t) : v = w ∧ x = y ∧ s = t := by
  have hprefix : v <+: w ∨ w <+: v :=
    List.prefix_or_prefix_of_prefix (List.prefix_append v s) (heq ▸ List.prefix_append w t)
  rcases hprefix with hle | hle
  · obtain ⟨rfl,rfl⟩ := h.separate hv hw hle
    exact ⟨rfl,rfl,List.append_cancel_left heq⟩
  · obtain ⟨rfl,rfl⟩ := h.separate hw hv hle
    exact ⟨rfl,rfl,List.append_cancel_left heq⟩

/-- Nothing that follows a sequence of words changes what it stands for. -/
theorem PrefixCode.words_append_iff (hs : Words Word s xs) :
    Words Word (s ++ t) zs ↔ ∃ ys, zs = xs ++ ys ∧ Words Word t ys := by
  constructor
  · intro hst
    induction hs generalizing zs with
    | nil => exact ⟨zs,rfl,hst⟩
    | @cons w s x xs hw _ ih =>
      rw [List.append_assoc] at hst
      generalize htext : w ++ (s ++ t) = text at hst
      cases hst with
      | nil => exact absurd (List.append_eq_nil_iff.mp htext).1 (h.ne_nil hw)
      | cons hw' hrest =>
        obtain ⟨rfl,rfl,rfl⟩ := h.cancel hw hw' htext
        obtain ⟨ys,rfl,hys⟩ := ih hrest
        exact ⟨ys,(List.append_assoc _ _ _).symm,hys⟩
  · rintro ⟨ys,rfl,ht⟩
    exact hs.append ht

/-- A symbol that begins no word ends a sequence of words at its first occurrence between them. -/
theorem PrefixCode.words_terminated (hz : ∀ {w x}, Word w x → w.head? ≠ some z) (hs : Words Word s xs)
    (ht : Words Word t ys) (heq : s ++ z :: a = t ++ z :: b) : s = t ∧ xs = ys ∧ a = b := by
  -- A word never starts where the other text ends.
  have hends : ∀ {w x r c d}, Word w x → z :: c ≠ w ++ r ++ z :: d := by
    intro w x r c d hw hcons
    obtain ⟨e,w,rfl⟩ := List.exists_cons_of_ne_nil (h.ne_nil hw)
    exact hz hw (congrArg some (List.head_eq_of_cons_eq hcons).symm)
  induction hs generalizing t ys with
  | nil =>
    cases ht with
    | nil => exact ⟨rfl,rfl,List.tail_eq_of_cons_eq heq⟩
    | cons hw _ => exact absurd heq (hends hw)
  | cons hw _ ih =>
    cases ht with
    | nil => exact absurd heq.symm (hends hw)
    | cons hw' ht =>
      rw [List.append_assoc, List.append_assoc] at heq
      obtain ⟨rfl,rfl,heq⟩ := h.cancel hw hw' heq
      obtain ⟨rfl,rfl,hrest⟩ := ih ht heq
      exact ⟨rfl,rfl,hrest⟩

end Reading

end PrefixCodes
