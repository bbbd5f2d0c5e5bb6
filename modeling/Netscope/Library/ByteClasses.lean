import Netscope.Library.Numerals

/-! # Texts made of bytes of one class

A text lies within a class of bytes when each of its bytes does. The class passes
through the operations that build texts: joining, cutting, padding and folding.
-/
namespace ByteClasses
open ByteString Numerals

/-- Every byte of the text is in the class. -/
def Within (P : UInt8 → Prop) (s : Bytes) : Prop := ∀ b ∈ s, P b

variable {P : UInt8 → Prop} {s t : Bytes}

instance [DecidablePred P] : Decidable (Within P s) := List.decidableBAll P s

@[simp] theorem within_nil : Within P [] := fun _ hb => nomatch hb

@[simp] theorem within_cons {b : UInt8} : Within P (b :: s) ↔ P b ∧ Within P s := List.forall_mem_cons

@[simp] theorem within_append : Within P (s ++ t) ↔ Within P s ∧ Within P t := List.forall_mem_append

theorem Within.take (h : Within P s) (n : ℕ) : Within P (s.take n) := fun b hb => h b (List.mem_of_mem_take hb)

theorem Within.padLeft (h : Within P s) {fill : UInt8} (hfill : P fill) (width : ℕ) : Within P (padLeft fill width s) := by
  refine within_append.mpr ⟨?_,h⟩
  intro b hb
  rw [List.eq_of_mem_replicate hb]
  exact hfill

theorem Within.padRight (h : Within P s) {fill : UInt8} (hfill : P fill) (width : ℕ) : Within P (padRight fill width s) := by
  refine within_append.mpr ⟨h,?_⟩
  intro b hb
  rw [List.eq_of_mem_replicate hb]
  exact hfill

theorem within_flatten {texts : List Bytes} (h : ∀ t ∈ texts, Within P t) : Within P texts.flatten := by
  intro b hb
  obtain ⟨t,ht,hb⟩ := List.mem_flatten.mp hb
  exact h t ht b hb

theorem Within.foldl {α : Type} {f : Bytes → α → Bytes} {xs : List α} (h : Within P s)
    (hf : ∀ t, Within P t → ∀ x ∈ xs, Within P (f t x)) : Within P (xs.foldl f s) :=
  List.foldlRecOn xs f h hf

end ByteClasses
