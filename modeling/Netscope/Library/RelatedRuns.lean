import Netscope.Library.PartialMemory

/-! # Two executions side by side

A relation holds between two executions when it holds between their results, whenever
both return. The rules follow the shape of the programs: a step that both make with the
same result, or with related results, is peeled off both.
-/
namespace RelatedRuns
open PartialMemory

section Rules
variable {ε α β γ δ : Type}

def Related (R : α → β → Prop) (x : Except ε α) (y : Except ε β) : Prop := ∀ a b, x = .ok a → y = .ok b → R a b

theorem related_ok {R : α → β → Prop} {a : α} {b : β} (h : R a b) : Related R (.ok a : Except ε α) (.ok b) := by
  intro a' b' ha hb
  obtain rfl := Except.ok.inj ha
  obtain rfl := Except.ok.inj hb
  exact h

theorem Related.bind {R : α → β → Prop} {S : γ → δ → Prop} {x : Except ε α} {y : Except ε β} {f : α → Except ε γ}
    {g : β → Except ε δ} (h : Related R x y) (hf : ∀ a b, R a b → Related S (f a) (g b)) :
    Related S (x >>= f) (y >>= g) := by
  intro c d hc hd
  obtain ⟨a,ha,hfa⟩ := bind_eq_ok.mp hc
  obtain ⟨b,hb,hgb⟩ := bind_eq_ok.mp hd
  exact hf a b (h a b ha hb) c d hfa hgb

/-- A step that both executions make. -/
theorem related_bind_same {S : γ → δ → Prop} (x : Except ε α) {f : α → Except ε γ} {g : α → Except ε δ}
    (hf : ∀ a, Related S (f a) (g a)) : Related S (x >>= f) (x >>= g) := by
  intro c d hc hd
  obtain ⟨a,ha,hfa⟩ := bind_eq_ok.mp hc
  obtain ⟨b,hb,hgb⟩ := bind_eq_ok.mp hd
  obtain rfl := Except.ok.inj (ha.symm.trans hb)
  exact hf a c d hfa hgb

theorem related_ite {R : α → β → Prop} {c : Prop} [Decidable c] {x x' : Except ε α} {y y' : Except ε β}
    (ht : c → Related R x y) (hf : ¬c → Related R x' y') : Related R (if c then x else x') (if c then y else y') := by
  by_cases h : c
  · rw [if_pos h, if_pos h]
    exact ht h
  · rw [if_neg h, if_neg h]
    exact hf h

end Rules

/-! ## Data behind a longer header -/

open ByteString

/-- From `base` on the bytes of `a` stand in `b` as well, `d` bytes further on. -/
structure Relocated (a b : Bytes) (base d : ℕ) : Prop where
  length : b.length = a.length + d
  tail : b.drop (base + d) = a.drop base

namespace Relocated
variable {a b : Bytes} {base d k : ℕ} (h : Relocated a b base d) (hk : base ≤ k)
include h hk

theorem drop : b.drop (k + d) = a.drop k := by
  obtain ⟨n,rfl⟩ := Nat.exists_eq_add_of_le hk
  rw [show base + n + d = base + d + n by omega, ← List.drop_drop, h.tail, List.drop_drop]

theorem u8 : ByteString.u8 b (k + d) = ByteString.u8 a k := by
  have hdrop := congrArg (fun s => ByteString.u8 s 0) (h.drop hk)
  simpa using hdrop

theorem chunk (n : ℕ) : ByteString.chunk b (k + d) n = ByteString.chunk a k n := by
  rw [ByteString.chunk, ByteString.chunk, h.drop hk]

theorem advance : PartialMemory.advance b (k + d) = PartialMemory.advance a k := by
  unfold PartialMemory.advance
  rw [h.length, h.drop hk]
  by_cases hle : k ≤ a.length
  · rw [if_pos hle, if_pos (by omega)]
  · rw [if_neg hle, if_neg (by omega)]

omit hk in
theorem sizeSub : PartialMemory.sizeSub b.length (k + d) = PartialMemory.sizeSub a.length k := by
  unfold PartialMemory.sizeSub
  rw [h.length]
  by_cases hle : k ≤ a.length
  · rw [if_pos hle, if_pos (by omega), Nat.add_sub_add_right]
  · rw [if_neg hle, if_neg (by omega)]

/-- A parser that is handed what stands behind its offset, with the number of these bytes. -/
theorem parse {ρ γ δ : Type} {S : γ → δ → Prop} {f : Bytes → ℕ → Exec ρ} {g : ρ → Exec γ} {g' : ρ → Exec δ}
    (hg : ∀ r, Related S (g r) (g' r)) :
    Related S
      (do let rest ← PartialMemory.advance a k
          let length ← PartialMemory.sizeSub a.length k
          let r ← f rest length
          g r)
      (do let rest ← PartialMemory.advance b (k + d)
          let length ← PartialMemory.sizeSub b.length (k + d)
          let r ← f rest length
          g' r) := by
  rw [h.advance hk, h.sizeSub]
  apply related_bind_same
  intro rest
  apply related_bind_same
  intro length
  apply related_bind_same
  exact hg

end Relocated

/-- The same sum from two starts. -/
theorem related_sizeAdd (k d n : ℕ) :
    Related (fun i j => j = i + d ∧ k ≤ i) (sizeAdd k n) (sizeAdd (k + d) n) := by
  intro i j hi hj
  unfold sizeAdd at hi hj
  split at hi
  · split at hj
    · obtain rfl := Except.ok.inj hi
      obtain rfl := Except.ok.inj hj
      omega
    · cases hj
  · cases hi

end RelatedRuns
