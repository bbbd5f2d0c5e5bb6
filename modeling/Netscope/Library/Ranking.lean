import Mathlib.Data.List.Basic
import Mathlib.Data.List.Nodup
import Mathlib.Tactic

/-! # Rankings by a three-way comparison

A sorting function of a C library is given a comparison that returns a negative
number, zero or a positive number. What is known of the result is that it permutes
the elements and that no element compares greater than a later one; equal elements
come in any order. The first `k` elements of the result are then the `k` leading
elements of the input.
-/
namespace Ranking

variable {α : Type}

/-- The comparison is that of a total preorder. -/
structure Consistent (cmp : α → α → ℤ) : Prop where
  antisymm : ∀ a b, 0 < cmp a b ↔ cmp b a < 0
  trans : ∀ a b c, cmp a b ≤ 0 → cmp b c ≤ 0 → cmp a c ≤ 0

theorem Consistent.total {cmp : α → α → ℤ} (h : Consistent cmp) (a b : α) : cmp a b ≤ 0 ∨ cmp b a ≤ 0 := by
  rcases le_or_gt (cmp a b) 0 with hle | hlt
  · exact .inl hle
  · exact .inr (le_of_lt ((h.antisymm a b).mp hlt))

/-- The function sorts by every consistent comparison. -/
structure Sorts (sort : (α → α → ℤ) → List α → List α) : Prop where
  perm : ∀ {cmp}, Consistent cmp → ∀ xs, (sort cmp xs).Perm xs
  ordered : ∀ {cmp}, Consistent cmp → ∀ xs, (sort cmp xs).Pairwise fun a b => cmp a b ≤ 0

/-- Sorting by merging is one such function. -/
theorem sorts_mergeSort : Sorts fun (cmp : α → α → ℤ) xs => xs.mergeSort fun a b => cmp a b ≤ 0 where
  perm _ xs := List.mergeSort_perm xs _
  ordered {cmp} h xs := by
    have htrans : ∀ a b c, decide (cmp a b ≤ 0) = true → decide (cmp b c ≤ 0) = true → decide (cmp a c ≤ 0) = true := by
      simpa only [decide_eq_true_eq] using h.trans
    have htotal : ∀ a b, (decide (cmp a b ≤ 0) || decide (cmp b a ≤ 0)) = true := by
      simpa only [Bool.or_eq_true, decide_eq_true_eq] using h.total
    exact (List.pairwise_mergeSort htrans htotal xs).imp of_decide_eq_true

section Leading
variable {sort : (α → α → ℤ) → List α → List α} {cmp : α → α → ℤ} (hs : Sorts sort) (hc : Consistent cmp)
  (xs : List α) (k : ℕ)
include hs hc

theorem Sorts.length_take : ((sort cmp xs).take k).length = min k xs.length := by
  rw [List.length_take, (hs.perm hc xs).length_eq]

theorem Sorts.mem_of_mem_take {x : α} (hx : x ∈ (sort cmp xs).take k) : x ∈ xs :=
  (hs.perm hc xs).mem_iff.mp (List.mem_of_mem_take hx)

end Leading

/-- Without ties a ranking depends only on the set of its elements: where `seen` tells
all that the rank depends on, two inputs that look alike are ranked alike. -/
theorem Sorts.map_eq {β : Type} {sort : (α → α → ℤ) → List α → List α} {cmp : α → α → ℤ} (hs : Sorts sort)
    (hc : Consistent cmp) {seen : α → β} {rank : β → ℕ} (hrank : ∀ a b, cmp a b ≤ 0 ↔ rank (seen b) ≤ rank (seen a))
    {xs ys : List α} (hperm : (xs.map seen).Perm (ys.map seen)) (hties : ((xs.map seen).map rank).Nodup) :
    (sort cmp xs).map seen = (sort cmp ys).map seen := by
  have hx := (hs.perm hc xs).map seen
  have hy := (hs.perm hc ys).map seen
  have hordered : ∀ zs, ((sort cmp zs).map seen).Pairwise fun a b => rank b ≤ rank a := by
    intro zs
    rw [List.pairwise_map]
    exact (hs.ordered hc zs).imp (hrank _ _).mp
  have hinj : ∀ a ∈ (sort cmp xs).map seen, ∀ b ∈ (sort cmp xs).map seen, rank a = rank b → a = b :=
    List.inj_on_of_nodup_map ((hx.map rank).nodup_iff.mpr hties)
  apply List.Perm.eq_of_pairwise _ (hordered xs) (hordered ys) (hx.trans (hperm.trans hy.symm))
  intro a b ha hb hba hab
  exact hinj a ha b ((hx.trans (hperm.trans hy.symm)).mem_iff.mpr hb) (le_antisymm hab hba)

/-! ## Another representation -/

section Via
variable {β : Type}

/-- A comparison of images is as consistent as that of the elements. -/
theorem Consistent.comap {cmp : β → β → ℤ} (h : Consistent cmp) (image : α → β) :
    Consistent fun a b => cmp (image a) (image b) where
  antisymm a b := h.antisymm (image a) (image b)
  trans a b c := h.trans (image a) (image b) (image c)

variable [DecidableEq β] (sort : (α → α → ℤ) → List α → List α) (image : α → β) (xs : List α)

/-- The images of `xs` are put into the order in which `sort` leaves `xs`; other lists are merged. -/
def via (cmp : β → β → ℤ) (ys : List β) : List β :=
  if ys = xs.map image then (sort (fun a b => cmp (image a) (image b)) xs).map image
  else ys.mergeSort fun a b => cmp a b ≤ 0

theorem via_map (cmp : β → β → ℤ) :
    via sort image xs cmp (xs.map image) = (sort (fun a b => cmp (image a) (image b)) xs).map image := if_pos rfl

theorem Sorts.via {sort : (α → α → ℤ) → List α → List α} (h : Sorts sort) : Sorts (via sort image xs) where
  perm {cmp} hc ys := by
    unfold Ranking.via
    split
    · rename_i himage
      rw [himage]
      exact (h.perm (hc.comap image) xs).map image
    · exact sorts_mergeSort.perm hc ys
  ordered {cmp} hc ys := by
    unfold Ranking.via
    split
    · exact List.pairwise_map.mpr (h.ordered (hc.comap image) xs)
    · exact sorts_mergeSort.ordered hc ys

end Via

end Ranking
