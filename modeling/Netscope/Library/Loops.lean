import Mathlib.Tactic

/-! # Unbounded loops

One iteration of a loop either continues with a new state or leaves the loop with a
result. The unbounded loop has a result where some number of iterations leaves it; the
loop with fuel gives up after a number of iterations that is fixed beforehand.
-/
namespace Loops

variable {σ ρ : Type} (body : σ → σ ⊕ ρ)

/-- The loop with fuel: each iteration takes one unit. -/
def withFuel : ℕ → σ → Option ρ
  | 0, _ => none
  | fuel + 1, s =>
    match body s with
    | .inl s' => withFuel fuel s'
    | .inr r => some r

/-- The loop is left with a result. -/
inductive Leaves : σ → ρ → Prop where
  | now {s : σ} {r : ρ} (h : body s = .inr r) : Leaves s r
  | later {s s' : σ} {r : ρ} (h : body s = .inl s') (hrest : Leaves s' r) : Leaves s r

open Classical in
/-- The unbounded loop, without a value where it is never left. -/
noncomputable def unbounded (s : σ) : Option ρ := if h : ∃ r, Leaves body s r then some h.choose else none

section Rules
variable {body} {s : σ} {r r' : ρ}

theorem leaves_of_continue {s' : σ} (h : body s = .inl s') : Leaves body s r ↔ Leaves body s' r := by
  constructor
  · intro hl
    cases hl with
    | now hnow =>
      rw [h] at hnow
      cases hnow
    | later hlater hrest =>
      rw [h] at hlater
      exact Sum.inl.inj hlater ▸ hrest
  · exact .later h

/-- A loop is left with one result only. -/
theorem Leaves.unique (h : Leaves body s r) (h' : Leaves body s r') : r = r' := by
  induction h with
  | now hnow =>
    cases h' with
    | now hnow' => exact Sum.inr.inj (hnow.symm.trans hnow')
    | later hlater _ =>
      rw [hnow] at hlater
      cases hlater
  | later hlater _ ih => exact ih ((leaves_of_continue hlater).mp h')

theorem unbounded_eq_some : unbounded body s = some r ↔ Leaves body s r := by
  unfold unbounded
  constructor
  · intro h
    split at h
    · rename_i hex
      exact Option.some.inj h ▸ hex.choose_spec
    · cases h
  · intro h
    have hex : ∃ r, Leaves body s r := ⟨r,h⟩
    rw [dif_pos hex, hex.choose_spec.unique h]

/-- A function that takes one iteration at a time gives the result with which a loop is left. -/
theorem Leaves.eq_of_iteration {f : σ → ρ} (hf : ∀ s, f s = (body s).elim f id) (h : Leaves body s r) : f s = r := by
  induction h with
  | now hnow => rw [hf, hnow, Sum.elim_inr, id]
  | later hlater _ ih => rw [hf, hlater, Sum.elim_inl, ih]

/-- What the loop with fuel returns is the result of the unbounded loop. -/
theorem withFuel_leaves {fuel : ℕ} (h : withFuel body fuel s = some r) : Leaves body s r := by
  induction fuel generalizing s with
  | zero => cases h
  | succ fuel ih =>
    rw [withFuel] at h
    cases hbody : body s with
    | inl s' =>
      rw [hbody] at h
      exact .later hbody (ih h)
    | inr r' =>
      rw [hbody] at h
      exact .now (Option.some.inj h ▸ hbody)

/-- A loop whose iterations decrease a measure is left within as many iterations as the
measure says. -/
theorem withFuel_of_measure (measure : σ → ℕ) (hdec : ∀ s s', body s = .inl s' → measure s' < measure s) {fuel : ℕ}
    (h : measure s < fuel) : ∃ r, withFuel body fuel s = some r := by
  induction fuel generalizing s with
  | zero => exact absurd h (Nat.not_lt_zero _)
  | succ fuel ih =>
    rw [withFuel]
    cases hbody : body s with
    | inl s' => exact ih (lt_of_lt_of_le (hdec s s' hbody) (Nat.lt_succ_iff.mp h))
    | inr r => exact ⟨r,rfl⟩

/-- The loop with enough fuel is the unbounded loop. -/
theorem withFuel_eq_unbounded (measure : σ → ℕ) (hdec : ∀ s s', body s = .inl s' → measure s' < measure s) {fuel : ℕ}
    (h : measure s < fuel) : (withFuel body fuel s).isSome = true ∧ withFuel body fuel s = unbounded body s := by
  obtain ⟨r,hr⟩ := withFuel_of_measure measure hdec h
  rw [hr, unbounded_eq_some.mpr (withFuel_leaves hr)]
  exact ⟨rfl,rfl⟩

end Rules

end Loops
