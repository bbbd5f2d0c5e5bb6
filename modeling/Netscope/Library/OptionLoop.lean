import Netscope.Library.PartialMemory

/-! # Loops over options

A loop reads one option after the other into a state and stops at the first one it
does not accept. What is left in the state is described by the parts that the options
write: flags that are set and never cleared, registers that keep the last value
written, and gauges that add up to a cap.
-/
namespace OptionLoop
open PartialMemory

variable {σ τ ε : Type} (step : σ → τ → Except ε σ)

/-- Whether an option is accepted does not depend on the options before it. -/
def Accepts (accepted : τ → Prop) : Prop := ∀ s t, (∃ s', step s t = .ok s') ↔ accepted t

/-- A flag that some options set and none clears. -/
def Flag (read : σ → Bool) (sets : τ → Bool) : Prop := ∀ {s t s'}, step s t = .ok s' → read s' = (read s || sets t)

/-- A register that some options overwrite. -/
def Register {α : Type} (read : σ → α) (value : τ → Option α) : Prop :=
  ∀ {s t s'}, step s t = .ok s' → read s' = (value t).getD (read s)

/-- A gauge to which the options add up to a cap. -/
def Gauge (read : σ → ℕ) (cap : ℕ) (weight : τ → ℕ) : Prop :=
  ∀ {s t s'}, step s t = .ok s' → read s' = min cap (read s + weight t)

variable {step} {tokens : List τ} {s s' : σ}

/-- The loop reaches its end exactly if every option is accepted. -/
theorem Accepts.run {accepted : τ → Prop} (h : Accepts step accepted) (tokens : List τ) (s : σ) :
    (∃ s', tokens.foldlM step s = .ok s') ↔ ∀ t ∈ tokens, accepted t := by
  induction tokens generalizing s with
  | nil => exact iff_of_true ⟨s,rfl⟩ (by simp)
  | cons t tokens ih =>
    rw [List.foldlM_cons, List.forall_mem_cons]
    constructor
    · rintro ⟨s',hrun⟩
      obtain ⟨s₁,ht,hrest⟩ := bind_eq_ok.mp hrun
      exact ⟨(h s t).mp ⟨s₁,ht⟩,(ih s₁).mp ⟨s',hrest⟩⟩
    · rintro ⟨ht,hrest⟩
      obtain ⟨s₁,hs₁⟩ := (h s t).mpr ht
      obtain ⟨s',hs'⟩ := (ih s₁).mpr hrest
      exact ⟨s',bind_eq_ok.mpr ⟨s₁,hs₁,hs'⟩⟩

theorem Flag.run {read : σ → Bool} {sets : τ → Bool} (h : Flag step read sets) (hrun : tokens.foldlM step s = .ok s') :
    read s' = (read s || tokens.any sets) := by
  apply foldlM_ok_induction (motive := fun seen r => read r = (read s || seen.any sets)) (by simp) _ hrun
  intro seen r t r' hr ht
  rw [h ht, hr, List.any_append, List.any_cons, List.any_nil, Bool.or_false, Bool.or_assoc]

/-- A register holds the last value written, or what it held before the loop. -/
theorem Register.run {α : Type} {read : σ → α} {value : τ → Option α} (h : Register step read value)
    (hrun : tokens.foldlM step s = .ok s') : read s' = (tokens.filterMap value).getLast?.getD (read s) := by
  apply foldlM_ok_induction (motive := fun seen r => read r = (seen.filterMap value).getLast?.getD (read s)) rfl _ hrun
  intro seen r t r' hr ht
  rw [h ht, List.filterMap_append]
  cases hvalue : value t with
  | none => simpa [hvalue] using hr
  | some x => simp [hvalue]

/-- A gauge below its cap holds the sum of the weights, up to the cap. -/
theorem Gauge.run {read : σ → ℕ} {cap : ℕ} {weight : τ → ℕ} (h : Gauge step read cap weight) (hcap : read s ≤ cap)
    (hrun : tokens.foldlM step s = .ok s') : read s' = min cap (read s + (tokens.map weight).sum) := by
  apply foldlM_ok_induction (motive := fun seen r => read r = min cap (read s + (seen.map weight).sum)) _ _ hrun
  · simpa using hcap
  · intro seen r t r' hr ht
    rw [h ht, hr, List.map_append, List.sum_append]
    simp only [List.map_cons, List.map_nil, List.sum_cons, List.sum_nil]
    omega

/-- Options that only touch a part of the state that no other option reads or writes. -/
structure Ignored (step : σ → τ → Except ε σ) (erase : σ → σ) (ignored : τ → Bool) : Prop where
  accepts : ∀ s t, ignored t = true → ∃ s', step s t = .ok s' ∧ erase s' = erase s
  commutes : ∀ s t, ignored t = false → step (erase s) t = (step s t).map erase

/-- Without these options the loop ends the same way, but for that part. -/
theorem Ignored.run {erase : σ → σ} {ignored : τ → Bool} (h : Ignored step erase ignored) (tokens : List τ) (s : σ) :
    (tokens.filter fun t => !ignored t).foldlM step (erase s) = (tokens.foldlM step s).map erase := by
  induction tokens generalizing s with
  | nil => rfl
  | cons t tokens ih =>
    rw [List.foldlM_cons]
    cases ht : ignored t with
    | true =>
      obtain ⟨s',hstep,herase⟩ := h.accepts s t ht
      rw [List.filter_cons_of_neg (by simp [ht]), hstep, ok_bind, ← ih s', herase]
    | false =>
      rw [List.filter_cons_of_pos (by simp [ht]), List.foldlM_cons, h.commutes s t ht]
      cases step s t with
      | error e => rfl
      | ok s' => exact ih s'

end OptionLoop
