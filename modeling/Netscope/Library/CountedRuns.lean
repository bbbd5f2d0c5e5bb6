import Mathlib.Tactic

/-! # Computations with their work

A computation returns a value and counts the work it took; a fallible one may stop with
an error and has then done the work up to there. The count is carried beside the value:
what is computed does not depend on it.
-/
namespace CountedRuns

/-- A value and the work it took. -/
structure Counted (α : Type) where
  value : α
  work : ℕ

variable {α β ε : Type}

namespace Counted

instance : Monad Counted where
  pure a := ⟨a,0⟩
  bind x f := ⟨(f x.value).value,x.work + (f x.value).work⟩

@[simp] theorem value_pure (a : α) : (pure a : Counted α).value = a := rfl
@[simp] theorem work_pure (a : α) : (pure a : Counted α).work = 0 := rfl
@[simp] theorem value_bind (x : Counted α) (f : α → Counted β) : (x >>= f).value = (f x.value).value := rfl
@[simp] theorem work_bind (x : Counted α) (f : α → Counted β) : (x >>= f).work = x.work + (f x.value).work := rfl

/-- Work in front of a computation. -/
def after (n : ℕ) (x : Counted α) : Counted α := ⟨x.value,n + x.work⟩

@[simp] theorem value_after (n : ℕ) (x : Counted α) : (after n x).value = x.value := rfl
@[simp] theorem work_after (n : ℕ) (x : Counted α) : (after n x).work = n + x.work := rfl

end Counted

/-! ## Computations that may fail -/

abbrev Attempt (ε α : Type) := ExceptT ε Counted α

namespace Attempt

def result (x : Attempt ε α) : Except ε α := x.run.value
def work (x : Attempt ε α) : ℕ := x.run.work

/-- Work in front of a computation that may fail. -/
def after (n : ℕ) (x : Attempt ε α) : Attempt ε α := ExceptT.mk (x.run.after n)

@[simp] theorem result_pure (a : α) : result (pure a : Attempt ε α) = .ok a := rfl
@[simp] theorem work_pure (a : α) : work (pure a : Attempt ε α) = 0 := rfl
@[simp] theorem result_throw (e : ε) : result (throw e : Attempt ε α) = .error e := rfl
@[simp] theorem work_throw (e : ε) : work (throw e : Attempt ε α) = 0 := rfl
@[simp] theorem result_after (n : ℕ) (x : Attempt ε α) : result (after n x) = result x := rfl
@[simp] theorem work_after (n : ℕ) (x : Attempt ε α) : work (after n x) = n + work x := rfl
@[simp] theorem result_monadLift (x : Counted α) : result (monadLift x : Attempt ε α) = .ok x.value := rfl
@[simp] theorem work_monadLift (x : Counted α) : work (monadLift x : Attempt ε α) = x.work := rfl

section Bind
variable {x : Attempt ε α} {f : α → Attempt ε β} {a : α} {e : ε}

@[simp] theorem result_bind (x : Attempt ε α) (f : α → Attempt ε β) : result (x >>= f) = result x >>= fun a => result (f a) := by
  rw [result, ExceptT.run_bind, Counted.value_bind]
  cases h : x.run.value with
  | ok a => rw [result, h]; rfl
  | error e => rw [result, h]; rfl

theorem work_bind_of_ok (h : result x = .ok a) : work (x >>= f) = work x + work (f a) := by
  unfold result at h
  rw [work, ExceptT.run_bind, Counted.work_bind, h]
  rfl

theorem work_bind_of_error (h : result x = .error e) : work (x >>= f) = work x := by
  unfold result at h
  rw [work, ExceptT.run_bind, Counted.work_bind, h]
  rfl

/-- The work of a sequence, by what its first part returns. -/
theorem work_bind_le {m n : ℕ} (hx : work x ≤ m) (hf : ∀ a, result x = .ok a → work (f a) ≤ n) : work (x >>= f) ≤ m + n := by
  cases h : result x with
  | ok a =>
    rw [work_bind_of_ok h]
    exact Nat.add_le_add hx (hf a h)
  | error e =>
    rw [work_bind_of_error h]
    exact hx.trans (Nat.le_add_right m n)

end Bind

end Attempt

end CountedRuns
