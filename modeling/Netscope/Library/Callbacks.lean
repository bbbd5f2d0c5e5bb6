import Mathlib.Data.List.Basic
import Mathlib.Tactic

/-! # Handing a list to a callback

A callback answers each call and changes its own state. The hand-over stops at the first
refusal; a log of the calls shows what was delivered.
-/
namespace Callbacks

variable {σ α : Type} (write : σ → α → Bool × σ)

/-- Each element goes to the callback until it refuses one. -/
def deliver : σ → List α → Bool × σ
  | s, [] => (true,s)
  | s, x :: xs =>
    match write s x with
    | (true,s') => deliver s' xs
    | (false,s') => (false,s')

/-- The answers to all elements, as if none stopped the hand-over. -/
def answers : σ → List α → List Bool
  | _, [] => []
  | s, x :: xs => (write s x).1 :: answers (write s x).2 xs

/-- The callback with a log of its calls. -/
def logging : σ × List α → α → Bool × (σ × List α) :=
  fun s x => ((write s.1 x).1,((write s.1 x).2,s.2 ++ [x]))

/-- Call `j` is the first one that the callback refuses. -/
def RefusesCall (s : σ) (xs : List α) (j : ℕ) : Prop :=
  ∃ k rest, j = k + 1 ∧ answers write s xs = List.replicate k true ++ false :: rest

variable {write}

theorem deliver_logging_cons (s : σ) (log : List α) (x : α) (xs : List α) :
    deliver (logging write) (s,log) (x :: xs) =
      if (write s x).1 then deliver (logging write) ((write s x).2,log ++ [x]) xs
      else (false,((write s x).2,log ++ [x])) := by
  rw [deliver, logging]
  dsimp only
  cases (write s x).1 <;> rfl

theorem deliver_accepted {s : σ} {xs : List α} (h : ∀ b ∈ answers write s xs, b = true) (log : List α) :
    ∃ s', deliver (logging write) (s,log) xs = (true,(s',log ++ xs)) := by
  induction xs generalizing s log with
  | nil => exact ⟨s,by rw [deliver, List.append_nil]⟩
  | cons x xs ih =>
    rw [answers, List.forall_mem_cons] at h
    obtain ⟨hx,hxs⟩ := h
    obtain ⟨s',hs'⟩ := ih hxs (log ++ [x])
    refine ⟨s',?_⟩
    rw [deliver_logging_cons, if_pos hx, hs', List.append_assoc, List.singleton_append]

theorem deliver_refused {s : σ} {xs : List α} {j : ℕ} (h : RefusesCall write s xs j) (log : List α) :
    ∃ s', deliver (logging write) (s,log) xs = (false,(s',log ++ xs.take j)) := by
  obtain ⟨k,rest,rfl,hanswers⟩ := h
  induction k generalizing s xs log with
  | zero =>
    cases xs with
    | nil => cases hanswers
    | cons x xs =>
      have hx : (write s x).1 = false := (List.cons.inj hanswers).1
      refine ⟨(write s x).2,?_⟩
      rw [deliver_logging_cons, hx]
      rfl
  | succ k ih =>
    cases xs with
    | nil => cases hanswers
    | cons x xs =>
      obtain ⟨hx,hrest⟩ := List.cons.inj hanswers
      obtain ⟨s',hs'⟩ := ih (log ++ [x]) hrest
      refine ⟨s',?_⟩
      rw [deliver_logging_cons, if_pos hx, hs', List.take_succ_cons, List.append_assoc, List.singleton_append]

end Callbacks
