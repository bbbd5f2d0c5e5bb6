import Mathlib.Algebra.BigOperators.Group.Finset.Basic
import Mathlib.Algebra.Order.BigOperators.Group.Finset
import Mathlib.Tactic

/-! # Tallies and counters

A tally adds up a weight over a sequence of events. A counter is a 64-bit field of a
state that every step advances by the weight of its event; after a run it holds the
tally of the run, as long as the tally fits.
-/
namespace Tallies

section Tally
variable {α κ : Type} {f g : α → ℕ} {events events' : List α}

def tally (weight : α → ℕ) (events : List α) : ℕ := (events.map weight).sum

theorem tally_append (f : α → ℕ) (events events' : List α) : tally f (events ++ events') = tally f events + tally f events' := by
  simp [tally]

theorem tally_one (events : List α) : tally (fun _ => 1) events = events.length := by simp [tally]

theorem tally_map {β : Type} (h : β → α) (events : List β) : tally f (events.map h) = tally (fun x => f (h x)) events := by
  simp [tally, Function.comp_def]

theorem tally_add (f g : α → ℕ) (events : List α) : tally (fun x => f x + g x) events = tally f events + tally g events :=
  List.sum_map_add

theorem tally_le (h : ∀ x ∈ events, f x ≤ g x) : tally f events ≤ tally g events := List.sum_le_sum h

theorem tally_congr (h : ∀ x ∈ events, f x = g x) : tally f events = tally g events :=
  congrArg List.sum (List.map_congr_left h)

/-- A tally grows with the run. -/
theorem tally_mono (f : α → ℕ) (h : events <+: events') : tally f events ≤ tally f events' := by
  obtain ⟨rest,rfl⟩ := h
  rw [tally_append]
  exact Nat.le_add_right _ _

/-- The tallies under the keys of a set add up to the tally of the events with such a key. -/
theorem sum_tally_filter [DecidableEq κ] (f : α → ℕ) (key : α → Option κ) (keys : Finset κ) (events : List α) :
    ∑ k ∈ keys, tally f (events.filter (fun x => key x = some k)) =
      tally (fun x => if ∃ k ∈ keys, key x = some k then f x else 0) events := by
  induction events with
  | nil => simp [tally]
  | cons x events ih =>
    have hcons : ∀ k, tally f ((x :: events).filter (fun x => key x = some k)) =
        (if key x = some k then f x else 0) + tally f (events.filter (fun x => key x = some k)) := by
      intro k
      by_cases hk : key x = some k
      · simp [hk, tally]
      · simp [hk, tally]
    have hhead : ∑ k ∈ keys, (if key x = some k then f x else 0) = if ∃ k ∈ keys, key x = some k then f x else 0 := by
      cases hx : key x with
      | none => simp
      | some k => simp
    rw [Finset.sum_congr rfl (fun k _ => hcons k), Finset.sum_add_distrib, hhead, ih]
    simp [tally]

end Tally

/-! ## Counters -/

/-- A counter of a state machine: it starts at zero and each step adds a weight. -/
structure Counter {σ α : Type} (init : σ) (step : σ → α → σ) where
  read : σ → UInt64
  weight : α → ℕ
  starts : read init = 0
  advances : ∀ s x, read (step s x) = read s + UInt64.ofNat (weight x)

variable {σ α : Type} {init : σ} {step : σ → α → σ}

theorem Counter.read_run (c : Counter init step) (events : List α) :
    c.read (events.foldl step init) = UInt64.ofNat (tally c.weight events) := by
  induction events using List.reverseRecOn with
  | nil => exact c.starts
  | append_singleton events x ih =>
    rw [List.foldl_append, List.foldl_cons, List.foldl_nil, c.advances, ih, tally_append, UInt64.ofNat_add]
    simp [tally]

/-- A counter is exact as long as its tally fits 64 bits. -/
theorem Counter.toNat_run (c : Counter init step) {events : List α} (h : tally c.weight events < 2 ^ 64) :
    (c.read (events.foldl step init)).toNat = tally c.weight events := by
  rw [c.read_run, UInt64.toNat_ofNat_of_lt' h]

end Tallies
