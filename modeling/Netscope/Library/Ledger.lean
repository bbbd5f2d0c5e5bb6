import Netscope.Library.EventRuns

/-! # Ledgers of resources

An event may need resources, give one back and take a new one. The ledger lists what is
held; it refuses an event that needs or gives back what is not held. A run that the ledger
follows has taken a resource before each use of it, and between two stretches of equal
ledgers it has given back what it took.
-/
namespace Ledger
open EventRuns

/-- What an event does with the resources. -/
structure Effect (ρ : Type) where
  needs : List ρ
  gives : Option ρ
  takes : Option ρ

variable {ρ ε : Type} [DecidableEq ρ] (effect : ε → Effect ρ)

/-- What an event presupposes to be held. -/
def presupposed (e : ε) : List ρ := (effect e).gives.toList ++ (effect e).needs

def ledgerStep (held : List ρ) (e : ε) : Option (List ρ) :=
  if ∀ r ∈ presupposed effect e, r ∈ held then some ((effect e).takes.toList ++ held.diff (effect e).gives.toList)
  else none

/-- How often a resource has been taken. -/
def taken (events : List ε) (r : ρ) : ℕ := events.countP fun e => (effect e).takes = some r

/-- How often a resource has been given back. -/
def given (events : List ε) (r : ρ) : ℕ := events.countP fun e => (effect e).gives = some r

variable {effect} {held held' : List ρ} {events seen rest : List ε} {e : ε} {r : ρ}

theorem ledgerStep_eq_some : ledgerStep effect held e = some held' ↔
    (∀ r ∈ presupposed effect e, r ∈ held) ∧
      (effect e).takes.toList ++ held.diff (effect e).gives.toList = held' := by
  unfold ledgerStep
  split
  case isTrue h => exact ⟨fun heq => ⟨h,Option.some.inj heq⟩,fun heq => congrArg some heq.2⟩
  case isFalse h => exact iff_of_false nofun fun heq => h heq.1

theorem taken_concat (r : ρ) : taken effect (events ++ [e]) r = taken effect events r + (effect e).takes.toList.count r := by
  unfold taken
  rw [List.countP_append, List.countP_singleton]
  cases (effect e).takes <;> simp [List.count_cons]

theorem given_concat (r : ρ) : given effect (events ++ [e]) r = given effect events r + (effect e).gives.toList.count r := by
  unfold given
  rw [List.countP_append, List.countP_singleton]
  cases (effect e).gives <;> simp [List.count_cons]

theorem count_toList_le (h : ∀ r ∈ presupposed effect e, r ∈ held) (r : ρ) :
    (effect e).gives.toList.count r ≤ held.count r := by
  cases hgives : (effect e).gives with
  | none => exact Nat.zero_le _
  | some g =>
    rw [Option.toList_some, List.count_singleton]
    split
    case isFalse => exact Nat.zero_le _
    case isTrue hr =>
      obtain rfl : g = r := by simpa using hr
      exact List.one_le_count_iff.mpr (h g (by simp [presupposed, hgives]))

/-- What was held and what has been taken is held or has been given back. -/
theorem held_add_taken (h : run (ledgerStep effect) held events = some held') (r : ρ) :
    held.count r + taken effect events r = held'.count r + given effect events r := by
  refine run_induction (motive := fun seen s => held.count r + taken effect seen r = s.count r + given effect seen r)
    rfl ?_ h
  intro seen s e s' ih he
  obtain ⟨hheld,rfl⟩ := ledgerStep_eq_some.mp he
  have hle := count_toList_le hheld r
  rw [taken_concat, given_concat, List.count_append, List.count_diff]
  omega

/-- What an event presupposes has not been given back as often as it was there and was taken. -/
theorem given_lt (h : run (ledgerStep effect) held (seen ++ e :: rest) = some held') (hr : r ∈ presupposed effect e) :
    given effect seen r < held.count r + taken effect seen r := by
  rw [run_append, Option.bind_eq_some_iff] at h
  obtain ⟨s,hseen,hrest⟩ := h
  rw [run, List.foldlM_cons, Option.bind_eq_bind, Option.bind_eq_some_iff] at hrest
  obtain ⟨s',he,-⟩ := hrest
  have hpos := List.one_le_count_iff.mpr ((ledgerStep_eq_some.mp he).1 r hr)
  have hcount := held_add_taken hseen r
  omega

end Ledger
