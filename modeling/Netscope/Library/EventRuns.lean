import Mathlib.Data.List.Infix
import Mathlib.Tactic

/-! # Runs of machines that may refuse events

A machine answers an event with its next state or refuses it. A run is a list of
events that are all answered. Statements about the order of the events of a run speak
of the events that stand before an occurrence.
-/
namespace EventRuns

variable {σ ε : Type}

section Runs
variable (step : σ → ε → Option σ)

def run (s : σ) (events : List ε) : Option σ := events.foldlM step s

/-- A property of every state that a run goes through. -/
def Throughout (s : σ) (events : List ε) (p : σ → Prop) : Prop :=
  ∀ seen, seen <+: events → ∀ r, run step s seen = some r → p r

variable {step} {s s' : σ} {events seen : List ε} {e : ε}

theorem run_append (s : σ) (front back : List ε) :
    run step s (front ++ back) = (run step s front).bind fun r => run step r back := List.foldlM_append

theorem run_concat : run step s (events ++ [e]) = some s' ↔ ∃ r, run step s events = some r ∧ step r e = some s' := by
  rw [run_append, Option.bind_eq_some_iff]
  simp [run]

/-- What holds at the start and is kept by every answered event holds after a run. -/
theorem run_induction {motive : List ε → σ → Prop} (start : motive [] s)
    (next : ∀ {seen r e r'}, motive seen r → step r e = some r' → motive (seen ++ [e]) r')
    (h : run step s events = some s') : motive events s' := by
  induction events using List.reverseRecOn generalizing s' with
  | nil => exact Option.some.inj h ▸ start
  | append_singleton events e ih =>
    obtain ⟨r,hr,he⟩ := run_concat.mp h
    exact next (ih hr) he

theorem run_of_prefix (h : run step s events = some s') (hseen : seen <+: events) : ∃ r, run step s seen = some r := by
  obtain ⟨rest,rfl⟩ := hseen
  rw [run_append, Option.bind_eq_some_iff] at h
  obtain ⟨r,hr,-⟩ := h
  exact ⟨r,hr⟩

end Runs

/-! ## Two machines side by side -/

section Both
variable {τ : Type} {step : σ → ε → Option σ} {other : τ → ε → Option τ} {s : σ} {t : τ} {events : List ε} {e : ε} {r : σ × τ}

/-- Both machines answer, or the event is refused. -/
def both (step : σ → ε → Option σ) (other : τ → ε → Option τ) (s : σ × τ) (e : ε) : Option (σ × τ) :=
  (step s.1 e).bind fun s' => (other s.2 e).map fun t' => (s',t')

theorem both_eq_some : both step other (s,t) e = some r ↔ step s e = some r.1 ∧ other t e = some r.2 := by
  unfold both
  cases step s e <;> cases other t e <;> simp [Prod.ext_iff]

theorem run_both (h : run (both step other) (s,t) events = some r) :
    run step s events = some r.1 ∧ run other t events = some r.2 := by
  refine run_induction (motive := fun seen r => run step s seen = some r.1 ∧ run other t seen = some r.2) ⟨rfl,rfl⟩ ?_ h
  intro seen r e r' ih he
  obtain ⟨hs,ht⟩ := both_eq_some.mp he
  exact ⟨run_concat.mpr ⟨_,ih.1,hs⟩,run_concat.mpr ⟨_,ih.2,ht⟩⟩

end Both

/-! ## Occurrences -/

/-- An event occurs at a point whose history has a property. -/
def Occurs (x : ε) (p : List ε → Prop) (events : List ε) : Prop := ∃ seen, seen ++ [x] <+: events ∧ p seen

section Occurrences
variable {x e : ε} {p q : List ε → Prop} {events seen : List ε}

theorem occurs_concat : Occurs x p (events ++ [e]) ↔ Occurs x p events ∨ (x = e ∧ p events) := by
  constructor
  · rintro ⟨seen,hseen,hp⟩
    rcases List.prefix_concat_iff.mp hseen with heq | hseen
    · obtain ⟨rfl,hx⟩ := List.append_inj' heq rfl
      exact .inr ⟨List.head_eq_of_cons_eq hx,hp⟩
    · exact .inl ⟨seen,hseen,hp⟩
  · rintro (⟨seen,hseen,hp⟩ | ⟨rfl,hp⟩)
    · exact ⟨seen,hseen.trans (List.prefix_append _ _),hp⟩
    · exact ⟨events,List.prefix_rfl,hp⟩

theorem Occurs.mono (h : Occurs x p seen) (hseen : seen <+: events) : Occurs x p events := by
  obtain ⟨before,hbefore,hp⟩ := h
  exact ⟨before,hbefore.trans hseen,hp⟩

/-- An event of a run occurs before or after a property of the history begins to hold. -/
theorem occurs_or (h : x ∈ events) (p : List ε → Prop) : Occurs x p events ∨ Occurs x (fun seen => ¬p seen) events := by
  obtain ⟨front,back,rfl⟩ := List.append_of_mem h
  have hseen : front ++ [x] <+: front ++ x :: back := ⟨back,by simp⟩
  by_cases hp : p front
  · exact .inl ⟨front,hseen,hp⟩
  · exact .inr ⟨front,hseen,hp⟩

end Occurrences

end EventRuns
