import Netscope.Library.EventRuns

/-! # Programs that call their surroundings

A program ends with a result, or makes a call and goes on with the answer. What is
answered is not fixed: a run is one path through the program, and a statement about all
runs holds whatever the surroundings do. A monitor watches the calls, and a judgement on
programs says that it never refuses one. Surroundings that are fixed execute a program.
-/
namespace Interaction
open EventRuns

inductive Program {Call : Type} (Answer : Call → Type) (α : Type) where
  | done (a : α)
  | call (c : Call) (next : Answer c → Program Answer α)

/-- A call with its answer. -/
structure Exchange {Call : Type} (Answer : Call → Type) where
  call : Call
  answer : Answer call

variable {Call : Type} {Answer : Call → Type} {α β σ : Type}

namespace Program

def bind (p : Program Answer α) (f : α → Program Answer β) : Program Answer β :=
  match p with
  | .done a => f a
  | .call c next => .call c fun r => (next r).bind f

instance : Monad (Program Answer) where
  pure := .done
  bind := bind

/-- The answer to one call. -/
def request (c : Call) : Program Answer (Answer c) := .call c .done

@[simp] theorem pure_eq_done (a : α) : (pure a : Program Answer α) = .done a := rfl
@[simp] theorem done_bind (a : α) (f : α → Program Answer β) : (.done a >>= f) = f a := rfl
@[simp] theorem call_bind (c : Call) (next : Answer c → Program Answer α) (f : α → Program Answer β) :
    (.call c next >>= f) = .call c fun r => next r >>= f := rfl
@[simp] theorem request_bind (c : Call) (f : Answer c → Program Answer β) : (request c >>= f) = .call c f := rfl

end Program

/-! ## Runs -/

/-- The program makes these calls, gets these answers and ends with this result. -/
inductive Runs : Program Answer α → List (Exchange Answer) → α → Prop where
  | done (a : α) : Runs (.done a) [] a
  | call {c : Call} {next : Answer c → Program Answer α} (r : Answer c) {history : List (Exchange Answer)} {a : α}
      (h : Runs (next r) history a) : Runs (.call c next) (⟨c,r⟩ :: history) a

/-- A run of two programs in sequence is a run of the first and then one of the second. -/
theorem runs_bind {p : Program Answer α} {f : α → Program Answer β} {history : List (Exchange Answer)} {b : β} :
    Runs (p >>= f) history b ↔
      ∃ front back a, history = front ++ back ∧ Runs p front a ∧ Runs (f a) back b := by
  constructor
  · intro h
    induction p generalizing history with
    | done a => exact ⟨[],history,a,rfl,.done a,h⟩
    | call c next ih =>
      cases h with
      | call r h =>
        obtain ⟨front,back,a,rfl,hp,hf⟩ := ih r h
        exact ⟨⟨c,r⟩ :: front,back,a,rfl,.call r hp,hf⟩
  · rintro ⟨front,back,a,rfl,hp,hf⟩
    induction hp with
    | done a => exact hf
    | call r _ ih => exact .call r (ih hf)

theorem runs_done {a b : α} {history : List (Exchange Answer)} (h : Runs (.done a) history b) : history = [] ∧ a = b := by
  cases h
  exact ⟨rfl,rfl⟩

theorem runs_call {c : Call} {next : Answer c → Program Answer α} {history : List (Exchange Answer)} {a : α}
    (h : Runs (.call c next) history a) : ∃ r rest, history = ⟨c,r⟩ :: rest ∧ Runs (next r) rest a := by
  cases h with
  | call r h => exact ⟨r,_,rfl,h⟩

theorem Runs.of_eq {p : Program Answer α} {c : Call} {next : Answer c → Program Answer α} {r : Answer c}
    {history : List (Exchange Answer)} {a : α} (hp : p = .call c next) (h : Runs (next r) history a) :
    Runs p (⟨c,r⟩ :: history) a := hp ▸ .call r h

/-! ## Monitors -/

section Monitor
variable (step : σ → Exchange Answer → Option σ)

/-- The monitor answers every call of the program, whatever the program is answered, and
the result stands in this relation to the state of the monitor. -/
def Meets : Program Answer α → (α → σ → Prop) → σ → Prop
  | .done a, post, s => post a s
  | .call c next, post, s => ∀ r, ∃ s', step s ⟨c,r⟩ = some s' ∧ Meets (next r) post s'

variable {step} {p : Program Answer α} {f : α → Program Answer β} {post post' : α → σ → Prop} {s : σ}

theorem meets_bind {goal : β → σ → Prop} :
    Meets step (p >>= f) goal s ↔ Meets step p (fun a => Meets step (f a) goal) s := by
  induction p generalizing s with
  | done a => exact Iff.rfl
  | call c next ih =>
    constructor
    · intro h r
      obtain ⟨s',hs,hnext⟩ := h r
      exact ⟨s',hs,(ih r).mp hnext⟩
    · intro h r
      obtain ⟨s',hs,hnext⟩ := h r
      exact ⟨s',hs,(ih r).mpr hnext⟩

theorem Meets.mono (h : Meets step p post s) (hpost : ∀ a s, post a s → post' a s) : Meets step p post' s := by
  induction p generalizing s with
  | done a => exact hpost a s h
  | call c next ih =>
    intro r
    obtain ⟨s',hs,hnext⟩ := h r
    exact ⟨s',hs,ih r hnext⟩

/-- The rule of sequence. -/
theorem Meets.bind {goal : β → σ → Prop} (h : Meets step p post s) (hf : ∀ a s, post a s → Meets step (f a) goal s) :
    Meets step (p >>= f) goal s := meets_bind.mpr (h.mono hf)

/-- A monitor that answers every call of a program follows each of its runs to the end. -/
theorem Meets.follow (h : Meets step p post s) {history : List (Exchange Answer)} {a : α} (hrun : Runs p history a) :
    ∃ s', run step s history = some s' ∧ post a s' := by
  induction hrun generalizing s with
  | done a => exact ⟨s,rfl,h⟩
  | @call c next r history a _ ih =>
    obtain ⟨s',hs,hnext⟩ := h r
    obtain ⟨s'',hs'',hpost⟩ := ih hnext
    refine ⟨s'',?_,hpost⟩
    rw [run, List.foldlM_cons, hs]
    exact hs''

end Monitor

/-! ## Spared calls -/

section Spared
variable {bad : Call → Bool} {p : Program Answer α} {f : α → Program Answer β} {post post' : α → Prop} {goal : β → Prop}

/-- The monitor that refuses some calls and keeps no books. -/
def refuse (bad : Call → Bool) (_ : Unit) (x : Exchange Answer) : Option Unit := if bad x.call then none else some ()

theorem refuse_eq_some {x : Exchange Answer} : refuse bad () x = some () ↔ bad x.call = false := by
  unfold refuse
  cases bad x.call <;> simp

/-- The program makes none of the bad calls and ends with a result of this kind. -/
def Spares (bad : Call → Bool) (p : Program Answer α) (post : α → Prop) : Prop := Meets (refuse bad) p (fun a _ => post a) ()

theorem spares_done {a : α} (h : post a) : Spares bad (.done a : Program Answer α) post := h

theorem spares_call {c : Call} {next : Answer c → Program Answer α} (hc : bad c = false) (h : ∀ r, Spares bad (next r) post) :
    Spares bad (.call c next) post := fun r => ⟨(),refuse_eq_some.mpr hc,h r⟩

theorem Spares.bind (h : Spares bad p post) (hf : ∀ a, post a → Spares bad (f a) goal) : Spares bad (p >>= f) goal :=
  Meets.bind h fun a _ => hf a

/-- Fewer calls are bad. -/
theorem Spares.relax {bad' : Call → Bool} (h : Spares bad p post) (hbad : ∀ c, bad c = false → bad' c = false) :
    Spares bad' p post := by
  induction p with
  | done a => exact h
  | call c next ih =>
    intro r
    obtain ⟨⟨⟩,hc,hnext⟩ := h r
    exact ⟨(),refuse_eq_some.mpr (hbad c (refuse_eq_some.mp hc)),ih r hnext⟩

theorem Spares.runs (h : Spares bad p post) {history : List (Exchange Answer)} {a : α} (hrun : Runs p history a) :
    (∀ x ∈ history, bad x.call = false) ∧ post a := by
  obtain ⟨⟨⟩,hfollow,hpost⟩ := Meets.follow h hrun
  refine ⟨fun x hx => ?_,hpost⟩
  obtain ⟨front,back,rfl⟩ := List.append_of_mem hx
  have hstep : ∃ r, run (refuse bad) () (front ++ [x]) = some r := run_of_prefix hfollow ⟨back,by simp⟩
  obtain ⟨⟨⟩,hstep⟩ := hstep
  obtain ⟨⟨⟩,-,hx⟩ := run_concat.mp hstep
  exact refuse_eq_some.mp hx

end Spared

/-! ## Fixed surroundings -/

section Execution
variable (respond : σ → (c : Call) → Answer c × σ)

/-- The result of a program and what becomes of its surroundings. -/
def execute : Program Answer α → σ → α × σ
  | .done a, s => (a,s)
  | .call c next, s => execute (next (respond s c).1) (respond s c).2

@[simp] theorem execute_done (a : α) (s : σ) : execute respond (.done a) s = (a,s) := rfl

theorem execute_bind (p : Program Answer α) (f : α → Program Answer β) (s : σ) :
    execute respond (p >>= f) s = execute respond (f (execute respond p s).1) (execute respond p s).2 := by
  induction p generalizing s with
  | done a => rfl
  | call c next ih => exact ih (respond s c).1 (respond s c).2

/-- The calls of an execution with the answers of the surroundings. -/
def transcript : Program Answer α → σ → List (Exchange Answer)
  | .done _, _ => []
  | .call c next, s => ⟨c,(respond s c).1⟩ :: transcript (next (respond s c).1) (respond s c).2

/-- An execution is one of the runs. -/
theorem runs_execute (p : Program Answer α) (s : σ) : Runs p (transcript respond p s) (execute respond p s).1 := by
  induction p generalizing s with
  | done a => exact .done a
  | call c next ih => exact .call _ (ih (respond s c).1 (respond s c).2)

end Execution

/-! ## Omitted calls -/

section Omission
variable (silent : Call → Prop)

/-- The first program is the second one without some of its silent calls. -/
inductive Omits : Program Answer α → Program Answer α → Prop where
  | done (a : α) : Omits (.done a) (.done a)
  | call (c : Call) {next next' : Answer c → Program Answer α} (h : ∀ r, Omits (next r) (next' r)) :
      Omits (.call c next) (.call c next')
  | skip {c : Call} (hc : silent c) {p : Program Answer α} {next : Answer c → Program Answer α} (h : ∀ r, Omits p (next r)) :
      Omits p (.call c next)

variable {silent}

theorem Omits.refl (p : Program Answer α) : Omits silent p p := by
  induction p with
  | done a => exact .done a
  | call c next ih => exact .call c ih

theorem Omits.bind {p q : Program Answer α} {f g : α → Program Answer β} (h : Omits silent p q)
    (hf : ∀ a, Omits silent (f a) (g a)) : Omits silent (p >>= f) (q >>= g) := by
  induction h with
  | done a => exact hf a
  | call c _ ih => exact .call c ih
  | skip hc _ ih => exact .skip hc ih

/-- A history without its silent exchanges. -/
def Audible (silent : Call → Prop) [DecidablePred silent] (history : List (Exchange Answer)) : List (Exchange Answer) :=
  history.filter fun x => ¬silent x.call

variable [DecidablePred silent] {p q : Program Answer α} {history : List (Exchange Answer)} {a : α}

/-- A run of the louder program loses silent calls only. -/
theorem Omits.quieter (h : Omits silent p q) (hrun : Runs q history a) :
    ∃ kept, Runs p kept a ∧ kept.Sublist history ∧ Audible silent kept = Audible silent history := by
  induction h generalizing history with
  | done a => exact ⟨history,hrun,.refl history,rfl⟩
  | call c _ ih =>
    cases hrun with
    | call r hrun =>
      obtain ⟨kept,hkept,hsub,heq⟩ := ih r hrun
      refine ⟨⟨c,r⟩ :: kept,.call r hkept,hsub.cons_cons _,?_⟩
      simp only [Audible, List.filter_cons] at heq ⊢
      rw [heq]
  | skip hc _ ih =>
    cases hrun with
    | call r hrun =>
      obtain ⟨kept,hkept,hsub,heq⟩ := ih r hrun
      refine ⟨kept,hkept,hsub.cons _,?_⟩
      rw [heq]
      exact (List.filter_cons_of_neg (by simpa using hc)).symm

/-- A run of the quieter program is what is left of a run of the louder one. -/
theorem Omits.louder (h : Omits silent p q) (hanswer : ∀ c, silent c → Nonempty (Answer c)) (hrun : Runs p history a) :
    ∃ full, Runs q full a ∧ history.Sublist full ∧ Audible silent full = Audible silent history := by
  induction h generalizing history with
  | done a => exact ⟨history,hrun,.refl history,rfl⟩
  | call c _ ih =>
    cases hrun with
    | call r hrun =>
      obtain ⟨full,hfull,hsub,heq⟩ := ih r hrun
      refine ⟨⟨c,r⟩ :: full,.call r hfull,hsub.cons_cons _,?_⟩
      simp only [Audible, List.filter_cons] at heq ⊢
      rw [heq]
  | @skip c hc _ _ _ ih =>
    obtain ⟨r⟩ := hanswer c hc
    obtain ⟨full,hfull,hsub,heq⟩ := ih r hrun
    refine ⟨⟨c,r⟩ :: full,.call r hfull,hsub.cons _,?_⟩
    rw [← heq]
    exact List.filter_cons_of_neg (by simpa using hc)

end Omission

end Interaction
