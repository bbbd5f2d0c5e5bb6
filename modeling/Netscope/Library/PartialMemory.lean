import Netscope.Library.ByteString

/-! # Partial memory accesses

Executions that stop at the first undefined access. Reading outside a buffer,
writing outside an array, forming a pointer past the end, using a variable that
was never set, wrapping a `size_t` and exceeding an iteration bound are faults;
an execution that returns has done none of them.
-/
namespace PartialMemory
open ByteString

inductive Fault where
  | readOutside
  | writeOutside
  | pointerOutside
  | unset
  | sizeWrap
  | iterations
deriving DecidableEq, Repr

abbrev Exec := Except Fault

/-- A `char` array; a cell that was never written holds nothing. -/
abbrev Cells := List (Option UInt8)

/-- A byte buffer together with its length as a `size_t`. -/
structure Buffer where
  bytes : Bytes
  fits : bytes.length < 2 ^ 64

def sizeAdd (a b : ℕ) : Exec ℕ := if a + b < 2 ^ 64 then .ok (a + b) else .error .sizeWrap

def sizeSub (a b : ℕ) : Exec ℕ := if b ≤ a then .ok (a - b) else .error .sizeWrap

/-- The access `mem[i]`. -/
def load (mem : Bytes) (i : ℕ) : Exec UInt8 := if i < mem.length then .ok (u8 mem i) else .error .readOutside

/-- The source range of a `memcpy` of `n` bytes. -/
def loadRange (mem : Bytes) (i n : ℕ) : Exec Bytes :=
  if i + n ≤ mem.length then .ok (chunk mem i n) else .error .readOutside

/-- The pointer `mem + k`, which may point one past the end. -/
def advance (mem : Bytes) (k : ℕ) : Exec Bytes := if k ≤ mem.length then .ok (mem.drop k) else .error .pointerOutside

/-- The use of a variable that may be unset. -/
def use {α : Type} : Option α → Exec α
  | some a => .ok a
  | none => .error .unset

/-- The use of an array element by index. -/
def element {α : Type} (xs : List α) (i : ℕ) : Exec α :=
  match xs[i]? with
  | some a => .ok a
  | none => .error .readOutside

/-- The assignment of an array element. -/
def setElement {α : Type} (xs : List α) (i : ℕ) (a : α) : Exec (List α) :=
  if i < xs.length then .ok (xs.set i a) else .error .writeOutside

def store (buf : Cells) (i : ℕ) (b : UInt8) : Exec Cells :=
  if i < buf.length then .ok (buf.set i (some b)) else .error .writeOutside

/-- The destination range of a `memcpy`. -/
def storeRange (buf : Cells) (i : ℕ) (bs : Bytes) : Exec Cells :=
  if i + bs.length ≤ buf.length then .ok (buf.take i ++ bs.map some ++ buf.drop (i + bs.length))
  else .error .writeOutside

/-- `snprintf(buf + i, size, ...)` of the formatted bytes `s`. -/
def printInto (buf : Cells) (i size : ℕ) (s : Bytes) : Exec Cells :=
  if size = 0 then .ok buf else storeRange buf i (s.take (size - 1) ++ [0])

/-- The C string that starts at a buffer. -/
def loadString : Cells → Exec Bytes
  | [] => .error .readOutside
  | none :: _ => .error .unset
  | some b :: rest => if b = 0 then .ok [] else (b :: ·) <$> loadString rest

def fresh (n : ℕ) : Cells := List.replicate n none
def zeroed (n : ℕ) : Cells := List.replicate n (some 0)

@[simp] theorem fresh_length (n : ℕ) : (fresh n).length = n := List.length_replicate
@[simp] theorem zeroed_length (n : ℕ) : (zeroed n).length = n := List.length_replicate

/-- A buffer that begins with the bytes `text`. -/
def holding (text : Bytes) (rest : Cells) : Cells := text.map some ++ rest

@[simp] theorem holding_nil (rest : Cells) : holding [] rest = rest := rfl
@[simp] theorem holding_length (text : Bytes) (rest : Cells) :
    (holding text rest).length = text.length + rest.length := by simp [holding]

section Sequencing
variable {ε α β : Type}

@[simp] theorem ok_bind (a : α) (f : α → Except ε β) : (Except.ok a >>= f) = f a := rfl
@[simp] theorem error_bind (e : ε) (f : α → Except ε β) : (Except.error e >>= f) = .error e := rfl
@[simp] theorem pure_eq_ok (a : α) : (pure a : Except ε α) = .ok a := rfl
@[simp] theorem throw_eq_error (e : ε) : (throw e : Except ε α) = .error e := rfl

theorem bind_eq_ok {x : Except ε α} {f : α → Except ε β} {b : β} :
    (x >>= f) = .ok b ↔ ∃ a, x = .ok a ∧ f a = .ok b := by
  cases x with
  | error e => simp
  | ok a => simp

theorem mapM_ok {f : α → Except ε β} {g : α → β} {xs : List α} (h : ∀ x ∈ xs, f x = .ok (g x)) :
    xs.mapM f = .ok (xs.map g) := by
  induction xs with
  | nil => rfl
  | cons x xs ih =>
    rw [List.mapM_cons, h x List.mem_cons_self, ok_bind, ih (fun y hy => h y (List.mem_cons_of_mem _ hy))]
    rfl

/-- What holds before a fold and is kept by each of its steps holds at its end, with the
list as far as it has been read. -/
theorem foldlM_ok_induction {σ : Type} {f : σ → α → Except ε σ} {motive : List α → σ → Prop} {s s' : σ} {xs : List α}
    (nil : motive [] s) (step : ∀ seen s x s', motive seen s → f s x = .ok s' → motive (seen ++ [x]) s')
    (h : xs.foldlM f s = .ok s') : motive xs s' := by
  suffices hall : ∀ (xs seen : List α) (s : σ), motive seen s → xs.foldlM f s = .ok s' → motive (seen ++ xs) s' from
    hall xs [] s nil h
  intro xs
  induction xs with
  | nil =>
    intro seen s hs h
    rw [List.append_nil, ← Except.ok.inj h]
    exact hs
  | cons x xs ih =>
    intro seen s hs h
    rw [List.foldlM_cons] at h
    obtain ⟨s₁,hx,hrest⟩ := bind_eq_ok.mp h
    rw [List.append_cons]
    exact ih (seen ++ [x]) s₁ (step seen s x s₁ hs hx) hrest

/-- A fold whose steps follow those of a pure fold ends where that one does. -/
theorem foldlM_related {σ τ : Type} {R : τ → σ → Prop} {f : σ → α → Except ε σ} {g : τ → α → τ} {t : τ} {s : σ}
    (xs : List α) (h : R t s) (step : ∀ t s, ∀ x ∈ xs, R t s → ∃ s', f s x = .ok s' ∧ R (g t x) s') :
    ∃ s', xs.foldlM f s = .ok s' ∧ R (xs.foldl g t) s' := by
  induction xs generalizing t s with
  | nil => exact ⟨s,rfl,h⟩
  | cons x xs ih =>
    obtain ⟨s₁,hstep,hrel⟩ := step t s x List.mem_cons_self h
    rw [List.foldlM_cons, hstep, ok_bind]
    exact ih hrel (fun t s y hy => step t s y (List.mem_cons_of_mem x hy))

end Sequencing

theorem sizeAdd_ok {a b : ℕ} (h : a + b < 2 ^ 64) : sizeAdd a b = .ok (a + b) := if_pos h
theorem sizeSub_ok {a b : ℕ} (h : b ≤ a) : sizeSub a b = .ok (a - b) := if_pos h
theorem load_ok {mem : Bytes} {i : ℕ} (h : i < mem.length) : load mem i = .ok (u8 mem i) := if_pos h
theorem loadRange_ok {mem : Bytes} {i n : ℕ} (h : i + n ≤ mem.length) : loadRange mem i n = .ok (chunk mem i n) :=
  if_pos h
theorem advance_ok {mem : Bytes} {k : ℕ} (h : k ≤ mem.length) : advance mem k = .ok (mem.drop k) := if_pos h
theorem setElement_ok {α : Type} {xs : List α} {i : ℕ} (h : i < xs.length) (a : α) :
    setElement xs i a = .ok (xs.set i a) := if_pos h
@[simp] theorem use_some {α : Type} (a : α) : use (some a) = .ok a := rfl

theorem store_holding (text : Bytes) {rest : Cells} (b : UInt8) (h : 0 < rest.length) :
    store (holding text rest) text.length b = .ok (holding (text ++ [b]) (rest.drop 1)) := by
  obtain ⟨c,rest,rfl⟩ := List.exists_cons_of_length_pos h
  rw [store, if_pos (by simp)]
  simp [holding]

theorem storeRange_holding (text bs : Bytes) {rest : Cells} (h : bs.length ≤ rest.length) :
    storeRange (holding text rest) text.length bs = .ok (holding (text ++ bs) (rest.drop bs.length)) := by
  rw [storeRange, if_pos (by simpa using h)]
  simp [holding, List.drop_append]

theorem loadString_holding (text : Bytes) (rest : Cells) :
    loadString (holding (text ++ [0]) rest) = .ok (text.takeWhile (· ≠ 0)) := by
  induction text with
  | nil => rfl
  | cons b text ih =>
    change loadString (some b :: holding (text ++ [0]) rest) = _
    rw [loadString, ih]
    by_cases hb : b = 0
    · simp [hb]
    · simp [hb]

end PartialMemory
