import Mathlib.Tactic

/-! # Maps of bounded capacity

A map that accumulates contributions under keys and stops admitting keys when it
is full. After any run its keys are the first distinct keys of the run, and every
value is the total of all contributions under its key.
-/
namespace BoundedMap

variable {κ β : Type} [DecidableEq κ] [AddCommMonoid β]

/-- One contribution: added under a known key, admitted under a new one while there is
room, and dropped otherwise. Entries stand in the order of admission. -/
def record (capacity : ℕ) (m : List (κ × β)) (e : κ × β) : List (κ × β) :=
  if e.1 ∈ m.map Prod.fst then m.map (fun x => if x.1 = e.1 then (x.1,x.2 + e.2) else x)
  else if m.length < capacity then m ++ [e]
  else m

def run (capacity : ℕ) (events : List (κ × β)) : List (κ × β) := events.foldl (record capacity) []

/-- The contributions of a run under one key. -/
def total (k : κ) (events : List (κ × β)) : β := ((events.filter (fun e => e.1 = k)).map Prod.snd).sum

theorem run_append (capacity : ℕ) (events : List (κ × β)) (e : κ × β) :
    run capacity (events ++ [e]) = record capacity (run capacity events) e := by
  simp [run]

theorem total_append (k : κ) (events : List (κ × β)) (e : κ × β) :
    total k (events ++ [e]) = total k events + if e.1 = k then e.2 else 0 := by
  by_cases h : e.1 = k
  · simp [total, h]
  · simp [total, h]

theorem total_eq_zero {k : κ} {events : List (κ × β)} (h : k ∉ events.map Prod.fst) : total k events = 0 := by
  have hf : events.filter (fun e => e.1 = k) = [] := by
    rw [List.filter_eq_nil_iff]
    intro e he hk
    rw [decide_eq_true_iff] at hk
    exact h (List.mem_map.mpr ⟨e,he,hk⟩)
  simp [total, hf]

theorem record_keys (capacity : ℕ) (m : List (κ × β)) (e : κ × β) :
    (record capacity m e).map Prod.fst =
      if e.1 ∈ m.map Prod.fst then m.map Prod.fst
      else if m.length < capacity then m.map Prod.fst ++ [e.1]
      else m.map Prod.fst := by
  have hadd : ((fun x : κ × β => x.1) ∘ fun x => if x.1 = e.1 then (x.1,x.2 + e.2) else x) = Prod.fst := by
    funext x
    by_cases hx : x.1 = e.1
    · simp [hx]
    · simp [hx]
  unfold record
  split
  · rw [List.map_map]
    exact congrArg (fun f => m.map f) hadd
  · split
    · simp
    · rfl

theorem eraseDups_concat {α : Type} [BEq α] [LawfulBEq α] (ks : List α) (k : α) :
    (ks ++ [k]).eraseDups = if k ∈ ks then ks.eraseDups else ks.eraseDups ++ [k] := by
  rw [List.eraseDups_append]
  by_cases h : k ∈ ks
  · simp [h, List.removeAll]
  · simp [h, List.removeAll, List.eraseDups_cons]

theorem eraseDups_map {α γ : Type} [BEq α] [LawfulBEq α] [BEq γ] [LawfulBEq γ] {f : α → γ} (hf : Function.Injective f)
    (l : List α) : (l.map f).eraseDups = l.eraseDups.map f := by
  induction l using List.reverseRecOn with
  | nil => rfl
  | append_singleton l a ih =>
    rw [List.map_append, List.map_singleton, eraseDups_concat, eraseDups_concat, ih]
    by_cases ha : a ∈ l
    · rw [if_pos ha, if_pos (List.mem_map_of_mem ha)]
    · rw [if_neg ha, if_neg (fun h => ha ((List.mem_map_of_injective hf).mp h))]
      simp

/-- The keys of a run are its first distinct keys. -/
theorem run_keys (capacity : ℕ) (events : List (κ × β)) :
    (run capacity events).map Prod.fst = ((events.map Prod.fst).eraseDups).take capacity := by
  induction events using List.reverseRecOn with
  | nil => simp [run]
  | append_singleton events e ih =>
    have hlen : (run capacity events).length = min capacity (events.map Prod.fst).eraseDups.length := by
      rw [← List.length_map (f := Prod.fst), ih, List.length_take]
    rw [run_append, record_keys, ih, hlen, List.map_append, List.map_singleton, eraseDups_concat]
    by_cases hin : e.1 ∈ (events.map Prod.fst).eraseDups.take capacity
    · rw [if_pos hin, if_pos (List.mem_eraseDups.mp (List.mem_of_mem_take hin))]
    · rw [if_neg hin]
      by_cases hroom : (events.map Prod.fst).eraseDups.length < capacity
      · have hall : (events.map Prod.fst).eraseDups.take capacity = (events.map Prod.fst).eraseDups :=
          List.take_of_length_le hroom.le
        rw [hall, List.mem_eraseDups] at hin
        rw [if_pos (by omega), if_neg hin, hall, List.take_of_length_le (by simp; omega)]
      · rw [if_neg (by omega)]
        split
        · rfl
        · rw [List.take_append_of_le_length (by omega)]

theorem record_mem {capacity : ℕ} {m : List (κ × β)} {e x : κ × β} (h : x ∈ record capacity m e) :
    (∃ y ∈ m, x.1 = y.1 ∧ x.2 = y.2 + if e.1 = x.1 then e.2 else 0) ∨
      (x = e ∧ e.1 ∉ m.map Prod.fst ∧ m.length < capacity) := by
  unfold record at h
  by_cases hin : e.1 ∈ m.map Prod.fst
  · rw [if_pos hin] at h
    obtain ⟨y,hy,rfl⟩ := List.mem_map.mp h
    left
    by_cases hk : y.1 = e.1
    · exact ⟨y,hy,by simp [hk],by simp [hk]⟩
    · exact ⟨y,hy,by simp [hk],by simp [hk, Ne.symm hk]⟩
  · rw [if_neg hin] at h
    have hold : x ∈ m → ∃ y ∈ m, x.1 = y.1 ∧ x.2 = y.2 + if e.1 = x.1 then e.2 else 0 := by
      intro hx
      have hne : e.1 ≠ x.1 := by
        intro he
        exact hin (he ▸ List.mem_map_of_mem hx)
      exact ⟨x,hx,rfl,by simp [hne]⟩
    by_cases hroom : m.length < capacity
    · rw [if_pos hroom] at h
      rcases List.mem_append.mp h with hx | hx
      · exact .inl (hold hx)
      · exact .inr ⟨List.mem_singleton.mp hx,hin,hroom⟩
    · rw [if_neg hroom] at h
      exact .inl (hold h)

/-- A value is the total of the contributions of the whole run under its key. -/
theorem run_total {capacity : ℕ} {events : List (κ × β)} {x : κ × β} (h : x ∈ run capacity events) :
    x.2 = total x.1 events := by
  induction events using List.reverseRecOn generalizing x with
  | nil => simp [run] at h
  | append_singleton events e ih =>
    rw [run_append] at h
    rw [total_append]
    rcases record_mem h with ⟨y,hy,h1,h2⟩ | ⟨rfl,hnew,hroom⟩
    · rw [h2, ih hy, h1]
    · have hlen : (events.map Prod.fst).eraseDups.length < capacity := by
        rw [← List.length_map (f := Prod.fst), run_keys, List.length_take] at hroom
        omega
      rw [run_keys, List.take_of_length_le hlen.le, List.mem_eraseDups] at hnew
      rw [total_eq_zero hnew]
      simp

/-! ## The order of a run -/

theorem nodup_eraseDups {α : Type} [BEq α] [LawfulBEq α] (l : List α) : l.eraseDups.Nodup := by
  induction l using List.reverseRecOn with
  | nil => exact List.nodup_nil
  | append_singleton l a ih =>
    rw [eraseDups_concat]
    split
    · exact ih
    · rename_i hnew
      rw [← List.concat_eq_append]
      exact ih.concat (mt List.mem_eraseDups.mp hnew)

theorem eraseDups_perm {α : Type} [BEq α] [LawfulBEq α] {l l' : List α} (h : l.Perm l') :
    l.eraseDups.Perm l'.eraseDups := by
  apply (List.perm_ext_iff_of_nodup (nodup_eraseDups l) (nodup_eraseDups l')).mpr
  intro a
  rw [List.mem_eraseDups, List.mem_eraseDups, h.mem_iff]

theorem total_perm {k : κ} {events events' : List (κ × β)} (h : events.Perm events') : total k events = total k events' :=
  ((h.filter _).map _).sum_eq

theorem run_keys_nodup (capacity : ℕ) (events : List (κ × β)) : ((run capacity events).map Prod.fst).Nodup := by
  rw [run_keys]
  exact (nodup_eraseDups _).sublist (List.take_sublist _ _)

/-- With room for every key, the entries are the keys with their totals. -/
theorem mem_run_iff {capacity : ℕ} {events : List (κ × β)} (hroom : (events.map Prod.fst).eraseDups.length ≤ capacity)
    (x : κ × β) : x ∈ run capacity events ↔ x.1 ∈ events.map Prod.fst ∧ x.2 = total x.1 events := by
  have hkeys : ∀ k, k ∈ (run capacity events).map Prod.fst ↔ k ∈ events.map Prod.fst := by
    intro k
    rw [run_keys, List.take_of_length_le hroom, List.mem_eraseDups]
  constructor
  · intro h
    exact ⟨(hkeys x.1).mp (List.mem_map_of_mem h),run_total h⟩
  · rintro ⟨hkey,hvalue⟩
    obtain ⟨y,hy,hxy⟩ := List.mem_map.mp ((hkeys x.1).mpr hkey)
    have hval : y.2 = x.2 := by rw [run_total hy, hxy, hvalue]
    rwa [← Prod.ext hxy hval]

/-- With room for every key, the order of the contributions does not matter. -/
theorem run_perm {capacity : ℕ} {events events' : List (κ × β)} (h : events.Perm events')
    (hroom : (events.map Prod.fst).eraseDups.length ≤ capacity) : (run capacity events).Perm (run capacity events') := by
  have hroom' : (events'.map Prod.fst).eraseDups.length ≤ capacity := by
    rwa [← (eraseDups_perm (h.map Prod.fst)).length_eq]
  apply (List.perm_ext_iff_of_nodup (run_keys_nodup capacity events).of_map (run_keys_nodup capacity events').of_map).mpr
  intro x
  rw [mem_run_iff hroom, mem_run_iff hroom', (h.map Prod.fst).mem_iff, total_perm h]

end BoundedMap
