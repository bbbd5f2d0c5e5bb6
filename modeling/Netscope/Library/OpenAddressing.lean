import Netscope.Library.BoundedMap

/-! # Open addressing with linear probing

A fixed array of slots is probed from the home position of a key, around the end
of the array, until the key or a slot that is not in use is met. Slots are never
released, so every slot between the home of a stored key and its slot is in use.
The table refines a map whose capacity is the number of slots.
-/
namespace OpenAddressing

variable {σ κ β : Type} {n : ℕ} [NeZero n] [DecidableEq κ]

/-- How a slot is read. -/
structure Layout (σ κ β : Type) where
  inUse : σ → Bool
  key : σ → κ
  value : σ → β

inductive Probe (n : ℕ) where
  | found (i : Fin n)
  | free (i : Fin n)
  | full

/-- The slot inspected at a distance from the home position. -/
def position (n : ℕ) [NeZero n] (home d : ℕ) : Fin n := Fin.ofNat n (home + d)

variable (L : Layout σ κ β)

/-- The probe loop with the number of slots it may still inspect. -/
def probe (slots : Fin n → σ) (home : ℕ) (k : κ) : ℕ → ℕ → Probe n
  | 0, _ => .full
  | remaining + 1, d =>
    if L.inUse (slots (position n home d)) ∧ L.key (slots (position n home d)) = k then .found (position n home d)
    else if !L.inUse (slots (position n home d)) then .free (position n home d)
    else probe slots home k remaining (d + 1)

/-- The slots and the number of newly occupied ones after a contribution under `k`. -/
def upsert (slots : Fin n → σ) (home : ℕ) (k : κ) (update : σ → σ) (fresh : σ) : (Fin n → σ) × ℕ :=
  match probe L slots home k n 0 with
  | .found i => (Function.update slots i (update (slots i)),0)
  | .free i => (Function.update slots i fresh,1)
  | .full => (slots,0)

/-- Every slot that is in use is reached from the home position of its key, and no key
has two slots. -/
structure WellProbed (home : κ → ℕ) (slots : Fin n → σ) : Prop where
  reached : ∀ i, L.inUse (slots i) = true → ∃ d < n, i = position n (home (L.key (slots i))) d ∧
    ∀ e < d, L.inUse (slots (position n (home (L.key (slots i))) e)) = true
  distinct : ∀ i j, L.inUse (slots i) = true → L.inUse (slots j) = true → L.key (slots i) = L.key (slots j) → i = j

/-- The slots in use hold the entries of a map. -/
structure Represents (slots : Fin n → σ) (m : List (κ × β)) : Prop where
  mem : ∀ e, e ∈ m ↔ ∃ i, L.inUse (slots i) = true ∧ L.key (slots i) = e.1 ∧ L.value (slots i) = e.2
  count : (Finset.univ.filter (fun i => L.inUse (slots i) = true)).card = m.length

section Probing
variable {L} {slots : Fin n → σ} {home : ℕ} {k : κ}

theorem position_surjective (home : ℕ) (i : Fin n) : ∃ d < n, position n home d = i := by
  have hn : 0 < n := Nat.pos_of_ne_zero (NeZero.ne n)
  have hi := i.isLt
  have hm := Nat.mod_lt home hn
  refine ⟨(i.val + (n - home % n)) % n,Nat.mod_lt _ hn,?_⟩
  apply Fin.ext
  change (home + (i.val + (n - home % n)) % n) % n = i.val
  have hsum : home + (i.val + (n - home % n)) = i.val + n * (home / n + 1) := by
    have hd := Nat.div_add_mod home n
    rw [Nat.mul_add, Nat.mul_one]
    omega
  rw [Nat.add_mod, Nat.mod_mod, ← Nat.add_mod, hsum, Nat.add_mul_mod_self_left, Nat.mod_eq_of_lt hi]

/-- Probing past a slot in use under another key. -/
theorem probe_skip {remaining d : ℕ} (huse : L.inUse (slots (position n home d)) = true)
    (hkey : L.key (slots (position n home d)) ≠ k) :
    probe L slots home k (remaining + 1) d = probe L slots home k remaining (d + 1) := by
  rw [probe, if_neg (by simp [hkey]), if_neg (by simp [huse])]

/-- A stored key is found at its slot. -/
theorem probe_found {d : ℕ} (huse : ∀ e < d, L.inUse (slots (position n home e)) = true)
    (hother : ∀ e < d, L.key (slots (position n home e)) ≠ k) (hi : L.inUse (slots (position n home d)) = true)
    (hkey : L.key (slots (position n home d)) = k) {remaining e : ℕ} (he : e ≤ d) (hr : d < e + remaining) :
    probe L slots home k remaining e = .found (position n home d) := by
  induction remaining generalizing e with
  | zero => omega
  | succ remaining ih =>
    by_cases hed : e = d
    · subst hed
      rw [probe, if_pos ⟨hi,hkey⟩]
    · rw [probe_skip (huse e (by omega)) (hother e (by omega))]
      exact ih (by omega) (by omega)

/-- Probing for a key that is not stored ends at the first slot that is not in use. -/
theorem probe_absent (habsent : ∀ i, L.inUse (slots i) = true → L.key (slots i) ≠ k) {remaining d : ℕ}
    (hbefore : ∀ e < d, L.inUse (slots (position n home e)) = true) :
    (∃ f < d + remaining, probe L slots home k remaining d = .free (position n home f) ∧
      L.inUse (slots (position n home f)) = false ∧ ∀ e < f, L.inUse (slots (position n home e)) = true) ∨
    (probe L slots home k remaining d = .full ∧ ∀ e < d + remaining, L.inUse (slots (position n home e)) = true) := by
  induction remaining generalizing d with
  | zero => exact .inr ⟨rfl,hbefore⟩
  | succ remaining ih =>
    cases huse : L.inUse (slots (position n home d)) with
    | false =>
      left
      refine ⟨d,by omega,?_,huse,hbefore⟩
      rw [probe, if_neg (by simp [huse]), if_pos (by simp [huse])]
    | true =>
      rw [probe_skip huse (habsent _ huse)]
      have hnext : ∀ e < d + 1, L.inUse (slots (position n home e)) = true := by
        intro e he
        rcases Nat.lt_succ_iff_lt_or_eq.mp he with he | rfl
        · exact hbefore e he
        · exact huse
      have hsum : d + (remaining + 1) = d + 1 + remaining := by omega
      rw [hsum]
      exact ih hnext

end Probing

section Upserting
variable {L} {slots : Fin n → σ} {home : κ → ℕ} {k : κ}

/-- The slot of a stored key is found from its home position. -/
theorem probe_stored (hw : WellProbed L home slots) {i : Fin n} (hi : L.inUse (slots i) = true)
    (hk : L.key (slots i) = k) : probe L slots (home k) k n 0 = .found i := by
  obtain ⟨d,hd,hpos,huse⟩ := hw.reached i hi
  rw [hk] at hpos huse
  have hex : ∃ d, position n (home k) d = i := ⟨d,hpos.symm⟩
  have hle : Nat.find hex ≤ d := Nat.find_min' hex hpos.symm
  have hfind := Nat.find_spec hex
  have hbefore : ∀ e < Nat.find hex, L.inUse (slots (position n (home k) e)) = true := fun e he => huse e (by omega)
  have hother : ∀ e < Nat.find hex, L.key (slots (position n (home k) e)) ≠ k := by
    intro e he hke
    exact Nat.find_min hex he (hw.distinct _ i (hbefore e he) hi (hke.trans hk.symm))
  have h := probe_found hbefore hother (by rw [hfind]; exact hi) (by rw [hfind]; exact hk) (Nat.zero_le _)
    (show Nat.find hex < 0 + n by omega)
  rw [h, hfind]

/-- Everything a contribution can do to a table: it updates the slot of the key, it takes
the first free slot on the probe sequence of a new key, or the table is full. -/
theorem upsert_cases (hw : WellProbed L home slots) (k : κ) (update : σ → σ) (fresh : σ) :
    (∃ i, L.inUse (slots i) = true ∧ L.key (slots i) = k ∧
      upsert L slots (home k) k update fresh = (Function.update slots i (update (slots i)),0)) ∨
    (∃ f < n, L.inUse (slots (position n (home k) f)) = false ∧
      (∀ e < f, L.inUse (slots (position n (home k) e)) = true) ∧
      (∀ i, L.inUse (slots i) = true → L.key (slots i) ≠ k) ∧
      upsert L slots (home k) k update fresh = (Function.update slots (position n (home k) f) fresh,1)) ∨
    ((∀ i, L.inUse (slots i) = true) ∧ (∀ i, L.key (slots i) ≠ k) ∧
      upsert L slots (home k) k update fresh = (slots,0)) := by
  by_cases hstored : ∃ i, L.inUse (slots i) = true ∧ L.key (slots i) = k
  · obtain ⟨i,hi,hk⟩ := hstored
    exact .inl ⟨i,hi,hk,by rw [upsert, probe_stored hw hi hk]⟩
  · right
    have habsent : ∀ i, L.inUse (slots i) = true → L.key (slots i) ≠ k := fun i hi hk => hstored ⟨i,hi,hk⟩
    rcases @probe_absent σ κ β n _ _ L slots (home k) k habsent n 0 (by simp) with ⟨f,hf,hp,hfree,hbefore⟩ | ⟨hp,hall⟩
    · exact .inl ⟨f,by omega,hfree,hbefore,habsent,by rw [upsert, hp]⟩
    · have huse : ∀ i, L.inUse (slots i) = true := by
        intro i
        obtain ⟨d,hd,rfl⟩ := position_surjective (home k) i
        exact hall d (by omega)
      exact .inr ⟨huse,fun i => habsent i (huse i),by rw [upsert, hp]⟩

/-- How a slot is written when `x` is contributed under `k`. -/
structure Contributes [Add β] (L : Layout σ κ β) (k : κ) (x : β) (update : σ → σ) (fresh : σ) : Prop where
  inUse : ∀ s, L.inUse (update s) = L.inUse s
  key : ∀ s, L.key (update s) = L.key s
  value : ∀ s, L.value (update s) = L.value s + x
  freshInUse : L.inUse fresh = true
  freshKey : L.key fresh = k
  freshValue : L.value fresh = x

variable [AddCommMonoid β] {x : β} {update : σ → σ} {fresh : σ}

omit [NeZero n] [DecidableEq κ] in
theorem updated_read (hc : Contributes L k x update fresh) (i j : Fin n) :
    L.inUse (Function.update slots i (update (slots i)) j) = L.inUse (slots j) ∧
      L.key (Function.update slots i (update (slots i)) j) = L.key (slots j) := by
  by_cases h : j = i
  · subst h
    simp [hc.inUse, hc.key]
  · simp [h]

omit [NeZero n] [DecidableEq κ] in
theorem inserted_inUse (hc : Contributes L k x update fresh) {i j : Fin n} (h : L.inUse (slots j) = true) :
    L.inUse (Function.update slots i fresh j) = true := by
  by_cases hj : j = i
  · subst hj
    simpa using hc.freshInUse
  · simpa [hj] using h

/-! ### The probing invariant -/

omit [DecidableEq κ] in
theorem updated_wellProbed (hc : Contributes L k x update fresh) (hw : WellProbed L home slots) (i : Fin n) :
    WellProbed L home (Function.update slots i (update (slots i))) := by
  constructor
  · intro j hj
    simp only [(updated_read hc i _).1, (updated_read hc i _).2] at hj ⊢
    exact hw.reached j hj
  · intro j l hj hl hjl
    simp only [(updated_read hc i _).1, (updated_read hc i _).2] at hj hl hjl
    exact hw.distinct j l hj hl hjl

omit [DecidableEq κ] in
theorem inserted_wellProbed (hc : Contributes L k x update fresh) (hw : WellProbed L home slots) {f : ℕ} (hf : f < n)
    (hbefore : ∀ e < f, L.inUse (slots (position n (home k) e)) = true)
    (habsent : ∀ i, L.inUse (slots i) = true → L.key (slots i) ≠ k) :
    WellProbed L home (Function.update slots (position n (home k) f) fresh) := by
  constructor
  · intro j hj
    by_cases hjf : j = position n (home k) f
    · subst hjf
      simp only [Function.update_self, hc.freshKey]
      exact ⟨f,hf,rfl,fun e he => inserted_inUse hc (hbefore e he)⟩
    · simp only [Function.update_of_ne hjf] at hj ⊢
      obtain ⟨d,hd,hpos,huse⟩ := hw.reached j hj
      exact ⟨d,hd,hpos,fun e he => inserted_inUse hc (huse e he)⟩
  · intro j l hj hl hjl
    by_cases hjf : j = position n (home k) f
    · by_cases hlf : l = position n (home k) f
      · rw [hjf, hlf]
      · subst hjf
        simp only [Function.update_self, Function.update_of_ne hlf, hc.freshKey] at hl hjl
        exact absurd hjl.symm (habsent l hl)
    · by_cases hlf : l = position n (home k) f
      · subst hlf
        simp only [Function.update_self, Function.update_of_ne hjf, hc.freshKey] at hj hjl
        exact absurd hjl (habsent j hj)
      · simp only [Function.update_of_ne hjf, Function.update_of_ne hlf] at hj hl hjl
        exact hw.distinct j l hj hl hjl

/-- The probing invariant survives a contribution. -/
theorem upsert_wellProbed (hc : Contributes L k x update fresh) (hw : WellProbed L home slots) :
    WellProbed L home (upsert L slots (home k) k update fresh).1 := by
  rcases upsert_cases hw k update fresh with ⟨i,_,_,he⟩ | ⟨f,hf,_,hbefore,habsent,he⟩ | ⟨_,_,he⟩
  · rw [he]
    exact updated_wellProbed hc hw i
  · rw [he]
    exact inserted_wellProbed hc hw hf hbefore habsent
  · rw [he]
    exact hw

/-! ### The map of the table -/

section Map
variable {m : List (κ × β)} (hr : Represents L slots m)
include hr

omit [NeZero n] [DecidableEq κ] [AddCommMonoid β] in
theorem Represents.mem_keys_iff : k ∈ m.map Prod.fst ↔ ∃ i, L.inUse (slots i) = true ∧ L.key (slots i) = k := by
  rw [List.mem_map]
  constructor
  · rintro ⟨e,he,rfl⟩
    obtain ⟨i,hi,hk,_⟩ := (hr.mem e).mp he
    exact ⟨i,hi,hk⟩
  · rintro ⟨i,hi,hk⟩
    exact ⟨(k,L.value (slots i)),(hr.mem _).mpr ⟨i,hi,hk,rfl⟩,rfl⟩

omit [NeZero n] [DecidableEq κ] [AddCommMonoid β] in
/-- A free slot leaves room in the map. -/
theorem Represents.length_lt {i : Fin n} (hfree : L.inUse (slots i) = false) : m.length < n := by
  have hlt : (Finset.univ.filter (fun i => L.inUse (slots i) = true)).card < (Finset.univ : Finset (Fin n)).card := by
    apply Finset.card_lt_card
    rw [Finset.filter_ssubset]
    exact ⟨i,Finset.mem_univ _,by simp [hfree]⟩
  rw [hr.count, Finset.card_univ, Fintype.card_fin] at hlt
  exact hlt

omit [NeZero n] [DecidableEq κ] [AddCommMonoid β] in
theorem Represents.length_of_full (huse : ∀ i, L.inUse (slots i) = true) : m.length = n := by
  rw [← hr.count, Finset.filter_eq_self.mpr (fun i _ => huse i), Finset.card_univ, Fintype.card_fin]

/-- Updating the slot of a key adds to its entry. -/
theorem updated_represents (hc : Contributes L k x update fresh) (hw : WellProbed L home slots) {i : Fin n}
    (hi : L.inUse (slots i) = true) (hk : L.key (slots i) = k) :
    Represents L (Function.update slots i (update (slots i)))
      (m.map fun y => if y.1 = k then (y.1,y.2 + x) else y) := by
  constructor
  · rintro ⟨k',b⟩
    rw [List.mem_map]
    constructor
    · rintro ⟨y,hy,he⟩
      obtain ⟨j,hj,hjk,hjv⟩ := (hr.mem y).mp hy
      refine ⟨j,?_⟩
      by_cases hyk : y.1 = k
      · obtain rfl : j = i := hw.distinct j i hj hi (by rw [hjk, hyk, hk])
        simp only [hyk, ↓reduceIte, Prod.mk.injEq] at he
        simp [hc.inUse, hc.key, hc.value, hi, hk, hjv, he.1, he.2]
      · have hji : j ≠ i := by
          rintro rfl
          exact hyk (hjk.symm.trans hk)
        simp only [hyk, ↓reduceIte] at he
        subst he
        simp [hji, hj, hjk, hjv]
    · rintro ⟨j,hj,hjk,hjv⟩
      by_cases hji : j = i
      · subst hji
        simp only [Function.update_self, hc.inUse, hc.key, hc.value] at hj hjk hjv
        refine ⟨(k,L.value (slots j)),(hr.mem _).mpr ⟨j,hj,hk,rfl⟩,?_⟩
        simp [← hjk, hk, hjv]
      · simp only [Function.update_of_ne hji] at hj hjk hjv
        refine ⟨(k',b),(hr.mem _).mpr ⟨j,hj,hjk,hjv⟩,?_⟩
        have hne : k' ≠ k := by
          rintro rfl
          exact hji (hw.distinct j i hj hi (hjk.trans hk.symm))
        simp [hne]
  · simp only [(updated_read hc i _).1, List.length_map]
    exact hr.count

omit [NeZero n] [DecidableEq κ] in
/-- Taking a free slot adds an entry. -/
theorem inserted_represents (hc : Contributes L k x update fresh) {i : Fin n} (hfree : L.inUse (slots i) = false) :
    Represents L (Function.update slots i fresh) (m ++ [(k,x)]) := by
  constructor
  · intro e
    rw [List.mem_append, List.mem_singleton]
    constructor
    · rintro (he | rfl)
      · obtain ⟨j,hj,hjk,hjv⟩ := (hr.mem e).mp he
        have hji : j ≠ i := by
          rintro rfl
          rw [hfree] at hj
          cases hj
        exact ⟨j,by simp [hji, hj],by simp [hji, hjk],by simp [hji, hjv]⟩
      · exact ⟨i,by simp [hc.freshInUse],by simp [hc.freshKey],by simp [hc.freshValue]⟩
    · rintro ⟨j,hj,hjk,hjv⟩
      by_cases hji : j = i
      · subst hji
        simp only [Function.update_self, hc.freshKey, hc.freshValue] at hjk hjv
        exact .inr (Prod.ext hjk.symm hjv.symm)
      · simp only [Function.update_of_ne hji] at hj hjk hjv
        exact .inl ((hr.mem e).mpr ⟨j,hj,hjk,hjv⟩)
  · have hset : Finset.univ.filter (fun j => L.inUse (Function.update slots i fresh j) = true) =
        insert i (Finset.univ.filter (fun j => L.inUse (slots j) = true)) := by
      ext j
      by_cases hji : j = i
      · subst hji
        simp [hc.freshInUse]
      · simp [hji]
    rw [hset, Finset.card_insert_of_notMem (by simp [hfree]), hr.count]
    simp

/-- A contribution to the table is a contribution to the map it represents. -/
theorem upsert_represents (hc : Contributes L k x update fresh) (hw : WellProbed L home slots) :
    Represents L (upsert L slots (home k) k update fresh).1 (BoundedMap.record n m (k,x)) ∧
      (BoundedMap.record n m (k,x)).length = m.length + (upsert L slots (home k) k update fresh).2 := by
  rcases upsert_cases hw k update fresh with ⟨i,hi,hk,he⟩ | ⟨f,_,hfree,_,habsent,he⟩ | ⟨huse,habsent,he⟩
  · have hin : k ∈ m.map Prod.fst := hr.mem_keys_iff.mpr ⟨i,hi,hk⟩
    rw [he, BoundedMap.record, if_pos hin]
    exact ⟨updated_represents hr hc hw hi hk,by simp⟩
  · have hnew : k ∉ m.map Prod.fst := by
      rw [hr.mem_keys_iff]
      rintro ⟨i,hi,hk⟩
      exact habsent i hi hk
    rw [he, BoundedMap.record, if_neg hnew, if_pos (hr.length_lt hfree)]
    exact ⟨inserted_represents hr hc hfree,by simp⟩
  · have hnew : k ∉ m.map Prod.fst := by
      rw [hr.mem_keys_iff]
      rintro ⟨i,_,hk⟩
      exact habsent i hk
    rw [he, BoundedMap.record, if_neg hnew, if_neg (hr.length_of_full huse).not_lt]
    exact ⟨hr,rfl⟩

end Map

end Upserting

end OpenAddressing
