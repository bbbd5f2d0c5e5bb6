import Netscope.Model.Filter

/-! # What the filter builder writes

The builder joins its pieces with ` and ` for as long as they fit the output, and
writes nothing outside of it. Pieces with an argument pass through a buffer of 128
bytes first: a longer one is cut there, and the cut piece is what the output has to
hold.
-/
namespace Netscope.FilterExpression
open ByteString Numerals PartialMemory

/-- The separator of the pieces. -/
abbrev conjunction : Bytes := ascii " and "

/-- The text after one more piece. -/
def joinPiece (text piece : Bytes) : Bytes := (if text ≠ [] then text ++ conjunction else text) ++ piece

theorem length_le_foldl_joinPiece (text : Bytes) (pieces : List Bytes) :
    text.length ≤ (pieces.foldl joinPiece text).length := by
  induction pieces generalizing text with
  | nil => exact le_rfl
  | cons piece pieces ih =>
    apply le_trans _ (ih (joinPiece text piece))
    unfold joinPiece
    split <;> simp

theorem foldl_joinPiece_of_ne_nil {text : Bytes} (pieces : List Bytes) (h : text ≠ []) :
    pieces.foldl joinPiece text = text ++ pieces.flatMap (fun p => conjunction ++ p) := by
  induction pieces generalizing text with
  | nil => simp
  | cons piece pieces ih =>
    have hne : joinPiece text piece ≠ [] := by simp [joinPiece, h]
    rw [List.foldl_cons, ih hne, List.flatMap_cons, joinPiece, if_pos h]
    simp only [List.append_assoc]

theorem intercalate_conjunction (piece : Bytes) (pieces : List Bytes) :
    conjunction.intercalate (piece :: pieces) = piece ++ pieces.flatMap (fun p => conjunction ++ p) := by
  induction pieces generalizing piece with
  | nil => simp
  | cons p pieces ih =>
    rw [List.intercalate_cons_cons, ih, List.flatMap_cons, List.append_assoc, List.append_assoc]

/-- Joining the pieces one by one spells the whole expression. -/
theorem foldl_joinPiece {pieces : List Bytes} (h : ∀ p ∈ pieces, p ≠ []) :
    pieces.foldl joinPiece [] = conjunction.intercalate pieces := by
  cases pieces with
  | nil => rfl
  | cons piece pieces =>
    have hne : piece ≠ [] := h piece List.mem_cons_self
    rw [List.foldl_cons, intercalate_conjunction]
    exact foldl_joinPiece_of_ne_nil pieces hne

/-! ## The buffer -/

/-- A buffer of a given length that begins with a text. -/
def BeginsWith (len : ℕ) (text : Bytes) (out : Cells) : Prop := out.length = len ∧ ∃ rest, out = holding text rest

theorem BeginsWith.of_append {len : ℕ} {text more : Bytes} {out : Cells} (h : BeginsWith len (text ++ more) out) :
    BeginsWith len text out := by
  obtain ⟨hlen,rest,rfl⟩ := h
  refine ⟨hlen,more.map some ++ rest,?_⟩
  simp [holding]

section Append
variable {len : ℕ} {text piece : Bytes} {out : Cells}

theorem BeginsWith.storeRange (h : BeginsWith len text out) (hfit : text.length + piece.length ≤ len) :
    ∃ out', PartialMemory.storeRange out text.length piece = .ok out' ∧ BeginsWith len (text ++ piece) out' := by
  obtain ⟨hlen,rest,rfl⟩ := h
  rw [holding_length] at hlen
  refine ⟨_,storeRange_holding text piece (by omega),?_,_,rfl⟩
  rw [holding_length, List.length_append, List.length_drop]
  omega

theorem BeginsWith.store (h : BeginsWith len text out) (b : UInt8) (hfit : text.length < len) :
    ∃ out', PartialMemory.store out text.length b = .ok out' ∧ BeginsWith len (text ++ [b]) out' := by
  obtain ⟨hlen,rest,rfl⟩ := h
  rw [holding_length] at hlen
  refine ⟨_,store_holding text b (by omega),?_,_,rfl⟩
  rw [holding_length, List.length_append, List.length_singleton, List.length_drop]
  omega

theorem appendText_fits (h : BeginsWith len text out) (hfit : (text ++ piece).length < len) :
    ∃ out', appendText out text.length piece = .ok (true,out',(text ++ piece).length) ∧
      BeginsWith len (text ++ piece ++ [0]) out' := by
  rw [List.length_append] at hfit
  obtain ⟨out₁,hstore,hout₁⟩ := h.storeRange hfit.le
  obtain ⟨out₂,hnul,hout₂⟩ := hout₁.store 0 (by rw [List.length_append]; exact hfit)
  refine ⟨out₂,?_,hout₂⟩
  rw [List.length_append] at hnul ⊢
  rw [appendText, if_neg (by rw [h.1]; omega), hstore, ok_bind, hnul]
  rfl

theorem appendText_overflows (h : out.length = len) (hfit : ¬(text ++ piece).length < len) :
    appendText out text.length piece = .ok (false,out,text.length) := by
  rw [List.length_append] at hfit
  rw [appendText, if_pos (by omega)]
  rfl

/-- A piece that fits is appended behind the separator and followed by a NUL. -/
theorem append_fits (h : BeginsWith len text out) (hfit : (joinPiece text piece).length < len) :
    ∃ out', append out text.length piece = .ok (true,out',(joinPiece text piece).length) ∧
      BeginsWith len (joinPiece text piece ++ [0]) out' := by
  by_cases htext : text = []
  · subst htext
    exact appendText_fits h hfit
  · rw [joinPiece, if_pos htext] at hfit ⊢
    have hpos : text.length ≠ 0 := fun h0 => htext (List.eq_nil_of_length_eq_zero h0)
    have hsep : conjunction.length = 5 := by decide
    have hsum : (text ++ conjunction).length = text.length + 5 := by rw [List.length_append, hsep]
    rw [List.length_append, hsum] at hfit
    obtain ⟨out₁,hstore,hout₁⟩ := @BeginsWith.storeRange len text conjunction out h (by omega)
    obtain ⟨out₂,htail,hout₂⟩ := @appendText_fits len _ piece out₁ hout₁ (by rw [List.length_append, hsum]; exact hfit)
    refine ⟨out₂,?_,hout₂⟩
    rw [append, if_pos hpos, if_neg (by rw [h.1]; omega), hstore, ok_bind, ← hsum]
    exact htail

/-- A piece that does not fit makes `append` fail inside of the buffer. -/
theorem append_overflows (h : BeginsWith len text out) (hfit : ¬(joinPiece text piece).length < len) :
    ∃ out' pos, append out text.length piece = .ok (false,out',pos) ∧ out'.length = len := by
  by_cases htext : text = []
  · subst htext
    exact ⟨out,0,appendText_overflows h.1 hfit,h.1⟩
  · rw [joinPiece, if_pos htext] at hfit
    have hpos : text.length ≠ 0 := fun h0 => htext (List.eq_nil_of_length_eq_zero h0)
    have hsep : conjunction.length = 5 := by decide
    have hsum : (text ++ conjunction).length = text.length + 5 := by rw [List.length_append, hsep]
    by_cases hroom : text.length + 4 ≥ out.length
    · exact ⟨out,text.length,by rw [append, if_pos hpos, if_pos hroom]; rfl,h.1⟩
    · rw [h.1] at hroom
      obtain ⟨out₁,hstore,hout₁⟩ := @BeginsWith.storeRange len text conjunction out h (by omega)
      refine ⟨out₁,(text ++ conjunction).length,?_,hout₁.1⟩
      rw [append, if_pos hpos, if_neg (by rw [h.1]; exact hroom), hstore, ok_bind, ← hsum]
      exact appendText_overflows hout₁.1 hfit

theorem appendAll_fits {pieces : List Bytes} (h : BeginsWith len (text ++ [0]) out)
    (hfit : (pieces.foldl joinPiece text).length < len) :
    ∃ out', appendAll pieces out text.length = .ok (true,out') ∧ BeginsWith len (pieces.foldl joinPiece text ++ [0]) out' := by
  induction pieces generalizing text out with
  | nil => exact ⟨out,rfl,h⟩
  | cons piece pieces ih =>
    rw [List.foldl_cons] at hfit ⊢
    have hle := length_le_foldl_joinPiece (joinPiece text piece) pieces
    obtain ⟨out₁,happend,hout₁⟩ := append_fits h.of_append (lt_of_le_of_lt hle hfit)
    obtain ⟨out₂,hrest,hout₂⟩ := ih hout₁ hfit
    refine ⟨out₂,?_,hout₂⟩
    rw [appendAll, happend, ok_bind]
    exact hrest

theorem appendAll_overflows {pieces : List Bytes} (h : BeginsWith len text out) (hlt : text.length < len)
    (hfit : ¬(pieces.foldl joinPiece text).length < len) :
    ∃ out', appendAll pieces out text.length = .ok (false,out') ∧ out'.length = len := by
  induction pieces generalizing text out with
  | nil => exact absurd hlt hfit
  | cons piece pieces ih =>
    rw [List.foldl_cons] at hfit
    by_cases hpiece : (joinPiece text piece).length < len
    · obtain ⟨out₁,happend,hout₁⟩ := append_fits h hpiece
      obtain ⟨out₂,hrest,hout₂⟩ := ih hout₁.of_append hpiece hfit
      refine ⟨out₂,?_,hout₂⟩
      rw [appendAll, happend, ok_bind]
      exact hrest
    · obtain ⟨out₁,pos,happend,hout₁⟩ := append_overflows h hpiece
      refine ⟨out₁,?_,hout₁⟩
      rw [appendAll, happend, ok_bind]
      rfl

end Append

/-! ## The expression that was asked for -/

/-- The pieces of a filter with their whole arguments. -/
def fullPieces (spec : FilterSpec) : List Bytes :=
  (if spec.tcp then [ascii "tcp"] else []) ++ (if spec.udp then [ascii "udp"] else []) ++
    (if spec.icmp then [ascii "icmp"] else []) ++
    (if spec.port ≥ 0 then [ascii "port " ++ signedDecimal spec.port.toInt] else []) ++
    ((nonEmpty spec.host).map fun s => ascii "host " ++ s).toList ++
    ((nonEmpty spec.src).map fun s => ascii "src host " ++ s).toList ++
    ((nonEmpty spec.dst).map fun s => ascii "dst host " ++ s).toList

/-- The filter expression of a specification. -/
def expression (spec : FilterSpec) : Bytes := (nonEmpty spec.raw).getD (conjunction.intercalate (fullPieces spec))

/-- The expression whose pieces have passed through the buffer of 128 bytes. -/
def cutExpression (spec : FilterSpec) : Bytes := conjunction.intercalate ((fullPieces spec).map (snprintf pieceSize))

theorem filterPieces_eq (spec : FilterSpec) : filterPieces spec = (fullPieces spec).map (snprintf pieceSize) := by
  unfold filterPieces fullPieces
  have htcp : snprintf pieceSize (ascii "tcp") = ascii "tcp" := by decide
  have hudp : snprintf pieceSize (ascii "udp") = ascii "udp" := by decide
  have hicmp : snprintf pieceSize (ascii "icmp") = ascii "icmp" := by decide
  have hif : ∀ (c : Prop) [Decidable c] (p : Bytes), (if c then [p] else []).map (snprintf pieceSize) =
      if c then [snprintf pieceSize p] else [] := by
    intro c _ p
    split <;> rfl
  have hopt : ∀ (o : Option Bytes) (f : Bytes → Bytes), ((o.map f).toList).map (snprintf pieceSize) =
      (o.map fun s => snprintf pieceSize (f s)).toList := by
    intro o f
    cases o <;> rfl
  simp only [List.map_append, hif, hopt, htcp, hudp, hicmp]

theorem nul_notMem_of_nonEmpty {o : Option CString} {s : Bytes} (h : nonEmpty o = some s) : 0 ∉ s := by
  obtain ⟨hmap,-⟩ := Option.filter_eq_some_iff.mp h
  obtain ⟨c,-,rfl⟩ := Option.map_eq_some_iff.mp hmap
  exact c.nul_notMem

/-- A property of the keywords and of the pieces with an argument is one of all pieces. -/
theorem forall_mem_fullPieces {spec : FilterSpec} (P : Bytes → Prop) (htcp : P (ascii "tcp")) (hudp : P (ascii "udp"))
    (hicmp : P (ascii "icmp")) (hport : P (ascii "port " ++ signedDecimal spec.port.toInt))
    (hhost : ∀ s, nonEmpty spec.host = some s → P (ascii "host " ++ s))
    (hsrc : ∀ s, nonEmpty spec.src = some s → P (ascii "src host " ++ s))
    (hdst : ∀ s, nonEmpty spec.dst = some s → P (ascii "dst host " ++ s)) : ∀ p ∈ fullPieces spec, P p := by
  have hkeyword : ∀ (c : Prop) [Decidable c] (q : Bytes), P q → ∀ p ∈ (if c then [q] else []), P p := by
    intro c _ q hq p hmem
    split at hmem
    · rwa [List.mem_singleton.mp hmem]
    · cases hmem
  have hargument : ∀ (o : Option CString) (key : Bytes), (∀ s, nonEmpty o = some s → P (key ++ s)) →
      ∀ p ∈ ((nonEmpty o).map fun s => key ++ s).toList, P p := by
    intro o key hkey p hmem
    obtain ⟨s,hs,rfl⟩ := Option.map_eq_some_iff.mp (Option.mem_toList.mp hmem)
    exact hkey s hs
  simp only [fullPieces, List.forall_mem_append]
  exact ⟨⟨⟨⟨⟨⟨hkeyword _ _ htcp,hkeyword _ _ hudp⟩,hkeyword _ _ hicmp⟩,hkeyword _ _ hport⟩,hargument _ _ hhost⟩,
    hargument _ _ hsrc⟩,hargument _ _ hdst⟩

theorem ne_nil_of_mem_fullPieces {spec : FilterSpec} : ∀ p ∈ fullPieces spec, p ≠ [] := by
  apply forall_mem_fullPieces (· ≠ []) (by decide) (by decide) (by decide)
  · exact List.append_ne_nil_of_left_ne_nil (by decide) _
  · intro s _
    exact List.append_ne_nil_of_left_ne_nil (by decide) s
  · intro s _
    exact List.append_ne_nil_of_left_ne_nil (by decide) s
  · intro s _
    exact List.append_ne_nil_of_left_ne_nil (by decide) s

theorem nul_notMem_signedDecimal (n : ℤ) : 0 ∉ signedDecimal n := by
  have hdigits : 0 ∉ decimal n.natAbs := by
    intro hmem
    obtain ⟨d,hd,h0⟩ := mem_numeral (by norm_num) hmem
    exact (digitByte_ne_separator (show d < 16 by omega)).2.2 h0.symm
  unfold signedDecimal
  split
  · simpa using hdigits
  · exact hdigits

theorem nul_notMem_fullPieces {spec : FilterSpec} : ∀ p ∈ fullPieces spec, 0 ∉ p := by
  have happend : ∀ key s : Bytes, 0 ∉ key → 0 ∉ s → 0 ∉ key ++ s := by
    intro key s hkey hs hmem
    rcases List.mem_append.mp hmem with h | h
    · exact hkey h
    · exact hs h
  apply forall_mem_fullPieces (0 ∉ ·) (by decide) (by decide) (by decide)
  · exact happend _ _ (by decide) (nul_notMem_signedDecimal _)
  · intro s hs
    exact happend _ _ (by decide) (nul_notMem_of_nonEmpty hs)
  · intro s hs
    exact happend _ _ (by decide) (nul_notMem_of_nonEmpty hs)
  · intro s hs
    exact happend _ _ (by decide) (nul_notMem_of_nonEmpty hs)

theorem nul_notMem_intercalate {pieces : List Bytes} (h : ∀ p ∈ pieces, 0 ∉ p) : 0 ∉ conjunction.intercalate pieces := by
  cases pieces with
  | nil => decide
  | cons piece pieces =>
    rw [intercalate_conjunction, List.mem_append, not_or, List.mem_flatMap]
    refine ⟨h piece List.mem_cons_self,?_⟩
    rintro ⟨p,hmem,h0⟩
    rcases List.mem_append.mp h0 with hsep | hp
    · exact absurd hsep (by decide)
    · exact h p (List.mem_cons_of_mem _ hmem) hp

/-- The expression is a C string. -/
theorem nul_notMem_expression (spec : FilterSpec) : 0 ∉ expression spec := by
  unfold expression
  cases hraw : nonEmpty spec.raw with
  | some raw => exact nul_notMem_of_nonEmpty hraw
  | none => exact nul_notMem_intercalate nul_notMem_fullPieces

theorem foldl_filterPieces (spec : FilterSpec) : (filterPieces spec).foldl joinPiece [] = cutExpression spec := by
  rw [filterPieces_eq]
  apply foldl_joinPiece
  intro p hp
  obtain ⟨q,hq,rfl⟩ := List.mem_map.mp hp
  intro hnil
  rcases List.take_eq_nil_iff.mp hnil with h | h
  · cases h
  · exact ne_nil_of_mem_fullPieces q hq h

/-- The expression that the builder tries to write. -/
def writtenExpression (spec : FilterSpec) : Bytes := (nonEmpty spec.raw).getD (cutExpression spec)

theorem nul_notMem_writtenExpression (spec : FilterSpec) : 0 ∉ writtenExpression spec := by
  unfold writtenExpression
  cases hraw : nonEmpty spec.raw with
  | some raw => exact nul_notMem_of_nonEmpty hraw
  | none =>
    apply nul_notMem_intercalate
    intro p hp
    obtain ⟨q,hq,rfl⟩ := List.mem_map.mp hp
    exact fun h0 => nul_notMem_fullPieces q hq (List.mem_of_mem_take h0)

/-- What the builder does, whatever the specification: it writes its expression when
that fits, and stays inside of the buffer. -/
theorem nsFilterBuildBpf_spec (spec : FilterSpec) {out : Cells} (hout : 1 ≤ out.length) :
    ∃ ok out', nsFilterBuildBpf spec out = .ok (ok,out') ∧ (ok = true ↔ (writtenExpression spec).length < out.length) ∧
      (ok = true → BeginsWith out.length (writtenExpression spec ++ [0]) out') := by
  have hbegin : BeginsWith out.length [] out := ⟨rfl,out,rfl⟩
  obtain ⟨out₁,hfirst,hout₁⟩ := hbegin.store 0 hout
  unfold nsFilterBuildBpf writtenExpression
  rw [if_neg (by omega), show store out 0 0 = .ok out₁ from hfirst, ok_bind]
  cases hraw : nonEmpty spec.raw with
  | some raw =>
    rw [Option.getD_some]
    by_cases hfit : raw.length < out.length
    · have hempty : BeginsWith out.length [] out₁ := ⟨hout₁.1,out₁,rfl⟩
      obtain ⟨out₂,hcopy,hout₂⟩ := @BeginsWith.storeRange _ _ (raw ++ [0]) _ hempty (by
        rw [List.length_append, List.length_singleton, List.length_nil]
        omega)
      have hcopy : storeRange out₁ 0 (raw ++ [0]) = .ok out₂ := hcopy
      refine ⟨true,out₂,?_,iff_of_true rfl hfit,fun _ => hout₂⟩
      dsimp only
      rw [if_neg (by rw [hout₁.1]; omega), hcopy]
      rfl
    · refine ⟨false,out₁,?_,iff_of_false Bool.false_ne_true hfit,fun h => absurd h Bool.false_ne_true⟩
      dsimp only
      rw [if_pos (by rw [hout₁.1]; omega)]
      rfl
  | none =>
    rw [Option.getD_none, ← foldl_filterPieces]
    by_cases hfit : ((filterPieces spec).foldl joinPiece []).length < out.length
    · obtain ⟨out₂,hall,hout₂⟩ := appendAll_fits hout₁ hfit
      exact ⟨true,out₂,hall,iff_of_true rfl hfit,fun _ => hout₂⟩
    · have hempty : BeginsWith out.length [] out₁ := ⟨hout₁.1,out₁,rfl⟩
      obtain ⟨out₂,hall,hout₂⟩ := appendAll_overflows hempty hout hfit
      exact ⟨false,out₂,hall,iff_of_false Bool.false_ne_true hfit,fun h => absurd h Bool.false_ne_true⟩

/-! ## When the expression is kept -/

/-- The builder never alters the expression: it succeeds exactly when the expression
fits, and then the buffer holds the expression and its NUL. -/
def KeepsExpression (spec : FilterSpec) (out : Cells) : Prop :=
  ∃ ok out', nsFilterBuildBpf spec out = .ok (ok,out') ∧ (ok = true ↔ (expression spec).length < out.length) ∧
    (ok = true → BeginsWith out.length (expression spec ++ [0]) out')

theorem length_intercalate_conjunction {pieces : List Bytes} (h : pieces ≠ []) :
    (conjunction.intercalate pieces).length + 5 = (pieces.map fun p => p.length + 5).sum := by
  cases pieces with
  | nil => exact absurd rfl h
  | cons piece pieces =>
    rw [intercalate_conjunction, List.length_append, List.length_flatMap, List.map_cons, List.sum_cons]
    have hsep : ∀ p : Bytes, (conjunction ++ p).length = p.length + 5 := by
      intro p
      rw [List.length_append, Nat.add_comm]
      rfl
    simp only [hsep]
    omega

/-- Cutting a piece makes the expression shorter. -/
theorem cutExpression_length_lt {spec : FilterSpec} {piece : Bytes} (hmem : piece ∈ fullPieces spec)
    (hlong : pieceSize ≤ piece.length) : (cutExpression spec).length < (conjunction.intercalate (fullPieces spec)).length := by
  have hne : fullPieces spec ≠ [] := List.ne_nil_of_mem hmem
  have hcut := @length_intercalate_conjunction ((fullPieces spec).map (snprintf pieceSize)) (by simpa using hne)
  have hfull := length_intercalate_conjunction hne
  have hsum : ((fullPieces spec).map fun p => (snprintf pieceSize p).length + 5).sum <
      ((fullPieces spec).map fun p => p.length + 5).sum := by
    apply List.sum_lt_sum
    · intro p _
      have hle : (snprintf pieceSize p).length ≤ p.length := List.length_take_le' _ _
      omega
    · refine ⟨piece,hmem,?_⟩
      have hle : (snprintf pieceSize piece).length ≤ 127 := List.length_take_le _ _
      have hlong : 128 ≤ piece.length := hlong
      omega
  rw [List.map_map] at hcut
  change (cutExpression spec).length + 5 = ((fullPieces spec).map fun p => (snprintf pieceSize p).length + 5).sum at hcut
  omega

theorem cutExpression_of_short {spec : FilterSpec} (h : ∀ piece ∈ fullPieces spec, piece.length < pieceSize) :
    cutExpression spec = conjunction.intercalate (fullPieces spec) := by
  have hid : (fullPieces spec).map (snprintf pieceSize) = (fullPieces spec).map id :=
    List.map_congr_left (fun piece hmem => snprintf_of_lt (h piece hmem))
  rw [cutExpression, hid, List.map_id]

theorem keepsExpression_of_eq {spec : FilterSpec} {out : Cells} (hout : 1 ≤ out.length)
    (h : writtenExpression spec = expression spec) : KeepsExpression spec out := by
  obtain ⟨ok,out',hbuild,hok,hwritten⟩ := nsFilterBuildBpf_spec spec hout
  rw [h] at hok hwritten
  exact ⟨ok,out',hbuild,hok,hwritten⟩

/-- A shorter expression is accepted in place of the one that was asked for. -/
theorem not_keepsExpression {spec : FilterSpec} {out : Cells} (hout : 1 ≤ out.length)
    (hshort : (writtenExpression spec).length < (expression spec).length)
    (hfit : (writtenExpression spec).length < out.length) : ¬KeepsExpression spec out := by
  rintro ⟨ok,out',hbuild,-,hkept⟩
  obtain ⟨ok₁,out₁,hbuild₁,hok₁,hwritten⟩ := nsFilterBuildBpf_spec spec hout
  rw [hbuild] at hbuild₁
  obtain ⟨rfl,rfl⟩ := Prod.mk.inj (Except.ok.inj hbuild₁)
  have htrue := hok₁.mpr hfit
  obtain ⟨-,rest,hout'⟩ := hkept htrue
  obtain ⟨-,rest₁,hout₁⟩ := hwritten htrue
  -- Behind the shorter expression stands a NUL, where the other has a byte of its own.
  have hcell : some (some ((expression spec)[(writtenExpression spec).length])) = some (some 0) := by
    have h := hout'.symm.trans hout₁
    have h := congrArg (fun cells : Cells => cells[(writtenExpression spec).length]?) h
    simpa [holding, List.getElem?_append, hshort] using h
  have hzero := Option.some.inj (Option.some.inj hcell)
  apply nul_notMem_expression spec
  rw [← hzero]
  exact List.getElem_mem hshort

/-- The builder alters a filter exactly when it has no raw expression, a piece of it
exceeds 127 bytes, and the expression of the cut pieces fits the output. -/
theorem nsFilterBuildBpf_keeps_iff (spec : FilterSpec) (out : Cells) (hout : 1 ≤ out.length) :
    KeepsExpression spec out ↔ nonEmpty spec.raw ≠ none ∨ (∀ piece ∈ fullPieces spec, piece.length < pieceSize) ∨
      out.length ≤ (cutExpression spec).length := by
  cases hraw : nonEmpty spec.raw with
  | some raw =>
    have heq : writtenExpression spec = expression spec := by rw [writtenExpression, expression, hraw]; rfl
    exact iff_of_true (keepsExpression_of_eq hout heq) (.inl (Option.some_ne_none raw))
  | none =>
    have hwritten : writtenExpression spec = cutExpression spec := by rw [writtenExpression, hraw]; rfl
    have hexpr : expression spec = conjunction.intercalate (fullPieces spec) := by rw [expression, hraw]; rfl
    by_cases hshort : ∀ piece ∈ fullPieces spec, piece.length < pieceSize
    · have heq : writtenExpression spec = expression spec := by rw [hwritten, hexpr, cutExpression_of_short hshort]
      exact iff_of_true (keepsExpression_of_eq hout heq) (.inr (.inl hshort))
    · obtain ⟨piece,hmem,hlong⟩ : ∃ piece ∈ fullPieces spec, pieceSize ≤ piece.length := by
        by_contra hnone
        exact hshort (fun piece hmem => Nat.lt_of_not_le (fun h => hnone ⟨piece,hmem,h⟩))
      have hlt : (writtenExpression spec).length < (expression spec).length := by
        rw [hwritten, hexpr]
        exact cutExpression_length_lt hmem hlong
      by_cases hfit : out.length ≤ (cutExpression spec).length
      · -- Neither expression fits, and the builder says so.
        apply iff_of_true _ (.inr (.inr hfit))
        obtain ⟨ok,out',hbuild,hok,-⟩ := nsFilterBuildBpf_spec spec hout
        rw [hwritten] at hok hlt
        have hfalse : ¬ok = true := fun h => absurd (hok.mp h) (by omega)
        exact ⟨ok,out',hbuild,iff_of_false hfalse (by omega),fun h => absurd h hfalse⟩
      · apply iff_of_false
        · exact not_keepsExpression hout hlt (by rw [hwritten]; omega)
        · rintro (h | h | h)
          · exact h rfl
          · exact hshort h
          · exact hfit h

/-! ## A long host -/

theorem nul_notMem_letters (n : ℕ) : 0 ∉ List.replicate n (97 : UInt8) := by
  intro h
  exact absurd (List.eq_of_mem_replicate h) (by decide)

/-- A filter for a host whose name has `n` letters. -/
def hostFilter (n : ℕ) : FilterSpec where
  tcp := false
  udp := false
  icmp := false
  port := -1
  host := some ⟨List.replicate n 97,nul_notMem_letters n⟩
  src := none
  dst := none
  raw := none

theorem nsFilterBuildBpf_keeps_iff_short :
    1 ≤ (fresh 512).length ∧ (KeepsExpression (hostFilter 9) (fresh 512) ↔ nonEmpty (hostFilter 9).raw ≠ none ∨
      (∀ piece ∈ fullPieces (hostFilter 9), piece.length < pieceSize) ∨
      (fresh 512).length ≤ (cutExpression (hostFilter 9)).length) :=
  ⟨by simp,nsFilterBuildBpf_keeps_iff (hostFilter 9) (fresh 512) (by simp)⟩

/-- A name of 200 letters is shortened to 122 without a diagnostic. -/
theorem longHost_altered :
    (∃ rest, nsFilterBuildBpf (hostFilter 200) (fresh 512) =
      .ok (true,holding (ascii "host " ++ List.replicate 122 97 ++ [0]) rest)) ∧
      expression (hostFilter 200) = ascii "host " ++ List.replicate 200 97 ∧
      ¬KeepsExpression (hostFilter 200) (fresh 512) := by
  refine ⟨⟨fresh 384,by decide +kernel⟩,by decide +kernel,?_⟩
  exact not_keepsExpression (by simp) (by decide +kernel) (by decide +kernel)

end Netscope.FilterExpression
