import Netscope.Checked.DnsNames
import Netscope.Library.Loops

/-! # The work of the name decoder

The loop of `ns_dns_decode_name` as single iterations. The position may jump anywhere
in the message, so the number of iterations is bounded by the pointers that may still
be followed and by the labels that still fit the buffer.
-/
namespace Netscope.NameWork
open ByteString DnsName Loops
open Checked (iterationsLeft iterationsLeft_label)

/-- The variables of the loop. -/
structure NameState where
  pos : ℕ
  text : Bytes
  endOffset : Option ℕ
  jumps : ℕ

/-- One iteration: a return or the break, or the state for the next iteration. -/
def nameIteration (data : Bytes) (outLen : ℕ) (s : NameState) : NameState ⊕ Parsed (Bytes × ℕ) :=
  if !nsBoundsCheck data.length s.pos 1 then .inr (.error .truncated)
  else
    let lenByte := u8 data s.pos
    if isPointer lenByte then
      if !nsBoundsCheck data.length s.pos 2 then .inr (.error .truncated)
      else if s.jumps + 1 > dnsMaxJumps then .inr (.error .malformed)
      else .inl ⟨pointerTarget data s.pos,s.text,some (s.endOffset.getD (s.pos + 2)),s.jumps + 1⟩
    else if lenByte &&& 0xC0 ≠ 0 then .inr (.error .malformed)
    else if lenByte = 0 then .inr (.ok (s.text,s.endOffset.getD (s.pos + 1)))
    else if !nsBoundsCheck data.length (s.pos + 1) lenByte.toNat then .inr (.error .truncated)
    else if s.text.length + lenByte.toNat + 1 ≥ outLen then .inr (.error .malformed)
    else .inl ⟨s.pos + 1 + lenByte.toNat,appendLabel s.text (chunk data (s.pos + 1) lenByte.toNat),s.endOffset,s.jumps⟩

/-- The state before the first iteration. -/
def startState (offset : ℕ) : NameState := ⟨offset,[],none,0⟩

/-- The decoder with a bound on the iterations of its loop. -/
def decodeNameWithin (fuel : ℕ) (data : Bytes) (offset outLen : ℕ) : Option (Parsed (Bytes × ℕ)) :=
  if outLen = 0 then some (.error .malformed)
  else (withFuel (nameIteration data outLen) fuel (startState offset)).map fun r =>
    r.map fun (text,endOffset) => (finishName text,endOffset)

section Work
variable {data : Bytes} {outLen : ℕ}

/-- The loop of the model takes one iteration at a time. -/
theorem decodeNameLoop_iteration (data : Bytes) (outLen : ℕ) (s : NameState) :
    decodeNameLoop data outLen s.pos s.text s.endOffset s.jumps =
      (nameIteration data outLen s).elim
        (fun s' => decodeNameLoop data outLen s'.pos s'.text s'.endOffset s'.jumps) id := by
  rw [decodeNameLoop, nameIteration]
  dsimp only
  repeat' split
  all_goals rfl

/-- The iterations after the current one. -/
def iterationsBehind (outLen : ℕ) (s : NameState) : ℕ := iterationsLeft outLen s.text s.jumps - 1

/-- An iteration that continues has followed a pointer or copied a label that fits. -/
theorem nameIteration_continues {s s' : NameState} (h : nameIteration data outLen s = .inl s') :
    (s.jumps + 1 ≤ dnsMaxJumps ∧ s'.text = s.text ∧ s'.jumps = s.jumps + 1) ∨
      ∃ label : Bytes, 1 ≤ label.length ∧ s.text.length + label.length + 1 < outLen ∧
        s'.text = appendLabel s.text label ∧ s'.jumps = s.jumps := by
  unfold nameIteration at h
  dsimp only at h
  split at h
  · cases h
  · split at h
    · -- a pointer
      split at h
      · cases h
      · split at h
        · cases h
        · rename_i hjumps
          obtain rfl := Sum.inl.inj h
          exact .inl ⟨not_lt.mp hjumps,rfl,rfl⟩
    · split at h
      · cases h
      · split at h
        · cases h
        · rename_i hzero
          split at h
          · cases h
          · rename_i hbounds
            split at h
            · cases h
            · -- a label
              rename_i hfit
              obtain rfl := Sum.inl.inj h
              have hlabel : (chunk data (s.pos + 1) (u8 data s.pos).toNat).length = (u8 data s.pos).toNat :=
                chunk_length (by simpa using hbounds)
              have hpos : 1 ≤ (u8 data s.pos).toNat :=
                Nat.pos_of_ne_zero fun hnat => hzero (UInt8.toNat_inj.mp hnat)
              refine .inr ⟨_,?_,?_,rfl,rfl⟩
              · rwa [hlabel]
              · rw [hlabel]
                exact not_le.mp hfit

/-- A pointer uses up one of the 32 jumps, a label two bytes of the buffer. -/
theorem iterationsBehind_lt {s s' : NameState} (h : nameIteration data outLen s = .inl s') :
    iterationsBehind outLen s' < iterationsBehind outLen s := by
  have hnext : 1 ≤ iterationsLeft outLen s'.text s'.jumps := Nat.le_add_left _ _
  have hstart : 1 ≤ iterationsLeft outLen s.text s.jumps := Nat.le_add_left _ _
  suffices hlt : iterationsLeft outLen s'.text s'.jumps < iterationsLeft outLen s.text s.jumps by
    unfold iterationsBehind
    omega
  rcases nameIteration_continues h with ⟨hjumps,htext,hjump⟩ | ⟨label,hpos,hfit,htext,hjump⟩
  · rw [htext, hjump]
    unfold iterationsLeft
    omega
  · have hlabel := iterationsLeft_label hpos hfit (Nat.sub_add_cancel hstart).ge
    rw [htext, hjump]
    omega

/-- The loop ends within `out_len / 2 + 33` iterations, whatever the message, and the loop
with that many iterations is the unbounded one. -/
theorem decodeNameLoop_bounded (data : Bytes) (offset outLen : ℕ) :
    (withFuel (nameIteration data outLen) (outLen / 2 + 33) (startState offset)).isSome = true ∧
      withFuel (nameIteration data outLen) (outLen / 2 + 33) (startState offset) =
        unbounded (nameIteration data outLen) (startState offset) ∧
      decodeNameWithin (outLen / 2 + 33) data offset outLen = some (nsDnsDecodeName data offset outLen) := by
  have hmeasure : iterationsBehind outLen (startState offset) < outLen / 2 + 33 := by
    have hjumps : dnsMaxJumps = 32 := rfl
    simp only [iterationsBehind, iterationsLeft, startState, ↓reduceIte]
    omega
  obtain ⟨hsome,heq⟩ := withFuel_eq_unbounded (iterationsBehind outLen) (fun s s' hs => iterationsBehind_lt hs) hmeasure
  refine ⟨hsome,heq,?_⟩
  obtain ⟨r,hr⟩ := Option.isSome_iff_exists.mp hsome
  have hloop : decodeNameLoop data outLen offset [] none 0 = r :=
    (withFuel_leaves hr).eq_of_iteration
      (f := fun s => decodeNameLoop data outLen s.pos s.text s.endOffset s.jumps) (decodeNameLoop_iteration data outLen)
  unfold decodeNameWithin nsDnsDecodeName
  split
  · rfl
  · rw [hr, hloop]
    cases r <;> rfl

end Work

/-- A message whose only name points to itself. -/
def selfPointer : Bytes := List.replicate 12 0 ++ [0xC0,0x0C]

example : decodeNameWithin 32 selfPointer 12 256 = none ∧
    decodeNameWithin 33 selfPointer 12 256 = some (.error .malformed) := by decide +kernel

end Netscope.NameWork
