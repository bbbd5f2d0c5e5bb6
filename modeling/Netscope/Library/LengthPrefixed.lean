import Netscope.Library.ByteString

/-! # Length-prefixed strings

A sequence of strings of at most 255 bytes, each behind the byte of its length. A byte
string begins with a longest such sequence; what follows it is empty or a string that
is cut off.
-/
namespace LengthPrefixed
open ByteString

/-- A string whose length fits a byte. -/
abbrev ShortString := { s : Bytes // s.length < 256 }

def encodeString (s : ShortString) : Bytes := UInt8.ofNat s.val.length :: s.val

def encodeStrings (strings : List ShortString) : Bytes := (strings.map encodeString).flatten

/-- The text of a sequence: its strings without their lengths. -/
def joined (strings : List ShortString) : Bytes := (strings.map Subtype.val).flatten

/-- The longest sequence of complete strings at the beginning of a byte string. -/
structure IsLongest (bytes : Bytes) (strings : List ShortString) : Prop where
  isPrefix : encodeStrings strings <+: bytes
  longest : ∀ others, encodeStrings others <+: bytes → others <+: strings

def completeStrings : Bytes → List ShortString
  | [] => []
  | n :: rest =>
    if n.toNat ≤ rest.length then
      ⟨rest.take n.toNat,lt_of_le_of_lt (List.length_take_le _ _) n.toNat_lt⟩ :: completeStrings (rest.drop n.toNat)
    else []
termination_by bytes => bytes.length
decreasing_by
  rw [List.length_drop, List.length_cons]
  omega

theorem completeStrings_isPrefix (bytes : Bytes) : encodeStrings (completeStrings bytes) <+: bytes := by
  fun_induction completeStrings bytes with
  | case1 => exact List.nil_prefix
  | case2 n rest hle ih =>
    obtain ⟨tail,htail⟩ := ih
    refine ⟨tail,?_⟩
    have hlen : (rest.take n.toNat).length = n.toNat := List.length_take_of_le hle
    rw [encodeStrings, List.map_cons, List.flatten_cons, encodeString, List.append_assoc]
    change UInt8.ofNat (rest.take n.toNat).length :: (rest.take n.toNat ++ (encodeStrings _ ++ tail)) = n :: rest
    rw [htail, hlen, UInt8.ofNat_toNat, List.take_append_drop]
  | case3 => exact List.nil_prefix

theorem completeStrings_longest (others : List ShortString) (bytes : Bytes) (h : encodeStrings others <+: bytes) :
    others <+: completeStrings bytes := by
  induction others generalizing bytes with
  | nil => exact List.nil_prefix
  | cons s others ih =>
    obtain ⟨tail,rfl⟩ := h
    have hlen : (UInt8.ofNat s.val.length).toNat = s.val.length := UInt8.toNat_ofNat_of_lt' s.property
    have hbytes : encodeStrings (s :: others) ++ tail =
        UInt8.ofNat s.val.length :: (s.val ++ (encodeStrings others ++ tail)) := by
      simp [encodeStrings, encodeString]
    rw [hbytes, completeStrings, if_pos (by simp [hlen])]
    have htake : (s.val ++ (encodeStrings others ++ tail)).take (UInt8.ofNat s.val.length).toNat = s.val := by
      rw [hlen, List.take_left]
    have hdrop : (s.val ++ (encodeStrings others ++ tail)).drop (UInt8.ofNat s.val.length).toNat =
        encodeStrings others ++ tail := by
      rw [hlen, List.drop_left]
    rw [hdrop, List.cons_prefix_cons]
    exact ⟨Subtype.ext htake.symm,ih _ (List.prefix_append _ _)⟩

theorem completeStrings_isLongest (bytes : Bytes) : IsLongest bytes (completeStrings bytes) :=
  ⟨completeStrings_isPrefix bytes,fun others => completeStrings_longest others bytes⟩

theorem joined_cons (s : ShortString) (strings : List ShortString) : joined (s :: strings) = s.val ++ joined strings := rfl

end LengthPrefixed
