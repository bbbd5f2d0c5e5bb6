import Netscope.Library.Numerals

/-! # JSON texts

A reader for the whole JSON grammar on byte strings, restricted to texts whose
characters are ASCII; other characters enter a string through escapes. A string is the
list of its UTF-16 code units, a number is a mantissa with a decimal exponent.
-/
namespace Json
open ByteString Numerals

inductive Value where
  | null
  | bool (b : Bool)
  | number (mantissa exponent : ℤ)
  | string (units : List UInt16)
  | array (items : List Value)
  | object (members : List (List UInt16 × Value))

abbrev quote : UInt8 := 34
abbrev backslash : UInt8 := 92
abbrev comma : UInt8 := 44
abbrev colon : UInt8 := 58
abbrev openBracket : UInt8 := 91
abbrev closeBracket : UInt8 := 93
abbrev openBrace : UInt8 := 123
abbrev closeBrace : UInt8 := 125

def isSpace (c : UInt8) : Bool := c = 32 ∨ c = 9 ∨ c = 10 ∨ c = 13
def isDigit (c : UInt8) : Bool := 48 ≤ c ∧ c ≤ 57

def skipSpace (s : Bytes) : Bytes := s.dropWhile isSpace

/-! ## Strings -/

/-- The value of a hexadecimal digit of either case. -/
def hexDigit (c : UInt8) : Option UInt16 :=
  if 48 ≤ c ∧ c ≤ 57 then some (c.toUInt16 - 48)
  else if 97 ≤ c ∧ c ≤ 102 then some (c.toUInt16 - 87)
  else if 65 ≤ c ∧ c ≤ 70 then some (c.toUInt16 - 55)
  else none

/-- The code unit of the escape with these four digits. -/
def hexUnit (a b c d : UInt8) : Option UInt16 := do
  let a ← hexDigit a
  let b ← hexDigit b
  let c ← hexDigit c
  let d ← hexDigit d
  return a * 4096 + b * 256 + c * 16 + d

/-- The code unit of an escape of two characters. -/
def escapedUnit (c : UInt8) : Option UInt16 :=
  if c = quote then some 34
  else if c = backslash then some 92
  else if c = 47 then some 47
  else if c = 98 then some 8
  else if c = 102 then some 12
  else if c = 110 then some 10
  else if c = 114 then some 13
  else if c = 116 then some 9
  else none

/-- The characters of a string, behind its opening quote. -/
def readChars : Bytes → Option (List UInt16 × Bytes)
  | [] => none
  | c :: rest =>
    if c = quote then some ([],rest)
    else if c = backslash then
      match rest with
      | [] => none
      | e :: rest =>
        if e = 117 then
          match rest with
          | a :: b :: c :: d :: rest => do
            let unit ← hexUnit a b c d
            let (units,rest) ← readChars rest
            return (unit :: units,rest)
          | _ => none
        else do
          let unit ← escapedUnit e
          let (units,rest) ← readChars rest
          return (unit :: units,rest)
    else if 32 ≤ c ∧ c < 128 then do
      let (units,rest) ← readChars rest
      return (c.toUInt16 :: units,rest)
    else none

/-! ## Numbers -/

/-- The digits at the front. -/
def digits (s : Bytes) : Bytes := s.takeWhile isDigit

/-- The fraction of a number, without its point. -/
def readFraction (s : Bytes) : Option (Bytes × Bytes) :=
  match s with
  | 46 :: rest => if digits rest = [] then none else some (digits rest,rest.drop (digits rest).length)
  | _ => some ([],s)

/-- The digits of an exponent, behind its sign. -/
def readExponentDigits (negative : Bool) (s : Bytes) : Option (ℤ × Bytes) :=
  if digits s = [] then none
  else
    let magnitude : ℤ := value 10 (digits s)
    some (if negative then -magnitude else magnitude,s.drop (digits s).length)

def readExponent (s : Bytes) : Option (ℤ × Bytes) :=
  match s with
  | e :: rest =>
    if e = 101 ∨ e = 69 then
      match rest with
      | 43 :: rest => readExponentDigits false rest
      | 45 :: rest => readExponentDigits true rest
      | _ => readExponentDigits false rest
    else some (0,s)
  | [] => some (0,s)

/-- A number behind its sign. -/
def readUnsigned (negative : Bool) (s : Bytes) : Option (Value × Bytes) :=
  let int := digits s
  if int = [] ∨ (int.length > 1 ∧ int.head? = some 48) then none
  else do
    let (fraction,rest) ← readFraction (s.drop int.length)
    let (exponent,rest) ← readExponent rest
    let magnitude : ℤ := value 10 (int ++ fraction)
    return (.number (if negative then -magnitude else magnitude) (exponent - fraction.length),rest)

def readNumber (s : Bytes) : Option (Value × Bytes) :=
  match s with
  | 45 :: rest => readUnsigned true rest
  | _ => readUnsigned false s

/-! ## Sequences and values -/

section Sequence
variable {α : Type} (item : Bytes → Option (α × Bytes)) (close : UInt8)

/-- The rest of a sequence, behind one of its items. -/
def readMore : ℕ → Bytes → Option (List α × Bytes)
  | 0, _ => none
  | n + 1, s =>
    match skipSpace s with
    | [] => none
    | c :: rest =>
      if c = close then some ([],rest)
      else if c = comma then do
        let (x,rest) ← item (skipSpace rest)
        let (xs,rest) ← readMore n rest
        return (x :: xs,rest)
      else none

/-- A sequence behind its opening character. -/
def readSequence (s : Bytes) : Option (List α × Bytes) :=
  match skipSpace s with
  | [] => none
  | c :: rest =>
    if c = close then some ([],rest)
    else do
      let (x,rest) ← item (c :: rest)
      let (xs,rest) ← readMore item close (rest.length + 1) rest
      return (x :: xs,rest)

end Sequence

/-- A member of an object: its name, a colon and its value. -/
def readMember (item : Bytes → Option (Value × Bytes)) (s : Bytes) : Option ((List UInt16 × Value) × Bytes) :=
  match s with
  | 34 :: rest => do
    let (name,rest) ← readChars rest
    match skipSpace rest with
    | 58 :: rest => do
      let (v,rest) ← item (skipSpace rest)
      return ((name,v),rest)
    | _ => none
  | _ => none

/-- One of the three literal names. -/
def readLiteral (text : Bytes) (v : Value) (s : Bytes) : Option (Value × Bytes) :=
  if text <+: s then some (v,s.drop text.length) else none

/-- The value at the front of a text; the fuel bounds the nesting. -/
def readValue : ℕ → Bytes → Option (Value × Bytes)
  | 0, _ => none
  | fuel + 1, s =>
    match s with
    | [] => none
    | c :: rest =>
      if c = quote then (readChars rest).map fun r => (.string r.1,r.2)
      else if c = openBracket then
        (readSequence (readValue fuel) closeBracket rest).map fun r => (.array r.1,r.2)
      else if c = openBrace then
        (readSequence (readMember (readValue fuel)) closeBrace rest).map fun r => (.object r.1,r.2)
      else if c = 110 then readLiteral (ascii "null") .null s
      else if c = 116 then readLiteral (ascii "true") (.bool true) s
      else if c = 102 then readLiteral (ascii "false") (.bool false) s
      else readNumber s

/-- The value of a whole text. -/
def parse (s : Bytes) : Option Value :=
  match readValue (s.length + 1) (skipSpace s) with
  | some (v,rest) => if skipSpace rest = [] then some v else none
  | none => none

/-! ## Members -/

/-- The code units of a text of bytes. -/
def units (s : Bytes) : List UInt16 := s.map UInt8.toUInt16

/-- The value of the first member with this name. -/
def Value.member (v : Value) (name : Bytes) : Option Value :=
  match v with
  | .object members => (members.find? fun m => m.1 = units name).map Prod.snd
  | _ => none

/-- No object of the value has two members of one name. -/
inductive DistinctNames : Value → Prop
  | null : DistinctNames .null
  | bool (b : Bool) : DistinctNames (.bool b)
  | number (mantissa exponent : ℤ) : DistinctNames (.number mantissa exponent)
  | string (units : List UInt16) : DistinctNames (.string units)
  | array {items : List Value} (hitems : ∀ v ∈ items, DistinctNames v) : DistinctNames (.array items)
  | object {members : List (List UInt16 × Value)} (hnames : (members.map Prod.fst).Nodup)
      (hvalues : ∀ m ∈ members, DistinctNames m.2) : DistinctNames (.object members)

end Json
