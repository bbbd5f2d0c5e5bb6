import Netscope.Library.PartialMemory
import Netscope.Model.Util

/-! # The capture filter expression

`filter.c` over the cells of its output buffer: a write outside of the buffer is a
fault. The lengths of the pieces are below 128, so no `size_t` of the source wraps.
-/
namespace Netscope
open ByteString Numerals PartialMemory

/-- `ns_filter_spec_t`; a null pointer is no string. -/
structure FilterSpec where
  tcp : Bool
  udp : Bool
  icmp : Bool
  port : Int32
  host : Option CString
  src : Option CString
  dst : Option CString
  raw : Option CString
deriving DecidableEq

/-- The bytes of a string that is neither null nor empty. -/
def nonEmpty (s : Option CString) : Option Bytes := (s.map CString.bytes).filter (· ≠ [])

/-- The part of `append` behind the separator. -/
def appendText (out : Cells) (pos : ℕ) (piece : Bytes) : Exec (Bool × Cells × ℕ) :=
  if pos + piece.length ≥ out.length then return (false,out,pos)
  else do
    let out ← storeRange out pos piece
    let out ← store out (pos + piece.length) 0
    return (true,out,pos + piece.length)

def append (out : Cells) (pos : ℕ) (piece : Bytes) : Exec (Bool × Cells × ℕ) :=
  if pos ≠ 0 then
    if pos + 4 ≥ out.length then return (false,out,pos)
    else do
      let out ← storeRange out pos (ascii " and ")
      appendText out (pos + 5) piece
  else appendText out pos piece

abbrev pieceSize : ℕ := 128

/-- The conversion `%d`. -/
def signedDecimal (n : ℤ) : Bytes := if n < 0 then [45] ++ decimal n.natAbs else decimal n.natAbs

/-- The pieces in the order in which they are appended; those with an argument pass
through the buffer `piece`. -/
def filterPieces (spec : FilterSpec) : List Bytes :=
  (if spec.tcp then [ascii "tcp"] else []) ++ (if spec.udp then [ascii "udp"] else []) ++
    (if spec.icmp then [ascii "icmp"] else []) ++
    (if spec.port ≥ 0 then [snprintf pieceSize (ascii "port " ++ signedDecimal spec.port.toInt)] else []) ++
    ((nonEmpty spec.host).map fun s => snprintf pieceSize (ascii "host " ++ s)).toList ++
    ((nonEmpty spec.src).map fun s => snprintf pieceSize (ascii "src host " ++ s)).toList ++
    ((nonEmpty spec.dst).map fun s => snprintf pieceSize (ascii "dst host " ++ s)).toList

/-- The calls of `append`, up to the first that fails. -/
def appendAll : List Bytes → Cells → ℕ → Exec (Bool × Cells)
  | [], out, _ => return (true,out)
  | piece :: pieces, out, pos => do
    let (ok,out,pos) ← append out pos piece
    if ok then appendAll pieces out pos else return (false,out)

def nsFilterBuildBpf (spec : FilterSpec) (out : Cells) : Exec (Bool × Cells) :=
  if out.length = 0 then return (false,out)
  else do
    let out ← store out 0 0
    match nonEmpty spec.raw with
    | some raw =>
      if raw.length ≥ out.length then return (false,out)
      else do
        let out ← storeRange out 0 (raw ++ [0])
        return (true,out)
    | none => appendAll (filterPieces spec) out 0

end Netscope
