import Mathlib.Data.List.TakeWhile
import Netscope.Library.Numerals

/-! # Bounds checks, C strings and address formatting

The functions of `util.c`. A `char` buffer filled by `snprintf` is modelled by the
bytes before its terminating NUL, so a buffer of `n` bytes holds at most `n - 1`
of them. An IPv4 address is the four bytes of its `uint32_t` in memory order.
-/
namespace Netscope
open ByteString Numerals

def nsBoundsCheck (length offset size : ℕ) : Bool :=
  if offset > length then false else decide (size ≤ length - offset)

@[simp] theorem nsBoundsCheck_eq (length offset size : ℕ) :
    nsBoundsCheck length offset size = decide (offset + size ≤ length) := by
  unfold nsBoundsCheck
  split
  · exact (decide_eq_false (by omega)).symm
  · exact decide_eq_decide.mpr (by omega)

/-- What `snprintf(buf, buf_len, ...)` leaves before the NUL. -/
def snprintf (bufLen : ℕ) (s : Bytes) : Bytes := s.take (bufLen - 1)

theorem snprintf_of_lt {bufLen : ℕ} {s : Bytes} (h : s.length < bufLen) : snprintf bufLen s = s :=
  List.take_of_length_le (by omega)

/-- The bytes of a buffer up to its first NUL, as `%s` and `strcmp` see them. -/
def cString (s : Bytes) : Bytes := s.takeWhile (· ≠ 0)

theorem cString_eq_self_iff (s : Bytes) : cString s = s ↔ 0 ∉ s := by
  rw [cString, List.takeWhile_eq_self_iff]
  constructor
  · intro h hmem
    exact of_decide_eq_true (h 0 hmem) rfl
  · intro h b hb
    refine decide_eq_true ?_
    rintro rfl
    exact h hb

/-- A string argument: the bytes before its NUL. -/
structure CString where
  bytes : Bytes
  nul_notMem : 0 ∉ bytes
deriving DecidableEq

def CString.empty : CString := ⟨[],List.not_mem_nil⟩

/-- The string that `snprintf(buf, buf_len, "%s", s)` leaves. -/
def CString.cut (bufLen : ℕ) (s : CString) : CString :=
  ⟨snprintf bufLen s.bytes,fun h => s.nul_notMem (List.mem_of_mem_take h)⟩

abbrev dot : UInt8 := 46
abbrev colon : UInt8 := 58

abbrev MacAddress := Vector UInt8 6
abbrev Ipv4Address := Vector UInt8 4
abbrev Ipv6Address := Vector UInt8 16

/-- The conversion `%02x` of one byte. -/
def hex2 (b : UInt8) : Bytes := padLeft 48 2 (hex b.toNat)

def nsFormatMac (mac : MacAddress) (bufLen : ℕ) : Bytes :=
  snprintf bufLen (hex2 mac[0] ++ [colon] ++ hex2 mac[1] ++ [colon] ++ hex2 mac[2] ++ [colon] ++
    hex2 mac[3] ++ [colon] ++ hex2 mac[4] ++ [colon] ++ hex2 mac[5])

/-- The dotted decimal text of an address. -/
def ipv4Text (addr : Ipv4Address) : Bytes :=
  decimal addr[0].toNat ++ [dot] ++ decimal addr[1].toNat ++ [dot] ++ decimal addr[2].toNat ++ [dot] ++
    decimal addr[3].toNat

def nsFormatIpv4 (addr : Ipv4Address) (bufLen : ℕ) : Bytes := snprintf bufLen (ipv4Text addr)

/-- The eight big-endian groups of an IPv6 address. -/
def ipv6Groups (addr : Ipv6Address) : Vector UInt16 8 :=
  Vector.ofFn fun i => addr[2 * i.val].toUInt16 <<< 8 ||| addr[2 * i.val + 1].toUInt16

/-- The four counters of the search for the longest run of zero groups. -/
structure ZeroRun where
  bestStart : ℤ
  bestLen : ℤ
  curStart : ℤ
  curLen : ℤ
deriving DecidableEq

/-- One iteration of the search, at group `i`. -/
def ZeroRun.scan (r : ZeroRun) (i : ℕ) (isZero : Bool) : ZeroRun :=
  if isZero then
    let curStart := if r.curStart < 0 then (i : ℤ) else r.curStart
    let curLen := r.curLen + 1
    if curLen > r.bestLen then
      { bestLen := curLen, bestStart := curStart, curStart := curStart, curLen := curLen }
    else { r with curStart := curStart, curLen := curLen }
  else { r with curStart := -1, curLen := 0 }

/-- The run that `::` replaces; the start is `-1` when no run has two groups. -/
def bestZeroRun (isZero : List Bool) : ℤ × ℤ :=
  let r : ZeroRun := isZero.zipIdx.foldl (fun r z => r.scan z.2 z.1)
    { bestStart := -1, bestLen := 0, curStart := -1, curLen := 0 }
  if r.bestLen < 2 then (-1,0) else (r.bestStart,r.bestLen)

/-- The emission loop from group `i` on. Every iteration advances `i`, so eight suffice. -/
def emitGroups (groups : Vector UInt16 8) (bestStart bestLen : ℤ) : ℕ → ℕ → Bytes
  | 0, _ => []
  | fuel + 1, i =>
    if h : i < 8 then
      if (i : ℤ) = bestStart then
        [colon,colon] ++ emitGroups groups bestStart bestLen fuel (i + bestLen.toNat)
      else
        (if i ≠ 0 ∧ (i : ℤ) ≠ bestStart + bestLen then [colon] else []) ++ hex groups[i].toNat ++
          emitGroups groups bestStart bestLen fuel (i + 1)
    else []

/-- The text assembled in `tmp`. -/
def ipv6Text (addr : Ipv6Address) : Bytes :=
  let groups := ipv6Groups addr
  let run := bestZeroRun (groups.toList.map (· == 0))
  let tmp := emitGroups groups run.1 run.2 8 0
  if tmp.length = 0 then [colon,colon] else tmp

def nsFormatIpv6 (addr : Ipv6Address) (bufLen : ℕ) : Bytes := snprintf bufLen (ipv6Text addr)

example : nsFormatIpv6 #v[0x20,1,0xd,0xb8,0,0,0,0,0,0,0,0,0,0,0,1] 46 = ascii "2001:db8::1" := by decide +kernel

end Netscope
