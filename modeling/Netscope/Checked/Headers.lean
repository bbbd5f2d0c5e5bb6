import Netscope.Library.PartialMemory
import Netscope.Model.Packet

/-! # The header parsers with partial accesses

The same parsers, statement by statement: the buffer and its claimed length are
separate, every byte access and `memcpy` source is checked against the buffer,
and a reader whose result the source ignores must succeed. Each one is proved to
return and to agree with its functional model.
-/
namespace Netscope.Checked
open ByteString PartialMemory

inductive ParseStatus where
  | ok
  | truncated
  | malformed
  | unsupported
deriving DecidableEq, Repr

/-- The status with which a failing parser returns. -/
def statusOf : ParseError → ParseStatus
  | .truncated => .truncated
  | .malformed => .malformed
  | .unsupported => .unsupported

def nsBoundsCheck (length offset size : ℕ) : Exec Bool := do
  if offset > length then return false
  return decide (size ≤ (← sizeSub length offset))

/-! ## The readers

A reader returns nothing where the source returns `false` and leaves `*value` alone. -/

def nsReadU8 (data : Bytes) (length offset : ℕ) : Exec (Option UInt8) := do
  if !(← nsBoundsCheck length offset 1) then return none
  return some (← load data offset)

def nsReadU16be (data : Bytes) (length offset : ℕ) : Exec (Option UInt16) := do
  if !(← nsBoundsCheck length offset 2) then return none
  let hi ← load data offset
  let lo ← load data (← sizeAdd offset 1)
  return some (hi.toUInt16 <<< 8 ||| lo.toUInt16)

def nsReadU32be (data : Bytes) (length offset : ℕ) : Exec (Option UInt32) := do
  if !(← nsBoundsCheck length offset 4) then return none
  let b0 ← load data offset
  let b1 ← load data (← sizeAdd offset 1)
  let b2 ← load data (← sizeAdd offset 2)
  let b3 ← load data (← sizeAdd offset 3)
  return some (b0.toUInt32 <<< 24 ||| b1.toUInt32 <<< 16 ||| b2.toUInt32 <<< 8 ||| b3.toUInt32)

/-- A reader called for its effect only: a variable it did not set must not be used. -/
def ignoring {α : Type} (reader : Exec (Option α)) : Exec α := do use (← reader)

/-- `memcpy` of `n` bytes into an array of that size. -/
def copyArray (data : Bytes) (off n : ℕ) : Exec (Vector UInt8 n) := do
  let bytes ← loadRange data off n
  return slice bytes 0 n

/-! ## The parsers

Each returns its status, the structure behind `out` and, where there is one, the
variable behind `header_len`. -/

def nsParseEthernet (data : Bytes) (length : ℕ) (out : EthInfo) : Exec (ParseStatus × EthInfo × Option ℕ) := do
  if !(← nsBoundsCheck length 0 14) then return (.truncated,out,none)
  let destination ← copyArray data 0 6
  let source ← copyArray (← advance data 6) 0 6
  let some ethertype ← nsReadU16be data length (2 * 6)
    | return (.truncated, { EthInfo.zero with destination := destination, source := source }, none)
  if ethertype = ethertypeVlan then
    if !(← nsBoundsCheck length 0 (14 + 4)) then
      return (.truncated, { EthInfo.zero with destination := destination, source := source }, none)
    let vlanField ← ignoring (nsReadU16be data length (2 * 6 + 2))
    let innerType ← ignoring (nsReadU16be data length (2 * 6 + 4))
    return (.ok, { destination := destination, source := source, ethertype := innerType, hasVlan := true,
                   vlanId := vlanField &&& 0x0FFF }, some (14 + 4))
  return (.ok, { destination := destination, source := source, ethertype := ethertype, hasVlan := false,
                 vlanId := 0 }, some 14)

def nsParseArp (data : Bytes) (length : ℕ) (out : ArpInfo) : Exec (ParseStatus × ArpInfo) := do
  if !(← nsBoundsCheck length 0 8) then return (.truncated,out)
  let htype ← ignoring (nsReadU16be data length 0)
  let ptype ← ignoring (nsReadU16be data length 2)
  let hlen ← ignoring (nsReadU8 data length 4)
  let plen ← ignoring (nsReadU8 data length 5)
  let operation ← ignoring (nsReadU16be data length 6)
  if htype ≠ 1 ∨ ptype ≠ 0x0800 ∨ hlen ≠ 6 ∨ plen ≠ 4 then return (.unsupported,out)
  let bodyLen := 2 * hlen.toNat + 2 * plen.toNat
  if !(← nsBoundsCheck length 8 bodyLen) then return (.truncated,out)
  let off := 8
  let senderMac ← copyArray (← advance data off) 0 6
  let off ← sizeAdd off 6
  let senderIp ← copyArray (← advance data off) 0 4
  let off ← sizeAdd off 4
  let targetMac ← copyArray (← advance data off) 0 6
  let off ← sizeAdd off 6
  let targetIp ← copyArray (← advance data off) 0 4
  return (.ok, { operation := operation, senderMac := senderMac, senderIp := senderIp, targetMac := targetMac,
                 targetIp := targetIp })

def nsParseIpv4 (data : Bytes) (length : ℕ) (out : Ipv4Info) : Exec (ParseStatus × Ipv4Info × Option ℕ) := do
  if !(← nsBoundsCheck length 0 20) then return (.truncated,out,none)
  let versionIhl ← ignoring (nsReadU8 data length 0)
  let version := versionIhl >>> 4
  let ihl := versionIhl &&& 0x0F
  if version ≠ 4 then return (.malformed,out,none)
  if ihl < 5 then return (.malformed,out,none)
  let hdrLen := ihl.toNat * 4
  if !(← nsBoundsCheck length 0 hdrLen) then return (.truncated,out,none)
  let dscpEcn ← ignoring (nsReadU8 data length 1)
  let totalLength ← ignoring (nsReadU16be data length 2)
  let identification ← ignoring (nsReadU16be data length 4)
  let flagsFrag ← ignoring (nsReadU16be data length 6)
  let ttl ← ignoring (nsReadU8 data length 8)
  let protocol ← ignoring (nsReadU8 data length 9)
  let checksum ← ignoring (nsReadU16be data length 10)
  let src ← copyArray (← advance data 12) 0 4
  let dst ← copyArray (← advance data 16) 0 4
  if totalLength.toNat < hdrLen then return (.malformed,out,none)
  let flagMf : Bool := flagsFrag &&& 0x2000 ≠ 0
  let fragmentOffset := flagsFrag &&& 0x1FFF
  let isFragment : Bool := flagMf || fragmentOffset ≠ 0
  return (.ok, { version := version, ihl := ihl, dscp := dscpEcn >>> 2, ecn := dscpEcn &&& 0x03
                 totalLength := totalLength, identification := identification
                 flagDf := flagsFrag &&& 0x4000 ≠ 0, flagMf := flagMf, fragmentOffset := fragmentOffset
                 ttl := ttl, protocol := protocol, headerChecksum := checksum, source := src, destination := dst
                 headerLength := hdrLen, isFragment := isFragment
                 isInitialFragment := isFragment && decide (fragmentOffset = 0) }, some hdrLen)

def nsParseIpv6 (data : Bytes) (length : ℕ) (out : Ipv6Info) : Exec (ParseStatus × Ipv6Info × Option ℕ) := do
  if !(← nsBoundsCheck length 0 40) then return (.truncated,out,none)
  let firstWord ← ignoring (nsReadU32be data length 0)
  let version := (firstWord >>> 28).toUInt8
  if version ≠ 6 then return (.malformed,out,none)
  let payloadLength ← ignoring (nsReadU16be data length 4)
  let nextHeader ← ignoring (nsReadU8 data length 6)
  let hopLimit ← ignoring (nsReadU8 data length 7)
  let source ← copyArray (← advance data 8) 0 16
  let destination ← copyArray (← advance data 24) 0 16
  return (.ok, { version := version, trafficClass := ((firstWord >>> 20) &&& 0xFF).toUInt8
                 flowLabel := firstWord &&& 0x000FFFFF, payloadLength := payloadLength, nextHeader := nextHeader
                 hopLimit := hopLimit, source := source, destination := destination, headerLength := 40 }, some 40)

def skipExtensionHeaders (data : Bytes) (length : ℕ) : ℕ → ℕ → UInt8 → Exec (Bool × ℕ × UInt8)
  | 0, offset, nextHeader => return (false,offset,nextHeader)
  | budget + 1, offset, nextHeader => do
    if isOptionsHeader nextHeader then
      if !(← nsBoundsCheck length offset 2) then return (false,offset,nextHeader)
      let next ← ignoring (nsReadU8 data length offset)
      let extLenUnits ← ignoring (nsReadU8 data length (← sizeAdd offset 1))
      let extLen := (extLenUnits.toNat + 1) * 8
      if !(← nsBoundsCheck length offset extLen) then return (false,offset,nextHeader)
      skipExtensionHeaders data length budget (← sizeAdd offset extLen) next
    else if nextHeader = ipv6NextFragment then
      let some next ← nsReadU8 data length offset | return (false,offset,nextHeader)
      if !(← nsBoundsCheck length offset 8) then return (false,offset,nextHeader)
      skipExtensionHeaders data length budget (← sizeAdd offset 8) next
    else return (true,offset,nextHeader)

def nsIpv6SkipExtensionHeaders (data : Bytes) (length offset : ℕ) (nextHeader : UInt8) : Exec (Bool × ℕ × UInt8) :=
  skipExtensionHeaders data length ipv6MaxExtensionHeaders offset nextHeader

def nsParseTcp (data : Bytes) (length : ℕ) (out : TcpInfo) : Exec (ParseStatus × TcpInfo × Option ℕ) := do
  if !(← nsBoundsCheck length 0 20) then return (.truncated,out,none)
  let srcPort ← ignoring (nsReadU16be data length 0)
  let dstPort ← ignoring (nsReadU16be data length 2)
  let seq ← ignoring (nsReadU32be data length 4)
  let ack ← ignoring (nsReadU32be data length 8)
  let dataOffsetReserved ← ignoring (nsReadU8 data length 12)
  let flags ← ignoring (nsReadU8 data length 13)
  let window ← ignoring (nsReadU16be data length 14)
  let checksum ← ignoring (nsReadU16be data length 16)
  let urgent ← ignoring (nsReadU16be data length 18)
  let dataOffset := dataOffsetReserved >>> 4
  if dataOffset < 5 then return (.malformed,out,none)
  let hdrLen := dataOffset.toNat * 4
  if !(← nsBoundsCheck length 0 hdrLen) then return (.truncated,out,none)
  return (.ok, { sourcePort := srcPort, destinationPort := dstPort, sequenceNumber := seq, ackNumber := ack
                 dataOffset := dataOffset, flags := flags, windowSize := window, checksum := checksum
                 urgentPointer := urgent, headerLength := hdrLen }, some hdrLen)

def nsParseUdp (data : Bytes) (length : ℕ) (out : UdpInfo) : Exec (ParseStatus × UdpInfo) := do
  if !(← nsBoundsCheck length 0 8) then return (.truncated,out)
  let srcPort ← ignoring (nsReadU16be data length 0)
  let dstPort ← ignoring (nsReadU16be data length 2)
  let udpLength ← ignoring (nsReadU16be data length 4)
  let checksum ← ignoring (nsReadU16be data length 6)
  if udpLength < 8 then return (.malformed,out)
  return (.ok, { sourcePort := srcPort, destinationPort := dstPort, length := udpLength, checksum := checksum })

/-- The body shared by `ns_parse_icmp` and `ns_parse_icmpv6`. The first fields are
written before the second length check. -/
def parseEcho (isEcho : UInt8 → Bool) (data : Bytes) (length : ℕ) (out : IcmpInfo) : Exec (ParseStatus × IcmpInfo) := do
  if !(← nsBoundsCheck length 0 4) then return (.truncated,out)
  let type ← ignoring (nsReadU8 data length 0)
  let code ← ignoring (nsReadU8 data length 1)
  let checksum ← ignoring (nsReadU16be data length 2)
  let out := { IcmpInfo.zero with type := type, code := code, checksum := checksum }
  if isEcho type then
    if !(← nsBoundsCheck length 0 8) then return (.truncated,out)
    let id ← ignoring (nsReadU16be data length 4)
    let seq ← ignoring (nsReadU16be data length 6)
    return (.ok, { out with identifier := id, sequence := seq })
  return (.ok,out)

def nsParseIcmp (data : Bytes) (length : ℕ) (out : IcmpInfo) : Exec (ParseStatus × IcmpInfo) :=
  parseEcho icmpIsEcho data length out
def nsParseIcmpv6 (data : Bytes) (length : ℕ) (out : IcmpInfo) : Exec (ParseStatus × IcmpInfo) :=
  parseEcho icmpv6IsEcho data length out

/-! ## Agreement with the functional model -/

@[simp] theorem nsBoundsCheck_eq (length offset size : ℕ) :
    nsBoundsCheck length offset size = .ok (decide (offset + size ≤ length)) := by
  unfold nsBoundsCheck
  by_cases h : offset > length
  · simp only [h, ↓reduceIte]
    exact congrArg Except.ok (decide_eq_false (by omega)).symm
  · simp only [h, ↓reduceIte, sizeSub_ok (Nat.not_lt.mp h)]
    exact congrArg Except.ok (decide_eq_decide.mpr (by omega))

section Readers
variable {data : Bytes}

theorem nsReadU8_eq (offset : ℕ) :
    nsReadU8 data data.length offset = .ok (if offset + 1 ≤ data.length then some (u8 data offset) else none) := by
  by_cases h : offset + 1 ≤ data.length
  · simp [nsReadU8, h, load_ok (show offset < data.length by omega)]
  · simp [nsReadU8, h]

theorem nsReadU16be_eq (hl : data.length < 2 ^ 64) (offset : ℕ) :
    nsReadU16be data data.length offset = .ok (if offset + 2 ≤ data.length then some (u16 data offset) else none) := by
  by_cases h : offset + 2 ≤ data.length
  · simp [nsReadU16be, h, u16, sizeAdd_ok (show offset + 1 < 2 ^ 64 by omega),
      load_ok (show offset < data.length by omega), load_ok (show offset + 1 < data.length by omega)]
  · simp [nsReadU16be, h]

theorem nsReadU32be_eq (hl : data.length < 2 ^ 64) (offset : ℕ) :
    nsReadU32be data data.length offset = .ok (if offset + 4 ≤ data.length then some (u32 data offset) else none) := by
  by_cases h : offset + 4 ≤ data.length
  · simp [nsReadU32be, h, u32, sizeAdd_ok (show offset + 1 < 2 ^ 64 by omega),
      sizeAdd_ok (show offset + 2 < 2 ^ 64 by omega), sizeAdd_ok (show offset + 3 < 2 ^ 64 by omega),
      load_ok (show offset < data.length by omega), load_ok (show offset + 1 < data.length by omega),
      load_ok (show offset + 2 < data.length by omega), load_ok (show offset + 3 < data.length by omega)]
  · simp [nsReadU32be, h]

theorem ignoring_u8 {offset : ℕ} (h : offset + 1 ≤ data.length) :
    ignoring (nsReadU8 data data.length offset) = .ok (u8 data offset) := by
  simp [ignoring, nsReadU8_eq, h]

theorem ignoring_u16 (hl : data.length < 2 ^ 64) {offset : ℕ} (h : offset + 2 ≤ data.length) :
    ignoring (nsReadU16be data data.length offset) = .ok (u16 data offset) := by
  simp [ignoring, nsReadU16be_eq hl, h]

theorem ignoring_u32 (hl : data.length < 2 ^ 64) {offset : ℕ} (h : offset + 4 ≤ data.length) :
    ignoring (nsReadU32be data data.length offset) = .ok (u32 data offset) := by
  simp [ignoring, nsReadU32be_eq hl, h]

theorem copyArray_ok {off n : ℕ} (h : off + n ≤ data.length) : copyArray data off n = .ok (slice data off n) := by
  have hs : slice (chunk data off n) 0 n = slice data off n := by
    ext i hi
    simp only [slice, Vector.getElem_ofFn]
    rw [u8_eq_getElem (by rw [chunk_length h]; omega), u8_eq_getElem (by omega)]
    simp [chunk]
  simp [copyArray, loadRange_ok h, hs]

theorem copyArray_drop {k n : ℕ} (h : k + n ≤ data.length) : copyArray (data.drop k) 0 n = .ok (slice data k n) := by
  rw [copyArray_ok (by simp; omega)]
  congr 1
  ext i hi
  simp [slice]

end Readers

/-- What a parser with a header length returns when its model returns `r`. -/
def outcome {α : Type} (out : α) (r : Parsed (α × ℕ)) : ParseStatus × α × Option ℕ :=
  match r with
  | .ok (info,headerLen) => (.ok,info,some headerLen)
  | .error e => (statusOf e,out,none)

/-- The same for a parser without a header length. -/
def outcome' {α : Type} (out : α) (r : Parsed α) : ParseStatus × α :=
  match r with
  | .ok info => (.ok,info)
  | .error e => (statusOf e,out)

section Parsers
variable {data : Bytes} (hl : data.length < 2 ^ 64)
include hl

theorem nsParseTcp_eq (out : TcpInfo) :
    nsParseTcp data data.length out = .ok (outcome out (Netscope.nsParseTcp data)) := by
  unfold nsParseTcp Netscope.nsParseTcp
  by_cases h : 20 ≤ data.length
  · simp (disch := omega) only [nsBoundsCheck_eq, Netscope.nsBoundsCheck_eq, ignoring_u8, ignoring_u16 hl,
      ignoring_u32 hl, ok_bind, pure_eq_ok, Nat.zero_add, h, decide_true, Bool.not_true, Bool.false_eq_true,
      ↓reduceIte]
    split
    · rfl
    · split <;> rfl
  · simp [h, outcome, statusOf]

theorem nsParseUdp_eq (out : UdpInfo) :
    nsParseUdp data data.length out = .ok (outcome' out (Netscope.nsParseUdp data)) := by
  unfold nsParseUdp Netscope.nsParseUdp
  by_cases h : 8 ≤ data.length
  · simp (disch := omega) only [nsBoundsCheck_eq, Netscope.nsBoundsCheck_eq, ignoring_u16 hl, ok_bind, pure_eq_ok,
      Nat.zero_add, h, decide_true, Bool.not_true, Bool.false_eq_true, ↓reduceIte]
    split <;> rfl
  · simp [h, outcome', statusOf]

theorem nsParseIpv6_eq (out : Ipv6Info) :
    nsParseIpv6 data data.length out = .ok (outcome out (Netscope.nsParseIpv6 data)) := by
  unfold nsParseIpv6 Netscope.nsParseIpv6
  by_cases h : 40 ≤ data.length
  · simp (disch := omega) only [nsBoundsCheck_eq, Netscope.nsBoundsCheck_eq, ignoring_u8, ignoring_u16 hl,
      ignoring_u32 hl, advance_ok, copyArray_drop, ok_bind, pure_eq_ok, Nat.zero_add, h, decide_true,
      Bool.not_true, Bool.false_eq_true, ↓reduceIte]
    split <;> rfl
  · simp [h, outcome, statusOf]

theorem nsParseIpv4_eq (out : Ipv4Info) :
    nsParseIpv4 data data.length out = .ok (outcome out (Netscope.nsParseIpv4 data)) := by
  unfold nsParseIpv4 Netscope.nsParseIpv4
  by_cases h : 20 ≤ data.length
  · simp (disch := omega) only [nsBoundsCheck_eq, Netscope.nsBoundsCheck_eq, ignoring_u8, ignoring_u16 hl,
      advance_ok, copyArray_drop, ok_bind, pure_eq_ok, Nat.zero_add, h, decide_true, Bool.not_true,
      Bool.false_eq_true, ↓reduceIte]
    split
    · rfl
    · split
      · rfl
      · split
        · rfl
        · split <;> rfl
  · simp [h, outcome, statusOf]

theorem nsParseArp_eq (out : ArpInfo) :
    nsParseArp data data.length out = .ok (outcome' out (Netscope.nsParseArp data)) := by
  unfold nsParseArp Netscope.nsParseArp
  by_cases h : 8 ≤ data.length
  · simp (disch := omega) only [nsBoundsCheck_eq, Netscope.nsBoundsCheck_eq, ignoring_u8, ignoring_u16 hl, ok_bind,
      pure_eq_ok, Nat.zero_add, h, decide_true, Bool.not_true, Bool.false_eq_true, ↓reduceIte]
    split
    · rfl
    · rename_i hfields
      simp only [ne_eq, not_or, not_not] at hfields
      obtain ⟨_,_,hh,hp⟩ := hfields
      have hbody : 2 * (u8 data 4).toNat + 2 * (u8 data 5).toNat = 20 := by rw [hh,hp]; rfl
      rw [hbody]
      by_cases h28 : 28 ≤ data.length
      · simp (disch := omega) only [sizeAdd_ok, advance_ok, copyArray_drop, ok_bind, Nat.reduceAdd, h28, decide_true,
          Bool.not_true, Bool.false_eq_true, ↓reduceIte]
        rfl
      · simp [h28, outcome', statusOf]
  · simp [h, outcome', statusOf]

/-- The Ethernet parser writes the two addresses before its VLAN check, so only a
successful structure is compared. -/
theorem nsParseEthernet_eq (out : EthInfo) :
    ∃ out', nsParseEthernet data data.length out = .ok (outcome out' (Netscope.nsParseEthernet data)) := by
  unfold nsParseEthernet Netscope.nsParseEthernet
  by_cases h : 14 ≤ data.length
  · simp (disch := omega) only [nsBoundsCheck_eq, Netscope.nsBoundsCheck_eq, nsReadU16be_eq hl 12, advance_ok,
      copyArray_ok, copyArray_drop, ok_bind, pure_eq_ok, Nat.zero_add, Nat.reduceMul, Nat.reduceAdd, h, decide_true,
      Bool.not_true, Bool.false_eq_true, ↓reduceIte]
    split
    · by_cases h18 : 18 ≤ data.length
      · simp (disch := omega) only [ignoring_u16 hl, ok_bind, h18, decide_true, Bool.not_true, Bool.false_eq_true,
          ↓reduceIte]
        exact ⟨out,rfl⟩
      · simp only [h18, decide_false, Bool.not_false, ↓reduceIte]
        exact ⟨_,rfl⟩
    · exact ⟨out,rfl⟩
  · exact ⟨out,by simp [h, outcome, statusOf]⟩

theorem parseEcho_eq (isEcho : UInt8 → Bool) (out : IcmpInfo) :
    ∃ out', parseEcho isEcho data data.length out = .ok (outcome' out' (Netscope.parseEcho isEcho data)) := by
  unfold parseEcho Netscope.parseEcho
  by_cases h : 4 ≤ data.length
  · simp (disch := omega) only [nsBoundsCheck_eq, Netscope.nsBoundsCheck_eq, ignoring_u8, ignoring_u16 hl, ok_bind,
      pure_eq_ok, Nat.zero_add, h, decide_true, Bool.not_true, Bool.false_eq_true, ↓reduceIte]
    split
    · by_cases h8 : 8 ≤ data.length
      · simp (disch := omega) only [ignoring_u16 hl, ok_bind, h8, decide_true, Bool.not_true, Bool.false_eq_true,
          ↓reduceIte]
        exact ⟨out,rfl⟩
      · simp only [h8, decide_false, Bool.not_false, ↓reduceIte]
        exact ⟨_,rfl⟩
    · exact ⟨out,rfl⟩
  · exact ⟨out,by simp [h, outcome', statusOf]⟩

theorem skipExtensionHeaders_eq (budget offset : ℕ) (nextHeader : UInt8) :
    skipExtensionHeaders data data.length budget offset nextHeader =
      .ok (Netscope.skipExtensionHeaders data budget offset nextHeader) := by
  induction budget generalizing offset nextHeader with
  | zero => rfl
  | succ budget ih =>
    rw [skipExtensionHeaders, Netscope.skipExtensionHeaders]
    simp only [nsBoundsCheck_eq, Netscope.nsBoundsCheck_eq, ok_bind, pure_eq_ok]
    split
    · by_cases h2 : offset + 2 ≤ data.length
      · simp (disch := omega) only [ignoring_u8, sizeAdd_ok, ok_bind, h2, decide_true, Bool.not_true,
          Bool.false_eq_true, ↓reduceIte, optionsHeaderLength]
        by_cases hext : offset + ((u8 data (offset + 1)).toNat + 1) * 8 ≤ data.length
        · simp (disch := omega) only [sizeAdd_ok, ok_bind, hext, decide_true, Bool.not_true, Bool.false_eq_true,
            ↓reduceIte]
          exact ih _ _
        · simp [hext]
      · simp [h2]
    · split
      · rw [nsReadU8_eq]
        by_cases h8 : offset + 8 ≤ data.length
        · have h1 : offset + 1 ≤ data.length := by omega
          simp (disch := omega) only [sizeAdd_ok, ok_bind, h1, h8, decide_true, Bool.not_true, Bool.or_self,
            Bool.false_eq_true, ↓reduceIte]
          exact ih _ _
        · by_cases h1 : offset + 1 ≤ data.length
          · simp [h1,h8]
          · simp [h1]
      · rfl

end Parsers

theorem skipExtensionHeaders_offset_le {data : Bytes} {budget offset : ℕ} {nextHeader : UInt8} (h : offset ≤ data.length) :
    (Netscope.skipExtensionHeaders data budget offset nextHeader).2.1 ≤ data.length := by
  induction budget generalizing offset nextHeader with
  | zero => exact h
  | succ budget ih =>
    rw [Netscope.skipExtensionHeaders]
    simp only [Netscope.nsBoundsCheck_eq]
    split
    · split
      · exact h
      · split
        · exact h
        · rename_i hext
          exact ih (by simpa using hext)
    · split
      · split
        · exact h
        · rename_i hfrag
          simp only [Bool.or_eq_true, Bool.not_eq_eq_eq_not, Bool.not_true, decide_eq_false_iff_not, not_or, not_not] at hfrag
          exact ih hfrag.2
      · exact h

end Netscope.Checked
