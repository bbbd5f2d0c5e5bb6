import Netscope.Model.Output

/-! # The capture layer

`capture.c` over the answers that libpcap gives in one run. Every call is made at most
once in a run, so an answer does not depend on its arguments here; the arguments are
kept where a result names them. Log lines go to the standard error and are left out.
-/
namespace Netscope
open ByteString Numerals

/-- An address of a device as `inet_ntop` prints it; other families are not printed. -/
inductive DeviceAddress where
  | ipv4 (text : Bytes)
  | ipv6 (text : Bytes)
  | other
deriving DecidableEq, Repr

structure Device where
  name : Bytes
  description : Option Bytes
  addresses : List DeviceAddress
deriving DecidableEq, Repr

/-- A frame as `pcap_loop` hands it to the callback: the captured bytes and the header. -/
structure PcapFrame where
  data : Bytes
  len : ℕ
  ts : Timestamp

/-- The answers of libpcap in one run. A text stands for a failure. -/
structure Pcap where
  findalldevs : Except Bytes (List Device)
  create : Option Bytes
  openOffline : Option Bytes
  activate : Option Bytes
  datalink : ℕ
  datalinkName : Option Bytes
  compile : Option Bytes
  setfilter : Option Bytes
  dumpOpen : Option Bytes
  /-- The bytes that `pcap_dump_open` and `pcap_dump` write. -/
  dumpHeader : Bytes
  dumpRecord : PcapFrame → Bytes
  /-- The frames that pass the filter before the loop ends, and its failure, if any. -/
  frames : List PcapFrame
  loop : Option Bytes

section Capture
variable (pcap : Pcap)

def printDeviceAddress : DeviceAddress → Bytes
  | .ipv4 text => ascii "     IPv4: " ++ text ++ [newline]
  | .ipv6 text => ascii "     IPv6: " ++ text ++ [newline]
  | .other => []

def printDevice (index : ℕ) (dev : Device) : Bytes :=
  decimal (index + 1) ++ ascii ". " ++ dev.name ++ [newline] ++
    (match dev.description with
      | some description => ascii "   " ++ description ++ [newline]
      | none => []) ++
    (if dev.addresses ≠ [] then
      ascii "   addresses:" ++ [newline] ++ (dev.addresses.map printDeviceAddress).flatten
    else []) ++ [newline]

/-- What `ns_capture_list_interfaces` prints, or its error. -/
def nsCaptureListInterfaces : Except Bytes Bytes :=
  match pcap.findalldevs with
  | .error e => .error e
  | .ok [] => .ok (ascii "No capture interfaces found." ++ [newline] ++
      ascii "hint: capturing usually requires elevated privileges; see README.md" ++ [newline])
  | .ok devices => .ok (ascii "Available interfaces:" ++ [newline,newline] ++ (devices.mapIdx printDevice).flatten)

def nsCaptureInterfaceExists (name : Bytes) : Bool :=
  match pcap.findalldevs with
  | .error _ => false
  | .ok devices => devices.any fun dev => dev.name = name

def applyFilter (bpfFilter : Bytes) (errLen : ℕ) : Except Bytes Unit :=
  if bpfFilter = [] then .ok ()
  else
    match pcap.compile, pcap.setfilter with
    | some e, _ => .error (snprintf errLen (ascii "invalid capture filter '" ++ bpfFilter ++ ascii "': " ++ e))
    | none, some e => .error (snprintf errLen (ascii "failed to apply capture filter: " ++ e))
    | none, none => .ok ()

abbrev dltEn10mb : ℕ := 1

def resolveLinkType (errLen : ℕ) : Except Bytes LinkType :=
  if pcap.datalink ≠ dltEn10mb then
    .error (snprintf errLen (ascii "unsupported datalink type: " ++ pcap.datalinkName.getD (ascii "unknown")))
  else .ok .ethernet

/-- The link type of the opened capture, or the error. -/
def nsCaptureOpenLive (interface bpfFilter : Bytes) (errLen : ℕ) : Except Bytes LinkType := do
  match pcap.create with
  | some e => throw (snprintf errLen (ascii "failed to open interface '" ++ interface ++ ascii "': " ++ e))
  | none =>
    match pcap.activate with
    | some e => throw (snprintf errLen (ascii "failed to activate capture on '" ++ interface ++ ascii "': " ++ e))
    | none =>
      let linkType ← resolveLinkType pcap errLen
      applyFilter pcap bpfFilter errLen
      return linkType

def nsCaptureOpenOffline (path bpfFilter : Bytes) (errLen : ℕ) : Except Bytes LinkType := do
  match pcap.openOffline with
  | some e => throw (snprintf errLen (ascii "failed to open capture file '" ++ path ++ ascii "': " ++ e))
  | none =>
    let linkType ← resolveLinkType pcap errLen
    applyFilter pcap bpfFilter errLen
    return linkType

def nsCaptureOpenDump (path : Bytes) (errLen : ℕ) : Except Bytes Unit :=
  match pcap.dumpOpen with
  | some e => .error (snprintf errLen (ascii "failed to open '" ++ path ++ ascii "' for writing: " ++ e))
  | none => .ok ()

/-- The packet that `pcap_packet_callback` parses from the `i`-th frame of the loop. -/
def pcapPacketCallback (linkType : LinkType) (i : ℕ) (frame : PcapFrame) : Packet :=
  nsPacketParse frame.data frame.len frame.ts (UInt64.ofNat (i + 1)) linkType

/-- The packets of the loop, in the order in which they are handed on. -/
def capturedPackets (linkType : LinkType) : List Packet := pcap.frames.mapIdx (pcapPacketCallback linkType)

/-- The verdict of `ns_capture_run`. -/
def nsCaptureRun (errLen : ℕ) : Except Bytes Unit :=
  match pcap.loop with
  | some e => .error (snprintf errLen (ascii "capture loop failed: " ++ e))
  | none => .ok ()

end Capture

end Netscope
