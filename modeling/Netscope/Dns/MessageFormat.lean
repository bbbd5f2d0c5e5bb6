import Netscope.Dns.NameGrammar

/-! # DNS messages on the wire

What it means for bytes to be a serialisation of a message. A name may be written
in several ways, since any of its suffixes may be replaced by a pointer to an earlier
occurrence; so the serialisation is a relation, indexed by what stands before it.
-/
namespace Netscope.DnsWire
open ByteString DnsName

/-- `EncodesName before labels bytes pointers`: after `before`, the bytes spell the labels, and
a reader of them follows that many pointers. -/
inductive EncodesName : Bytes → List Bytes → Bytes → ℕ → Prop where
  | root {before : Bytes} : EncodesName before [] [0] 0
  | label {before label bytes : Bytes} {labels : List Bytes} {pointers : ℕ} (h1 : 1 ≤ label.length)
      (h63 : label.length ≤ 63)
      (rest : EncodesName (before ++ ([UInt8.ofNat label.length] ++ label)) labels bytes pointers) :
      EncodesName before (label :: labels) ([UInt8.ofNat label.length] ++ (label ++ bytes)) pointers
  | pointer {start occurrence between : Bytes} {labels : List Bytes} {pointers : ℕ} (ht : start.length < 2 ^ 14)
      (earlier : EncodesName start labels occurrence pointers) :
      EncodesName (start ++ (occurrence ++ between)) labels (be16 (UInt16.ofNat (0xC000 + start.length))) (pointers + 1)

structure Question where
  labels : List Bytes
  type : UInt16
  qclass : UInt16

structure Answer where
  labels : List Bytes
  type : UInt16
  rclass : UInt16
  ttl : UInt32
  rdata : Bytes
  rdata_le : rdata.length ≤ 65535

/-- The bytes of a question after its name. -/
def Question.body (q : Question) : Bytes := be16 q.type ++ be16 q.qclass

/-- The bytes of an answer after its owner name. -/
def Answer.body (a : Answer) : Bytes :=
  be16 a.type ++ (be16 a.rclass ++ (be32 a.ttl ++ (be16 (UInt16.ofNat a.rdata.length) ++ a.rdata)))

/-- A section is its entries one after the other, each a name followed by a body. -/
inductive EncodesSection {α : Type} (labels : α → List Bytes) (body : α → Bytes) : Bytes → List α → Bytes → Prop where
  | nil {before : Bytes} : EncodesSection labels body before [] []
  | cons {before name bytes : Bytes} {entry : α} {entries : List α} {pointers : ℕ}
      (hname : EncodesName before (labels entry) name pointers) (hpointers : pointers ≤ 32)
      (htext : (dottedText (labels entry)).length ≤ 255)
      (rest : EncodesSection labels body (before ++ (name ++ body entry)) entries bytes) :
      EncodesSection labels body before (entry :: entries) (name ++ (body entry ++ bytes))

structure Message where
  transactionId : UInt16
  flags : UInt16
  authorityCount : UInt16
  additionalCount : UInt16
  questions : List Question
  answers : List Answer
  questions_le : questions.length ≤ 65535
  answers_le : answers.length ≤ 65535

def Message.header (msg : Message) : Bytes :=
  be16 msg.transactionId ++ (be16 msg.flags ++ (be16 (UInt16.ofNat msg.questions.length) ++
    (be16 (UInt16.ofNat msg.answers.length) ++ (be16 msg.authorityCount ++ be16 msg.additionalCount))))

/-- The bytes start with the header, the questions and the answers of the message. -/
def Encodes (msg : Message) (m : Bytes) : Prop :=
  ∃ questions answers rest, EncodesSection Question.labels Question.body msg.header msg.questions questions ∧
    EncodesSection Answer.labels Answer.body (msg.header ++ questions) msg.answers answers ∧
    m = msg.header ++ (questions ++ (answers ++ rest))

end Netscope.DnsWire
