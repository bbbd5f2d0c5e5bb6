import Netscope.Library.Numerals

/-! # Conjunctive capture filters

The part of the capture filter language that joins primitives by `and`: the reader of
its texts, and what a primitive says of a packet. Which address a word denotes is a
parameter. A phrase is a primitive with the words that spell it, and phrases joined by
`and` are read back.
-/
namespace FilterLanguage
open ByteString Numerals

inductive Address where
  | v4 (bytes : Vector UInt8 4)
  | v6 (bytes : Vector UInt8 16)
deriving DecidableEq

/-- The network layer of a packet, as far as a filter looks at it. -/
inductive Network where
  | ipv4 (source destination : Vector UInt8 4) (protocol : UInt8)
  | ipv6 (source destination : Vector UInt8 16) (nextHeader : UInt8)
  | arp (sender target : Vector UInt8 4)
  | other
deriving DecidableEq

/-- A packet on the wire; the ports are those of a TCP or UDP header. -/
structure Traffic where
  network : Network
  ports : Option (UInt16 × UInt16)
deriving DecidableEq

namespace Traffic

def source (p : Traffic) : Option Address :=
  match p.network with
  | .ipv4 source _ _ => some (.v4 source)
  | .ipv6 source _ _ => some (.v6 source)
  | .arp sender _ => some (.v4 sender)
  | .other => none

def destination (p : Traffic) : Option Address :=
  match p.network with
  | .ipv4 _ destination _ => some (.v4 destination)
  | .ipv6 _ destination _ => some (.v6 destination)
  | .arp _ target => some (.v4 target)
  | .other => none

/-- The packet is IPv4 with this protocol. -/
def carriesV4 (p : Traffic) (proto : UInt8) : Prop :=
  match p.network with
  | .ipv4 _ _ protocol => protocol = proto
  | _ => False

/-- The packet is IPv6 with this next header. -/
def carriesV6 (p : Traffic) (proto : UInt8) : Prop :=
  match p.network with
  | .ipv6 _ _ nextHeader => nextHeader = proto
  | _ => False

def carries (p : Traffic) (proto : UInt8) : Prop := p.carriesV4 proto ∨ p.carriesV6 proto

def usesPort (p : Traffic) (n : ℕ) : Prop := ∃ ports, p.ports = some ports ∧ (ports.1.toNat = n ∨ ports.2.toNat = n)

/-- The next header of a packet is unique. -/
theorem carriesV6_inj {p : Traffic} {m n : UInt8} (hm : p.carriesV6 m) (hn : p.carries n) : m = n := by
  unfold carries carriesV4 carriesV6 at *
  cases hnet : p.network with
  | ipv6 source destination nextHeader =>
    rw [hnet] at hm hn
    rcases hn with hn | hn
    · exact hn.elim
    · exact hm.symm.trans hn
  | ipv4 | arp | other =>
    rw [hnet] at hm
    exact hm.elim

end Traffic

inductive Primitive where
  | tcp
  | udp
  | icmp
  | icmp6
  | port (n : ℕ)
  | host (a : Address)
  | srcHost (a : Address)
  | dstHost (a : Address)
deriving DecidableEq

/-- The meaning of a primitive. -/
def Primitive.Holds (p : Traffic) : Primitive → Prop
  | .tcp => p.carries 6
  | .udp => p.carries 17
  | .icmp => p.carriesV4 1
  | .icmp6 => p.carriesV6 58
  | .port n => (p.carries 6 ∨ p.carries 17) ∧ p.usesPort n
  | .host a => p.source = some a ∨ p.destination = some a
  | .srcHost a => p.source = some a
  | .dstHost a => p.destination = some a

/-! ## Reading -/

abbrev blank : UInt8 := 32
abbrev andWord : Bytes := ascii "and"

/-- The words of a text, which blanks separate. -/
def words (text : Bytes) : List Bytes := (text.splitOn blank).filter (· ≠ [])

-- A word is checked byte by byte, not over the type of bytes.
instance (w : Bytes) : Decidable (∀ c ∈ w, 48 ≤ c ∧ c ≤ 57) := List.decidableBAll (fun c => 48 ≤ c ∧ c ≤ 57) w

def readNumber (w : Bytes) : Option ℕ := if w ≠ [] ∧ ∀ c ∈ w, 48 ≤ c ∧ c ≤ 57 then some (value 10 w) else none

section Reader
variable (names : Bytes → Option Address)

/-- The primitive at the front of a list of words, with the words behind it. -/
def readPrimitive : List Bytes → Option (Primitive × List Bytes)
  | [] => none
  | w :: rest =>
    if w = ascii "tcp" then some (.tcp,rest)
    else if w = ascii "udp" then some (.udp,rest)
    else if w = ascii "icmp" then some (.icmp,rest)
    else if w = ascii "icmp6" then some (.icmp6,rest)
    else
      match rest with
      | [] => none
      | x :: rest =>
        if w = ascii "port" then (readNumber x).map fun n => (.port n,rest)
        else if w = ascii "host" then (names x).map fun a => (.host a,rest)
        else
          match rest with
          | [] => none
          | y :: rest =>
            if x ≠ ascii "host" then none
            else if w = ascii "src" then (names y).map fun a => (.srcHost a,rest)
            else if w = ascii "dst" then (names y).map fun a => (.dstHost a,rest)
            else none

/-- Primitives joined by `and`. Each takes a word at least, so as many as words suffice. -/
def readConjunction : ℕ → List Bytes → Option (List Primitive)
  | 0, _ => none
  | fuel + 1, ws =>
    match readPrimitive names ws with
    | none => none
    | some (q,[]) => some [q]
    | some (q,w :: rest) => if w = andWord then (readConjunction fuel rest).map (q :: ·) else none

/-- The primitives of a filter; an empty one has none. -/
def readFilter (text : Bytes) : Option (List Primitive) :=
  if words text = [] then some [] else readConjunction names (words text).length (words text)

/-- A packet passes a filter. -/
def Accepts (text : Bytes) (p : Traffic) : Prop := ∃ qs, readFilter names text = some qs ∧ ∀ q ∈ qs, q.Holds p

end Reader

/-! ## Phrases -/

/-- A word of a text: neither empty nor broken by a blank. -/
def IsWord (w : Bytes) : Prop := w ≠ [] ∧ blank ∉ w

instance (w : Bytes) : Decidable (IsWord w) := inferInstanceAs (Decidable (_ ∧ _))

theorem words_intercalate {ws : List Bytes} (h : ∀ w ∈ ws, IsWord w) : words ([blank].intercalate ws) = ws := by
  unfold words
  cases ws with
  | nil => rfl
  | cons w ws =>
    rw [List.splitOn_intercalate blank (fun v hv => (h v hv).2) (List.cons_ne_nil w ws), List.filter_eq_self]
    intro v hv
    exact decide_eq_true (h v hv).1

/-- The words of one primitive. -/
structure Phrase (names : Bytes → Option Address) where
  spelling : List Bytes
  meaning : Primitive
  spelling_ne_nil : spelling ≠ []
  isWord : ∀ w ∈ spelling, IsWord w
  reads : ∀ rest, readPrimitive names (spelling ++ rest) = some (meaning,rest)

namespace Phrase
variable {names : Bytes → Option Address}

def text (ph : Phrase names) : Bytes := [blank].intercalate ph.spelling

/-- A primitive of one word. -/
def keyword (w : Bytes) (q : Primitive) (hw : IsWord w) (h : ∀ rest, readPrimitive names (w :: rest) = some (q,rest)) :
    Phrase names where
  spelling := [w]
  meaning := q
  spelling_ne_nil := List.cons_ne_nil _ _
  isWord := by simpa using hw
  reads := h

def tcp : Phrase names := keyword (ascii "tcp") .tcp (by decide) (fun _ => rfl)
def udp : Phrase names := keyword (ascii "udp") .udp (by decide) (fun _ => rfl)
def icmp : Phrase names := keyword (ascii "icmp") .icmp (by decide) (fun _ => rfl)

def port (w : Bytes) (n : ℕ) (hw : IsWord w) (hn : readNumber w = some n) : Phrase names where
  spelling := [ascii "port",w]
  meaning := .port n
  spelling_ne_nil := List.cons_ne_nil _ _
  isWord := by
    have hport : IsWord (ascii "port") := by decide
    simpa using ⟨hport,hw⟩
  reads rest := by
    change (readNumber w).map _ = _
    rw [hn]
    rfl

def host (w : Bytes) (a : Address) (hw : IsWord w) (ha : names w = some a) : Phrase names where
  spelling := [ascii "host",w]
  meaning := .host a
  spelling_ne_nil := List.cons_ne_nil _ _
  isWord := by
    have hhost : IsWord (ascii "host") := by decide
    simpa using ⟨hhost,hw⟩
  reads rest := by
    change (names w).map _ = _
    rw [ha]
    rfl

def srcHost (w : Bytes) (a : Address) (hw : IsWord w) (ha : names w = some a) : Phrase names where
  spelling := [ascii "src",ascii "host",w]
  meaning := .srcHost a
  spelling_ne_nil := List.cons_ne_nil _ _
  isWord := by
    have hsrc : IsWord (ascii "src") := by decide
    have hhost : IsWord (ascii "host") := by decide
    simpa using ⟨hsrc,hhost,hw⟩
  reads rest := by
    change (names w).map _ = _
    rw [ha]
    rfl

def dstHost (w : Bytes) (a : Address) (hw : IsWord w) (ha : names w = some a) : Phrase names where
  spelling := [ascii "dst",ascii "host",w]
  meaning := .dstHost a
  spelling_ne_nil := List.cons_ne_nil _ _
  isWord := by
    have hdst : IsWord (ascii "dst") := by decide
    have hhost : IsWord (ascii "host") := by decide
    simpa using ⟨hdst,hhost,hw⟩
  reads rest := by
    change (names w).map _ = _
    rw [ha]
    rfl

section Texts
variable (w : Bytes) (n : ℕ) (a : Address) (hw : IsWord w) (hn : readNumber w = some n) (ha : names w = some a)

theorem text_port : (port w n hw hn : Phrase names).text = ascii "port " ++ w := by
  have hkey : ascii "port " = ascii "port" ++ [blank] := by decide
  simp [text, port, List.intercalate_cons_cons, hkey]

theorem text_host : (host w a hw ha).text = ascii "host " ++ w := by
  have hkey : ascii "host " = ascii "host" ++ [blank] := by decide
  simp [text, host, List.intercalate_cons_cons, hkey]

theorem text_srcHost : (srcHost w a hw ha).text = ascii "src host " ++ w := by
  have hkey : ascii "src host " = ascii "src" ++ [blank] ++ ascii "host" ++ [blank] := by decide
  simp [text, srcHost, List.intercalate_cons_cons, hkey]

theorem text_dstHost : (dstHost w a hw ha).text = ascii "dst host " ++ w := by
  have hkey : ascii "dst host " = ascii "dst" ++ [blank] ++ ascii "host" ++ [blank] := by decide
  simp [text, dstHost, List.intercalate_cons_cons, hkey]

end Texts

end Phrase

/-! ## Conjunctions of phrases -/

abbrev conjunction : Bytes := ascii " and "

section Conjunction
variable {names : Bytes → Option Address}

/-- All words of phrases joined by `and`. -/
def spelled (phs : List (Phrase names)) : List Bytes := [andWord].intercalate (phs.map Phrase.spelling)

theorem spelled_cons_cons (ph ph' : Phrase names) (phs : List (Phrase names)) :
    spelled (ph :: ph' :: phs) = ph.spelling ++ andWord :: spelled (ph' :: phs) := by
  simp [spelled, List.intercalate_cons_cons]

theorem spelled_singleton (ph : Phrase names) : spelled [ph] = ph.spelling := by
  simp [spelled]

theorem isWord_spelled (phs : List (Phrase names)) : ∀ w ∈ spelled phs, IsWord w := by
  induction phs with
  | nil => simp [spelled]
  | cons ph phs ih =>
    cases phs with
    | nil =>
      rw [spelled_singleton]
      exact ph.isWord
    | cons ph' phs =>
      rw [spelled_cons_cons]
      intro w hw
      rcases List.mem_append.mp hw with hw | hw
      · exact ph.isWord w hw
      · rcases List.mem_cons.mp hw with rfl | hw
        · decide
        · exact ih w hw

theorem length_le_spelled (phs : List (Phrase names)) : phs.length ≤ (spelled phs).length := by
  induction phs with
  | nil => exact le_rfl
  | cons ph phs ih =>
    have hpos := List.length_pos_of_ne_nil ph.spelling_ne_nil
    cases phs with
    | nil =>
      rw [spelled_singleton]
      exact hpos
    | cons ph' phs =>
      rw [spelled_cons_cons, List.length_append, List.length_cons, List.length_cons (a := andWord)]
      omega

/-- Joining the texts of phrases separates all their words by blanks. -/
theorem intercalate_spelled (phs : List (Phrase names)) :
    [blank].intercalate (spelled phs) = conjunction.intercalate (phs.map Phrase.text) := by
  induction phs with
  | nil => rfl
  | cons ph phs ih =>
    cases phs with
    | nil => simp [spelled_singleton, Phrase.text]
    | cons ph' phs =>
      have hne : spelled (ph' :: phs) ≠ [] := by
        apply List.ne_nil_of_length_pos
        exact lt_of_lt_of_le (Nat.succ_pos _) (length_le_spelled (ph' :: phs))
      have hand : [blank].intercalate (andWord :: spelled (ph' :: phs)) =
          andWord ++ blank :: [blank].intercalate (spelled (ph' :: phs)) :=
        intercalate_append (List.cons_ne_nil andWord []) hne
      rw [spelled_cons_cons, intercalate_append ph.spelling_ne_nil (List.cons_ne_nil _ _), hand, ih]
      have hsep : conjunction = blank :: andWord ++ [blank] := by decide
      simp [Phrase.text, List.intercalate_cons_cons, hsep]

theorem readConjunction_spelled {fuel : ℕ} {ph : Phrase names} {phs : List (Phrase names)} (hf : phs.length < fuel) :
    readConjunction names fuel (spelled (ph :: phs)) = some ((ph :: phs).map Phrase.meaning) := by
  induction phs generalizing fuel ph with
  | nil =>
    obtain ⟨fuel,rfl⟩ := Nat.exists_eq_add_of_lt hf
    have hread := ph.reads []
    rw [List.append_nil] at hread
    rw [spelled_singleton, readConjunction, hread]
    rfl
  | cons ph' phs ih =>
    rw [List.length_cons] at hf
    obtain ⟨fuel,rfl⟩ : ∃ k, fuel = k + 1 := ⟨fuel - 1,by omega⟩
    rw [spelled_cons_cons, readConjunction, ph.reads]
    change (if andWord = andWord then (readConjunction names fuel (spelled (ph' :: phs))).map (ph.meaning :: ·) else none) = _
    rw [if_pos rfl, ih (show phs.length < fuel by omega)]
    rfl

/-- Phrases joined by ` and ` are read back. -/
theorem readFilter_phrases (phs : List (Phrase names)) :
    readFilter names (conjunction.intercalate (phs.map Phrase.text)) = some (phs.map Phrase.meaning) := by
  rw [← intercalate_spelled, readFilter, words_intercalate (isWord_spelled phs)]
  cases phs with
  | nil => rfl
  | cons ph phs =>
    have hle := length_le_spelled (ph :: phs)
    rw [List.length_cons] at hle
    rw [if_neg (List.ne_nil_of_length_pos (by omega)), readConjunction_spelled (by omega)]

theorem accepts_phrases (phs : List (Phrase names)) (p : Traffic) :
    Accepts names (conjunction.intercalate (phs.map Phrase.text)) p ↔ ∀ ph ∈ phs, ph.meaning.Holds p := by
  unfold Accepts
  rw [readFilter_phrases]
  constructor
  · rintro ⟨qs,hqs,hall⟩ ph hmem
    obtain rfl := Option.some.inj hqs
    exact hall _ (List.mem_map_of_mem hmem)
  · intro hall
    refine ⟨_,rfl,?_⟩
    rintro q hq
    obtain ⟨ph,hmem,rfl⟩ := List.mem_map.mp hq
    exact hall ph hmem

end Conjunction

end FilterLanguage
