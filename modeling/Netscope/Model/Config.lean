import Netscope.Model.Output

/-! # The command line

`config.c`. The argument vector enters as what `getopt_long` makes of it: a sequence
of options and error events, and the first argument it leaves over.
-/
namespace Netscope
open ByteString Numerals

abbrev configStrLen : ℕ := 256

inductive InputMode where
  | none
  | live
  | file
deriving DecidableEq, Repr

inductive LogLevel where
  | error
  | warn
  | info
  | debug
deriving DecidableEq, Repr

structure Config where
  inputMode : InputMode
  interface : CString
  readFile : CString
  writeFile : CString
  outputFile : CString
  filterTcp : Bool
  filterUdp : Bool
  filterIcmp : Bool
  filterPort : Int32
  filterHost : CString
  filterSrc : CString
  filterDst : CString
  rawFilter : CString
  hasRawFilter : Bool
  noColor : Bool
  verboseOutput : Bool
  quiet : Bool
  showStats : Bool
  hexDump : Bool
  format : OutputFormat
  logLevel : LogLevel
  listInterfaces : Bool
  showHelp : Bool
  showVersion : Bool
deriving DecidableEq

/-- What `getopt_long` returns, with `optarg`. An error comes with `optopt`, `optind` and
the argument before `optind`. -/
inductive Token where
  | interface (arg : CString)
  | read (arg : CString)
  | help
  | verbosity
  | version
  | listInterfaces
  | tcp
  | udp
  | icmp
  | port (arg : CString)
  | host (arg : CString)
  | src (arg : CString)
  | dst (arg : CString)
  | filter (arg : CString)
  | noColor
  | verbose
  | quiet
  | stats
  | hex
  | write (arg : CString)
  | format (arg : CString)
  | output (arg : CString)
  | debug
  | unrecognized (optopt : Int32) (optind : ℕ) (word : CString)
deriving DecidableEq

/-- An argument vector as `getopt_long` splits it. -/
structure CommandLine where
  tokens : List Token
  leftover : Option CString

def copyStr (src : CString) : CString := src.cut configStrLen

/-! ## Ports -/

def isSpace (c : UInt8) : Bool := c = 32 ∨ (9 ≤ c ∧ c ≤ 13)
def isDigit (c : UInt8) : Bool := 48 ≤ c ∧ c ≤ 57

/-- What `strtol` returns: the value, the bytes consumed and whether it was out of range. -/
structure StrtolResult where
  value : ℤ
  consumed : ℕ
  range : Bool
deriving DecidableEq, Repr

/-- The sign of a number and the bytes it takes. -/
def readSign (s : Bytes) : Bool × ℕ :=
  match s with
  | 45 :: _ => (true,1)
  | 43 :: _ => (false,1)
  | _ => (false,0)

/-- `strtol` in base ten with a `long` of 64 bits. -/
def strtol (s : Bytes) : StrtolResult :=
  let blanks := (s.takeWhile isSpace).length
  let (negative,sign) := readSign (s.drop blanks)
  let digits := (s.drop (blanks + sign)).takeWhile isDigit
  if digits = [] then ⟨0,0,false⟩
  else
    let magnitude : ℤ := value 10 digits
    let number := if negative then -magnitude else magnitude
    let consumed := blanks + sign + digits.length
    if number > 2 ^ 63 - 1 then ⟨2 ^ 63 - 1,consumed,true⟩
    else if number < -2 ^ 63 then ⟨-2 ^ 63,consumed,true⟩
    else ⟨number,consumed,false⟩

def parsePort (text : CString) (errLen : ℕ) : Except Bytes Int32 :=
  let r := strtol text.bytes
  if r.consumed = 0 ∨ r.consumed ≠ text.bytes.length ∨ r.range ∨ r.value < 0 ∨ r.value > 65535 then
    .error (snprintf errLen (ascii "invalid port '" ++ text.bytes ++ ascii "' (expected 0-65535)"))
  else .ok (Int32.ofInt r.value)

/-! ## The option loop -/

/-- The configuration with the local flags of `ns_config_parse`. -/
structure ParseState where
  out : Config
  haveInterface : Bool
  haveReadFile : Bool
  anySimpleFilter : Bool
deriving DecidableEq

def initialState : ParseState where
  out :=
    { inputMode := .none, interface := .empty, readFile := .empty, writeFile := .empty, outputFile := .empty
      filterTcp := false, filterUdp := false, filterIcmp := false, filterPort := -1, filterHost := .empty
      filterSrc := .empty, filterDst := .empty, rawFilter := .empty, hasRawFilter := false, noColor := false
      verboseOutput := false, quiet := false, showStats := false, hexDump := false, format := .text, logLevel := .warn
      listInterfaces := false, showHelp := false, showVersion := false }
  haveInterface := false
  haveReadFile := false
  anySimpleFilter := false

/-- `-v` raises the level by one, up to `NS_LOG_DEBUG`. -/
def LogLevel.raise : LogLevel → LogLevel
  | .error => .warn
  | .warn => .info
  | .info => .debug
  | .debug => .debug

/-- The text for an error event. -/
def unrecognizedText (optopt : Int32) (optind : ℕ) (word : CString) : Bytes :=
  if optopt ≠ 0 then
    ascii "unrecognized option or missing argument: '-" ++ [UInt8.ofInt optopt.toInt] ++ ascii "'"
  else if optind > 1 then ascii "unrecognized option '" ++ word.bytes ++ ascii "'"
  else ascii "unrecognized option"

/-- One iteration of the option loop. -/
def parseToken (errLen : ℕ) (s : ParseState) : Token → Except Bytes ParseState
  | .interface arg => .ok { s with out := { s.out with interface := copyStr arg }, haveInterface := true }
  | .read arg => .ok { s with out := { s.out with readFile := copyStr arg }, haveReadFile := true }
  | .help => .ok { s with out := { s.out with showHelp := true } }
  | .verbosity => .ok { s with out := { s.out with logLevel := s.out.logLevel.raise } }
  | .version => .ok { s with out := { s.out with showVersion := true } }
  | .listInterfaces => .ok { s with out := { s.out with listInterfaces := true } }
  | .tcp => .ok { s with out := { s.out with filterTcp := true }, anySimpleFilter := true }
  | .udp => .ok { s with out := { s.out with filterUdp := true }, anySimpleFilter := true }
  | .icmp => .ok { s with out := { s.out with filterIcmp := true }, anySimpleFilter := true }
  | .port arg => do
    let port ← parsePort arg errLen
    return { s with out := { s.out with filterPort := port }, anySimpleFilter := true }
  | .host arg => .ok { s with out := { s.out with filterHost := copyStr arg }, anySimpleFilter := true }
  | .src arg => .ok { s with out := { s.out with filterSrc := copyStr arg }, anySimpleFilter := true }
  | .dst arg => .ok { s with out := { s.out with filterDst := copyStr arg }, anySimpleFilter := true }
  | .filter arg => .ok { s with out := { s.out with rawFilter := copyStr arg, hasRawFilter := true } }
  | .noColor => .ok { s with out := { s.out with noColor := true } }
  | .verbose => .ok { s with out := { s.out with verboseOutput := true } }
  | .quiet => .ok { s with out := { s.out with quiet := true } }
  | .stats => .ok { s with out := { s.out with showStats := true } }
  | .hex => .ok { s with out := { s.out with hexDump := true } }
  | .write arg => .ok { s with out := { s.out with writeFile := copyStr arg } }
  | .format arg =>
    if arg.bytes = ascii "json" then .ok { s with out := { s.out with format := .json } }
    else if arg.bytes = ascii "text" then .ok { s with out := { s.out with format := .text } }
    else .error (snprintf errLen
      (ascii "unknown --format value '" ++ arg.bytes ++ ascii "' (expected 'text' or 'json')"))
  | .output arg => .ok { s with out := { s.out with outputFile := copyStr arg } }
  | .debug => .ok { s with out := { s.out with logLevel := .debug } }
  | .unrecognized optopt optind word => .error (snprintf errLen (unrecognizedText optopt optind word))

/-- The checks behind the loop. -/
def finishParse (errLen : ℕ) (s : ParseState) : Except Bytes Config :=
  if s.out.showHelp ∨ s.out.showVersion then .ok s.out
  else if s.haveInterface ∧ s.haveReadFile then
    .error (snprintf errLen (ascii "-i and -r cannot be used simultaneously"))
  else if s.out.hasRawFilter ∧ s.anySimpleFilter then
    .error (snprintf errLen
      (ascii "--filter cannot be combined with --tcp/--udp/--icmp/--port/--host/--src/--dst"))
  else if s.out.outputFile.bytes ≠ [] ∧ s.out.format ≠ .json then
    .error (snprintf errLen (ascii "--output requires --format json"))
  else if s.out.listInterfaces then .ok s.out
  else if s.haveInterface then .ok { s.out with inputMode := .live }
  else if s.haveReadFile then .ok { s.out with inputMode := .file }
  else .error (snprintf errLen (ascii "either -i <interface> or -r <file> is required"))

def nsConfigParse (args : CommandLine) (errLen : ℕ) : Except Bytes Config := do
  let s ← args.tokens.foldlM (parseToken errLen) initialState
  match args.leftover with
  | some word => throw (snprintf errLen (ascii "unexpected argument '" ++ word.bytes ++ ascii "'"))
  | none => finishParse errLen s

/-! ## Help and version -/

def nsName : Bytes := ascii "NetScope"
def nsVersionString : Bytes := ascii "0.1.0"

def nsConfigPrintVersion : Bytes := nsName ++ ascii " " ++ nsVersionString ++ [newline]

/-- The lines of the help text. -/
def helpLines (programName : Bytes) : List Bytes :=
  [nsName ++ ascii " " ++ nsVersionString ++ ascii " -- capture and analyze network traffic",
   [],
   ascii "Usage:",
   ascii "  " ++ programName ++ ascii " -i <interface> [options]",
   ascii "  " ++ programName ++ ascii " -r <capture.pcap> [options]",
   ascii "  " ++ programName ++ ascii " --list-interfaces",
   [],
   ascii "Input:",
   ascii "  -i, --interface <name>   capture live from a network interface",
   ascii "  -r, --read <file>        read packets from a pcap file",
   ascii "      --list-interfaces    list available capture interfaces and exit",
   [],
   ascii "Filtering (simplified; translated to a BPF expression):",
   ascii "      --tcp                only TCP packets",
   ascii "      --udp                only UDP packets",
   ascii "      --icmp               only ICMP/ICMPv6 packets",
   ascii "      --port <n>           only packets on port n",
   ascii "      --host <addr>        only packets to/from addr",
   ascii "      --src <addr>         only packets from addr",
   ascii "      --dst <addr>         only packets to addr",
   ascii "      --filter <bpf>       raw BPF expression (mutually exclusive with the above)",
   [],
   ascii "Output:",
   ascii "      --no-color           disable ANSI colors",
   ascii "      --verbose            print a detailed field-by-field block per packet",
   ascii "      --quiet              suppress per-packet output",
   ascii "      --stats              print traffic statistics when capture ends",
   ascii "      --hex                print a hex dump of each packet",
   ascii "      --format <text|json> output format (default: text)",
   ascii "      --output <file>      write --format json output to file instead of stdout",
   ascii "      --write <file>       save captured packets to a pcap file",
   [],
   ascii "Diagnostics:",
   ascii "  -v, -vv                  increase internal log verbosity (INFO, DEBUG)",
   ascii "      --debug              shorthand for -vv",
   [],
   ascii "  -h, --help               show this help and exit",
   ascii "      --version            show version information and exit"]

def nsConfigPrintHelp (programName : Bytes) : Bytes := ((helpLines programName).map fun line => line ++ [newline]).flatten

end Netscope
