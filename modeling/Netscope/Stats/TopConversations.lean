import Netscope.Dns.Transports
import Netscope.Layers.LayerTags
import Netscope.Layers.PayloadView
import Netscope.Library.Ranking
import Netscope.Model.StatsPrint
import Netscope.Stats.FlowTable

/-! # The top conversations

The printer collects the slots in use, sorts them by their bytes and lists the first
ten. The slots are the conversations of the run, each in one slot, so the list is the
top of the ranking of conversations.
-/
namespace Netscope.TopConversations
open ByteString Numerals FlowKey FlowTable OpenAddressing

/-! ## Conversations of a run -/

/-- The conversations, in the order of their first packets. -/
def conversations (pkts : List Packet) : List Key := (pkts.filterMap packetKey).eraseDups

/-- The packets of a conversation, in both directions. -/
def packetsOf (pkts : List Packet) (k : Key) : List Packet := pkts.filter fun pkt => packetKey pkt = some k

/-- The captured bytes of a conversation, in both directions. -/
def bytesOf (pkts : List Packet) (k : Key) : ℕ := ((packetsOf pkts k).map Packet.capturedLength).sum

/-- A conversation whose endpoints are put into an order. -/
structure Conversation where
  proto : Proto
  first : Endpoint
  second : Endpoint

instance : Inhabited Conversation := ⟨.unknown,(.ipv4 (.replicate 4 0),0),(.ipv4 (.replicate 4 0),0)⟩

def Conversation.key (c : Conversation) : Key := (c.proto,s(c.first,c.second))

section Entry
variable (lib : PrintLibrary)

end Entry

theorem compareFlowPtrsDesc_le (f g : Flow) : compareFlowPtrsDesc f g ≤ 0 ↔ g.bytes.toNat ≤ f.bytes.toNat := by
  unfold compareFlowPtrsDesc
  simp only [gt_iff_lt, UInt64.lt_iff_toNat_lt]
  split
  · constructor
    · omega
    · omega
  · split
    · constructor
      · omega
      · omega
    · constructor
      · omega
      · omega

theorem compareFlowPtrsDesc_neg (f g : Flow) : compareFlowPtrsDesc f g < 0 ↔ g.bytes.toNat < f.bytes.toNat := by
  unfold compareFlowPtrsDesc
  simp only [gt_iff_lt, UInt64.lt_iff_toNat_lt]
  split
  · simp [*]
  · split
    · simp [*]
    · simp [*]

theorem compareFlowPtrsDesc_consistent : Ranking.Consistent compareFlowPtrsDesc where
  antisymm f g := by
    have hle := compareFlowPtrsDesc_le f g
    have hneg := compareFlowPtrsDesc_neg g f
    omega
  trans f g h hfg hgh := by
    rw [compareFlowPtrsDesc_le] at hfg hgh ⊢
    exact hgh.trans hfg

/-! ## The slots in use -/

theorem usedFlows_eq (stats : Stats) :
    usedFlows stats = ((List.finRange maxFlows).filter fun i => (slots stats i).inUse).map (slots stats) := by
  have hflows : stats.flows.toList = (List.finRange maxFlows).map (slots stats) := by
    apply List.ext_getElem
    · simp
    · intro i hi hi'
      simp [slots_eq]
  rw [usedFlows, hflows, List.filter_map]
  rfl

theorem mem_usedFlows {stats : Stats} {slot : Flow} :
    slot ∈ usedFlows stats ↔ ∃ i, (slots stats i).inUse = true ∧ slots stats i = slot := by
  simp [usedFlows_eq]

section Run
variable {pkts : List Packet}

theorem run_length (pkts : List Packet) :
    (BoundedMap.run maxFlows (pkts.filterMap contribution)).length = (firstKeys pkts).length := by
  have hkeys := congrArg List.length (run_contribution_keys pkts)
  rwa [List.length_map, List.length_map] at hkeys

theorem flowCount_eq (pkts : List Packet) : (runStats pkts).flowCount = (firstKeys pkts).length := by
  rw [(runStats_holds pkts).flowCount, run_length]

/-- There are as many slots in use as keys that found room. -/
theorem length_usedFlows (pkts : List Packet) : (usedFlows (runStats pkts)).length = (firstKeys pkts).length := by
  have hcount := (runStats_holds pkts).represents.count
  have hslots : (usedFlows (runStats pkts)).length =
      (Finset.univ.filter fun i => (slots (runStats pkts) i).inUse = true).card := by
    rw [usedFlows_eq, List.length_map, ← List.toFinset_card_of_nodup ((List.nodup_finRange maxFlows).filter _),
      List.toFinset_filter, List.toFinset_finRange]
  rw [hslots, ← run_length]
  exact hcount

section Totals
variable (hkeyed : ∀ pkt ∈ pkts, packetKey pkt ≠ none → 0 < pkt.capturedLength)
include hkeyed

end Totals

/-- The conversations that are printed: none when the counter of flows is zero. -/
def listedConversations (lib : PrintLibrary) (stats : Stats) : List Flow :=
  if stats.flowCount = 0 then [] else topConversations lib stats

/-- The text of a list of conversations, with its title unless the list is empty. -/
def printListed (lib : PrintLibrary) (listed : List Flow) : Bytes :=
  if listed = [] then []
  else [newline] ++ field "Top conversations:" [] ++ [newline] ++ (listed.mapIdx (printConversation lib)).flatten

/-- The early exit of the printer changes nothing: without flows there are no slots in use. -/
theorem listedConversations_eq {lib : PrintLibrary} (hsort : Ranking.Sorts lib.qsort) (pkts : List Packet) :
    listedConversations lib (runStats pkts) = (lib.qsort compareFlowPtrsDesc (usedFlows (runStats pkts))).take 10 := by
  have hlen := (hsort.perm compareFlowPtrsDesc_consistent (usedFlows (runStats pkts))).length_eq
  have htop : topConversations lib (runStats pkts) =
      (lib.qsort compareFlowPtrsDesc (usedFlows (runStats pkts))).take 10 := by
    unfold topConversations
    split
    · rw [List.take_of_length_le hlen.le, List.take_of_length_le (by omega)]
    · rfl
  unfold listedConversations
  split
  · rename_i hzero
    rw [flowCount_eq, ← length_usedFlows, ← hlen, List.length_eq_zero_iff] at hzero
    rw [hzero, List.take_nil]
  · exact htop

theorem length_listedConversations {lib : PrintLibrary} (hsort : Ranking.Sorts lib.qsort) (pkts : List Packet) :
    (listedConversations lib (runStats pkts)).length = min 10 (firstKeys pkts).length := by
  rw [listedConversations_eq hsort, hsort.length_take compareFlowPtrsDesc_consistent, length_usedFlows]

theorem nsStatsPrint_eq {lib : PrintLibrary} (hsort : Ranking.Sorts lib.qsort) (pkts : List Packet) (duration : Bytes) :
    nsStatsPrint lib (runStats pkts) duration = printTotals lib (runStats pkts) duration ++
      printProtocols lib (runStats pkts) ++ printListed lib (listedConversations lib (runStats pkts)) := by
  have hempty : listedConversations lib (runStats pkts) = [] ↔ (runStats pkts).flowCount = 0 := by
    rw [← List.length_eq_zero_iff, length_listedConversations hsort, flowCount_eq]
    omega
  rw [nsStatsPrint, printListed]
  by_cases hzero : (runStats pkts).flowCount = 0
  · rw [if_pos hzero, if_pos (hempty.mpr hzero)]
  · rw [if_neg hzero, if_neg (mt hempty.mp hzero), listedConversations, if_neg hzero]

end Run

/-! ## Captured packets -/

/-- The quotient of two numbers rounded to the nearest one, a tie to the even one. -/
def nearest (a b : ℕ) : ℕ :=
  if 2 * (a % b) < b ∨ 2 * (a % b) = b ∧ a / b % 2 = 0 then a / b else a / b + 1

def twoDecimals (hundredths : ℕ) : Bytes :=
  decimal (hundredths / 100) ++ [dot] ++ padLeft 48 2 (decimal (hundredths % 100))

/-- A library whose conversions round exactly and whose `qsort` merges. -/
def mergingLibrary : PrintLibrary where
  scaled bytes unit := twoDecimals (nearest (100 * bytes.toNat) (1024 ^ unit))
  percent count total :=
    padLeft 32 5 (if total = 0 then twoDecimals 0 else twoDecimals (nearest (10000 * count.toNat) total.toNat))
  qsort cmp xs := xs.mergeSort fun a b => cmp a b ≤ 0

/-- The answer to `queryOverUdp`. -/
def answerOverUdp : Capture where
  data := [7,8,9,10,11,12,1,2,3,4,5,6,0x08,0x00,
    0x45,0,0,45,0,1,0x40,0,64,17,0,0,10,0,0,2,10,0,0,1,
    0,53,0x9c,0x40,0,25,0,0,
    0x12,0x34,0x81,0,0,1,0,0,0,0,0,0,0,0,1,0,1]
  originalLength := 59
  timestamp := ⟨0,0⟩
  number := 3
  linkType := .ethernet

/-- Three packets of two conversations, the larger one second and in both directions. -/
def twoConversations : List Capture := [DnsTransports.queryOverTcp,DnsTransports.queryOverUdp,answerOverUdp]

end Netscope.TopConversations
