import NasnetPanel.Network.Inet
import NasnetPanel.Network.Mark

/-!
# Network.Nft — the owned table's chains and how a packet meets them

`pkg/nft` renders one table from a `Ruleset`. A chain here is the list of rules its script lists, as
matches and a statement instead of text: `renderManglePre`, `renderLANClassify`,
`renderFilterForward` and the forward chain of `renderKillSwitch`, rule for rule and in order. A
chain the source does not render is `none`.

`Chain.run` is nftables' reading of such a chain: rules in order, a rule whose matches all hold
carries out its statement, a verdict ends the chain, and the policy answers at its end.
-/

namespace NasnetPanel.Nft
open Netmark Inet

/-! ## Packets, matches and statements -/

inductive CtState where
  | new | established | related | invalid
deriving DecidableEq, Repr

/-- What the chains read of a packet. `oif` is empty before the routing decision. -/
structure Packet where
  iif : String
  oif : String := ""
  daddr : IP
  mark : Word := 0
  ctMark : Word
  ctState : CtState
  dnat : Bool
deriving DecidableEq, Repr

/-- Whether a named set holds an address now. dnsmasq adds to the domain sets at run time, so this
is not the elements the set was declared with. -/
abbrev SetContents := String → IP → Bool

inductive Match where
  /-- `iifname "x"` -/
  | iifname (name : String)
  /-- `oifname { .. }` -/
  | oifname (names : List String)
  /-- `oifname != { .. }` -/
  | oifnameNot (names : List String)
  /-- `ct state ..` -/
  | ctState (states : List CtState)
  /-- `ct mark != 0x0` -/
  | ctMarkSet
  /-- `ct status dnat` -/
  | ctStatusDnat
  /-- `meta mark and mask == value` -/
  | markIs (mask value : Word)
  /-- `ip daddr @set` -/
  | ipDaddrSet (set : String)
  /-- `ip6 daddr @set` -/
  | ip6DaddrSet (set : String)
  /-- `ip daddr 192.0.2.0/24` -/
  | ipDaddr (cidr : String)
deriving DecidableEq, Repr

inductive Verdict where
  | accept | drop
deriving DecidableEq, Repr

inductive Statement where
  | verdict (v : Verdict)
  /-- `meta mark set mark and keep or value` -/
  | setMark (keep value : Word)
  /-- `meta mark set ct mark and mask` -/
  | restoreMark (mask : Word)
  /-- `ct mark set ct mark and keep or value` -/
  | setCtMark (keep value : Word)
deriving DecidableEq, Repr

structure ChainRule where
  matchers : List Match
  /-- `counter name ..`, which changes nothing about the packet. -/
  counter : Option String := none
  statement : Statement
deriving DecidableEq, Repr

structure Chain where
  rules : List ChainRule
  policy : Verdict
deriving DecidableEq, Repr

def Match.holds (contents : SetContents) (p : Packet) : Match → Bool
  | .iifname name => p.iif == name
  | .oifname names => names.contains p.oif
  | .oifnameNot names => !names.contains p.oif
  | .ctState states => states.contains p.ctState
  | .ctMarkSet => p.ctMark != 0
  | .ctStatusDnat => p.dnat
  | .markIs mask value => (p.mark &&& mask) == value
  | .ipDaddrSet set => (to4 p.daddr).isSome && contents set p.daddr
  | .ip6DaddrSet set => (to4 p.daddr).isNone && contents set p.daddr
  | .ipDaddr cidr => (parseCIDR cidr).any (·.contains p.daddr)

def ChainRule.holds (contents : SetContents) (p : Packet) (r : ChainRule) : Bool :=
  r.matchers.all (·.holds contents p)

/-- The rules in order: the verdict that ended them, if one did, and the packet as they leave it. -/
def runRules (contents : SetContents) : List ChainRule → Packet → Option Verdict × Packet
  | [], p => (none, p)
  | r :: rest, p =>
    if r.holds contents p then
      match r.statement with
      | .verdict v => (some v, p)
      | .setMark keep value =>
        runRules contents rest { p with mark := (p.mark &&& keep) ||| value }
      | .restoreMark mask => runRules contents rest { p with mark := p.ctMark &&& mask }
      | .setCtMark keep value =>
        runRules contents rest { p with ctMark := (p.ctMark &&& keep) ||| value }
    else runRules contents rest p

/-- A packet through a chain. A chain that is not rendered lets everything through. -/
def Chain.run (contents : SetContents) (chain : Option Chain) (p : Packet) : Verdict × Packet :=
  match chain with
  | none => (.accept, p)
  | some c =>
    let (verdict, p') := runRules contents c.rules p
    (verdict.getD c.policy, p')

section Run
variable {contents : SetContents} {p : Packet} {r : ChainRule} {rest : List ChainRule}

theorem runRules_skip (h : r.holds contents p = false) :
    runRules contents (r :: rest) p = runRules contents rest p := by
  rw [runRules, h]
  rfl

/-- Rules that do not hold of the packet are passed over. -/
theorem runRules_append_of_not_holds {before after : List ChainRule}
    (h : ∀ r ∈ before, r.holds contents p = false) :
    runRules contents (before ++ after) p = runRules contents after p := by
  induction before with
  | nil => rfl
  | cons r rest ih =>
    rw [List.cons_append, runRules_skip (h r List.mem_cons_self)]
    exact ih fun r hr => h r (List.mem_cons_of_mem _ hr)

theorem runRules_verdict {v : Verdict}
    (h : r.holds contents p = true) (verdict : r.statement = .verdict v) :
    runRules contents (r :: rest) p = (some v, p) := by
  rw [runRules, if_pos h, verdict]

end Run

/-! ## The ruleset -/

/-- Flows arriving on `ifName` belong to uplink `index`. -/
structure Pin where
  ifName : String
  index : Word
deriving DecidableEq, Repr

/-- A declared set; what it holds is the packet's surroundings (`SetContents`). -/
structure NftSet where
  name : String
deriving DecidableEq, Repr

structure LANClassify where
  bridgeName : String
  domesticV4Set : String := ""
  domesticV6Set : String := ""
  domainV4Set : String := ""
  domainV6Set : String := ""
deriving DecidableEq, Repr

structure FilterForward where
  bridgeName : String
  uplinkNames : List String
deriving DecidableEq, Repr

/-- One secondary uplink, as far as the forward chain reads it. -/
structure KillSwitchLeg where
  ifName : String
deriving DecidableEq, Repr

structure KillSwitch where
  legs : List KillSwitchLeg
  dishSubnet : String
deriving DecidableEq, Repr

/-- The desired state of the owned table, as far as the chains here read it. -/
structure Ruleset where
  connmark : Bool := false
  counters : Bool := false
  ingressPins : List Pin := []
  sets : List NftSet := []
  lanClassify : Option LANClassify := none
  filterForward : Option FilterForward := none
  killSwitch : Option KillSwitch := none
deriving DecidableEq, Repr

def counterKillSwitch : String := "cnt_killswitch"

/-! ## The chains -/

/-- Pins stamp the ct mark, so they imply the save and restore pair. -/
def Ruleset.connmarkOn (r : Ruleset) : Bool := r.connmark || !r.ingressPins.isEmpty

/-- One set's rule: what enters on the bridge for an address of the set is domestic. A set that is
not declared has no rule. -/
def domesticRule (bridge set : String) (inSet : String → Match) : List ChainRule :=
  if set = "" then []
  else [{ matchers := [.iifname bridge, inSet set]
          statement := .setMark (~~~maskGroup) (groupMark groupDomestic) }]

/-- Rules after the restore, so they win over whatever conntrack carried. Foreign by default. -/
def renderLANClassify (r : Ruleset) : List ChainRule :=
  match r.lanClassify with
  | none => []
  | some c =>
    domesticRule c.bridgeName c.domesticV4Set .ipDaddrSet ++
      domesticRule c.bridgeName c.domainV4Set .ipDaddrSet ++
      domesticRule c.bridgeName c.domesticV6Set .ip6DaddrSet ++
      domesticRule c.bridgeName c.domainV6Set .ip6DaddrSet ++
      [{ matchers := [.iifname c.bridgeName, .markIs maskGroup 0]
         statement := .setMark (~~~maskGroup) (groupMark groupForeign) }]

/-- Ingress pins, the restore, then LAN classification. -/
def renderManglePre (r : Ruleset) : Option Chain :=
  if !r.connmarkOn && r.lanClassify.isNone then none
  else some
    { policy := .accept
      rules :=
        (r.ingressPins.map fun p =>
          { matchers := [.iifname p.ifName, .ctState [.new]]
            statement := .setCtMark (~~~maskPin) (pinMark p.index) }) ++
        (if r.connmarkOn then
          [{ matchers := [.ctMarkSet], statement := .restoreMark maskAll }] else []) ++
        renderLANClassify r }

def renderFilterForward (r : Ruleset) : Option Chain :=
  r.filterForward.map fun f =>
    { policy := .drop
      rules :=
        [{ matchers := [.ctState [.established, .related]], statement := .verdict .accept },
         { matchers := [.iifname f.bridgeName, .oifname f.uplinkNames]
           statement := .verdict .accept },
         { matchers := [.ctStatusDnat], statement := .verdict .accept }] }

/-- Counts kills when counters are on; the drop itself never changes. -/
def renderDrop (r : Ruleset) : ChainRule :=
  { matchers := [], counter := if r.counters then some counterKillSwitch else none
    statement := .verdict .drop }

/-- The forward chain of the kill switch: a LAN host must not reach the internet over a raw uplink
either. -/
def renderKillSwitchFwd (r : Ruleset) : Option Chain :=
  match r.killSwitch with
  | none => none
  | some k =>
    if k.legs.isEmpty then none
    else some
      { policy := .accept
        rules :=
          [{ matchers := [.oifnameNot (k.legs.map (·.ifName))], statement := .verdict .accept },
           { matchers := [.ctState [.established, .related]], statement := .verdict .accept }] ++
          (if k.dishSubnet = "" then []
           else [{ matchers := [.ipDaddr k.dishSubnet], statement := .verdict .accept }]) ++
          [renderDrop r] }

end NasnetPanel.Nft
