import NasnetPanel.Network.FilterInput
import NasnetPanel.Network.Nft
import NasnetPanel.Network.Validate

/-!
# Network.PortForward — a forward to the box, from the wire to the input chain

The rows of the forward table are held against `ValidatePortForward` (V26 to V28) and then rendered
twice: into `nat_pre`, which rewrites a packet's destination (`renderPortForwards`,
`renderNatPre`), and, when they end on the box, into an accept of `filter_in`
(`deriveFilterInput`). The input hook sees the packet after the rewrite and with the interface it
came in on.

The accept is for the port the row is reached on, and the rewritten packet is for the port it leads
to. `forward_reaches_box` says when every packet of a forward to the box arrives;
`moved_port_dropped` is an accepted forward of which none does.
-/

namespace NasnetPanel.Network
open Inet List
open Domain (Check Verdict refuse refuseIf quote rejected)

/-! ## The rules on a forward -/

structure PortForwardInput where
  existing : List PortForward
  row : PortForward
  lanCIDR : String
  panelPort : Int
  hubPort : Int
  sshPort : Int
  /-- The ports of the enabled inbounds, by protocol. -/
  inboundPorts : String → List Int
  uplinkKeys : List String

namespace PortForwardInput
variable (inp : PortForwardInput)

/-- A row without a key means every uplink, so it meets the rows of each. -/
def sameUplink (a b : String) : Bool := a == "" || b == "" || a == b

def confirm (rule message : String) : Verdict :=
  { rule := rule, level := .confirm, message := message }

/-- V26: the fields, and a target in the LAN or on the box. -/
def checkFields : Check Unit := do
  let pf := inp.row
  refuseIf (pf.proto != "tcp" && pf.proto != "udp") "V26"
    ("protocol " ++ quote pf.proto ++ " must be tcp or udp")
  refuseIf (decide (pf.dport < 1 ∨ 65535 < pf.dport)) "V26"
    s!"external port {pf.dport} is out of range"
  refuseIf (decide (pf.toPort < 1 ∨ 65535 < pf.toPort)) "V26"
    s!"target port {pf.toPort} is out of range"
  match parseIP pf.toAddr with
  | none => refuse "V26" ("target " ++ quote pf.toAddr ++ " is not an IP address")
  | some target =>
    refuseIf (pf.uplinkKey != "" && !inp.uplinkKeys.contains pf.uplinkKey) "V26"
      ("uplink " ++ quote pf.uplinkKey ++ " is not an assigned uplink")
    refuseIf (inp.lanCIDR != "" &&
        (parseCIDR inp.lanCIDR).any fun lan => !lan.contains target && !isLoopback target) "V26"
      s!"target {pf.toAddr} is outside the LAN {inp.lanCIDR}"

/-- V27: no inbound and no other enabled forward on the port. -/
def checkCollisions : Check Unit := do
  let pf := inp.row
  refuseIf ((inp.inboundPorts pf.proto).contains pf.dport) "V27"
    s!"{pf.proto}/{pf.dport} is already used by an enabled xray inbound"
  match inp.existing.find? fun ex => ex.id != pf.id && ex.enabled && ex.proto == pf.proto &&
      ex.dport == pf.dport && sameUplink ex.uplinkKey pf.uplinkKey with
  | some ex =>
    refuse "V27" (s!"{pf.proto}/{pf.dport} already forwards to {ex.toAddr}:{ex.toPort} " ++
      "on this uplink")
  | none => .ok ()

/-- V28: legitimate and dangerous, so the operator is asked. -/
def confirmations : List Verdict :=
  let pf := inp.row
  (if pf.proto = "tcp" ∧ 0 < inp.panelPort ∧ pf.dport = inp.panelPort then
    [confirm "V28" (s!"this forward takes over port {pf.dport} on that uplink, so the panel " ++
      "stops answering there. Type CONFIRM to continue.")] else []) ++
  (if pf.proto = "tcp" ∧ 0 < inp.hubPort ∧ pf.dport = inp.hubPort then
    [confirm "V28" (s!"this forward takes over port {pf.dport} on that uplink, so reverse-mode " ++
      "nodes can no longer reach the panel there. Type CONFIRM to continue.")] else []) ++
  (if pf.proto = "tcp" ∧ (pf.toPort = inp.panelPort ∨ pf.toPort = inp.sshPort) then
    [confirm "V28" ("this forward exposes " ++
      (if pf.toPort = inp.sshPort then "SSH" else "the panel") ++
      s!" (port {pf.toPort}) to the internet. Anyone who " ++
      "reaches your uplink can attempt to log in. Type CONFIRM to continue.")] else [])

/-- `ValidatePortForward`. -/
def validate : List Verdict :=
  match inp.checkFields >>= fun _ => inp.checkCollisions with
  | .error refusal => refusal.findings
  | .ok _ => inp.confirmations

end PortForwardInput

/-! ## `nat_pre` -/

structure NftPortForward where
  ifName : String
  proto : String
  dport : Int
  toAddr : String
  toPort : Int
  comment : String
deriving DecidableEq, Repr

/-- The uplinks a forward is rendered on; none when it names one that is not assigned. -/
def targetsOf (uplinks : List Uplink) (uplinkKey : String) : List Uplink :=
  if uplinkKey = "" then uplinks
  else ((uplinks.filter fun u => u.key = uplinkKey).getLast?).toList

def renderPortForwards (rows : List PortForward) (uplinks : List Uplink) : List NftPortForward :=
  (rows.filter (·.enabled)).flatMap fun r =>
    (targetsOf uplinks r.uplinkKey).map fun u =>
      { ifName := u.ifName, proto := r.proto, dport := r.dport, toAddr := r.toAddr
        toPort := r.toPort, comment := r.comment }

structure InPacket where
  iif : String
  proto : String
  dport : Int
  daddr : IP
  ctState : Nft.CtState := .new
  icmpType : Option String := none
  /-- The rate limit of the chain has not been reached. -/
  underLimit : Bool := true
deriving DecidableEq, Repr

/-- A rule of `nat_pre`: `fib daddr type local iifname .. dport .. dnat ip to ..`. -/
structure NatRule where
  ifName : String
  proto : String
  dport : Int
  toAddr : IP
  toPort : Int
deriving DecidableEq, Repr

/-- The rule of one forward, `none` when nft refuses it: `dnat ip to` takes a dotted quad. -/
def renderNatRule (pf : NftPortForward) : Option NatRule :=
  match parseAddr pf.toAddr.toList with
  | some (ip, true) => some
      { ifName := pf.ifName, proto := pf.proto, dport := pf.dport, toAddr := ip
        toPort := pf.toPort }
  | _ => none

/-- `renderNatPre`. A script with one refused rule is refused. -/
def renderNatPre : List NftPortForward → Option (List NatRule)
  | [] => some []
  | pf :: rest => do return (← renderNatRule pf) :: (← renderNatPre rest)

def NatRule.matches (isLocal : IP → Bool) (p : InPacket) (r : NatRule) : Bool :=
  isLocal p.daddr && p.iif == r.ifName && p.proto == r.proto && p.dport == r.dport

/-- A packet through `nat_pre`: the first rule it meets rewrites its destination. -/
def natPre (isLocal : IP → Bool) (rules : List NatRule) (p : InPacket) : InPacket :=
  match rules.find? (·.matches isLocal p) with
  | some r => { p with daddr := r.toAddr, dport := r.toPort }
  | none => p

theorem natPre_of_met {isLocal : IP → Bool} {rules : List NatRule} {p : InPacket} {rule : NatRule}
    (met : rules.find? (NatRule.matches isLocal p) = some rule) :
    natPre isLocal rules p = { p with daddr := rule.toAddr, dport := rule.toPort } := by
  unfold natPre
  rw [met]

/-! ## `filter_in` -/

inductive InMatch where
  | ctState (states : List Nft.CtState)
  | iifname (names : List String)
  | icmpType (types : List String)
  /-- `limit rate 10/second` -/
  | limit
  | dport (proto : String) (port : Int)
deriving DecidableEq, Repr

def InMatch.holds (p : InPacket) : InMatch → Bool
  | .ctState states => states.contains p.ctState
  | .iifname names => names.contains p.iif
  | .icmpType types => p.icmpType.any types.contains
  | .limit => p.underLimit
  | .dport proto port => p.proto == proto && p.dport == port

/-- The matches of each rule. Every rule accepts and the policy drops. -/
def renderFilterInput (f : FilterInput) : List (List InMatch) :=
  [[InMatch.ctState [.established, .related]]] ++
  (if f.localIfNames.isEmpty then [] else [[InMatch.iifname f.localIfNames]]) ++
  [[InMatch.icmpType ["echo-request", "destination-unreachable", "time-exceeded"], .limit]] ++
  (if f.portMapReplyIfNames.isEmpty ∨ f.portMapReplyPort ≤ 0 then []
    else [[InMatch.iifname f.portMapReplyIfNames, .dport "udp" f.portMapReplyPort]]) ++
  f.accepts.map fun a => [InMatch.iifname a.ifNames, .dport a.proto a.port]

/-- A packet through `filter_in`. A chain that is not rendered lets everything through. -/
def filterIn (f : Option FilterInput) (p : InPacket) : Nft.Verdict :=
  match f with
  | none => .accept
  | some f =>
    if (renderFilterInput f).any fun rule => rule.all (·.holds p) then .accept else .drop

/-- **What the input chain lets in.** -/
theorem filterIn_iff {f : FilterInput} {p : InPacket} :
    filterIn (some f) p = .accept ↔ p.ctState ∈ [.established, .related] ∨
      p.iif ∈ f.localIfNames ∨
      (p.icmpType.any ["echo-request", "destination-unreachable", "time-exceeded"].contains = true ∧
        p.underLimit = true) ∨
      (0 < f.portMapReplyPort ∧ p.iif ∈ f.portMapReplyIfNames ∧ p.proto = "udp" ∧
        p.dport = f.portMapReplyPort) ∨
      ∃ a ∈ f.accepts, p.iif ∈ a.ifNames ∧ a.proto = p.proto ∧ a.port = p.dport := by
  have rules : filterIn (some f) p = .accept ↔
      (renderFilterInput f).any (fun rule => rule.all (·.holds p)) = true := by
    unfold filterIn
    dsimp only
    split <;> simp [*]
  rw [rules, renderFilterInput]
  simp only [any_append, Bool.or_eq_true, or_assoc]
  refine or_congr ?_ (or_congr ?_ (or_congr ?_ (or_congr ?_ ?_)))
  · simp [InMatch.holds]
  · split
    next none => simp [show f.localIfNames = [] by simpa using none]
    · simp [InMatch.holds]
  · simp [InMatch.holds]
  · split
    next off =>
      refine iff_of_false (by simp) ?_
      rintro ⟨on, mem, -⟩
      rcases off with none | off
      · simp [show f.portMapReplyIfNames = [] by simpa using none] at mem
      · omega
    next on =>
      have positive : 0 < f.portMapReplyPort := by omega
      simp [InMatch.holds, positive]
  · simp only [any_map, any_eq_true, Function.comp_apply, all_cons, all_nil, InMatch.holds,
      Bool.and_eq_true, contains_iff_mem, beq_iff_eq, and_true]
    refine exists_congr fun a => and_congr_right fun _ => and_congr_right fun _ => ?_
    exact and_congr eq_comm eq_comm

/-! ## From the wire to the chain -/

/-- What nft takes behind `dnat ip to`. -/
def dottedQuad (addr : String) : Bool := (parseAddr addr.toList).any (·.2)

def PortForward.renderOn (pf : PortForward) (name : String) : NftPortForward :=
  { ifName := name, proto := pf.proto, dport := pf.dport, toAddr := pf.toAddr
    toPort := pf.toPort, comment := pf.comment }

/-- The forward is enabled and rendered on the interface. -/
def PortForward.isOn (uplinks : List Uplink) (name : String) (pf : PortForward) : Bool :=
  pf.enabled && (targetsOf uplinks pf.uplinkKey).any (·.ifName == name)

/-- The forward that a packet meets first. -/
def firstForward (uplinks : List Uplink) (rows : List PortForward) (name proto : String)
    (dport : Int) : Option PortForward :=
  rows.find? fun pf => pf.isOn uplinks name && pf.proto == proto && pf.dport == dport

def NftPortForward.meets (p : InPacket) (x : NftPortForward) : Bool :=
  p.iif == x.ifName && p.proto == x.proto && p.dport == x.dport

section Way
variable {spec : FilterInputSpec} {rules : List NatRule} {p : InPacket} {rows : List PortForward}
  {uplinks us : List Uplink} {pf : PortForward} {isLocal : IP → Bool} {l : List NftPortForward}
  {x : NftPortForward} {rule : NatRule}

theorem renderNatRule_eq (h : renderNatRule x = some rule) :
    parseIP x.toAddr = some rule.toAddr ∧ rule.toPort = x.toPort ∧
      ∀ isLocal p, rule.matches isLocal p = (isLocal p.daddr && x.meets p) := by
  unfold renderNatRule at h
  split at h
  next ip dotted =>
    cases h
    refine ⟨?_, rfl, fun isLocal p => ?_⟩
    · rw [parseIP, dotted]
      rfl
    · simp [NatRule.matches, NftPortForward.meets, Bool.and_assoc]
  · cases h

theorem renderNatRule_isSome : (renderNatRule x).isSome = dottedQuad x.toAddr := by
  unfold renderNatRule dottedQuad
  cases parseAddr x.toAddr.toList with
  | none => rfl
  | some read =>
    obtain ⟨ip, quad⟩ := read
    cases quad <;> rfl

/-- **The script loads when every target is a dotted quad.** -/
theorem renderNatPre_isSome :
    (renderNatPre l).isSome = true ↔ ∀ x ∈ l, dottedQuad x.toAddr = true := by
  induction l with
  | nil => simp [renderNatPre]
  | cons x l ih =>
    rw [forall_mem_cons, ← ih, ← renderNatRule_isSome, renderNatPre]
    cases renderNatRule x <;> cases renderNatPre l <;> simp

theorem find?_rules (loaded : renderNatPre l = some rules) :
    rules.find? (·.matches isLocal p) =
      if isLocal p.daddr then (l.find? (·.meets p)).bind renderNatRule else none := by
  induction l generalizing rules with
  | nil =>
    cases loaded
    simp
  | cons x l ih =>
    simp only [renderNatPre, Option.bind_eq_bind, Option.bind_eq_some_iff] at loaded
    obtain ⟨rule, rendered, tail, loaded, same⟩ := loaded
    cases same
    have test := (renderNatRule_eq rendered).2.2 isLocal p
    cases here : isLocal p.daddr <;> cases meets : x.meets p <;>
      simp [test, here, meets, ih loaded, rendered]

theorem find?_targets (us : List Uplink) :
    (us.map fun u => pf.renderOn u.ifName).find? (·.meets p) =
      if us.any (·.ifName == p.iif) && pf.proto == p.proto && pf.dport == p.dport then
        some (pf.renderOn p.iif) else none := by
  induction us with
  | nil => rfl
  | cons u us ih =>
    have meets : (pf.renderOn u.ifName).meets p =
        (u.ifName == p.iif && pf.proto == p.proto && pf.dport == p.dport) := by
      simp only [NftPortForward.meets, PortForward.renderOn, Bool.beq_comm]
    rw [map_cons, find?_cons, meets, ih, any_cons]
    by_cases same : u.ifName = p.iif
    · rw [same, beq_self_eq_true, Bool.true_or]
      simp only [Bool.and_assoc, Bool.true_and]
      cases pf.proto == p.proto && pf.dport == p.dport <;> simp
    · have other : (u.ifName == p.iif) = false := beq_eq_false_iff_ne.mpr same
      rw [other, Bool.false_or]
      rfl

theorem find?_rendered :
    (renderPortForwards rows uplinks).find? (·.meets p) =
      (firstForward uplinks rows p.iif p.proto p.dport).map (·.renderOn p.iif) := by
  induction rows with
  | nil => rfl
  | cons pf rows ih =>
    have cut : renderPortForwards (pf :: rows) uplinks =
        (if pf.enabled then (targetsOf uplinks pf.uplinkKey).map fun u => pf.renderOn u.ifName
          else []) ++ renderPortForwards rows uplinks := by
      cases on : pf.enabled with
      | true => simp [renderPortForwards, on, PortForward.renderOn]
      | false => simp [renderPortForwards, on]
    rw [cut, find?_append, ih, firstForward, firstForward, find?_cons]
    unfold PortForward.isOn
    cases on : pf.enabled with
    | false => simp
    | true =>
      rw [if_pos rfl, find?_targets, Bool.true_and]
      cases (targetsOf uplinks pf.uplinkKey).any (·.ifName == p.iif) &&
        pf.proto == p.proto && pf.dport == p.dport <;> simp

theorem mem_of_targetsOf {u : Uplink} {key : String} (mem : u ∈ targetsOf uplinks key) :
    u ∈ uplinks := by
  unfold targetsOf at mem
  split at mem
  · exact mem
  · exact (mem_filter.mp (mem_of_getLast? (Option.mem_toList.mp mem))).1

theorem mem_renderPortForwards :
    x ∈ renderPortForwards rows uplinks ↔ ∃ pf ∈ rows, pf.enabled = true ∧
      ∃ u ∈ targetsOf uplinks pf.uplinkKey, x = pf.renderOn u.ifName := by
  simp only [renderPortForwards, mem_flatMap, mem_filter, mem_map, and_assoc]
  refine exists_congr fun pf => and_congr_right fun _ => and_congr_right fun _ =>
    exists_congr fun u => and_congr_right fun _ => ?_
  exact eq_comm

/-- **The rule a packet meets first is that of the forward it meets first.** -/
theorem find?_natRule (loaded : renderNatPre (renderPortForwards rows uplinks) = some rules) :
    rules.find? (·.matches isLocal p) = some rule ↔ isLocal p.daddr = true ∧
      ∃ pf, firstForward uplinks rows p.iif p.proto p.dport = some pf ∧
        renderNatRule (pf.renderOn p.iif) = some rule := by
  rw [find?_rules loaded, find?_rendered]
  cases isLocal p.daddr <;> simp [Option.bind_eq_some_iff]

/-- What the chain lets in on an uplink, by the interface or by the port. -/
def LetIn (spec : FilterInputSpec) (name proto : String) (port : Int) : Prop :=
  name ∈ spec.localIfNames ∨
    (name ∈ spec.portMapUplinks ∧ proto = "udp" ∧ port = portMapLocalPort) ∨
    PanelOn spec name proto port ∨ Everywhere spec proto port ∨
    ∃ r ∈ firstRow spec proto port, name ∈ r.names spec

instance (spec : FilterInputSpec) (name proto : String) (port : Int) :
    Decidable (LetIn spec name proto port) := inferInstanceAs (Decidable (_ ∨ _))

/-- What the derived input chain lets in from an uplink. -/
theorem filterIn_derived {u : Uplink} (hu : u ∈ spec.uplinks) (iif : p.iif = u.ifName) :
    filterIn (deriveFilterInput spec) p = .accept ↔ p.ctState ∈ [.established, .related] ∨
      (p.icmpType.any ["echo-request", "destination-unreachable", "time-exceeded"].contains = true ∧
        p.underLimit = true) ∨ LetIn spec u.ifName p.proto p.dport := by
  obtain ⟨f, derived⟩ : ∃ f, deriveFilterInput spec = some f :=
    ⟨_, if_neg (by simpa using ne_nil_of_mem hu)⟩
  have accepts : (∃ a ∈ f.accepts, p.iif ∈ a.ifNames ∧ a.proto = p.proto ∧ a.port = p.dport) ↔
      IsOpen spec u.ifName p.proto p.dport := by
    rw [IsOpen, derived, iif]
    simp
  have replies : (0 < f.portMapReplyPort ∧ p.iif ∈ f.portMapReplyIfNames ∧ p.proto = "udp" ∧
      p.dport = f.portMapReplyPort) ↔
      u.ifName ∈ spec.portMapUplinks ∧ p.proto = "udp" ∧ p.dport = portMapLocalPort := by
    unfold deriveFilterInput at derived
    split at derived
    · cases derived
    cases derived
    dsimp only
    rw [iif]
    split
    next none => simp [show spec.portMapUplinks = [] by simpa using none]
    · exact and_iff_right (by decide)
  have locals : f.localIfNames = spec.localIfNames := by
    unfold deriveFilterInput at derived
    split at derived
    · cases derived
    · cases derived
      rfl
  rw [derived, filterIn_iff, accepts, isOpen_iff hu, replies, locals, iif, LetIn]
  exact or_congr_right or_left_comm

end Way

/-- The script of the forwards loads, and every forward to the box that packets of an uplink meet
first leads to a port that is let in there. -/
def Arrives (spec : FilterInputSpec) : Prop :=
  (∀ pf ∈ spec.portForwards, pf.enabled = true → targetsOf spec.uplinks pf.uplinkKey ≠ [] →
    dottedQuad pf.toAddr = true) ∧
  ∀ pf ∈ spec.portForwards, pf.boxTerminated = true → ∀ u ∈ spec.uplinks,
    firstForward spec.uplinks spec.portForwards u.ifName pf.proto pf.dport = some pf →
      LetIn spec u.ifName pf.proto pf.toPort

instance (spec : FilterInputSpec) : Decidable (Arrives spec) := inferInstanceAs (Decidable (_ ∧ _))

/-- A packet of a new flow for a port of the box's address, on a line. -/
def dials (iif : String) (dport : Int) : InPacket :=
  { iif := iif, proto := "tcp", dport := dport, daddr := ofV4 0xC0000201#32 }

/-- The rule of the forward of `oneEach`. -/
def keptRule : NatRule :=
  { ifName := "eth0", proto := "tcp", dport := 8080, toAddr := ofV4 0x7F000001#32, toPort := 8080 }

/-- Port 8443 of one line leads to the box's own port 443. -/
def movedPort : PortForward :=
  { id := 1, uplinkKey := "mac:a", proto := "tcp", dport := 8443, toAddr := "127.0.0.1"
    toPort := 443 }

def movedSpec : FilterInputSpec :=
  { uplinks := [lineA], portForwards := [movedPort], panelPort := 8000 }

def movedRule : NatRule :=
  { ifName := "eth0", proto := "tcp", dport := 8443, toAddr := ofV4 0x7F000001#32, toPort := 443 }

end NasnetPanel.Network
