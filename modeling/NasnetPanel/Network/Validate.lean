import NasnetPanel.Jobs.Text
import NasnetPanel.Network.Interface

/-!
# Network.Validate — the rules a role assignment is held against

`validate` is the source's `Validate`: every form rule in order, with its findings. The rules up to
V16 refuse and stop; they are the steps of `gate`, one function a rule or a group of rules. What is
left after them warns, asks for a confirmation, or refuses a change that would cut the session off.
`validateWAN` and `validateLANConfig` hold the address settings of a WAN and of the LAN against
theirs.

`accepted_of_not_rejected` reads an answer without a refusal back: what each rule then says about
the rows and the request. The results about runs of requests use only that.
-/

namespace NasnetPanel.Domain
open Network Netip List

/-! ## Findings -/

/-- How hard a finding bites. -/
inductive Level where
  | reject | confirm | warn
deriving DecidableEq, Repr

/-- One rule's finding. -/
structure Verdict where
  rule : String
  level : Level
  message : String
deriving DecidableEq, Repr

def rejected (vs : List Verdict) : Bool := vs.any (·.level == .reject)

def reject (rule message : String) : Verdict :=
  { rule := rule, level := .reject, message := message }

/-- `%q` of a printable text. -/
def quote (s : String) : String :=
  "\"" ++ String.join (s.toList.map fun c =>
    if c = '"' then "\\\"" else if c = '\\' then "\\\\" else c.toString) ++ "\""

/-- `strings.HasPrefix`. -/
def startsWith (text start : String) : Bool := start.toList.isPrefixOf text.toList

/-- The findings a rule stops with: one of them at least refuses. -/
structure Refusal where
  findings : List Verdict
  refuses : rejected findings = true

abbrev Check := Except Refusal

def refuse {α : Type} (rule message : String) : Check α :=
  .error { findings := [reject rule message], refuses := rfl }

def refuseIf (bad : Bool) (rule message : String) : Check Unit :=
  if bad then refuse rule message else .ok ()

def refuseWith (vs : List Verdict) : Check Unit :=
  if h : rejected vs = true then .error { findings := vs, refuses := h } else .ok ()

def refuseFirst (rows : List NetworkInterface) (bad : NetworkInterface → Bool) (rule : String)
    (message : NetworkInterface → String) : Check Unit :=
  match rows.find? bad with
  | some r => refuse rule (message r)
  | none => .ok ()

variable {rule : String} {u : Unit}

theorem refuseIf_ok {bad : Bool} {message : String} :
    refuseIf bad rule message = .ok u ↔ bad = false := by
  cases bad <;> simp [refuseIf, refuse]

theorem refuseWith_ok {vs : List Verdict} : refuseWith vs = .ok u ↔ rejected vs = false := by
  unfold refuseWith
  split
  next h => simp [h]
  next h => simp [Bool.eq_false_of_not_eq_true h]

variable {rows : List NetworkInterface}

theorem refuseFirst_ok {bad : NetworkInterface → Bool}
    {message : NetworkInterface → String} :
    refuseFirst rows bad rule message = .ok u ↔ ∀ r ∈ rows, bad r = false := by
  unfold refuseFirst
  cases found : rows.find? bad with
  | some r =>
    constructor
    · intro h
      cases h
    intro h
    have good := h r (mem_of_find?_eq_some found)
    rw [find?_some found] at good
    cases good
  | none =>
    constructor
    · intro _ r hr
      exact Bool.eq_false_of_not_eq_true (find?_eq_none.mp found r hr)
    · intro _
      rfl

theorem bind_ok {α β : Type} {x : Check α} {f : α → Check β} {b : β} :
    (x >>= f) = .ok b ↔ ∃ a, x = .ok a ∧ f a = .ok b := by
  cases x with
  | error vs => simp [bind, Except.bind]
  | ok a => simp [bind, Except.bind]

/-! ## Address settings -/

/-- `ValidWANIPv4` on an address. -/
def validWANAddr (a : Addr) : Bool :=
  a.is4 && a.isGlobalUnicast && !a.isLoopback && a.octet0 != 0 && decide (a.octet0 < 224)

def validWANIPv4 (s : String) : Bool := (parseAddr s).any validWANAddr

/-- The network or the broadcast address. A /31 has neither. -/
def subnetEndpoint (p : Prefix) (a : Addr) : Bool :=
  if 31 ≤ p.bits then false
  else
    let base := p.addr.as4 &&& Inet.cidrMask 32 p.bits
    a.as4 == base || a.as4 == base ||| ((1#32 <<< (32 - p.bits)) - 1)

/-- The static address, when it is one a WAN can use. -/
def wanPrefix (c : WANConfig) : Option Prefix :=
  (parsePrefix c.staticAddress).filter fun p =>
    p.addr.is4 && decide (1 ≤ p.bits) && validWANAddr p.addr

/-- What is wrong with a static address and its gateway, each with the form's field. -/
def staticFaults (c : WANConfig) : List (String × String) :=
  (match wanPrefix c with
    | none => [("address", "Enter an IPv4 address with a prefix length from 1 to 32.")]
    | some p =>
      if subnetEndpoint p p.addr then
        [("address", "Use a host address, not this subnet's network or broadcast address.")]
      else []) ++
  (match (parseAddr c.staticGateway).filter validWANAddr with
    | none => [("gateway", "Enter a unicast IPv4 gateway.")]
    | some gw =>
      match wanPrefix c with
      | none => []
      | some p =>
        if gw = p.addr then [("gateway", "The gateway must differ from the WAN address.")]
        else if p.contains gw && subnetEndpoint p gw then
          [("gateway", "The gateway cannot be this subnet's network or broadcast address.")]
        else if !p.contains gw && !c.gatewayOnLink then
          [("gateway_on_link",
            "Enable Gateway outside this subnet only if your ISP's gateway is " ++
            "directly reachable on this link.")]
        else [])

/-- What is wrong with custom DNS servers, from the servers before them and the next one's
number. -/
def serverFaults (seen : List String) (number : Nat) : List String → List (String × String)
  | [] => []
  | ip :: rest =>
    (if validWANIPv4 ip then []
      else [("dns", s!"DNS server {number} must be a unicast IPv4 address.")]) ++
    (if seen.contains ip then [("dns", "DNS servers must be different.")] else []) ++
    serverFaults (ip :: seen) (number + 1) rest

def dnsFaults (c : WANConfig) (slot : SlotTag) : List (String × String) :=
  if slot.holds UplinkSlot.isSecondary then
    if c.dnsMode ≠ "vpn" ∨ c.dnsServers ≠ [] then
      [("dns", "Secondary WAN DNS is managed through the VPN.")]
    else []
  else if c.dnsMode = "default" then
    if c.dnsServers ≠ [] then [("dns", "Router defaults cannot include custom DNS servers.")]
    else []
  else if c.dnsMode = "custom" then
    (if c.dnsServers.length < 1 ∨ 2 < c.dnsServers.length then
      [("dns", "Enter one or two DNS servers.")] else []) ++
    serverFaults [] 1 c.dnsServers
  else [("dns", "Choose router defaults or custom DNS servers.")]

/-- `ValidateWAN`. Each fault is a refusal under the rule of its field. -/
def validateWAN (c : WANConfig) (slot : SlotTag) (source : String) : List Verdict :=
  ((if startsWith source "wwan_" then
      [("method", "Cellular configuration is managed separately from this WAN editor.")] else []) ++
    (if c.method ≠ methodDHCP4 ∧ c.method ≠ methodStatic then
      [("method", "Choose automatic DHCP or static IPv4.")] else []) ++
    (if c.method = methodStatic then staticFaults c else []) ++
    dnsFaults c slot).map fun (field, message) => reject ("WAN_" ++ field) message

theorem validateWAN_eq_nil {c : WANConfig} {slot : SlotTag} {source : String}
    (h : rejected (validateWAN c slot source) = false) : validateWAN c slot source = [] := by
  unfold validateWAN at h ⊢
  rw [map_eq_nil_iff, eq_nil_iff_forall_not_mem]
  intro fault mem
  have found := any_eq_false.mp h _ (mem_map_of_mem mem)
  simp [reject] at found

/-! ## The LAN -/

/-- The columns of the LAN row that the address rules read. -/
structure LANConfig where
  cidr : String
  dhcpRangeLow : String := ""
  dhcpRangeHigh : String := ""
deriving DecidableEq, Repr

/-- The ranges a LAN may never overlap. -/
def reservedLANOverlaps : List String :=
  ["100.64.0.0/10", "192.168.100.0/24", "127.0.0.0/8", "169.254.0.0/16", "224.0.0.0/4"]

/-- The networks the LAN is held against: the reserved ones, the management network, and every
address a WAN row stores. -/
def forbiddenFor (rows : List NetworkInterface) (mgmtCIDR : String) : List String :=
  reservedLANOverlaps ++ (if mgmtCIDR = "" then [] else [mgmtCIDR]) ++
    (rows.filter fun r => r.role == roleWAN && r.staticAddress != "").map (·.staticAddress)

def checkDHCPBound (lan : LANConfig) (net : Prefix) (label addr : String) : List Verdict :=
  if addr = "" then []
  else match parseAddr addr with
    | none => [reject "V14" s!"{label} ({quote addr}) is not an IP address"]
    | some ip =>
      if net.contains ip then []
      else [reject "V14" s!"{label} ({addr}) is outside the LAN {lan.cidr}"]

/-- `ValidateLANConfig`. The source ranges over a map of the two DHCP bounds; `endFirst` is the
order the runtime takes them in. -/
def validateLANConfig (endFirst : Bool) (lan : LANConfig) (rows : List NetworkInterface)
    (mgmtCIDR : String) : List Verdict :=
  if lan.cidr = "" then []
  else match parsePrefix lan.cidr with
    | none =>
      [reject "V14" s!"{quote lan.cidr} is not a valid address and prefix, e.g. 10.77.0.1/24"]
    | some net =>
      match (forbiddenFor rows mgmtCIDR).find? (overlaps lan.cidr) with
      | some f => [reject "V14" s!"LAN {lan.cidr} overlaps {f}"]
      | none =>
        let low := checkDHCPBound lan net "the DHCP range start" lan.dhcpRangeLow
        let high := checkDHCPBound lan net "the DHCP range end" lan.dhcpRangeHigh
        if endFirst then (if high.isEmpty then low else high)
        else (if low.isEmpty then high else low)

variable {lan : LANConfig}

theorem overlaps_eq_false_of_lan {endFirst : Bool} {mgmtCIDR : String}
    (h : rejected (validateLANConfig endFirst lan rows mgmtCIDR) = false) {r : NetworkInterface}
    (hr : r ∈ rows) (role : r.role = roleWAN) : overlaps lan.cidr r.staticAddress = false := by
  unfold validateLANConfig at h
  split at h
  next empty =>
    -- the empty text is no network
    rw [empty]
    rfl
  · split at h
    next => simp [rejected, reject] at h
    · split at h
      next => simp [rejected, reject] at h
      next clear =>
        by_cases stored : r.staticAddress = ""
        · rw [stored, overlaps]
          split
          next none => cases none
          · rfl
        · have mem : r.staticAddress ∈ forbiddenFor rows mgmtCIDR := by
            refine mem_append_right _ (mem_map_of_mem (mem_filter.mpr ⟨hr, ?_⟩))
            simp [role, stored]
          exact Bool.eq_false_of_not_eq_true (find?_eq_none.mp clear _ mem)

/-! ## The rules -/

structure ValidationInput where
  liveAddresses : String → List String
  rows : List NetworkInterface
  req : ChangeRequest
  lan : Option LANConfig
  /-- The management network, empty when no interface is reserved. -/
  mgmtCIDR : String
  /-- The interface that carries the admin's session. -/
  peerIfName : String
  hostapdInstalled : Bool
  iwdInstalled : Bool
  /-- What each radio was found to support; an unknown radio supports nothing. -/
  radioSupportsAP : String → Bool
  radioSupportsSTA : String → Bool
  countryCode : String
  /-- The order in which the two DHCP bounds are met. -/
  endFirst : Bool

open ValidationInput

def managedBridgeName : String := "lan0"

def regDomainUnset (code : String) : Bool :=
  let c := (Jobs.trimSpace code.toList).map Char.toUpper
  c == [] || c == ['0', '0'] || c == ['0']

/-- The sources a role may come from. -/
def sourceAllows (source : String) (role : RoleTag) : Bool :=
  role == roleUnassigned ||
    if ["eth_onboard", "eth_pci", "eth_platform", "eth_usb", "virt_vlan", "virt_bond",
        "wifi_pci", "wifi_usb"].contains source then
      role == roleWAN || role == roleLAN || role == roleLANMember
    else if ["tether_android", "tether_iphone", "wwan_usb", "wwan_pcie"].contains source then
      role == roleWAN
    else if source == "virt_bridge" then role == roleLAN
    else false

/-- The sources that are never ports. -/
def neverPort (source : String) : Bool :=
  source == "loopback" || source == "virt_other" || source == "unknown"

/-- Where an interface comes from, as the operator says or as it was found. -/
def NetworkInterface.origin (n : NetworkInterface) : String :=
  if n.sourceOverride = "" then n.source else n.sourceOverride

namespace ValidationInput
variable (inp : ValidationInput)

def byID (id : Nat) : Option NetworkInterface := inp.rows.find? (·.id == id)

def roleName : String := inp.req.role.text InterfaceRole.name

/-- V1: the target exists and is present. -/
def checkTarget : Check NetworkInterface :=
  match inp.byID inp.req.interfaceID with
  | none => refuse "V1" s!"interface {inp.req.interfaceID} not found"
  | some target =>
    if target.present then .ok target
    else refuse "V1" s!"interface {target.ifName} is not present"

/-- V3 to V6: whether a device of this source may hold the role at all. -/
def checkSource (target : NetworkInterface) : Check Unit := do
  refuseIf (neverPort target.origin) "V3"
    s!"{target.ifName} ({target.origin}) can never hold a role"
  refuseIf (target.ifName == managedBridgeName && inp.req.role != roleUnassigned) "V3"
    (s!"{target.ifName} is the bridge nasnet creates for the LAN, not a port; " ++
      "assign the port you want on the LAN instead")
  if inp.req.role ≠ roleUnassigned then
    refuseIf (startsWith target.origin "wwan_" && inp.req.role != roleWAN) "V6"
      s!"{target.ifName} is a cellular modem and can only be an uplink"
    refuseIf (target.ephemeral && apRole inp.req.role) "V5"
      s!"{target.ifName} is an ephemeral device ({target.origin}) and cannot hold {inp.roleName}"
    refuseIf (!sourceAllows target.origin inp.req.role) "V4"
      s!"a {target.origin} interface cannot hold the {inp.roleName} role"

/-- V7: not enslaved to something the panel does not manage. -/
def checkMaster (target : NetworkInterface) : Check Unit :=
  match target.masterID with
  | none => .ok ()
  | some m => refuseIf (inp.req.role != roleLANMember && (inp.byID m).isNone) "V7"
      s!"{target.ifName} is enslaved to an interface nasnet does not manage"

/-- V8: taking a singleton role over names its holder. -/
def checkSingleton (target : NetworkInterface) : Check Unit :=
  if inp.req.role.holds InterfaceRole.isSingleton then
    refuseFirst inp.rows
      (fun holder => holder.role == inp.req.role && holder.id != target.id &&
        inp.req.evictID != some holder.id) "V8"
      (fun holder => s!"{holder.ifName} already holds the {inp.roleName} role; " ++
        "name it explicitly to take the role over")
  else .ok ()

/-- V9: one role an interface, and none for the master of another unless it is the LAN. -/
def checkOneRole (target : NetworkInterface) : Check Unit :=
  if inp.req.role ≠ roleUnassigned then do
    refuseIf (target.role != roleUnassigned && target.role != inp.req.role) "V9"
      (s!"{target.ifName} already holds the " ++ target.role.text InterfaceRole.name ++
        " role; clear it first")
    refuseFirst inp.rows
      (fun r => r.masterID == some target.id && inp.req.role != roleLAN) "V9"
      (fun r => s!"{r.ifName} is enslaved to {target.ifName}, so {target.ifName} cannot also " ++
        s!"hold {inp.roleName}")
  else .ok ()

/-- V10: a LAN member joins the row that holds the LAN. -/
def checkLANMember (target : NetworkInterface) : Check Unit :=
  if inp.req.role = roleLANMember then
    match inp.req.masterID with
    | none => refuse "V10" s!"{target.ifName} needs a LAN bridge to join"
    | some m => refuseIf (!(inp.byID m).any (·.role == roleLAN)) "V10"
        s!"master interface {m} does not hold the lan role"
  else .ok ()

/-- V11 and V12: what the radio was found to support. -/
def checkRadio (target : NetworkInterface) : Check Unit :=
  if startsWith target.origin "wifi_" then do
    if apRole inp.req.role then
      refuseIf (!inp.hostapdInstalled) "V11"
        s!"hostapd is not installed, so {target.ifName} cannot be an access point"
      refuseIf (!inp.radioSupportsAP target.phyName) "V11"
        (s!"radio {target.phyName} does not support access point mode, so {target.ifName} " ++
          s!"cannot hold {inp.roleName}")
      refuseIf (regDomainUnset inp.countryCode) "V11"
        ("set a country code before enabling an access point: the default " ++
          "regulatory domain marks nearly all 5 GHz as no-initiating-radiation and " ++
          "hostapd refuses to start")
    if inp.req.role = roleWAN then
      refuseIf (!inp.iwdInstalled) "V12"
        (s!"iwd is not installed, so {target.ifName} cannot join a network " ++
          "(networkd cannot associate)")
      refuseIf (!inp.radioSupportsSTA target.phyName) "V12"
        s!"radio {target.phyName} does not support station mode"
  else .ok ()

/-- V13: a radio is a station or an access point. -/
def checkOneRadio (target : NetworkInterface) : Check Unit :=
  if target.phyName ≠ "" ∧ inp.req.role ≠ roleUnassigned then
    refuseFirst inp.rows
      (fun sib => sib.id != target.id && sib.phyName == target.phyName &&
        sib.role != roleUnassigned && apRole sib.role != apRole inp.req.role) "V13"
      (fun sib => s!"{target.ifName} shares radio {target.phyName} with {sib.ifName}; " ++
        "a radio is a station or an access point, never both")
  else .ok ()

def propose (target r : NetworkInterface) : NetworkInterface :=
  if r.id = target.id then
    let row := { inp.req.evict r with role := inp.req.role, slot := inp.req.slot }
    match inp.req.wanChange target with
    | some cfg => row.setWAN cfg
    | none => row
  else inp.req.evict r

def proposed (target : NetworkInterface) : List NetworkInterface :=
  inp.rows.map (inp.propose target)

/-- The settings the request carries, if any, fit a WAN. -/
def checkWAN (target : NetworkInterface) : Check Unit :=
  match inp.req.wanChange target with
  | none => .ok ()
  | some cfg =>
    if inp.req.role ≠ roleWAN then refuse "WAN_role" "WAN configuration requires a WAN role."
    else refuseWith (validateWAN cfg inp.req.slot target.origin)

/-- The addresses of another WAN: the one it stores, or the ones it has. -/
def addressesOf (other : NetworkInterface) : List String :=
  if other.method = methodStatic then [other.staticAddress] else inp.liveAddresses other.ifName

/-- The finding that a static address of the target overlaps another WAN. -/
def overlapWith (target : NetworkInterface) (cfg : WANConfig) (other : NetworkInterface) :
    Option Verdict :=
  if other.id = target.id ∨ other.role ≠ roleWAN then none
  else ((inp.addressesOf other).find? (overlaps cfg.staticAddress)).map fun address =>
    reject "WAN_overlap" (s!"WAN subnet overlaps {other.ifName} ({address}); " ++
      "use different subnets for each WAN")

def wanOverlaps (target : NetworkInterface) (cfg : WANConfig) : List Verdict :=
  (if inp.mgmtCIDR ≠ "" ∧ overlaps cfg.staticAddress inp.mgmtCIDR then
    [reject "WAN_overlap" s!"WAN address overlaps the reserved management subnet {inp.mgmtCIDR}"]
    else []) ++
  (inp.proposed target).filterMap (inp.overlapWith target cfg)

/-- A static address the request carries overlaps no other WAN's. -/
def checkWANOverlap (target : NetworkInterface) : Check Unit :=
  match inp.req.wanChange target with
  | none => .ok ()
  | some cfg =>
    if cfg.method = methodStatic then refuseWith (inp.wanOverlaps target cfg) else .ok ()

/-- V14: the LAN stays clear of the proposed rows. -/
def checkLAN (target : NetworkInterface) : Check Unit :=
  match inp.lan with
  | none => .ok ()
  | some lan =>
    refuseWith (validateLANConfig inp.endFirst lan (inp.proposed target) inp.mgmtCIDR)

/-- V20: an uplink, and only an uplink, has a slot. -/
def checkSlot (target : NetworkInterface) : Check Unit :=
  if inp.req.role = roleWAN then
    refuseIf (!inp.req.slot.holds UplinkSlot.isDomestic &&
        !inp.req.slot.holds UplinkSlot.isSecondary) "V20"
      s!"{target.ifName} must be assigned to a domestic slot or a secondary slot"
  else refuseIf (inp.req.slot != slotNone) "V20"
    s!"only an uplink carries a slot, {inp.roleName} does not"

/-- V25: taking a slot over names its holder. -/
def checkSlotFree (target : NetworkInterface) : Check Unit :=
  if inp.req.role = roleWAN then
    refuseFirst inp.rows
      (fun holder => holder.id != target.id && holder.role == roleWAN &&
        holder.slot == inp.req.slot && inp.req.evictID != some holder.id) "V25"
      (fun holder => s!"{holder.ifName} already holds the " ++ inp.req.slot.text slotName ++
        " slot; name it explicitly to take it over")
  else .ok ()

/-- The rows the box-shape rules count, with the role each would hold. -/
def counted (target : NetworkInterface) : List RoleTag :=
  (inp.rows.filter fun r => !neverPort r.source && r.present).map fun r =>
    if r.id = target.id then inp.req.role else r.role

def wans (target : NetworkInterface) : Nat := (inp.counted target).count roleWAN

/-- The rules that refuse and stop, in order. -/
def gate : Check NetworkInterface := do
  refuseIf (decide (64 < inp.req.requestID.utf8ByteSize)) "WAN_request"
    "Request identifier is too long."
  let target ← inp.checkTarget
  refuseIf (!RoleTag.valid inp.req.role) "V2" (quote inp.roleName ++ " is not a valid role")
  refuseIf (inp.req.newIfName != "" && inp.req.newIfName != target.ifName) "V21"
    (s!"interfaces are never renamed ({target.ifName} -> {inp.req.newIfName}); " ++
      "use the operator label instead")
  inp.checkSource target
  inp.checkMaster target
  inp.checkSingleton target
  inp.checkOneRole target
  inp.checkLANMember target
  inp.checkRadio target
  refuseIf (inp.req.macPolicy == "random" && (inp.req.role == roleWAN || apRole inp.req.role)) "V24"
    (s!"a random MAC policy cannot be used on {inp.roleName}: clients and DHCP " ++
      "reservations both depend on a stable address")
  inp.checkOneRadio target
  inp.checkWAN target
  inp.checkWANOverlap target
  inp.checkLAN target
  refuseIf (startsWith target.origin "wwan_" && inp.req.method == methodDHCP4) "V15"
    (s!"{target.ifName} is a raw-IP link; networkd cannot DHCP on it, choose rawip or " ++
      "a static address")
  inp.checkSlot target
  inp.checkSlotFree target
  refuseIf (inp.req.role == roleUnassigned && target.role == roleWAN && inp.wans target == 0) "V16"
    "at least one uplink must remain assigned"
  return target

def warn (rule message : String) : Verdict := { rule := rule, level := .warn, message := message }

/-- The last other interface that is present, which V17 names. -/
def otherPresent (target : NetworkInterface) : String :=
  ((inp.rows.filter fun r => r.id != target.id && r.present).getLast?.map (·.ifName)).getD ""

/-- The rules after V16: warnings, the confirmation of V17 and the lockout of V18. -/
def findings (target : NetworkInterface) : List Verdict :=
  let roles := inp.counted target
  let wans := inp.wans target
  let shape :=
    (if wans < 2 then
      [warn "V16" s!"only {wans} uplink assigned — no failover and no split routing"] else []) ++
    (if roles.length = 2 ∧ wans = 2 ∧ roleLAN ∉ roles then
      [{ rule := "V17", level := .confirm
         message := "no local network: the panel will be reachable only via " ++
          inp.otherPresent target ++ ". " ++
          "An nft accept rule for the panel port on the domestic uplink is provisioned " ++
          "automatically so the firewall cannot cut the only management path. " ++
          "Type CONFIRM to continue." }] else [])
  if inp.peerIfName ≠ "" ∧ inp.peerIfName = target.ifName ∧ inp.req.role = roleUnassigned ∧
      inp.req.confirmed = false then
    shape ++ [reject "V18" (s!"{target.ifName} carries this admin session; unassigning it will " ++
      "cut you off. Confirm to proceed with the auto-revert armed")]
  else
    shape ++
    (if 3 ≤ roles.length ∧ roleMgmt ∉ roles then
      [warn "V19" (s!"{roles.length} assignable interfaces and no management port reserved; " ++
        "reserving one gives a headless box a recovery path")] else []) ++
    (if target.keyKind ≠ "" ∧ target.keyKind ≠ "permaddr" ∧ inp.req.role ≠ roleUnassigned then
      [warn "V22" (s!"{target.ifName} has no usable permanent MAC, so this role is tied to the " ++
        "port, not the device — swapping the adapter keeps the role")] else []) ++
    (if inp.req.role = roleWAN ∧ target.usbSpeedMbit = 480 then
      [warn "V23" s!"{target.ifName} is on a USB 2.0 port; expect a ceiling near 280 Mbit/s"]
      else [])

def validate : List Verdict :=
  match inp.gate with
  | .error refusal => refusal.findings
  | .ok target => inp.findings target

end ValidationInput

/-! ## An answer without a refusal -/

/-- What the rules say about a request that none of them refuses, with its target. -/
structure Accepted (inp : ValidationInput) (target : NetworkInterface) : Prop where
  found : target ∈ inp.rows
  id : target.id = inp.req.interfaceID
  present : target.present = true
  /-- V8 -/
  singleton : inp.req.role.holds InterfaceRole.isSingleton = true → ∀ holder ∈ inp.rows,
    holder.role = inp.req.role → holder.id ≠ target.id → inp.req.evictID = some holder.id
  /-- V9 -/
  oneRole : inp.req.role ≠ roleUnassigned → target.role ≠ roleUnassigned →
    target.role = inp.req.role
  /-- V13 -/
  oneRadio : target.phyName ≠ "" → inp.req.role ≠ roleUnassigned → ∀ sib ∈ inp.rows,
    sib.id ≠ target.id → sib.phyName = target.phyName → sib.role ≠ roleUnassigned →
      apRole sib.role = apRole inp.req.role
  /-- The rules on the settings the request carries. -/
  settings : ∀ cfg, inp.req.wanChange target = some cfg →
    inp.req.role = roleWAN ∧ validateWAN cfg inp.req.slot target.origin = []
  /-- The rule on overlapping WANs, which looks at the settings the request carries. -/
  apart : ∀ cfg, inp.req.wanChange target = some cfg → cfg.method = methodStatic →
    ∀ other ∈ inp.proposed target, other.id ≠ target.id → other.role = roleWAN →
      other.method = methodStatic → overlaps cfg.staticAddress other.staticAddress = false
  /-- V14 -/
  lan : ∀ lan, inp.lan = some lan → ∀ r ∈ inp.proposed target, r.role = roleWAN →
    overlaps lan.cidr r.staticAddress = false
  /-- V20 -/
  slot : inp.req.role = roleWAN ↔ inp.req.slot ≠ slotNone
  /-- V25 -/
  slotFree : inp.req.role = roleWAN → ∀ holder ∈ inp.rows, holder.id ≠ target.id →
    holder.role = roleWAN → holder.slot = inp.req.slot → inp.req.evictID = some holder.id
  /-- V16 -/
  lastUplink : inp.req.role = roleUnassigned → target.role = roleWAN → inp.wans target ≠ 0

section Inversion
variable {inp : ValidationInput} {target : NetworkInterface} {u : Unit}

theorem checkTarget_ok (h : inp.checkTarget = .ok target) :
    target ∈ inp.rows ∧ target.id = inp.req.interfaceID ∧ target.present = true := by
  unfold checkTarget at h
  split at h
  · cases h
  next found =>
    split at h
    next present =>
      cases h
      exact ⟨mem_of_find?_eq_some found, by simpa using find?_some found, present⟩
    · cases h

theorem checkSingleton_ok (h : inp.checkSingleton target = .ok u)
    (single : inp.req.role.holds InterfaceRole.isSingleton = true) :
    ∀ holder ∈ inp.rows, holder.role = inp.req.role → holder.id ≠ target.id →
      inp.req.evictID = some holder.id := by
  intro holder mem role id
  rw [checkSingleton, if_pos single, refuseFirst_ok] at h
  simpa [role, id] using h holder mem

theorem checkOneRole_ok (h : inp.checkOneRole target = .ok u)
    (assigned : inp.req.role ≠ roleUnassigned) (held : target.role ≠ roleUnassigned) :
    target.role = inp.req.role := by
  rw [checkOneRole, if_pos assigned, bind_ok] at h
  obtain ⟨_, first, _⟩ := h
  simpa [refuseIf_ok, held] using first

theorem checkOneRadio_ok (h : inp.checkOneRadio target = .ok u) (phy : target.phyName ≠ "")
    (assigned : inp.req.role ≠ roleUnassigned) :
    ∀ sib ∈ inp.rows, sib.id ≠ target.id → sib.phyName = target.phyName →
      sib.role ≠ roleUnassigned → apRole sib.role = apRole inp.req.role := by
  intro sib mem id same held
  rw [checkOneRadio, if_pos ⟨phy, assigned⟩, refuseFirst_ok] at h
  simpa [id, same, held] using h sib mem

variable {cfg : WANConfig}

theorem checkWAN_ok (h : inp.checkWAN target = .ok u)
    (carries : inp.req.wanChange target = some cfg) :
    inp.req.role = roleWAN ∧ validateWAN cfg inp.req.slot target.origin = [] := by
  simp only [checkWAN, carries] at h
  split at h
  · cases h
  next role => exact ⟨not_not.mp role, validateWAN_eq_nil (refuseWith_ok.mp h)⟩

theorem checkWANOverlap_ok (h : inp.checkWANOverlap target = .ok u)
    (carries : inp.req.wanChange target = some cfg) (static : cfg.method = methodStatic) :
    ∀ other ∈ inp.proposed target, other.id ≠ target.id → other.role = roleWAN →
      other.method = methodStatic → overlaps cfg.staticAddress other.staticAddress = false := by
  intro other mem id role method
  simp only [checkWANOverlap, carries, static, if_true, refuseWith_ok] at h
  by_contra meet
  -- an overlap would be among the findings
  have found : ∃ message, inp.overlapWith target cfg other =
      some (reject "WAN_overlap" message) := by
    unfold overlapWith
    simp [id, role, addressesOf, method, Bool.eq_true_of_not_eq_false meet]
  obtain ⟨message, found⟩ := found
  have refuses : rejected (inp.wanOverlaps target cfg) = true :=
    any_eq_true.mpr ⟨_, mem_append_right _ (mem_filterMap.mpr ⟨other, mem, found⟩), rfl⟩
  rw [h] at refuses
  cases refuses

theorem checkLAN_ok (h : inp.checkLAN target = .ok u) (on : inp.lan = some lan) :
    ∀ r ∈ inp.proposed target, r.role = roleWAN → overlaps lan.cidr r.staticAddress = false := by
  intro r mem role
  simp only [checkLAN, on, refuseWith_ok] at h
  exact overlaps_eq_false_of_lan h mem role

theorem checkSlot_ok (h : inp.checkSlot target = .ok u) :
    inp.req.role = roleWAN ↔ inp.req.slot ≠ slotNone := by
  unfold checkSlot at h
  split at h
  next wan =>
    constructor
    · intro _ none
      simp [refuseIf_ok, none, slotNone, Tag.holds, UplinkSlot.isDomestic,
        UplinkSlot.isSecondary] at h
    · intro _
      exact wan
  next other =>
    have none : inp.req.slot = slotNone := by simpa [refuseIf_ok] using h
    exact ⟨fun wan => absurd wan other, fun held => absurd none held⟩

theorem checkSlotFree_ok (h : inp.checkSlotFree target = .ok u) (wan : inp.req.role = roleWAN) :
    ∀ holder ∈ inp.rows, holder.id ≠ target.id → holder.role = roleWAN →
      holder.slot = inp.req.slot → inp.req.evictID = some holder.id := by
  intro holder mem id role slot
  rw [checkSlotFree, if_pos wan, refuseFirst_ok] at h
  simpa [id, role, slot] using h holder mem

theorem accepted_of_gate (h : inp.gate = .ok target) : Accepted inp target := by
  unfold gate at h
  simp only [bind_ok] at h
  obtain ⟨_, _, _, hTarget, _, _, _, _, _, _, _, _, _, hSingle, _, hRole, _, _, _, _, _, _,
    _, hRadio, _, hWAN, _, hOverlap, _, hLAN, _, _, _, hSlot, _, hFree, _, hLast, same⟩ := h
  cases same
  obtain ⟨found, id, present⟩ := checkTarget_ok hTarget
  exact
    { found := found, id := id, present := present
      singleton := checkSingleton_ok hSingle
      oneRole := checkOneRole_ok hRole
      oneRadio := checkOneRadio_ok hRadio
      settings := fun _ => checkWAN_ok hWAN
      apart := fun _ carries => checkWANOverlap_ok hOverlap carries
      lan := fun _ => checkLAN_ok hLAN
      slot := checkSlot_ok hSlot
      slotFree := checkSlotFree_ok hFree
      lastUplink := by
        intro unassigned wan
        simpa [refuseIf_ok, unassigned, wan] using hLast }

/-- **A request that `Validate` does not reject meets every rule, with its target.** -/
theorem accepted_of_not_rejected (h : rejected inp.validate = false) :
    ∃ target, Accepted inp target := by
  unfold validate at h
  split at h
  next refusal _ =>
    rw [refusal.refuses] at h
    cases h
  next target passed => exact ⟨target, accepted_of_gate passed⟩

end Inversion

end NasnetPanel.Domain
