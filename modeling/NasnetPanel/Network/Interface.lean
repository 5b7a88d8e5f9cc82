import NasnetPanel.Network.Netip
import NasnetPanel.Network.Uplink

/-!
# Network.Interface — interface rows and requests to change one

The rows of the interface table as far as role assignment reads them, the request that changes one
(`ChangeRequest`), and what a request does to a row's address settings (`WANChange`, `SetWAN`). The
text columns that hold one of a few constants, and the request fields that should, are `Tag`s: one
of the constants, or any other text.

`Interfaces` is the table: its ids are its primary key.
-/

namespace NasnetPanel.Domain
open Network

/-! ## Columns -/

/-- A text that is one of the constants of `α`, or any other text. -/
inductive Tag (α : Type) where
  | known (a : α)
  | other (text : String)
deriving DecidableEq, Repr

namespace Tag

/-- Whether the text is a constant that meets the test. -/
def holds {α : Type} (test : α → Bool) : Tag α → Bool
  | known a => test a
  | other _ => false

/-- The text itself, from the constants' texts. -/
def text {α : Type} (name : α → String) : Tag α → String
  | known a => name a
  | other s => s

end Tag

inductive InterfaceRole where
  | unassigned | wan | lan | lanMember | mgmt
deriving DecidableEq, Repr

namespace InterfaceRole

def name : InterfaceRole → String
  | unassigned => "unassigned"
  | wan => "wan"
  | lan => "lan"
  | lanMember => "lan_member"
  | mgmt => "mgmt"

def isSingleton : InterfaceRole → Bool
  | lan | mgmt => true
  | _ => false

end InterfaceRole

abbrev RoleTag := Tag InterfaceRole
abbrev SlotTag := Tag UplinkSlot
abbrev MethodTag := Tag AddressMethod

def roleUnassigned : RoleTag := .known .unassigned
def roleWAN : RoleTag := .known .wan
def roleLAN : RoleTag := .known .lan
def roleLANMember : RoleTag := .known .lanMember
def roleMgmt : RoleTag := .known .mgmt
def slotNone : SlotTag := .known .none
def methodDHCP4 : MethodTag := .known .dhcp4
def methodStatic : MethodTag := .known .static

/-- The empty method: nothing stored in a row, nothing asked for in a request. -/
def methodEmpty : MethodTag := .other ""

def RoleTag.valid (r : RoleTag) : Bool := r.holds fun _ => true

/-- The roles a radio holds as an access point. -/
def apRole (r : RoleTag) : Bool := r == roleLAN || r == roleLANMember

def slotName : UplinkSlot → String
  | .none => ""
  | .domestic => "domestic"
  | .domestic2 => "domestic2"
  | .domestic3 => "domestic3"
  | .domestic4 => "domestic4"
  | .secondary => "secondary"
  | .secondary2 => "secondary2"
  | .secondary3 => "secondary3"
  | .secondary4 => "secondary4"

/-- The columns of an interface row that role assignment reads or writes. -/
structure NetworkInterface where
  id : Nat
  keyKind : String := "permaddr"
  ifName : String
  source : String
  sourceOverride : String := ""
  phyName : String := ""
  usbSpeedMbit : Int := 0
  role : RoleTag := roleUnassigned
  slot : SlotTag := slotNone
  masterID : Option Nat := none
  method : MethodTag := methodDHCP4
  staticAddress : String := ""
  staticGateway : String := ""
  gatewayOnLink : Bool := false
  dnsServer : String := ""
  dnsServer2 : String := ""
  dnsDomains : String := ""
  ephemeral : Bool := false
  learnedGateway : String := ""
  present : Bool := true
deriving DecidableEq, Repr

/-- A complete replacement of one WAN's address and DNS settings. -/
structure WANConfig where
  method : MethodTag
  staticAddress : String := ""
  staticGateway : String := ""
  gatewayOnLink : Bool := false
  dnsMode : String := "default"
  dnsServers : List String := []
deriving DecidableEq, Repr

structure ChangeRequest where
  requestID : String := ""
  wan : Option WANConfig := none
  interfaceID : Nat
  role : RoleTag
  slot : SlotTag := slotNone
  /-- The interface that loses its role to this request. -/
  evictID : Option Nat := none
  confirmed : Bool := false
  masterID : Option Nat := none
  method : MethodTag := methodEmpty
  staticAddress : String := ""
  staticGateway : String := ""
  newIfName : String := ""
  macPolicy : String := ""
deriving DecidableEq, Repr

/-! ## Address settings -/

/-- The settings a row stores. -/
def NetworkInterface.wanConfig (n : NetworkInterface) : WANConfig :=
  let custom := !n.slot.holds UplinkSlot.isSecondary && n.dnsServer != ""
  { method := if n.method = methodEmpty then methodDHCP4 else n.method
    staticAddress := n.staticAddress, staticGateway := n.staticGateway
    gatewayOnLink := n.gatewayOnLink
    dnsMode :=
      if n.slot.holds UplinkSlot.isSecondary then "vpn" else if custom then "custom" else "default"
    dnsServers :=
      if custom then n.dnsServer :: (if n.dnsServer2 = "" then [] else [n.dnsServer2]) else [] }

/-- The settings the request asks for, `none` when it only assigns a
role. The address fields of the original form count too. -/
def ChangeRequest.wanChange (r : ChangeRequest) (n : NetworkInterface) : Option WANConfig :=
  match r.wan with
  | some c => some c
  | none =>
    if r.method = methodEmpty then none
    else
      let stored := n.wanConfig
      let vpn := r.slot.holds UplinkSlot.isSecondary
      some
        { method := r.method, staticAddress := r.staticAddress, staticGateway := r.staticGateway
          gatewayOnLink := false
          dnsMode := if vpn then "vpn" else stored.dnsMode
          dnsServers := if vpn then [] else stored.dnsServers }

/-- `NetworkInterface.SetWAN`. Inactive fields are cleared, so that a row back on DHCP keeps no
static gateway. -/
def NetworkInterface.setWAN (n : NetworkInterface) (c : WANConfig) : NetworkInterface :=
  let fixed := c.method == methodStatic
  let custom := c.dnsMode == "custom"
  { n with
    method := c.method
    staticAddress := if fixed then c.staticAddress else ""
    staticGateway := if fixed then c.staticGateway else ""
    gatewayOnLink := fixed && c.gatewayOnLink
    learnedGateway := ""
    dnsServer := if custom then c.dnsServers.getD 0 "" else ""
    dnsServer2 := if custom then c.dnsServers.getD 1 "" else ""
    dnsDomains := if n.slot.holds UplinkSlot.isDomestic then "~ir" else "" }

def ChangeRequest.evict (req : ChangeRequest) (r : NetworkInterface) : NetworkInterface :=
  if req.evictID = some r.id then { r with role := roleUnassigned, slot := slotNone } else r

section Settings
variable {n m : NetworkInterface} {c : WANConfig} {r : ChangeRequest}

theorem evict_eq (r : ChangeRequest) (n : NetworkInterface) :
    r.evict n = { n with role := (r.evict n).role, slot := (r.evict n).slot } := by
  unfold ChangeRequest.evict
  split <;> rfl

@[simp] theorem evict_id : (r.evict n).id = n.id := by rw [evict_eq]
@[simp] theorem evict_phyName : (r.evict n).phyName = n.phyName := by rw [evict_eq]
@[simp] theorem evict_present : (r.evict n).present = n.present := by rw [evict_eq]
@[simp] theorem evict_method : (r.evict n).method = n.method := by rw [evict_eq]

@[simp] theorem evict_staticAddress : (r.evict n).staticAddress = n.staticAddress := by
  rw [evict_eq]

theorem wanChange_isSome : (r.wanChange n).isSome = (r.wanChange m).isSome := by
  unfold ChangeRequest.wanChange
  cases r.wan with
  | some c => rfl
  | none =>
    by_cases empty : r.method = methodEmpty
    · simp [empty]
    · simp [empty]

theorem wanChange_address {d : WANConfig} (hc : r.wanChange n = some c)
    (hd : r.wanChange m = some d) : c.method = d.method ∧ c.staticAddress = d.staticAddress := by
  unfold ChangeRequest.wanChange at hc hd
  cases given : r.wan with
  | some e =>
    simp only [given, Option.some.injEq] at hc hd
    cases hc
    cases hd
    exact ⟨rfl, rfl⟩
  | none =>
    by_cases empty : r.method = methodEmpty
    · simp [given, empty] at hc
    simp only [given, empty, if_false, Option.some.injEq] at hc hd
    cases hc
    cases hd
    exact ⟨rfl, rfl⟩

end Settings

/-! ## The table -/

structure Interfaces where
  rows : List NetworkInterface
  ids : (rows.map (·.id)).Nodup

namespace Interfaces

theorem eq_of_id (t : Interfaces) {r s : NetworkInterface} (hr : r ∈ t.rows) (hs : s ∈ t.rows)
    (h : r.id = s.id) : r = s :=
  List.inj_on_of_nodup_map t.ids hr hs h

end Interfaces

end NasnetPanel.Domain
