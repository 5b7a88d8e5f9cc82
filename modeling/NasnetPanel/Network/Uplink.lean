import Mathlib.Data.List.Nodup
import Mathlib.Data.List.Perm.Subperm
import NasnetPanel.Network.Mark

/-!
# Network.Uplink — slots, uplinks and the tunnel pool as the rules need them

An interface row that holds a WAN slot becomes an `Uplink`: the slot alone decides its table, its
pin index and its group (`tableFor`, `uplinkIndexFor`, `groupIndexFor`). `uplinks` builds the list
from the rows. `Assigned` is such a list with its invariant: every entry is the one its slot
decides, and no slot is held twice. `VPNRouteState` is the pool; its names are tunnel links', as
`vpnPool.IfNames` builds them.
-/

namespace NasnetPanel.Network
open Netmark

/-! ## Slots -/

/-- The operator-facing name for an uplink; `none` is the source's `SlotNone`. -/
inductive UplinkSlot where
  | none
  | domestic | domestic2 | domestic3 | domestic4
  | secondary | secondary2 | secondary3 | secondary4
deriving DecidableEq, Repr

open UplinkSlot

namespace UplinkSlot

def isDomestic : UplinkSlot → Bool
  | domestic | domestic2 | domestic3 | domestic4 => true
  | _ => false

def isSecondary : UplinkSlot → Bool
  | secondary | secondary2 | secondary3 | secondary4 => true
  | _ => false

end UplinkSlot

/-- The failover order. -/
def domesticSlots : List UplinkSlot := [.domestic, .domestic2, .domestic3, .domestic4]

/-- The deal order. -/
def secondarySlots : List UplinkSlot := [.secondary, .secondary2, .secondary3, .secondary4]

/-- Fixed table numbers. 203 is the pool's and 207 to 210 its per-WAN slices, so the extra slots
skip them. -/
def tableFor : UplinkSlot → Nat
  | .domestic => 201
  | .domestic2 => 211
  | .domestic3 => 212
  | .domestic4 => 213
  | .secondary => 202
  | .secondary2 => 204
  | .secondary3 => 205
  | .secondary4 => 206
  | .none => 0

/-- The pin index: 2 to 5 are the secondaries, which the via marks name by low nibble. -/
def uplinkIndexFor : UplinkSlot → Word
  | .domestic => 1
  | .domestic2 => 6
  | .domestic3 => 7
  | .domestic4 => 8
  | .secondary => 2
  | .secondary2 => 3
  | .secondary3 => 4
  | .secondary4 => 5
  | .none => 0

def groupIndexFor (slot : UplinkSlot) : Word :=
  if slot.isDomestic then groupDomestic
  else if slot.isSecondary then groupForeign
  else 0

/-- One secondary's slice of the pool. -/
def vpnViaTableFor (uplinkIndex : Word) : Nat := 205 + uplinkIndex.toNat

variable {slot : UplinkSlot}

theorem isDomestic_or_isSecondary (h : slot ≠ .none) :
    slot.isDomestic = true ∨ slot.isSecondary = true := by
  cases slot <;> simp_all [isDomestic, isSecondary]

theorem isSecondary_eq_false_of_isDomestic (h : slot.isDomestic = true) :
    slot.isSecondary = false := by
  cases slot <;> simp_all [isDomestic, isSecondary]

theorem mem_secondarySlots : slot ∈ secondarySlots ↔ slot.isSecondary = true := by
  cases slot <;> simp [secondarySlots, isSecondary]

theorem uplinkIndexFor_injective : Function.Injective uplinkIndexFor := by
  intro a b h
  cases a <;> cases b <;> first | rfl | (exact absurd h (by decide))

theorem tableFor_injective : Function.Injective tableFor := by
  intro a b h
  cases a <;> cases b <;> first | rfl | (exact absurd h (by decide))

theorem pin_pinMark_uplinkIndexFor (slot : UplinkSlot) :
    pin (pinMark (uplinkIndexFor slot)) = uplinkIndexFor slot := by
  cases slot <;> decide

theorem group_groupMark_via (slot : UplinkSlot) :
    group (groupMark (groupForeignVia (uplinkIndexFor slot))) =
      groupForeignVia (uplinkIndexFor slot) := by
  cases slot <;> decide

theorem groupForeignVia_uplinkIndexFor_injective :
    Function.Injective fun slot => groupForeignVia (uplinkIndexFor slot) := by
  intro a b h
  cases a <;> cases b <;> first | rfl | (exact absurd h (by decide))

/-! ## Uplinks -/

inductive AddressMethod where
  | dhcp4 | static | rawip
deriving DecidableEq, Repr

/-- The columns of a WAN row that `uplinks` reads. -/
structure WANRow where
  ifName : String
  key : String
  present : Bool
  slot : UplinkSlot
  method : AddressMethod
  gatewayOnLink : Bool
  dnsServer : String
  dnsServer2 : String
deriving DecidableEq, Repr

structure Uplink where
  ifName : String
  key : String
  table : Nat
  uplinkIndex : Word
  slot : UplinkSlot
  groupIndex : Word
  dnsServer2 : String
  gatewayOnLink : Bool
  dnsServer : String
deriving DecidableEq, Repr

def uplinks (rows : List WANRow) : List Uplink :=
  rows.filterMap fun r =>
    if !r.present || r.slot == .none then none
    else some
      { ifName := r.ifName, key := r.key, table := tableFor r.slot
        uplinkIndex := uplinkIndexFor r.slot, slot := r.slot
        groupIndex := groupIndexFor r.slot, dnsServer := r.dnsServer, dnsServer2 := r.dnsServer2
        gatewayOnLink := r.method == .static && r.gatewayOnLink }

/-- An uplink as `uplinks` builds it: its slot decides its table, its index and its group. The
kernel gives every interface a name. -/
structure Uplink.Formed (u : Uplink) : Prop where
  slot : u.slot ≠ .none
  table : u.table = tableFor u.slot
  uplinkIndex : u.uplinkIndex = uplinkIndexFor u.slot
  groupIndex : u.groupIndex = groupIndexFor u.slot
  named : u.ifName ≠ ""

/-- A list of assigned uplinks, at most one per slot. -/
structure Assigned where
  links : List Uplink
  formed : ∀ u ∈ links, u.Formed
  oneEach : (links.map (·.slot)).Nodup

/-- What `uplinks` builds is `Assigned`, from rows with names whose present slots differ. -/
def Assigned.ofRows (rows : List WANRow) (named : ∀ r ∈ rows, r.ifName ≠ "")
    (distinct : ((uplinks rows).map (·.slot)).Nodup) : Assigned where
  links := uplinks rows
  formed := by
    intro u hu
    obtain ⟨r, hr, hb⟩ := List.mem_filterMap.mp hu
    split at hb
    · cases hb
    next held =>
      cases hb
      have slot : r.slot ≠ .none := by
        intro h
        simp [h] at held
      exact ⟨slot, rfl, rfl, rfl, named r hr⟩
  oneEach := distinct

theorem Assigned.length_le (us : Assigned) : us.links.length ≤ 8 := by
  have slots : us.links.map (·.slot) ⊆ domesticSlots ++ secondarySlots := by
    refine List.forall_mem_map.mpr fun u hu => ?_
    have := (us.formed u hu).slot
    cases hs : u.slot <;> simp_all [domesticSlots, secondarySlots]
  have := (us.oneEach.subperm slots).length_le
  rwa [List.length_map] at this

def secondariesOf (uplinks : List Uplink) : List Uplink := uplinks.filter (·.slot.isSecondary)

/-! ## The pool -/

/-- `system.WGTable`: the whole pool's table. -/
def wgTable : Nat := 203

def wgLinkName : String := "nasnet-wg"

def wgLinkNameFor (slot : Nat) : String := wgLinkName ++ toString slot

/-- `strings.HasPrefix(name, wgLinkPrefix)`. -/
def isWGLink (name : String) : Bool := wgLinkName.toList.isPrefixOf name.toList

theorem isWGLink_wgLinkNameFor (slot : Nat) : isWGLink (wgLinkNameFor slot) = true := by
  simp [isWGLink, wgLinkNameFor, List.isPrefixOf_iff_prefix]

theorem ne_empty_of_isWGLink {name : String} (h : isWGLink name = true) : name ≠ "" := by
  rintro rfl
  exact absurd h (by decide)

/-- The pool as the rules need it: the links of its tunnels. -/
structure VPNRouteState where
  ifNames : List String
  tunnels : ∀ name ∈ ifNames, isWGLink name = true

namespace VPNRouteState

/-- `vpnPool.IfNames` over the enabled profiles' slots. -/
def ofSlots (slots : List Nat) : VPNRouteState where
  ifNames := slots.map wgLinkNameFor
  tunnels := List.forall_mem_map.mpr fun slot _ => isWGLink_wgLinkNameFor slot

def active (v : VPNRouteState) : Bool := !v.ifNames.isEmpty

end VPNRouteState

end NasnetPanel.Network
