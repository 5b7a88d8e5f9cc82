import NasnetPanel.Network.Isolation
import NasnetPanel.Network.Nft

/-!
# Network.Lan — a LAN packet from the bridge to the wire

The table's state for a box with a LAN is the result of three updates of one reconcile:
`applyKillSwitchState`, `applyNftState`, then `applyLANNftState`. A packet of a new flow that enters
on the bridge meets `mangle_pre`, the policy walk over `allRules`, `filter_fwd` and
`killswitch_fwd`, in that order; `lanEgress` computes which devices may carry it out.

`lan_never_in_clear` is the result over every such box, whatever the table held before the
reconcile: out of a secondary uplink only the dish subnet is reached, and a destination outside the
domestic sets leaves by a domestic uplink only by a main-table route longer than /0.

Not modelled here: `nat_pre` and the input and output chains, which a forwarded LAN packet does not
meet or which do not decide where it leaves, and the second packet of a flow.
-/

namespace NasnetPanel.Network
open Netmark Inet Nft List ChainRule

/-! ## The three updates -/

def starlinkDishSubnet : String := "192.168.100.0/24"

/-- One leg per secondary, in slot order. -/
def killSwitchLegs (uplinks : List Uplink) : List KillSwitchLeg :=
  (byUplinkIndex (secondariesOf uplinks)).map fun up => { ifName := up.ifName }

/-- Rendered whenever a secondary uplink exists, with or without a pool. -/
def applyKillSwitchState (uplinks : List Uplink) (rs : Ruleset) : Ruleset :=
  let legs := killSwitchLegs uplinks
  if legs.isEmpty then { rs with killSwitch := none }
  else { rs with killSwitch := some { legs := legs, dishSubnet := starlinkDishSubnet } }

/-- The ingress pins. -/
def applyNftState (uplinks : List Uplink) (rs : Ruleset) : Ruleset :=
  { rs with
    connmark := true, counters := true
    ingressPins := (byUplinkIndex uplinks).map fun u =>
      { ifName := u.ifName, index := u.uplinkIndex } }

def domesticSetV4 : String := "ir_v4"
def domesticSetV6 : String := "ir_v6"
def domainSetV4 : String := "ir_dom_v4"
def domainSetV6 : String := "ir_dom_v6"

/-- The sets LAN traffic is classified against. -/
def domesticSetNames : List String := [domesticSetV4, domainSetV4, domesticSetV6, domainSetV6]

def lanBridgeName : String := "lan0"

/-- The columns of the LAN row that the table's state reads. -/
structure LANBridge where
  bridgeName : String
  enabled : Bool
deriving DecidableEq, Repr

/-- The LAN's bridge, under its default name where the row leaves it empty. -/
def LANBridge.bridge (lan : LANBridge) : String :=
  if lan.bridgeName = "" then lanBridgeName else lan.bridgeName

/-- Where LAN hosts may leave by: never the secondary uplink. -/
def lanEgressNames (uplinks : List Uplink) (vpn : VPNRouteState) : List String :=
  (uplinks.filter fun u => !u.slot.isSecondary).map (·.ifName) ++ vpn.ifNames

/-- The classification refers only to the sets that are declared. -/
def lanClassifyFor (bridge : String) (sets : List NftSet) : LANClassify :=
  let declared (name : String) : String := if sets.any (·.name == name) then name else ""
  { bridgeName := bridge
    domesticV4Set := declared domesticSetV4, domesticV6Set := declared domesticSetV6
    domainV4Set := declared domainSetV4, domainV6Set := declared domainSetV6 }

/-- Turns the LAN plane on or off. -/
def applyLANNftState (lan : Option LANBridge) (uplinks : List Uplink) (sets : List NftSet)
    (vpn : VPNRouteState) (rs : Ruleset) : Ruleset :=
  match lan.filter (·.enabled) with
  | none => { rs with sets := [], lanClassify := none, filterForward := none }
  | some lan =>
    let names := lanEgressNames uplinks vpn
    { rs with
      connmark := true, sets := sets, lanClassify := some (lanClassifyFor lan.bridge sets)
      filterForward := some { bridgeName := lan.bridge, uplinkNames := names } }

/-! ## The box -/

/-- A box with a LAN: its uplinks, its pool and its LAN row. The kernel gives one name to one
device, so the bridge the panel creates is none of the uplinks, and the interface enumeration that
uplinks are chosen from offers no tunnel link. -/
structure Box where
  us : Assigned
  vpn : VPNRouteState
  lan : LANBridge
  enabled : lan.enabled = true
  bridge_ne : ∀ u ∈ us.links, u.ifName ≠ lan.bridge
  uplink_ne : ∀ u ∈ us.links, isWGLink u.ifName = false

def Box.reconciled (box : Box) (sets : List NftSet) (before : Ruleset) : Ruleset :=
  applyLANNftState (some box.lan) box.us.links sets box.vpn
    (applyNftState box.us.links (applyKillSwitchState box.us.links before))

/-! ## The packet's way -/

/-- The devices a route may send a packet out of. With nexthops the route's own device is
ignored. -/
def Route.devices (r : Route) : List String :=
  if r.nexthops.isEmpty then [r.oifName] else r.nexthops.map (·.oifName)

/-- A way out: the device, the route taken and the rule that gave it. -/
structure Egress where
  dev : String
  route : Route
  rule : Rule
deriving DecidableEq, Repr

def forwardAccepts (rs : Ruleset) (contents : SetContents) (p : Packet) (dev : String) : Bool :=
  (Chain.run contents (renderFilterForward rs) { p with oif := dev }).1 == .accept &&
    (Chain.run contents (renderKillSwitchFwd rs) { p with oif := dev }).1 == .accept

/-- Every way out the packet is accepted on: classified by `mangle_pre`, routed by the policy walk,
then let through by both forward chains. -/
def lanEgress (rs : Ruleset) (contents : SetContents) (rules : List Rule)
    (routes : Nat → List Route) (dst : String) (p : Packet) : List Egress :=
  match Chain.run contents (renderManglePre rs) p with
  | (.drop, _) => []
  | (.accept, p') =>
    match walkPolicy rules routes dst p'.mark with
    | (_, some route, some rule) =>
      (route.devices.filter (forwardAccepts rs contents p')).map (⟨·, route, rule⟩)
    | _ => []

/-- The first packet of a flow that enters on the bridge: no mark, no conntrack mark, not yet
routed. -/
structure FirstFrom (bridge dst : String) (p : Packet) : Prop where
  iif : p.iif = bridge
  daddr : parseIP dst = some p.daddr
  mark : p.mark = 0
  ctMark : p.ctMark = 0
  ctState : p.ctState = .new

/-! ## What the chains decide -/

section Egress
variable {box : Box} {sets : List NftSet} {before : Ruleset} {contents : SetContents}

theorem runRules_marks : ∀ (rules : List ChainRule) (p : Packet),
    ∃ mark ctMark, (runRules contents rules p).2 = { p with mark := mark, ctMark := ctMark }
  | [], p => ⟨p.mark, p.ctMark, rfl⟩
  | r :: rest, p => by
    rw [runRules]
    split
    · split
      · exact ⟨p.mark, p.ctMark, rfl⟩
      all_goals exact runRules_marks rest _
    · exact runRules_marks rest p

theorem run_marks (chain : Option Chain) (p : Packet) :
    ∃ mark ctMark, (Chain.run contents chain p).2 = { p with mark := mark, ctMark := ctMark } := by
  cases chain with
  | none => exact ⟨p.mark, p.ctMark, rfl⟩
  | some c => exact runRules_marks c.rules p

variable {uplinks : List Uplink}

theorem mem_killSwitchLegs {u : Uplink} (hu : u ∈ uplinks)
    (hs : u.slot.isSecondary = true) :
    u.ifName ∈ (killSwitchLegs uplinks).map (·.ifName) := by
  rw [killSwitchLegs, map_map]
  exact mem_map_of_mem (mem_byUplinkIndex.mpr (mem_filter.mpr ⟨hu, hs⟩))

theorem killSwitchLegs_nonempty {u : Uplink} (hu : u ∈ uplinks)
    (hs : u.slot.isSecondary = true) :
    ¬ (killSwitchLegs uplinks).isEmpty = true := by
  intro empty
  have leg := mem_killSwitchLegs hu hs
  rw [List.isEmpty_iff.mp empty] at leg
  cases leg

theorem reconciled_eq : box.reconciled sets before =
    { applyKillSwitchState box.us.links before with
      connmark := true, counters := true
      ingressPins := (byUplinkIndex box.us.links).map fun u =>
        { ifName := u.ifName, index := u.uplinkIndex }
      sets := sets, lanClassify := some (lanClassifyFor box.lan.bridge sets)
      filterForward := some { bridgeName := box.lan.bridge
                              uplinkNames := lanEgressNames box.us.links box.vpn } } := by
  have on : (some box.lan).filter (·.enabled) = some box.lan := by
    rw [Option.filter_some, box.enabled]
    rfl
  rw [Box.reconciled, applyLANNftState, on]
  rfl

theorem applyKillSwitchState_killSwitch {u : Uplink} (hu : u ∈ box.us.links)
    (hs : u.slot.isSecondary = true) :
    (applyKillSwitchState box.us.links before).killSwitch = some
      { legs := killSwitchLegs box.us.links, dishSubnet := starlinkDishSubnet } := by
  rw [applyKillSwitchState, if_neg (killSwitchLegs_nonempty hu hs)]

theorem renderKillSwitchFwd_reconciled {u : Uplink} (hu : u ∈ box.us.links)
    (hs : u.slot.isSecondary = true) :
    renderKillSwitchFwd (box.reconciled sets before) = some
      { policy := .accept
        rules :=
          [{ matchers := [.oifnameNot
               ((killSwitchLegs box.us.links).map (·.ifName))]
             statement := .verdict .accept },
           { matchers := [.ctState [.established, .related]], statement := .verdict .accept },
           { matchers := [.ipDaddr starlinkDishSubnet], statement := .verdict .accept },
           { matchers := [], counter := some counterKillSwitch
             statement := .verdict .drop }] } := by
  rw [renderKillSwitchFwd, reconciled_eq, applyKillSwitchState_killSwitch hu hs]
  dsimp only
  rw [if_neg (killSwitchLegs_nonempty hu hs)]
  rfl

/-- **The kill switch drops a new flow out of a secondary uplink**, unless it goes to the dish. -/
theorem run_killSwitchFwd_secondary (p : Packet) {u : Uplink} (hu : u ∈ box.us.links)
    (hs : u.slot.isSecondary = true) (oif : p.oif = u.ifName)
    (new : p.ctState = .new)
    (dish : (parseCIDR starlinkDishSubnet).any (·.contains p.daddr) = false) :
    (Chain.run contents (renderKillSwitchFwd (box.reconciled sets before)) p).1 =
      .drop := by
  have leg : ((killSwitchLegs box.us.links).map (·.ifName)).contains p.oif =
      true := by
    rw [contains_iff_mem, oif]
    exact mem_killSwitchLegs hu hs
  rw [renderKillSwitchFwd_reconciled hu hs, Chain.run]
  rw [runRules_skip, runRules_skip, runRules_skip, runRules_verdict rfl rfl]
  · rfl
  · simp [holds, Match.holds, dish]
  · simp [holds, Match.holds, new]
  · simpa [holds, Match.holds] using leg

variable {p : Packet}

/-- A set's rule passes over a packet whose destination the set does not hold. -/
theorem domesticRule_not_holds {bridge set : String} {inSet : String → Match}
    (outside : set ≠ "" → (inSet set).holds contents p = false) :
    ∀ r ∈ domesticRule bridge set inSet, r.holds contents p = false := by
  intro r hr
  rw [domesticRule] at hr
  split at hr
  · cases hr
  next declared =>
    rw [mem_singleton] at hr
    subst hr
    simp [holds, outside declared]

theorem runRules_classify_foreign {rs : Ruleset} {bridge : String}
    (classify : rs.lanClassify = some (lanClassifyFor bridge sets)) (iif : p.iif = bridge)
    (unmarked : p.mark = 0)
    (outside : ∀ name ∈ domesticSetNames, sets.any (·.name == name) = true →
      contents name p.daddr = false) :
    runRules contents (renderLANClassify rs) p =
      (none, { p with mark := groupMark groupForeign }) := by
  have declared : ∀ name ∈ domesticSetNames,
      (if sets.any (·.name == name) then name else "") ≠ "" →
      contents (if sets.any (·.name == name) then name else "") p.daddr = false := by
    intro name hn ne
    split at ne
    next here => rw [if_pos here]; exact outside name hn here
    · exact absurd rfl ne
  have foreign : (({ matchers := [.iifname bridge, .markIs maskGroup 0]
                     statement := .setMark (~~~maskGroup) (groupMark groupForeign) } :
      ChainRule).holds contents p) = true := by
    simp [holds, Match.holds, iif, unmarked]
  rw [renderLANClassify, classify]
  dsimp only [lanClassifyFor]
  rw [runRules_append_of_not_holds, runRules, if_pos foreign, unmarked]
  · rfl
  intro r hr
  simp only [mem_append] at hr
  rcases hr with ((hr | hr) | hr) | hr
  all_goals
    refine domesticRule_not_holds (fun ne => ?_) r hr
    simp only [Match.holds, Bool.and_eq_false_iff]
    exact .inr (declared _ (by simp [domesticSetNames]) ne)

theorem renderManglePre_reconciled :
    renderManglePre (box.reconciled sets before) = some
      { policy := .accept
        rules := ((byUplinkIndex box.us.links).map fun u =>
            { matchers := [.iifname u.ifName, .ctState [.new]]
              statement := .setCtMark (~~~maskPin) (pinMark u.uplinkIndex) }) ++
          [{ matchers := [.ctMarkSet], statement := .restoreMark maskAll }] ++
          renderLANClassify (box.reconciled sets before) } := by
  rw [reconciled_eq, renderManglePre, map_map]
  rfl

/-- A packet from the bridge to a destination outside the domestic sets leaves `mangle_pre` with
the foreign group's mark alone: neither the uplinks' pins nor the restore holds of it. -/
theorem run_manglePre_foreign {dst : String}
    (first : FirstFrom box.lan.bridge dst p)
    (outside : ∀ name ∈ domesticSetNames, sets.any (·.name == name) = true →
      contents name p.daddr = false) :
    Chain.run contents (renderManglePre (box.reconciled sets before)) p =
      (.accept, { p with mark := groupMark groupForeign }) := by
  have classify : (box.reconciled sets before).lanClassify =
      some (lanClassifyFor box.lan.bridge sets) := by rw [reconciled_eq]
  rw [renderManglePre_reconciled, Chain.run]
  rw [runRules_append_of_not_holds, runRules_classify_foreign classify first.iif first.mark outside]
  · rfl
  intro r hr
  rcases mem_append.mp hr with hr | hr
  · obtain ⟨u, hu, rfl⟩ := mem_map.mp hr
    have ne := box.bridge_ne u (mem_byUplinkIndex.mp hu)
    simp [holds, Match.holds, first.iif, ne.symm]
  · rw [mem_singleton] at hr
    subst hr
    simp [holds, Match.holds, first.ctMark]

/-! ## Where a LAN packet can leave -/

/-- A way out, read back: the mark `mangle_pre` left, the route and rule of the walk, and both
forward chains' acceptance. -/
theorem mem_lanEgress {rs : Ruleset} {rules : List Rule} {routes : Nat → List Route}
    {dst : String} {e : Egress}
    (h : e ∈ lanEgress rs contents rules routes dst p) :
    ∃ p' step, Chain.run contents (renderManglePre rs) p = (.accept, p') ∧
      walkPolicy rules routes dst p'.mark = (step, some e.route, some e.rule) ∧
      e.dev ∈ e.route.devices ∧ forwardAccepts rs contents p' e.dev = true := by
  rw [lanEgress] at h
  split at h
  · cases h
  next p' hm =>
    split at h
    next step route rule hw =>
      obtain ⟨dev, hd, rfl⟩ := mem_map.mp h
      obtain ⟨hd, accepted⟩ := mem_filter.mp hd
      exact ⟨p', step, hm, hw, hd, accepted⟩
    · cases h

/-- **No LAN traffic leaves in the clear over a raw uplink unless it is meant to.** -/
theorem lan_never_in_clear (box : Box) (sets : List NftSet) (before : Ruleset)
    (contents : SetContents) (routes : Nat → List Route)
    (tunnelOnly : ∀ route ∈ routes wgTable, ∀ dev ∈ route.devices, isWGLink dev = true)
    (dst : String) (p : Packet) (first : FirstFrom box.lan.bridge dst p) :
    ∀ e ∈ lanEgress (box.reconciled sets before) contents
        (allRules defaultGroups box.us.links box.vpn) routes dst p,
      ∀ u ∈ box.us.links, e.dev = u.ifName →
        (u.slot.isSecondary = true →
          (parseCIDR starlinkDishSubnet).any (·.contains p.daddr) = true) ∧
        (u.slot.isDomestic = true →
          (∀ name ∈ domesticSetNames, sets.any (·.name == name) = true →
            contents name p.daddr = false) →
          e.rule.table = tableMain ∧
            ∃ plen, lookupTable (routes tableMain) dst = some (e.route, plen) ∧ 0 < plen) := by
  intro e he u hu dev
  obtain ⟨p', step, hm, hw, hd, accepted⟩ := mem_lanEgress he
  constructor
  · intro secondary
    by_contra notDish
    obtain ⟨mark, ctMark, marks⟩ := @run_marks contents
      (renderManglePre (box.reconciled sets before)) p
    rw [hm] at marks
    subst marks
    rw [forwardAccepts, Bool.and_eq_true, run_killSwitchFwd_secondary
      { p with mark := mark, ctMark := ctMark, oif := e.dev } hu secondary dev first.ctState
      (by simpa using notDish)] at accepted
    cases accepted.2
  · intro domestic outside
    rw [run_manglePre_foreign first outside] at hm
    cases hm
    obtain ⟨r, hr, hrule, ⟨plen, answers⟩, below⟩ := walkPolicy_route hw
    cases hrule
    have unpinned : pin (groupMark groupForeign) = 0 := by decide
    have foreign : group (groupMark groupForeign) = groupForeign := by decide
    rcases isolated_of_answers unpinned hr answers below with ⟨main, pos⟩ | taken
    · exact ⟨main, plen, main ▸ answers.found, pos⟩
    -- The pool's table holds tunnel devices alone, and the uplink is none.
    have table := taken.foreign foreign
    have mem := (mem_of_lookupTable answers.found).1
    rw [table] at mem
    have tunnel := tunnelOnly e.route mem e.dev hd
    rw [dev, box.uplink_ne u hu] at tunnel
    cases tunnel

end Egress

/-- The line and the dish with a pool of one tunnel and the LAN on. -/
def lanBox : Box where
  us := lineAndDish
  vpn := .ofSlots [0]
  lan := { bridgeName := "", enabled := true }
  enabled := rfl
  bridge_ne := by decide
  uplink_ne := by decide

/-- The pool's table holds its tunnel, every uplink's own table a default route. -/
def lanRoutes : Nat → List Route := fun table =>
  if table = wgTable then
    [{ dest := "default", nexthops := [{ oifName := "nasnet-wg0", weight := 1 }] }]
  else if table = 201 then [{ dest := "default", gateway := "192.0.2.1", oifName := "eth0" }]
  else if table = 202 then [{ dest := "default", gateway := "100.64.0.1", oifName := "dish0" }]
  else []

/-- The first packet of a LAN host's flow to 8.8.8.8. -/
def lanPacket : Packet :=
  { iif := "lan0", daddr := ofV4 0x08080808#32, ctMark := 0, ctState := .new, dnat := false }

def emptySets : SetContents := fun _ _ => false

/-- On that box the packet leaves by the tunnel and nowhere else. -/
theorem lan_never_in_clear_tunnel :
    (lanEgress (lanBox.reconciled [] {}) emptySets
      (allRules defaultGroups lanBox.us.links lanBox.vpn) lanRoutes "8.8.8.8" lanPacket).map
        (·.dev) = ["nasnet-wg0"] ∧
    ∀ e ∈ lanEgress (lanBox.reconciled [] {}) emptySets
        (allRules defaultGroups lanBox.us.links lanBox.vpn) lanRoutes "8.8.8.8" lanPacket,
      ∀ u ∈ lanBox.us.links, e.dev = u.ifName →
        (u.slot.isSecondary = true →
          (parseCIDR starlinkDishSubnet).any (·.contains lanPacket.daddr) = true) ∧
        (u.slot.isDomestic = true →
          (∀ name ∈ domesticSetNames, ([] : List NftSet).any (·.name == name) = true →
            emptySets name lanPacket.daddr = false) →
          e.rule.table = tableMain ∧
            ∃ plen, lookupTable (lanRoutes tableMain) "8.8.8.8" = some (e.route, plen) ∧
              0 < plen) :=
  ⟨by decide,
   lan_never_in_clear lanBox _ _ _ lanRoutes (by decide) "8.8.8.8" lanPacket
     ⟨by decide, by decide, rfl, rfl, rfl⟩⟩

end NasnetPanel.Network
