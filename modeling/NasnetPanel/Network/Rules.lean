import Mathlib.Data.List.Sort
import NasnetPanel.Network.Uplink

/-!
# Network.Rules — the routing policy rules

`allRules` is the rule list the panel keeps in the kernel, built from the assigned uplinks, the WAN
groups and the pool. Five blocks share one preference space:

* oif rules (20 and up) and the main-table suppressor (45), from `baseRules`,
* two rules per uplink for its ingress pin (50 and up), from `pinRules`,
* the groups' members and terminators, from `groupRules`,
* the pool's slices (200 and up), from `viaRules`,
* the unmarked fallback (32000 and up), from `baseRules` again.

After each block's definition stand the lemmas that say which rules it has. They are what the
routing results use: no later proof unfolds a block.
-/

namespace NasnetPanel.Network
open Netmark List

/-- One routing policy rule. A zero `fwMask` is no mark match, an empty `oifName` no interface
match. -/
structure Rule where
  pref : Nat
  fwMark : Word := 0
  fwMask : Word := 0
  oifName : String := ""
  table : Nat := 0
  blackhole : Bool := false
  suppressPrefixLen : Nat := 0
  suppressSet : Bool := false
deriving DecidableEq, Repr

/-! ## Preferences -/

def rulePrefOifBase : Nat := 20
def rulePrefMainSuppress : Nat := 45
def rulePrefPinBase : Nat := 50
def rulePrefViaBase : Nat := 200
def rulePrefViaStride : Nat := 10
def rulePrefFallbackBase : Nat := 32000
def rulePrefFallbackBlackhole : Nat := 32009
def tableMain : Nat := 254

/-- The preferences the kernel owns. -/
def isStockRule (pref : Nat) : Bool := pref == 0 || 32766 ≤ pref

theorem isStockRule_eq_false {pref : Nat} (pos : 0 < pref) (lt : pref < 32766) :
    isStockRule pref = false := by
  have ne : (pref == 0) = false := beq_eq_false_iff_ne.mpr (Nat.ne_of_gt pos)
  rw [isStockRule, ne, Bool.false_or, decide_eq_false_iff_not]
  exact Nat.not_le.mpr lt

/-- `sort.Slice` by pin index. -/
def byUplinkIndex (uplinks : List Uplink) : List Uplink :=
  uplinks.insertionSort fun a b => a.uplinkIndex ≤ b.uplinkIndex

@[simp] theorem mem_byUplinkIndex {uplinks : List Uplink} {u : Uplink} :
    u ∈ byUplinkIndex uplinks ↔ u ∈ uplinks :=
  mem_insertionSort _

/-! ## Oif rules, the suppressor and the fallback -/

/-- What unmarked traffic walks: the tunnel, then domestic, then the rest, never a secondary's own
table. Only so many fit ahead of the terminator. -/
def fallbackTables (uplinks : List Uplink) (vpn : VPNRouteState) : List Nat :=
  let rank (u : Uplink) : Nat := if u.slot.isDomestic then 0 else 1
  let rest := (uplinks.filter fun u => !u.slot.isSecondary).insertionSort fun a b =>
    rank a < rank b ∨ rank a = rank b ∧ a.uplinkIndex ≤ b.uplinkIndex
  let out := (if vpn.active then [wgTable] else []) ++ rest.map (·.table)
  out.take (rulePrefFallbackBlackhole - rulePrefFallbackBase)

/-- The fallback block: one lookup per table, then the terminator. -/
def fallbackRules (uplinks : List Uplink) (vpn : VPNRouteState) : List Rule :=
  ((fallbackTables uplinks vpn).zipIdx.map fun (table, i) =>
    { pref := rulePrefFallbackBase + i, table := table }) ++
  [{ pref := rulePrefFallbackBlackhole, blackhole := true }]

/-- A socket bound to an interface gets that interface's table. Past the limit the next rule would
land on the suppressor. -/
def oifRules (ordered : List Uplink) (vpn : VPNRouteState) : List Rule :=
  let oif := ordered.map (fun u => (u.ifName, u.table)) ++ vpn.ifNames.map (·, wgTable)
  (oif.take (rulePrefMainSuppress - rulePrefOifBase)).zipIdx.map fun ((name, table), i) =>
    { pref := rulePrefOifBase + i, oifName := name, table := table }

/-- Main for anything above /0, never a default. -/
def mainSuppressRule : Rule :=
  { pref := rulePrefMainSuppress, table := tableMain, suppressSet := true, suppressPrefixLen := 0 }

/-- What must exist the moment main is emptied. -/
def baseRules (uplinks : List Uplink) (vpn : VPNRouteState) : List Rule :=
  let ordered := byUplinkIndex uplinks
  oifRules ordered vpn ++ [mainSuppressRule] ++ fallbackRules ordered vpn

/-! ## Pins -/

/-- Each uplink's lookup and its own terminator. -/
def pinRules (uplinks : List Uplink) : List Rule :=
  (byUplinkIndex uplinks).zipIdx.flatMap fun (u, i) =>
    let mark := pinMark u.uplinkIndex
    let base := rulePrefPinBase + i * 2
    [{ pref := base, fwMark := mark, fwMask := maskPin, table := u.table },
     { pref := base + 1, fwMark := mark, fwMask := maskPin, blackhole := true }]

/-! ## Groups -/

/-- The columns of a policy group that the rules read. -/
structure WANGroup where
  name : String
  groupIndex : Word
  ruleBase : Nat
  ruleBlackhole : Nat
deriving DecidableEq, Repr

/-- The two groups the group repository seeds. -/
def defaultGroups : List WANGroup :=
  [{ name := "domestic", groupIndex := groupDomestic, ruleBase := 110, ruleBlackhole := 149 },
   { name := "foreign", groupIndex := groupForeign, ruleBase := 150, ruleBlackhole := 199 }]

/-- One group's rules: one per member, terminated by the group's blackhole. The foreign group
ignores its members; its egress is the pool. -/
def rulesOfGroup (uplinks : List Uplink) (vpn : VPNRouteState) (g : WANGroup) : List Rule :=
  let mark := groupMark g.groupIndex
  let terminator : Rule :=
    { pref := g.ruleBlackhole, fwMark := mark, fwMask := maskGroup, blackhole := true }
  if g.groupIndex = groupForeign then
    (if vpn.active then
      [{ pref := g.ruleBase, fwMark := mark, fwMask := maskGroup, table := wgTable }]
     else []) ++ [terminator]
  else
    let members := byUplinkIndex (uplinks.filter fun u => u.groupIndex == g.groupIndex)
    -- The loop breaks at the first preference past the terminator's.
    ((members.take (g.ruleBlackhole - g.ruleBase)).zipIdx.map fun (m, i) =>
      { pref := g.ruleBase + i, fwMark := mark, fwMask := maskGroup, table := m.table }) ++
    [terminator]

def groupRules (groups : List WANGroup) (uplinks : List Uplink) (vpn : VPNRouteState) :
    List Rule :=
  (groups.insertionSort fun a b => a.ruleBase ≤ b.ruleBase).flatMap (rulesOfGroup uplinks vpn)

/-! ## Slices of the pool -/

/-- One secondary slot's slice: a lookup when there is something to look up, a terminator
always. -/
def rulesOfVia (uplinks : List Uplink) (vpn : VPNRouteState) (slot : UplinkSlot) : List Rule :=
  let idx := uplinkIndexFor slot
  let mark := groupMark (groupForeignVia idx)
  let base := rulePrefViaBase + rulePrefViaStride * (idx - 2).toNat
  let assigned := uplinks.any fun u => u.slot.isSecondary && u.uplinkIndex == idx
  (if vpn.active && assigned then
    [{ pref := base, fwMark := mark, fwMask := maskGroup, table := vpnViaTableFor idx }]
   else []) ++
  [{ pref := base + rulePrefViaStride - 1, fwMark := mark, fwMask := maskGroup
     blackhole := true }]

def viaRules (uplinks : List Uplink) (vpn : VPNRouteState) : List Rule :=
  secondarySlots.flatMap (rulesOfVia uplinks vpn)

/-- Oif rules, suppressor, pins, groups, slices, unmarked fallback. -/
def allRules (groups : List WANGroup) (uplinks : List Uplink) (vpn : VPNRouteState) : List Rule :=
  let base := baseRules uplinks vpn
  let head := base.filter fun r => !(rulePrefFallbackBase ≤ r.pref)
  let tail := base.filter fun r => rulePrefFallbackBase ≤ r.pref
  head ++ pinRules uplinks ++ groupRules groups uplinks vpn ++ viaRules uplinks vpn ++ tail

/-! ## Which rules there are

`Listed` is the reading of the rule list the routing results use: one constructor per rule form,
with the preference each carries. `listed_of_mem` reads a member of `allRules` off as one of them.
-/

/-- A rule of the list for the default groups, by the block it comes from. -/
inductive Listed (us : Assigned) (vpn : VPNRouteState) : Rule → Prop where
  | oif {r : Rule} : r.oifName ≠ "" → Listed us vpn r
  | suppress : Listed us vpn mainSuppressRule
  | pin {u : Uplink} (k : Nat) : u ∈ us.links →
    Listed us vpn { pref := rulePrefPinBase + k * 2, fwMark := pinMark u.uplinkIndex
                    fwMask := maskPin, table := u.table }
  | pinEnd {u : Uplink} (k : Nat) : u ∈ us.links →
    Listed us vpn { pref := rulePrefPinBase + k * 2 + 1, fwMark := pinMark u.uplinkIndex
                    fwMask := maskPin, blackhole := true }
  | domestic {u : Uplink} {k : Nat} : u ∈ us.links → u.groupIndex = groupDomestic → k < 39 →
    Listed us vpn { pref := 110 + k, fwMark := groupMark groupDomestic, fwMask := maskGroup
                    table := u.table }
  | domesticEnd : Listed us vpn { pref := 149, fwMark := groupMark groupDomestic
                                  fwMask := maskGroup, blackhole := true }
  | foreign : vpn.active = true →
    Listed us vpn { pref := 150, fwMark := groupMark groupForeign, fwMask := maskGroup
                    table := wgTable }
  | foreignEnd : Listed us vpn { pref := 199, fwMark := groupMark groupForeign
                                 fwMask := maskGroup, blackhole := true }
  | via {u : Uplink} : u ∈ us.links → u.slot.isSecondary = true → vpn.active = true →
    Listed us vpn { pref := 200 + 10 * (uplinkIndexFor u.slot - 2).toNat
                    fwMark := groupMark (groupForeignVia (uplinkIndexFor u.slot))
                    fwMask := maskGroup, table := vpnViaTableFor (uplinkIndexFor u.slot) }
  | viaEnd {slot : UplinkSlot} : slot.isSecondary = true →
    Listed us vpn { pref := 200 + 10 * (uplinkIndexFor slot - 2).toNat + 9
                    fwMark := groupMark (groupForeignVia (uplinkIndexFor slot))
                    fwMask := maskGroup, blackhole := true }
  | fallbackPool (k : Nat) : vpn.active = true →
    Listed us vpn { pref := rulePrefFallbackBase + k, table := wgTable }
  | fallback {u : Uplink} (k : Nat) : u ∈ us.links → u.slot.isSecondary = false →
    Listed us vpn { pref := rulePrefFallbackBase + k, table := u.table }
  | fallbackEnd : Listed us vpn { pref := rulePrefFallbackBlackhole, blackhole := true }

section Listed
variable {us : Assigned} {vpn : VPNRouteState} {r : Rule}

private theorem mem_of_mem_zipIdx {α : Type} {l : List α} {a : α} {i k : Nat}
    (h : (a, i) ∈ l.zipIdx k) : a ∈ l := by
  have := mem_map_of_mem (f := Prod.fst) h
  rwa [zipIdx_map_fst] at this

private theorem lt_of_mem_zipIdx {α : Type} {l : List α} {a : α} {i : Nat}
    (h : (a, i) ∈ l.zipIdx) : i < l.length := by
  have := (mk_mem_zipIdx_iff_getElem?.mp h)
  exact (List.getElem?_eq_some_iff.mp this).1

theorem listed_of_mem_oifRules (h : r ∈ oifRules (byUplinkIndex us.links) vpn) :
    Listed us vpn r := by
  obtain ⟨⟨⟨name, table⟩, i⟩, hm, rfl⟩ := mem_map.mp h
  apply Listed.oif
  have hm := mem_of_mem_take (mem_of_mem_zipIdx hm)
  rcases mem_append.mp hm with fromUplink | fromPool
  · obtain ⟨u, hu, hp⟩ := mem_map.mp fromUplink
    rw [← (Prod.mk.inj hp).1]
    exact (us.formed u (mem_byUplinkIndex.mp hu)).named
  · obtain ⟨n, hn, hp⟩ := mem_map.mp fromPool
    rw [← (Prod.mk.inj hp).1]
    exact ne_empty_of_isWGLink (vpn.tunnels n hn)

theorem listed_of_mem_fallbackRules (h : r ∈ fallbackRules (byUplinkIndex us.links) vpn) :
    Listed us vpn r := by
  rcases mem_append.mp h with h | h
  · obtain ⟨⟨table, i⟩, hm, rfl⟩ := mem_map.mp h
    have hm := mem_of_mem_take (mem_of_mem_zipIdx hm)
    rcases mem_append.mp hm with fromPool | fromUplink
    · split at fromPool
      next active =>
        rw [mem_singleton] at fromPool
        subst fromPool
        exact .fallbackPool i active
      · cases fromPool
    · obtain ⟨u, sorted, rfl⟩ := mem_map.mp fromUplink
      obtain ⟨hu, hs⟩ := mem_filter.mp ((mem_insertionSort _).mp sorted)
      exact .fallback i (mem_byUplinkIndex.mp hu) (by simpa using hs)
  · rw [mem_singleton] at h
    subst h
    exact .fallbackEnd

theorem listed_of_mem_baseRules (h : r ∈ baseRules us.links vpn) : Listed us vpn r := by
  simp only [baseRules, mem_append, mem_singleton] at h
  rcases h with (h | rfl) | h
  · exact listed_of_mem_oifRules h
  · exact .suppress
  · exact listed_of_mem_fallbackRules h

theorem listed_of_mem_pinRules (h : r ∈ pinRules us.links) : Listed us vpn r := by
  obtain ⟨⟨u, i⟩, hu, hr⟩ := mem_flatMap.mp h
  have hu := mem_byUplinkIndex.mp (mem_of_mem_zipIdx hu)
  simp only [mem_cons, not_mem_nil, or_false] at hr
  rcases hr with rfl | rfl
  · exact .pin i hu
  · exact .pinEnd i hu

theorem groupRules_default (uplinks : List Uplink) :
    groupRules defaultGroups uplinks vpn = defaultGroups.flatMap (rulesOfGroup uplinks vpn) := rfl

theorem listed_of_mem_groupRules (h : r ∈ groupRules defaultGroups us.links vpn) :
    Listed us vpn r := by
  rw [groupRules_default] at h
  obtain ⟨g, hg, hr⟩ := mem_flatMap.mp h
  simp only [defaultGroups, mem_cons, not_mem_nil, or_false] at hg
  rcases hg with rfl | rfl
  · rcases mem_append.mp hr with hr | hr
    · obtain ⟨⟨u, i⟩, hm, rfl⟩ := mem_map.mp hr
      have hi := lt_of_mem_zipIdx hm
      obtain ⟨hu, hg⟩ := mem_filter.mp
        (mem_byUplinkIndex.mp (mem_of_mem_take (mem_of_mem_zipIdx hm)))
      have hi : i < 39 := Nat.lt_of_lt_of_le hi (length_take_le _ _)
      exact .domestic hu (by simpa using hg) hi
    · rw [mem_singleton] at hr
      subst hr
      exact .domesticEnd
  · rcases mem_append.mp hr with hr | hr
    · split at hr
      next active =>
        rw [mem_singleton] at hr
        subst hr
        exact .foreign active
      · cases hr
    · rw [mem_singleton] at hr
      subst hr
      exact .foreignEnd

variable {slot : UplinkSlot} {u : Uplink}

theorem exists_uplink_of_any
    (h : (us.links.any fun u => u.slot.isSecondary && u.uplinkIndex == uplinkIndexFor slot) =
      true) : ∃ u ∈ us.links, u.slot = slot ∧ u.slot.isSecondary = true := by
  obtain ⟨u, hu, hc⟩ := any_eq_true.mp h
  simp only [Bool.and_eq_true, beq_iff_eq] at hc
  rw [(us.formed u hu).uplinkIndex] at hc
  exact ⟨u, hu, uplinkIndexFor_injective hc.2, hc.1⟩

theorem listed_of_mem_viaRules (h : r ∈ viaRules us.links vpn) : Listed us vpn r := by
  obtain ⟨slot, hslot, hr⟩ := mem_flatMap.mp h
  rcases mem_append.mp hr with hr | hr
  · split at hr
    next held =>
      rw [Bool.and_eq_true] at held
      obtain ⟨u, hu, rfl, hs⟩ := exists_uplink_of_any held.2
      rw [mem_singleton] at hr
      subst hr
      exact .via hu hs held.1
    · cases hr
  · rw [mem_singleton] at hr
    subst hr
    exact .viaEnd (mem_secondarySlots.mp hslot)

abbrev Assigned.rules (us : Assigned) (vpn : VPNRouteState) : List Rule :=
  allRules defaultGroups us.links vpn

/-- **Every rule of the list is one of the listed forms.** -/
theorem listed_of_mem (h : r ∈ us.rules vpn) : Listed us vpn r := by
  simp only [allRules, mem_append] at h
  rcases h with (((h | h) | h) | h) | h
  · exact listed_of_mem_baseRules (mem_filter.mp h).1
  · exact listed_of_mem_pinRules h
  · exact listed_of_mem_groupRules h
  · exact listed_of_mem_viaRules h
  · exact listed_of_mem_baseRules (mem_filter.mp h).1

/-! No preference of the list is the kernel's own. -/

theorem pref_of_mem_baseRules (h : r ∈ baseRules us.links vpn) : 0 < r.pref ∧ r.pref < 32766 := by
  simp only [baseRules, mem_append, mem_singleton] at h
  rcases h with (h | rfl) | h
  · obtain ⟨⟨p, i⟩, hm, rfl⟩ := mem_map.mp h
    have := (lt_of_mem_zipIdx hm).trans_le (length_take_le _ _)
    simp only [rulePrefMainSuppress, rulePrefOifBase] at this ⊢
    omega
  · decide
  · rcases mem_append.mp h with h | h
    · obtain ⟨⟨table, i⟩, hm, rfl⟩ := mem_map.mp h
      have := (lt_of_mem_zipIdx hm).trans_le (length_take_le _ _)
      simp only [rulePrefFallbackBlackhole, rulePrefFallbackBase] at this ⊢
      omega
    · rw [mem_singleton.mp h]
      decide

theorem pref_of_mem_pinRules (h : r ∈ pinRules us.links) : 0 < r.pref ∧ r.pref < 32766 := by
  obtain ⟨⟨u, i⟩, hu, hr⟩ := mem_flatMap.mp h
  have lt := lt_of_mem_zipIdx hu
  have few := us.length_le
  rw [byUplinkIndex, length_insertionSort] at lt
  simp only [mem_cons, not_mem_nil, or_false] at hr
  rcases hr with rfl | rfl <;> simp only [rulePrefPinBase] <;> omega

theorem pref_of_mem_groupRules (h : r ∈ groupRules defaultGroups us.links vpn) :
    0 < r.pref ∧ r.pref < 32766 := by
  rw [groupRules_default] at h
  obtain ⟨g, hg, hr⟩ := mem_flatMap.mp h
  simp only [defaultGroups, mem_cons, not_mem_nil, or_false] at hg
  rcases hg with rfl | rfl
  · rcases mem_append.mp hr with hr | hr
    · obtain ⟨⟨u, i⟩, hm, rfl⟩ := mem_map.mp hr
      have := (lt_of_mem_zipIdx hm).trans_le (length_take_le _ _)
      dsimp only at this ⊢
      omega
    · rw [mem_singleton.mp hr]
      decide
  · rcases mem_append.mp hr with hr | hr
    · split at hr
      · rw [mem_singleton.mp hr]
        decide
      · cases hr
    · rw [mem_singleton.mp hr]
      decide

theorem pref_of_mem_viaRules (h : r ∈ viaRules us.links vpn) : 0 < r.pref ∧ r.pref < 32766 := by
  obtain ⟨slot, hslot, hr⟩ := mem_flatMap.mp h
  have small : ∀ slot ∈ secondarySlots, (uplinkIndexFor slot - 2).toNat < 14 := by decide
  have := small slot hslot
  simp only [rulesOfVia, rulePrefViaBase, rulePrefViaStride, mem_append, mem_singleton] at hr
  rcases hr with hr | rfl
  · split at hr
    · rw [mem_singleton.mp hr]
      dsimp only
      omega
    · cases hr
  · dsimp only
    omega

theorem isStockRule_of_mem (h : r ∈ us.rules vpn) :
    isStockRule r.pref = false := by
  suffices 0 < r.pref ∧ r.pref < 32766 from isStockRule_eq_false this.1 this.2
  simp only [allRules, mem_append] at h
  rcases h with (((h | h) | h) | h) | h
  · exact pref_of_mem_baseRules (mem_filter.mp h).1
  · exact pref_of_mem_pinRules h
  · exact pref_of_mem_groupRules h
  · exact pref_of_mem_viaRules h
  · exact pref_of_mem_baseRules (mem_filter.mp h).1

/-! The rules a result needs to exist: every terminator, and the first lookup of a block that has
one. -/

theorem mem_allRules_of_base (h : r ∈ baseRules us.links vpn) :
    r ∈ us.rules vpn := by
  simp only [allRules, mem_append]
  by_cases tail : rulePrefFallbackBase ≤ r.pref
  · exact .inr (mem_filter.mpr ⟨h, by simpa using tail⟩)
  · exact .inl (.inl (.inl (.inl (mem_filter.mpr ⟨h, by simpa using tail⟩))))

theorem mem_allRules_of_pin (h : r ∈ pinRules us.links) :
    r ∈ us.rules vpn := by
  simp only [allRules, mem_append]
  exact .inl (.inl (.inl (.inr h)))

theorem mem_allRules_of_group {g : WANGroup} (hg : g ∈ defaultGroups)
    (h : r ∈ rulesOfGroup us.links vpn g) : r ∈ us.rules vpn := by
  simp only [allRules, mem_append, groupRules_default]
  exact .inl (.inl (.inr (mem_flatMap.mpr ⟨g, hg, h⟩)))

theorem mem_allRules_of_via (hs : slot.isSecondary = true)
    (h : r ∈ rulesOfVia us.links vpn slot) : r ∈ us.rules vpn := by
  simp only [allRules, mem_append]
  exact .inl (.inr (mem_flatMap.mpr ⟨slot, mem_secondarySlots.mpr hs, h⟩))

theorem exists_pinEnd (hu : u ∈ us.links) :
    ∃ k < 8, ({ pref := rulePrefPinBase + k * 2 + 1, fwMark := pinMark u.uplinkIndex
                fwMask := maskPin, blackhole := true } : Rule) ∈ us.rules vpn := by
  obtain ⟨k, hk, hget⟩ := mem_iff_getElem.mp (mem_byUplinkIndex.mpr hu)
  have length : (byUplinkIndex us.links).length = us.links.length :=
    length_insertionSort _ _
  refine ⟨k, by have := us.length_le; omega, mem_allRules_of_pin (mem_flatMap.mpr ?_)⟩
  refine ⟨(u, k), ?_, by simp⟩
  rw [mk_mem_zipIdx_iff_getElem?, List.getElem?_eq_some_iff]
  exact ⟨hk, hget⟩

theorem domesticEnd_mem : ({ pref := 149, fwMark := groupMark groupDomestic, fwMask := maskGroup
                             blackhole := true } : Rule) ∈ us.rules vpn :=
  mem_allRules_of_group mem_cons_self (mem_append_right _ (mem_singleton.mpr rfl))

theorem foreignEnd_mem : ({ pref := 199, fwMark := groupMark groupForeign, fwMask := maskGroup
                            blackhole := true } : Rule) ∈ us.rules vpn :=
  mem_allRules_of_group (mem_cons_of_mem _ mem_cons_self)
    (mem_append_right _ (mem_singleton.mpr rfl))

theorem viaEnd_mem (hs : slot.isSecondary = true) :
    ({ pref := 200 + 10 * (uplinkIndexFor slot - 2).toNat + 9
       fwMark := groupMark (groupForeignVia (uplinkIndexFor slot))
       fwMask := maskGroup, blackhole := true } : Rule) ∈ us.rules vpn :=
  mem_allRules_of_via hs (mem_append_right _ (mem_singleton.mpr rfl))

theorem foreign_mem (active : vpn.active = true) :
    ({ pref := 150, fwMark := groupMark groupForeign, fwMask := maskGroup
       table := wgTable } : Rule) ∈ us.rules vpn := by
  refine mem_allRules_of_group (mem_cons_of_mem _ mem_cons_self) (mem_append_left _ ?_)
  rw [if_pos active]
  exact mem_singleton.mpr rfl

theorem via_mem (hu : u ∈ us.links) (hs : u.slot.isSecondary = true) (active : vpn.active = true) :
    ({ pref := 200 + 10 * (uplinkIndexFor u.slot - 2).toNat
       fwMark := groupMark (groupForeignVia (uplinkIndexFor u.slot))
       fwMask := maskGroup, table := vpnViaTableFor (uplinkIndexFor u.slot) } : Rule) ∈
        us.rules vpn := by
  refine mem_allRules_of_via hs (mem_append_left _ ?_)
  have held : (us.links.any fun v => v.slot.isSecondary &&
      v.uplinkIndex == uplinkIndexFor u.slot) = true :=
    any_eq_true.mpr ⟨u, hu, by simp [hs, (us.formed u hu).uplinkIndex]⟩
  rw [if_pos (by rw [active, held]; rfl)]
  exact mem_singleton.mpr rfl

theorem exists_domestic_mem (hu : u ∈ us.links) (hg : u.groupIndex = groupDomestic) :
    ∃ v ∈ us.links, v.groupIndex = groupDomestic ∧
      ({ pref := 110, fwMark := groupMark groupDomestic, fwMask := maskGroup
         table := v.table } : Rule) ∈ us.rules vpn := by
  have member : u ∈ byUplinkIndex (us.links.filter fun v => v.groupIndex == groupDomestic) :=
    mem_byUplinkIndex.mpr (mem_filter.mpr ⟨hu, by simpa using hg⟩)
  obtain ⟨v, rest, hv⟩ := exists_cons_of_ne_nil (ne_nil_of_mem member)
  have first : v ∈ us.links.filter fun v => v.groupIndex == groupDomestic :=
    mem_byUplinkIndex.mp (hv ▸ mem_cons_self)
  obtain ⟨hv', hg'⟩ := mem_filter.mp first
  refine ⟨v, hv', by simpa using hg', mem_allRules_of_group mem_cons_self
    (mem_append_left _ (mem_map.mpr ⟨(v, 0), ?_, rfl⟩))⟩
  rw [mk_mem_zipIdx_iff_getElem?]
  rw [hv]
  rfl

theorem exists_fallback_mem
    (h : vpn.active = true ∨ ∃ u ∈ us.links, u.slot.isSecondary = false) :
    ∃ table, ({ pref := rulePrefFallbackBase, table := table } : Rule) ∈ us.rules vpn := by
  have nonempty : fallbackTables (byUplinkIndex us.links) vpn ≠ [] := by
    intro empty
    have := take_eq_nil_iff.mp empty
    rcases this with bad | empty
    · exact absurd bad (by decide)
    obtain ⟨noPool, noRest⟩ := append_eq_nil_iff.mp empty
    rcases h with active | ⟨u, hu, hs⟩
    · rw [if_pos active] at noPool
      cases noPool
    have := map_eq_nil_iff.mp noRest
    have member : u ∈ (byUplinkIndex us.links).filter fun u => !u.slot.isSecondary :=
      mem_filter.mpr ⟨mem_byUplinkIndex.mpr hu, by simpa using hs⟩
    exact ne_nil_of_mem ((mem_insertionSort _).mpr member) this
  obtain ⟨table, rest, htables⟩ := exists_cons_of_ne_nil nonempty
  refine ⟨table, mem_allRules_of_base (mem_append_right _ (mem_append_left _
    (mem_map.mpr ⟨(table, 0), ?_, rfl⟩)))⟩
  rw [htables]
  exact mem_cons_self

end Listed

end NasnetPanel.Network
