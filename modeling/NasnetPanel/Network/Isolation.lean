import NasnetPanel.Network.Walk

/-!
# Network.Isolation — which tables a mark can resolve from

Two results about the walk of `allRules` over the default groups, for every assigned list, pool,
table content and destination.

* `walk_isolated`: a mark without a pin resolves from main by more than a default route, or from
  the tables of its group alone, and never from a secondary uplink's own table.
* `pinned_resolves_iff`: a pinned mark stays on its line exactly when an uplink holds the pin's
  slot, or no later block has a lookup for the mark's group. The pin rules are built from the
  assigned uplinks, so the pin of a slot nobody holds has no terminator and the walk goes on into
  the group rules and the fallback (`transportMark_falls_through`).
-/

namespace NasnetPanel.Network
open Netmark

/-! ## Unpinned marks -/

/-- The table an unpinned mark resolves from, by its group field. -/
structure TakenFrom (us : Assigned) (mark : Word) (table : Nat) : Prop where
  foreign : group mark = groupForeign → table = wgTable
  via : ∀ slot : UplinkSlot, slot.isSecondary = true →
    group mark = groupForeignVia (uplinkIndexFor slot) →
    table = vpnViaTableFor (uplinkIndexFor slot)
  domestic : group mark = groupDomestic →
    ∃ u ∈ us.links, u.slot.isDomestic = true ∧ table = u.table
  unmarked : group mark = 0 →
    table = wgTable ∨ ∃ u ∈ us.links, u.slot.isDomestic = true ∧ table = u.table
  notSecondary : ∀ slot : UplinkSlot, slot.isSecondary = true → table ≠ tableFor slot

section Unpinned
variable {us : Assigned} {vpn : VPNRouteState} {mark : Word}

theorem groupForeignVia_ne (slot : UplinkSlot) :
    groupForeignVia (uplinkIndexFor slot) ≠ groupForeign ∧
      groupForeignVia (uplinkIndexFor slot) ≠ groupDomestic ∧
      groupForeignVia (uplinkIndexFor slot) ≠ 0 := by
  cases slot <;> decide

theorem wgTable_ne_tableFor (slot : UplinkSlot) : wgTable ≠ tableFor slot := by
  cases slot <;> decide

variable {slot : UplinkSlot} {u : Uplink} {via : UplinkSlot} {r : Rule}

theorem vpnViaTableFor_ne_tableFor (h : via.isSecondary = true) :
    vpnViaTableFor (uplinkIndexFor via) ≠ tableFor slot := by
  cases via <;> first | (cases slot <;> decide) | exact absurd h (by decide)

theorem tableMain_ne_tableFor (slot : UplinkSlot) : tableMain ≠ tableFor slot := by
  cases slot <;> decide

theorem table_ne_of_isDomestic (hu : u ∈ us.links) (hd : u.slot.isDomestic = true)
    (hs : slot.isSecondary = true) : u.table ≠ tableFor slot := by
  intro h
  rw [(us.formed u hu).table] at h
  rw [← tableFor_injective h, isSecondary_eq_false_of_isDomestic hd] at hs
  cases hs

theorem isDomestic_of_groupIndex (hu : u ∈ us.links)
    (h : u.groupIndex = groupDomestic) : u.slot.isDomestic = true := by
  rw [(us.formed u hu).groupIndex] at h
  cases hs : u.slot <;> rw [hs] at h <;> first | rfl | exact absurd h (by decide)

theorem groupIndex_of_isDomestic (hu : u ∈ us.links)
    (h : u.slot.isDomestic = true) : u.groupIndex = groupDomestic := by
  rw [(us.formed u hu).groupIndex, groupIndexFor, if_pos h]

theorem isDomestic_of_not_isSecondary (hu : u ∈ us.links)
    (h : u.slot.isSecondary = false) : u.slot.isDomestic = true := by
  rcases isDomestic_or_isSecondary (us.formed u hu).slot with hd | hs
  · exact hd
  · rw [h] at hs
    cases hs

theorem takenFrom_foreign (h : group mark = groupForeign) : TakenFrom us mark wgTable where
  foreign _ := rfl
  via slot _ hv := absurd (hv.symm.trans h) (groupForeignVia_ne slot).1
  domestic hd := absurd (h.symm.trans hd) (by decide)
  unmarked _ := .inl rfl
  notSecondary slot _ := wgTable_ne_tableFor slot

theorem takenFrom_domestic (h : group mark = groupDomestic) (hu : u ∈ us.links)
    (hd : u.slot.isDomestic = true) : TakenFrom us mark u.table where
  foreign hf := absurd (h.symm.trans hf) (by decide)
  via slot _ hv := absurd (hv.symm.trans h) (groupForeignVia_ne slot).2.1
  domestic _ := ⟨u, hu, hd, rfl⟩
  unmarked _ := .inr ⟨u, hu, hd, rfl⟩
  notSecondary _ hs := table_ne_of_isDomestic hu hd hs

theorem takenFrom_via (hvia : via.isSecondary = true)
    (h : group mark = groupForeignVia (uplinkIndexFor via)) :
    TakenFrom us mark (vpnViaTableFor (uplinkIndexFor via)) where
  foreign hf := absurd (h.symm.trans hf) (groupForeignVia_ne via).1
  via slot _ hv := by rw [groupForeignVia_uplinkIndexFor_injective (h.symm.trans hv)]
  domestic hd := absurd (h.symm.trans hd) (groupForeignVia_ne via).2.1
  unmarked h0 := absurd (h.symm.trans h0) (groupForeignVia_ne via).2.2
  notSecondary _ _ := vpnViaTableFor_ne_tableFor hvia

/-- The groups with a terminator of their own: the walk never reaches the fallback with one. -/
def Terminated (g : Word) : Prop :=
  g = groupForeign ∨ g = groupDomestic ∨
    ∃ slot : UplinkSlot, slot.isSecondary = true ∧ g = groupForeignVia (uplinkIndexFor slot)

theorem via_index_le (h : slot.isSecondary = true) : (uplinkIndexFor slot - 2).toNat ≤ 3 := by
  cases slot <;> first | decide | exact absurd h (by decide)

private theorem isStockRule_via (h : slot.isSecondary = true) (k : Nat)
    (hk : k < 10) : isStockRule (200 + 10 * (uplinkIndexFor slot - 2).toNat + k) = false := by
  have le := via_index_le h
  exact isStockRule_eq_false (by omega) (by omega)

theorem exists_terminator (h : Terminated (group mark)) :
    ∃ b ∈ us.rules vpn, b.applies mark = true ∧ b.blackhole = true ∧
      b.pref < rulePrefFallbackBase := by
  rcases h with h | h | ⟨slot, hs, h⟩
  · exact ⟨_, foreignEnd_mem, applies_of_group_eq rfl rfl rfl rfl (by decide) h, rfl, by decide⟩
  · exact ⟨_, domesticEnd_mem, applies_of_group_eq rfl rfl rfl rfl (by decide) h, rfl, by decide⟩
  refine ⟨_, viaEnd_mem hs, applies_of_group_eq rfl (isStockRule_via hs 9 (by decide)) rfl rfl
    (group_groupMark_via slot) h, rfl, ?_⟩
  have := via_index_le hs
  simp only [rulePrefFallbackBase]
  omega

theorem not_terminated_of_below (pref : rulePrefFallbackBase ≤ r.pref)
    (below : ∀ b ∈ us.rules vpn, b.applies mark = true →
      b.blackhole = true → r.pref ≤ b.pref) : ¬ Terminated (group mark) := by
  intro h
  obtain ⟨b, hb, applies, blackhole, lt⟩ := @exists_terminator us vpn mark h
  have := below b hb applies blackhole
  omega

theorem takenFrom_fallback (h : ¬ Terminated (group mark)) {table : Nat}
    (taken : table = wgTable ∨ ∃ u ∈ us.links, u.slot.isDomestic = true ∧ table = u.table) :
    TakenFrom us mark table where
  foreign hf := absurd (.inl hf) h
  via slot hs hv := absurd (.inr (.inr ⟨slot, hs, hv⟩)) h
  domestic hd := absurd (.inr (.inl hd)) h
  unmarked _ := taken
  notSecondary slot hs := by
    rcases taken with rfl | ⟨u, hu, hd, rfl⟩
    · exact wgTable_ne_tableFor slot
    · exact table_ne_of_isDomestic hu hd hs

/-- Every rule that may answer an unpinned mark ahead of the blackholes: one case per rule form.
Terminators do not answer, and pins do not apply to the mark. -/
theorem isolated_of_answers (unpinned : pin mark = 0) {routes : Nat → List Route} {dst : String}
    (hr : r ∈ us.rules vpn) {route : Route} {plen : Nat}
    (answers : r.Answers routes dst mark route plen)
    (below : ∀ b ∈ us.rules vpn, b.applies mark = true →
      b.blackhole = true → r.pref ≤ b.pref) :
    r.table = tableMain ∧ 0 < plen ∨ TakenFrom us mark r.table := by
  cases listed_of_mem hr with
  | oif named => exact absurd (oifName_eq_of_applies answers.applies) named
  | suppress =>
    exact .inl ⟨rfl, Nat.pos_of_ne_zero (by simpa [mainSuppressRule] using answers.kept)⟩
  | pin k hu =>
    have pinned := pin_eq_of_applies answers.applies rfl rfl
      ((us.formed _ hu).uplinkIndex ▸ pin_pinMark_uplinkIndexFor _)
    rw [unpinned, (us.formed _ hu).uplinkIndex] at pinned
    exact absurd (@uplinkIndexFor_injective .none _ pinned).symm (us.formed _ hu).slot
  | domestic hu hg _ =>
    exact .inr (takenFrom_domestic (group_eq_of_applies answers.applies rfl rfl (by decide)) hu
      (isDomestic_of_groupIndex hu hg))
  | foreign _ =>
    exact .inr (takenFrom_foreign (group_eq_of_applies answers.applies rfl rfl (by decide)))
  | via _ hs _ =>
    exact .inr (takenFrom_via hs
      (group_eq_of_applies answers.applies rfl rfl (group_groupMark_via _)))
  | fallbackPool k _ =>
    exact .inr (takenFrom_fallback
      (not_terminated_of_below (Nat.le_add_right _ k) below) (.inl rfl))
  | fallback k hu hs =>
    exact .inr (takenFrom_fallback (not_terminated_of_below (Nat.le_add_right _ k) below)
      (.inr ⟨_, hu, isDomestic_of_not_isSecondary hu hs, rfl⟩))
  | pinEnd | domesticEnd | foreignEnd | viaEnd | fallbackEnd => cases answers.lookup

/-- **Routing isolation by mark.** An unpinned mark is dropped, or resolves from main by more than
a default route, or from a table its group allows. -/
theorem walk_isolated (us : Assigned) (vpn : VPNRouteState) (routes : Nat → List Route)
    (dst : String) (mark : Word) (unpinned : pin mark = 0) :
    Resolves (allRules defaultGroups us.links vpn) routes dst mark fun table plen =>
      table = tableMain ∧ 0 < plen ∨ TakenFrom us mark table :=
  resolves_of_answers fun _ hr _ _ answers below => isolated_of_answers unpinned hr answers below

end Unpinned

def lineAndDish : Assigned :=
  .ofRows
    [{ ifName := "eth0", key := "k-eth0", present := true, slot := .domestic, method := .dhcp4
       gatewayOnLink := false, dnsServer := "", dnsServer2 := "" },
     { ifName := "dish0", key := "k-dish0", present := true, slot := .secondary, method := .dhcp4
       gatewayOnLink := false, dnsServer := "", dnsServer2 := "" }]
    (by decide) (by decide)

/-- Foreign traffic on that box, every table holding a default route. -/
theorem walk_isolated_foreign :
    pin (groupMark groupForeign) = 0 ∧
      Resolves (allRules defaultGroups lineAndDish.links (.ofSlots [0]))
        (fun _ => [{ dest := "default", oifName := "nasnet-wg0" }]) "8.8.8.8"
        (groupMark groupForeign) fun table plen =>
        table = tableMain ∧ 0 < plen ∨ TakenFrom lineAndDish (groupMark groupForeign) table :=
  ⟨by decide, walk_isolated _ _ _ _ _ (by decide)⟩

/-! ## Pinned marks -/

/-- The pin of the WAN a tunnel rides. With no WAN dealt, slot one's pin. -/
def transportMark (up : Uplink) : Word :=
  if up.uplinkIndex = 0 then pinMark (uplinkIndexFor .secondary) else pinMark up.uplinkIndex

/-- The tables of the pin's own line: main by more than a default route, and the slot's table. -/
def OwnLine (mark : Word) (table plen : Nat) : Prop :=
  table = tableMain ∧ 0 < plen ∨
    ∃ slot : UplinkSlot, uplinkIndexFor slot = pin mark ∧ table = tableFor slot

/-- A block after the pins has a lookup for this group: the domestic group with a domestic line,
the foreign group with a pool, a slice with a pool and its line, and any other group with either a
pool or a domestic line. -/
def laterLookup (uplinks : List Uplink) (vpn : VPNRouteState) (g : Word) : Bool :=
  if g = groupDomestic then uplinks.any (·.slot.isDomestic)
  else if g = groupForeign then vpn.active
  else if secondarySlots.any fun slot => g == groupForeignVia (uplinkIndexFor slot) then
    vpn.active && uplinks.any fun u =>
      u.slot.isSecondary && g == groupForeignVia (uplinkIndexFor u.slot)
  else vpn.active || uplinks.any (·.slot.isDomestic)

/-- The pin's slot is held, or the walk finds nothing after the pins. -/
def PinHeld (us : Assigned) (vpn : VPNRouteState) (mark : Word) : Prop :=
  (∃ u ∈ us.links, u.uplinkIndex = pin mark) ∨ laterLookup us.links vpn (group mark) = false

section Pinned
variable {us : Assigned} {vpn : VPNRouteState} {mark : Word}

theorem laterLookup_domestic {u : Uplink} (hu : u ∈ us.links) (hd : u.slot.isDomestic = true)
    (h : group mark = groupDomestic) : laterLookup us.links vpn (group mark) = true := by
  rw [laterLookup, if_pos h]
  exact List.any_eq_true.mpr ⟨u, hu, hd⟩

theorem laterLookup_foreign (active : vpn.active = true) (h : group mark = groupForeign) :
    laterLookup us.links vpn (group mark) = true := by
  rw [laterLookup, if_neg (by rw [h]; decide), if_pos h, active]

variable {slot : UplinkSlot} {routes : Nat → List Route} {dst : String} {route : Route} {plen : Nat}

theorem laterLookup_via (hs : slot.isSecondary = true)
    (h : group mark = groupForeignVia (uplinkIndexFor slot)) :
    laterLookup us.links vpn (group mark) = true ↔
      vpn.active = true ∧ ∃ u ∈ us.links, u.slot = slot := by
  have other := groupForeignVia_ne slot
  have named : (secondarySlots.any fun s =>
      group mark == groupForeignVia (uplinkIndexFor s)) = true :=
    List.any_eq_true.mpr ⟨slot, mem_secondarySlots.mpr hs, by simp [h]⟩
  rw [laterLookup, if_neg (h ▸ other.2.1), if_neg (h ▸ other.1), if_pos named, Bool.and_eq_true,
    List.any_eq_true]
  refine and_congr_right fun _ => exists_congr fun u => and_congr_right fun _ => ?_
  rw [Bool.and_eq_true, beq_iff_eq, h]
  constructor
  · rintro ⟨-, same⟩
    exact (groupForeignVia_uplinkIndexFor_injective same).symm
  · rintro rfl
    exact ⟨hs, rfl⟩

theorem laterLookup_fallback (h : ¬ Terminated (group mark)) :
    laterLookup us.links vpn (group mark) =
      (vpn.active || us.links.any (·.slot.isDomestic)) := by
  have notVia : ¬ (secondarySlots.any fun s =>
      group mark == groupForeignVia (uplinkIndexFor s)) = true := by
    intro named
    obtain ⟨slot, hs, same⟩ := List.any_eq_true.mp named
    exact h (.inr (.inr ⟨slot, mem_secondarySlots.mp hs, by simpa using same⟩))
  rw [laterLookup, if_neg fun hd => h (.inr (.inl hd)), if_neg fun hf => h (.inl hf), if_neg notVia]

variable {r : Rule}

/-- A rule that answers ahead of the blackholes is on the pin's own line, or is a later block's
lookup for the group. -/
theorem ownLine_or_laterLookup (hr : r ∈ us.rules vpn)
    (answers : r.Answers routes dst mark route plen)
    (below : ∀ b ∈ us.rules vpn, b.applies mark = true →
      b.blackhole = true → r.pref ≤ b.pref) :
    OwnLine mark r.table plen ∨ 110 ≤ r.pref ∧ laterLookup us.links vpn (group mark) = true := by
  cases listed_of_mem hr with
  | oif named => exact absurd (oifName_eq_of_applies answers.applies) named
  | suppress =>
    exact .inl (.inl ⟨rfl, Nat.pos_of_ne_zero (by simpa [mainSuppressRule] using answers.kept)⟩)
  | @pin u k hu =>
    have pinned := pin_eq_of_applies answers.applies rfl rfl
      ((us.formed _ hu).uplinkIndex ▸ pin_pinMark_uplinkIndexFor _)
    refine .inl (.inr ⟨u.slot, ?_, (us.formed u hu).table⟩)
    rw [pinned, (us.formed u hu).uplinkIndex]
  | @domestic u k hu hg _ =>
    exact .inr ⟨Nat.le_add_right _ k, laterLookup_domestic hu (isDomestic_of_groupIndex hu hg)
      (group_eq_of_applies answers.applies rfl rfl (by decide))⟩
  | foreign active =>
    exact .inr ⟨by simp only; omega, laterLookup_foreign active
      (group_eq_of_applies answers.applies rfl rfl (by decide))⟩
  | @via u hu hs active =>
    exact .inr ⟨by simp only; omega, (laterLookup_via hs
      (group_eq_of_applies answers.applies rfl rfl (group_groupMark_via _))).mpr
        ⟨active, u, hu, rfl⟩⟩
  | fallbackPool k active =>
    refine .inr ⟨by simp only [rulePrefFallbackBase]; omega, ?_⟩
    rw [laterLookup_fallback (not_terminated_of_below (Nat.le_add_right _ k) below), active]
    rfl
  | @fallback u k hu hs =>
    refine .inr ⟨by simp only [rulePrefFallbackBase]; omega, ?_⟩
    rw [laterLookup_fallback (not_terminated_of_below (Nat.le_add_right _ k) below),
      Bool.or_eq_true]
    exact .inr (List.any_eq_true.mpr ⟨u, hu, isDomestic_of_not_isSecondary hu hs⟩)
  | pinEnd | domesticEnd | foreignEnd | viaEnd | fallbackEnd => cases answers.lookup

theorem resolves_of_pinHeld (h : PinHeld us vpn mark) (routes : Nat → List Route)
    (dst : String) :
    Resolves (us.rules vpn) routes dst mark (OwnLine mark) := by
  apply resolves_of_answers
  intro r hr route plen answers below
  rcases ownLine_or_laterLookup hr answers below with own | ⟨late, found⟩
  · exact own
  rcases h with ⟨u, hu, held⟩ | none
  · -- The pin's own terminator stands ahead of every later block.
    obtain ⟨k, hk, mem⟩ := @exists_pinEnd us vpn u hu
    have index := (us.formed u hu).uplinkIndex
    have stock : isStockRule (rulePrefPinBase + k * 2 + 1) = false :=
      isStockRule_eq_false (by omega) (by simp only [rulePrefPinBase]; omega)
    have le := below _ mem (applies_of_pin_eq rfl stock rfl rfl
      (index ▸ pin_pinMark_uplinkIndexFor _) held.symm) rfl
    simp only [rulePrefPinBase] at le
    omega
  · rw [none] at found
    cases found

/-! ### The other direction: a default route in every table

With every table answering the destination by a default route, the first applicable lookup after
the suppressor decides. -/

/-- A default route, and tables that all hold it. -/
def defaultRoute : Route := { dest := "default" }

def allDefault : Nat → List Route := fun _ => [defaultRoute]

theorem lookupTable_allDefault (table : Nat) :
    lookupTable (allDefault table) "8.8.8.8" = some (defaultRoute, 0) := by
  show lookupTable [defaultRoute] "8.8.8.8" = some (defaultRoute, 0)
  decide

theorem answers_allDefault (applies : r.applies mark = true)
    (lookup : r.blackhole = false) (set : r.suppressSet = false) :
    r.Answers allDefault "8.8.8.8" mark defaultRoute 0 :=
  ⟨applies, lookup, lookupTable_allDefault _, by rw [set]; rfl⟩

theorem terminator_cases (free : ¬ ∃ u ∈ us.links, u.uplinkIndex = pin mark) {b : Rule}
    (hb : b ∈ us.rules vpn) (applies : b.applies mark = true)
    (blackhole : b.blackhole = true) :
    (group mark = groupDomestic ∧ b.pref = 149) ∨ (group mark = groupForeign ∧ b.pref = 199) ∨
      (∃ slot : UplinkSlot, slot.isSecondary = true ∧
        group mark = groupForeignVia (uplinkIndexFor slot) ∧
        b.pref = 200 + 10 * (uplinkIndexFor slot - 2).toNat + 9) ∨
      b.pref = rulePrefFallbackBlackhole := by
  cases listed_of_mem hb with
  | oif named => exact absurd (oifName_eq_of_applies applies) named
  | @pinEnd u k hu =>
    have pinned := pin_eq_of_applies applies rfl rfl
      ((us.formed _ hu).uplinkIndex ▸ pin_pinMark_uplinkIndexFor _)
    exact absurd ⟨u, hu, pinned.symm⟩ free
  | domesticEnd => exact .inl ⟨group_eq_of_applies applies rfl rfl (by decide), rfl⟩
  | foreignEnd => exact .inr (.inl ⟨group_eq_of_applies applies rfl rfl (by decide), rfl⟩)
  | @viaEnd slot hs =>
    exact .inr (.inr (.inl ⟨slot, hs,
      group_eq_of_applies applies rfl rfl (group_groupMark_via _), rfl⟩))
  | fallbackEnd => exact .inr (.inr (.inr rfl))
  | suppress | pin | domestic | foreign | via | fallbackPool | fallback => cases blackhole

/-- The lookup a later block has for the group stands ahead of every terminator the mark meets. -/
theorem exists_later_answer (free : ¬ ∃ u ∈ us.links, u.uplinkIndex = pin mark)
    (found : laterLookup us.links vpn (group mark) = true) :
    ∃ r ∈ us.rules vpn,
      r.Answers allDefault "8.8.8.8" mark defaultRoute 0 ∧
      ∀ b ∈ us.rules vpn, b.applies mark = true → b.blackhole = true →
        r.pref < b.pref := by
  by_cases terminated : Terminated (group mark)
  · rcases terminated with hf | hd | ⟨slot, hs, hv⟩
    · rw [laterLookup, if_neg (by rw [hf]; decide), if_pos hf] at found
      refine ⟨_, foreign_mem found, answers_allDefault
        (applies_of_group_eq rfl rfl rfl rfl (by decide) hf) rfl rfl, ?_⟩
      intro b hb applies blackhole
      rcases terminator_cases free hb applies blackhole with
        ⟨hd, -⟩ | ⟨-, pref⟩ | ⟨_, _, _, pref⟩ | pref
      · exact absurd (hf.symm.trans hd) (by decide)
      all_goals simp only [pref, rulePrefFallbackBlackhole]; omega
    · rw [laterLookup, if_pos hd] at found
      obtain ⟨u, hu, domestic⟩ := List.any_eq_true.mp found
      obtain ⟨v, _, _, mem⟩ :=
        @exists_domestic_mem us vpn u hu (groupIndex_of_isDomestic hu domestic)
      refine ⟨_, mem, answers_allDefault
        (applies_of_group_eq rfl rfl rfl rfl (by decide) hd) rfl rfl, ?_⟩
      intro b hb applies blackhole
      rcases terminator_cases free hb applies blackhole with
        ⟨-, pref⟩ | ⟨-, pref⟩ | ⟨_, _, _, pref⟩ | pref
      all_goals simp only [pref, rulePrefFallbackBlackhole]; omega
    · obtain ⟨active, u, hu, rfl⟩ := (laterLookup_via hs hv).mp found
      refine ⟨_, via_mem hu hs active, answers_allDefault
        (applies_of_group_eq rfl (isStockRule_via hs 0 (by decide)) rfl rfl
          (group_groupMark_via _) hv) rfl rfl, ?_⟩
      intro b hb applies blackhole
      have le := via_index_le hs
      rcases terminator_cases free hb applies blackhole with
        ⟨hd, -⟩ | ⟨hf, -⟩ | ⟨slot, _, hv', pref⟩ | pref
      · exact absurd (hv.symm.trans hd) (groupForeignVia_ne _).2.1
      · exact absurd (hv.symm.trans hf) (groupForeignVia_ne _).1
      · rw [← groupForeignVia_uplinkIndexFor_injective (hv.symm.trans hv')] at pref
        simp only [pref]
        omega
      · simp only [pref, rulePrefFallbackBlackhole]
        omega
  · rw [laterLookup_fallback terminated, Bool.or_eq_true] at found
    have someLine : vpn.active = true ∨ ∃ u ∈ us.links, u.slot.isSecondary = false := by
      refine found.imp_right fun lines => ?_
      obtain ⟨u, hu, domestic⟩ := List.any_eq_true.mp lines
      exact ⟨u, hu, isSecondary_eq_false_of_isDomestic domestic⟩
    obtain ⟨table, mem⟩ := exists_fallback_mem someLine
    refine ⟨_, mem, answers_allDefault (applies_of_unmasked rfl rfl rfl) rfl rfl, ?_⟩
    intro b hb applies blackhole
    rcases terminator_cases free hb applies blackhole with
      ⟨hd, -⟩ | ⟨hf, -⟩ | ⟨slot, hs, hv, -⟩ | pref
    · exact absurd (.inr (.inl hd)) terminated
    · exact absurd (.inl hf) terminated
    · exact absurd (.inr (.inr ⟨slot, hs, hv⟩)) terminated
    · simp only [pref, rulePrefFallbackBlackhole, rulePrefFallbackBase]
      omega

theorem held_of_table (hr : r ∈ us.rules vpn)
    (answers : r.Answers routes dst mark route plen) (index : uplinkIndexFor slot = pin mark)
    (table : r.table = tableFor slot) : ∃ u ∈ us.links, u.uplinkIndex = pin mark := by
  have ofUplink : ∀ u ∈ us.links, u.table = tableFor slot →
      ∃ u ∈ us.links, u.uplinkIndex = pin mark := by
    intro u hu same
    rw [(us.formed u hu).table] at same
    exact ⟨u, hu, by rw [(us.formed u hu).uplinkIndex, tableFor_injective same, index]⟩
  cases listed_of_mem hr with
  | oif named => exact absurd (oifName_eq_of_applies answers.applies) named
  | suppress => exact absurd table (tableMain_ne_tableFor slot)
  | pin _ hu | domestic hu _ _ | fallback _ hu _ => exact ofUplink _ hu table
  | foreign | fallbackPool => exact absurd table (wgTable_ne_tableFor slot)
  | via _ hs _ => exact absurd table (vpnViaTableFor_ne_tableFor hs)
  | pinEnd | domesticEnd | foreignEnd | viaEnd | fallbackEnd => cases answers.lookup

theorem pinHeld_of_resolves (h : Resolves (us.rules vpn) allDefault
    "8.8.8.8" mark (OwnLine mark)) : PinHeld us vpn mark := by
  by_cases held : ∃ u ∈ us.links, u.uplinkIndex = pin mark
  · exact .inl held
  refine .inr (Bool.eq_false_iff.mpr fun found => ?_)
  obtain ⟨r, hr, answers, first⟩ := exists_later_answer held found
  obtain ⟨a, ha, route, plen, answers, own⟩ := exists_answer_of_resolves h hr answers first
  have length : plen = 0 := by
    have := answers.found
    exact (Prod.mk.inj (Option.some.inj this)).2.symm
  rcases own with ⟨-, pos⟩ | ⟨slot, index, table⟩
  · omega
  · exact held (held_of_table ha answers index table)

/-- **A pinned flow stays on its line exactly when its pin is held.** For every mark, whatever its
pin and group fields, over every table content and destination. -/
theorem pinned_resolves_iff (us : Assigned) (vpn : VPNRouteState) (mark : Word) :
    (∀ (routes : Nat → List Route) (dst : String),
      Resolves (allRules defaultGroups us.links vpn) routes dst mark (OwnLine mark)) ↔
    PinHeld us vpn mark :=
  ⟨fun h => pinHeld_of_resolves (h allDefault "8.8.8.8"), resolves_of_pinHeld⟩

end Pinned

def lineOnly : Assigned :=
  .ofRows
    [{ ifName := "eth0", key := "k-eth0", present := true, slot := .domestic, method := .dhcp4
       gatewayOnLink := false, dnsServer := "", dnsServer2 := "" }]
    (by decide) (by decide)

/-- The Go zero value, which `transportMark` gets when no WAN is dealt. -/
def noWAN : Uplink :=
  { ifName := "", key := "", table := 0, uplinkIndex := 0, slot := .none, groupIndex := 0
    dnsServer2 := "", gatewayOnLink := false, dnsServer := "" }

def domesticDefault : Nat → List Route := fun table =>
  if table = 201 then [{ dest := "default", gateway := "192.0.2.1", oifName := "eth0" }] else []

/-- **The transport mark of a tunnel with no WAN dealt takes the domestic line.** It carries the
dish's pin, nobody holds that slot, so no pin rule stops it and the fallback answers. -/
theorem transportMark_falls_through :
    pin (transportMark noWAN) = 2 ∧
      (walkPolicy (allRules defaultGroups lineOnly.links (.ofSlots [])) domesticDefault "8.8.8.8"
        (transportMark noWAN)).2 =
        (some { dest := "default", gateway := "192.0.2.1", oifName := "eth0" },
         some { pref := 32000, table := 201 }) ∧
      ¬ Resolves (allRules defaultGroups lineOnly.links (.ofSlots [])) domesticDefault "8.8.8.8"
        (transportMark noWAN) (OwnLine (transportMark noWAN)) := by
  have walk : (walkPolicy (allRules defaultGroups lineOnly.links (.ofSlots [])) domesticDefault
      "8.8.8.8" (transportMark noWAN)).2 =
      (some { dest := "default", gateway := "192.0.2.1", oifName := "eth0" },
       some { pref := 32000, table := 201 }) := by decide
  refine ⟨by decide, walk, ?_⟩
  rintro (⟨step, rule, hw, -⟩ | ⟨step, route, r, plen, hw, -, own⟩)
  · rw [hw] at walk
    cases walk
  rw [hw] at walk
  cases walk
  rcases own with ⟨main, -⟩ | ⟨slot, index, table⟩
  · exact absurd main (by decide)
  · cases slot <;> first | exact absurd table (by decide) | exact absurd index (by decide)

end NasnetPanel.Network
