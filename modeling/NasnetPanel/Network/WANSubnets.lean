import NasnetPanel.Network.Roles

/-!
# Network.WANSubnets — the static networks of the uplinks

A row keeps its static address while it holds no role. Whether the networks of the static uplinks
stay apart from one another and from the LAN is a question about runs: requests that assign, clear,
evict and change settings, and edits of the LAN row, in any order.

The overlap rule of `Validate` looks at the settings a request carries. A request that carries none
is a role assignment only and skips it, and the address its row kept may meanwhile be another
uplink's: `wans_overlap` is such a run. `subnets_stay_apart` is what holds: when every request that
makes a row with a stored static address an uplink carries settings, the networks stay apart. The
LAN is held against the rows on every request, so it needs no condition.
-/

namespace NasnetPanel.Domain
open Network Netip Option ChangeRequest

/-! ## What a request makes of an address -/

section Settle
variable {req : ChangeRequest} {r : NetworkInterface}

theorem settle_kept (h : req.wanChange r = none) :
    (req.settle r).method = r.method ∧ (req.settle r).staticAddress = r.staticAddress := by
  unfold settle
  rw [h]
  dsimp only
  split <;> exact ⟨rfl, rfl⟩

theorem settle_set {cfg : WANConfig} (h : req.wanChange r = some cfg) :
    (req.settle r).method = cfg.method ∧
      (req.settle r).staticAddress =
        if cfg.method = methodStatic then cfg.staticAddress else "" := by
  unfold settle
  rw [h]
  simp [NetworkInterface.setWAN]

theorem after_propose {inp : ValidationInput} {target : NetworkInterface}
    (id : target.id = inp.req.interfaceID) (ids : ∀ r ∈ inp.rows, r.id = target.id → r = target)
    (hr : r ∈ inp.rows) :
    (inp.propose target r).role = (inp.req.after r).role ∧
      (inp.propose target r).staticAddress = (inp.req.after r).staticAddress := by
  by_cases here : r.id = target.id
  · obtain rfl := ids r hr here
    have carries := @wanChange_isSome r (inp.req.evict r) inp.req
    unfold ValidationInput.propose after
    rw [if_pos rfl, if_pos id]
    cases change : inp.req.wanChange r with
    | none =>
      rw [change, isSome_none, eq_comm, isSome_eq_false_iff, isNone_iff_eq_none] at carries
      simp [(settle_kept carries).2]
    | some cfg =>
      rw [change, isSome_some, eq_comm] at carries
      obtain ⟨cfg', change'⟩ := isSome_iff_exists.mp carries
      obtain ⟨method, address⟩ := wanChange_address change change'
      simp [(settle_set change').2, NetworkInterface.setWAN, method, address]
  · unfold ValidationInput.propose after
    rw [if_neg here, if_neg (id ▸ here)]
    exact ⟨rfl, rfl⟩

end Settle

/-! ## Networks that stay apart -/

def StaticWAN (r : NetworkInterface) : Prop := r.role = roleWAN ∧ r.method = methodStatic

instance (r : NetworkInterface) : Decidable (StaticWAN r) := inferInstanceAs (Decidable (_ ∧ _))

/-- The static networks of two uplinks share no address, nor do those of an uplink and the LAN. -/
structure SubnetsApart (t : Interfaces) (lan : LANConfig) : Prop where
  wans : ∀ r ∈ t.rows, ∀ s ∈ t.rows, r.id ≠ s.id → StaticWAN r → StaticWAN s →
    Disjoint (subnet r.staticAddress) (subnet s.staticAddress)
  lan : ∀ r ∈ t.rows, StaticWAN r → Disjoint (subnet lan.cidr) (subnet r.staticAddress)

structure SubnetState where
  table : Interfaces
  lan : LANConfig

inductive SubnetLabel where
  /-- A request comes in. -/
  | change (env : Env) (req : ChangeRequest)
  /-- `UpdateLAN`, with the order in which the runtime takes the DHCP bounds. -/
  | editLAN (endFirst : Bool) (lan : LANConfig)

/-- One applied request or one applied edit of the LAN. -/
def subnetStep (s : SubnetState) : SubnetLabel → Option SubnetState
  | .change env req => (s.table.apply env (some s.lan) req).map fun t => { s with table := t }
  | .editLAN endFirst lan =>
    if rejected (validateLANConfig endFirst lan s.table.rows defaultMgmtCIDR) then none
    else some { s with lan := lan }

/-- A request that makes a row with a stored static address an uplink carries settings. -/
def CarriesSettings (s : SubnetState) : SubnetLabel → Prop
  | .change _ req => ∀ r ∈ s.table.rows, r.id = req.interfaceID → req.role = roleWAN →
      r.role ≠ roleWAN → r.method = methodStatic → (req.wanChange r).isSome = true
  | .editLAN _ _ => True

section Apart
variable {t t' : Interfaces} {inp : ValidationInput} {target : NetworkInterface}
  (rows : inp.rows = t.rows) (accepted : Accepted inp target)
  (carries : inp.req.role = roleWAN → target.role ≠ roleWAN → target.method = methodStatic →
    (inp.req.wanChange target).isSome = true)
include rows accepted carries

theorem target_apart
    (apart : ∀ s ∈ t.rows, target.id ≠ s.id → StaticWAN target → StaticWAN s →
      Disjoint (subnet target.staticAddress) (subnet s.staticAddress))
    (static : StaticWAN (inp.req.after target)) {s : NetworkInterface} (hs : s ∈ t.rows)
    (other : s.id ≠ target.id) (same : inp.req.after s = s) (staticS : StaticWAN s) :
    Disjoint (subnet (inp.req.after target).staticAddress) (subnet s.staticAddress) := by
  have settled : inp.req.after target = inp.req.settle (inp.req.evict target) := if_pos accepted.id
  have isSome := @wanChange_isSome target (inp.req.evict target) inp.req
  rw [settled] at static ⊢
  cases change : inp.req.wanChange (inp.req.evict target) with
  | none =>
    -- a role assignment only: the row was an uplink with this address already
    obtain ⟨method, address⟩ := settle_kept change
    rw [change, isSome_none] at isSome
    have staticT : target.method = methodStatic := by simpa [method] using static.2
    have wasWAN : target.role = roleWAN := by
      by_contra wasNot
      have := carries (by simpa using static.1) wasNot staticT
      rw [isSome] at this
      cases this
    rw [address, evict_staticAddress]
    exact apart s hs (Ne.symm other) ⟨wasWAN, staticT⟩ staticS
  | some cfg =>
    -- the overlap rule compared these settings with this row
    rw [change, isSome_some] at isSome
    obtain ⟨cfg', change'⟩ := isSome_iff_exists.mp isSome
    obtain ⟨method, address⟩ := wanChange_address change change'
    obtain ⟨methodT, addressT⟩ := settle_set change
    have fixed : cfg.method = methodStatic := methodT.symm.trans static.2
    rw [addressT, if_pos fixed, address]
    apply disjoint_of_not_overlaps
    have proposed : inp.propose target s = s := by
      have stays : inp.req.evict s = s := by rwa [after, if_neg (accepted.id ▸ other)] at same
      rw [ValidationInput.propose, if_neg other, stays]
    apply accepted.apart cfg' change' (method ▸ fixed) s _ other staticS.1 staticS.2
    rw [← proposed]
    exact List.mem_map_of_mem (rows ▸ hs)

/-- **A request that meets the rules, and the condition, keeps the networks apart.** -/
theorem subnetsApart_assign {lan : LANConfig} (lanRow : inp.lan = some lan)
    (wans : ∀ r ∈ t.rows, ∀ s ∈ t.rows, r.id ≠ s.id → StaticWAN r → StaticWAN s →
      Disjoint (subnet r.staticAddress) (subnet s.staticAddress))
    (h : t.assign inp.req = some t') : SubnetsApart t' lan := by
  have hTarget : target ∈ t.rows := rows ▸ accepted.found
  have written : ∀ r' ∈ t'.rows, ∃ r ∈ t.rows, inp.req.after r = r' := by
    intro r' h'
    rw [assign_eq h] at h'
    exact List.mem_map.mp h'
  -- a static uplink after the request is the target, or is as it was
  have known : ∀ r ∈ t.rows, StaticWAN (inp.req.after r) →
      r = target ∨ (r.id ≠ target.id ∧ inp.req.after r = r) := by
    intro r hr static
    rcases after_cases inp.req r with ⟨id, _⟩ | ⟨_, _, gone, _⟩ | ⟨other, _, same⟩
    · exact .inl (t.eq_of_id hr hTarget (id.trans accepted.id.symm))
    · exact absurd (gone.symm.trans static.1) (by decide)
    · exact .inr ⟨accepted.id ▸ other, same⟩
  constructor
  · intro r' hr' s' hs' other staticR staticS
    obtain ⟨r, hr, rfl⟩ := written r' hr'
    obtain ⟨s, hs, rfl⟩ := written s' hs'
    rw [after_id, after_id] at other
    rcases known r hr staticR with rfl | ⟨otherR, sameR⟩
    · rcases known s hs staticS with rfl | ⟨otherS, sameS⟩
      · exact absurd rfl other
      · rw [sameS] at staticS ⊢
        exact target_apart rows accepted carries (wans r hr) staticR hs otherS sameS staticS
    · rw [sameR] at staticR ⊢
      rcases known s hs staticS with rfl | ⟨_, sameS⟩
      · exact (target_apart rows accepted carries (wans s hs) staticS hr otherR sameR staticR).symm
      · rw [sameS] at staticS ⊢
        exact wans r hr s hs other staticR staticS
  · intro r' hr' static
    obtain ⟨r, hr, rfl⟩ := written r' hr'
    have ids : ∀ q ∈ inp.rows, q.id = target.id → q = target := by
      intro q hq id
      exact t.eq_of_id (rows ▸ hq) hTarget id
    obtain ⟨role, address⟩ := after_propose accepted.id ids (rows.symm ▸ hr)
    rw [← address]
    apply disjoint_of_not_overlaps
    apply accepted.lan lan lanRow _ (List.mem_map_of_mem (rows.symm ▸ hr))
    rw [role]
    exact static.1

end Apart

/-- One call keeps the subnets of the WANs and the LAN apart. -/
theorem subnetsApart_step (s : SubnetState) (a : SubnetLabel) (s' : SubnetState)
    (inv : SubnetsApart s.table s.lan) (carries : CarriesSettings s a)
    (h : subnetStep s a = some s') : SubnetsApart s'.table s'.lan := by
  cases a with
  | change env req =>
    obtain ⟨t, applied, rfl⟩ := map_eq_some_iff.mp h
    obtain ⟨clear, assigned⟩ := apply_some applied
    obtain ⟨target, accepted⟩ := accepted_of_not_rejected clear
    exact subnetsApart_assign rfl accepted (carries target accepted.found accepted.id) rfl
      inv.wans assigned
  | editLAN endFirst lan =>
    obtain ⟨clear, rfl⟩ := Runs.of_unless h
    refine ⟨inv.wans, ?_⟩
    intro r hr static
    apply disjoint_of_not_overlaps
    exact overlaps_eq_false_of_lan (Bool.eq_false_of_not_eq_true clear) hr static.1

/-- **The static networks of the uplinks stay apart, from one another and from the LAN**, over every
run from a table without uplinks in which a request that makes a row with a stored static address
an uplink carries settings. -/
theorem subnets_stay_apart (t : Interfaces) (lan : LANConfig) (labels : List SubnetLabel)
    (s : SubnetState) (start : ∀ r ∈ t.rows, r.role ≠ roleWAN)
    (carries : Runs.Along subnetStep CarriesSettings { table := t, lan := lan } labels)
    (h : Runs.run subnetStep { table := t, lan := lan } labels = some s) :
    SubnetsApart s.table s.lan := by
  have apart : SubnetsApart t lan := by
    constructor
    · intro r hr _ _ _ static _
      exact absurd static.1 (start r hr)
    · intro r hr static
      exact absurd static.1 (start r hr)
  exact @Runs.run_inv_along _ _ _ _ (fun s : SubnetState => SubnetsApart s.table s.lan)
    subnetsApart_step _ _ _ apart carries h

def threePorts : Interfaces where
  rows := [{ id := 1, ifName := "eth0", source := "eth_pci" },
           { id := 2, ifName := "eth1", source := "eth_pci" },
           { id := 3, ifName := "eth2", source := "eth_pci" }]
  ids := by decide

def assignStatic (id : Nat) (slot : UplinkSlot) (address gateway : String) : SubnetLabel :=
  .change wiredEnv
    { interfaceID := id, role := roleWAN, slot := .known slot
      wan := some { method := methodStatic, staticAddress := address, staticGateway := gateway } }

/-- An assignment of an uplink that says nothing about its address. -/
def roleOnly (id : Nat) (slot : UplinkSlot) : SubnetLabel :=
  .change wiredEnv { interfaceID := id, role := roleWAN, slot := .known slot }

def clearRole (id : Nat) : SubnetLabel :=
  .change wiredEnv { interfaceID := id, role := roleUnassigned }

def carriesSettings (s : SubnetState) : SubnetLabel → Bool
  | .change _ req => s.table.rows.all fun r => !(r.id == req.interfaceID && req.role == roleWAN &&
      r.role != roleWAN && r.method == methodStatic) || (req.wanChange r).isSome
  | .editLAN _ _ => true

theorem carriesSettings_of_check {s : SubnetState} {a : SubnetLabel}
    (h : carriesSettings s a = true) : CarriesSettings s a := by
  cases a with
  | change env req =>
    intro r hr id role wasNot method
    have here := List.all_eq_true.mp h r hr
    simpa [id, role, wasNot, method] using here
  | editLAN endFirst lan => trivial

/-- Two uplinks on networks of their own, one of them cleared and assigned again, and a LAN moved
beside them. -/
def apartRun : List SubnetLabel :=
  [roleOnly 3 .secondary, assignStatic 1 .domestic "10.0.0.2/24" "10.0.0.1", clearRole 1,
    assignStatic 2 .domestic "10.0.0.3/24" "10.0.0.1",
    assignStatic 1 .domestic2 "10.0.1.2/24" "10.0.1.1", .editLAN true { cidr := "10.0.2.1/24" }]

theorem subnets_stay_apart_apartRun :
    ∃ s, Runs.run subnetStep { table := threePorts, lan := defaultLANConfig } apartRun = some s ∧
      SubnetsApart s.table s.lan := by
  have runs : (Runs.runChecked subnetStep carriesSettings
      { table := threePorts, lan := defaultLANConfig } apartRun).isSome = true := by decide +kernel
  obtain ⟨s, ran⟩ := isSome_iff_exists.mp runs
  obtain ⟨reached, along⟩ := Runs.of_runChecked ran
  refine ⟨s, reached, subnets_stay_apart threePorts _ apartRun s (by decide) ?_ reached⟩
  exact along.mono fun _ _ => carriesSettings_of_check

/-- `eth0` is cleared, `eth1` gets a static address of the same network, and `eth0` becomes an
uplink again without a word about its address. -/
def overlapRun : List SubnetLabel :=
  [roleOnly 3 .secondary, assignStatic 1 .domestic "10.0.0.2/24" "10.0.0.1", clearRole 1,
    assignStatic 2 .domestic "10.0.0.3/24" "10.0.0.1", roleOnly 1 .domestic2]

/-- **Five accepted requests put two uplinks on one network.** -/
theorem wans_overlap :
    (∀ r ∈ threePorts.rows, r.role ≠ roleWAN) ∧
    ∃ s, Runs.run subnetStep { table := threePorts, lan := defaultLANConfig } overlapRun = some s ∧
      ∃ r ∈ s.table.rows, ∃ q ∈ s.table.rows, r.id ≠ q.id ∧ StaticWAN r ∧ StaticWAN q ∧
        ¬ Disjoint (subnet r.staticAddress) (subnet q.staticAddress) := by
  have outcome : (Runs.run subnetStep { table := threePorts, lan := defaultLANConfig }
      overlapRun).map (fun s => decide (∃ r ∈ s.table.rows, ∃ q ∈ s.table.rows, r.id ≠ q.id ∧
        StaticWAN r ∧ StaticWAN q ∧ overlaps r.staticAddress q.staticAddress = true)) =
      some true := by
    decide +kernel
  obtain ⟨s, reached, found⟩ := map_eq_some_iff.mp outcome
  obtain ⟨r, hr, q, hq, other, staticR, staticQ, meet⟩ := of_decide_eq_true found
  refine ⟨by decide, s, reached, r, hr, q, hq, other, staticR, staticQ, ?_⟩
  rw [Set.not_disjoint_iff_nonempty_inter]
  exact overlaps_iff.mp meet

end NasnetPanel.Domain
