import NasnetPanel.Lib.Runs
import NasnetPanel.Network.Validate

/-!
# Network.Roles — assigning roles, and taking an assignment back

`apply` is `Apply` as far as the table goes: the findings of `Validate` decide, then the transaction
of `buildPlan` evicts one row and writes another. The settings of every row are captured first
(`CaptureInterfaceIntent`), and a plan that is not confirmed puts them back
(`RestoreInterfaceIntent`).

The rules look at the rows before the change. `assign_eq` and `proposed_like` say what the
transaction makes of each row, and that the rules judged that; `roleInv_step` carries the shape
of the table through one request or rollback and `roles_stay_wellFormed` through any number. The
count of uplinks is a different matter: V16 counts the evicted row, so an accepted request may evict
the last one (`uplink_remains`).
-/

namespace NasnetPanel.Domain
open Network Netip List

/-! ## Writing the table -/

namespace Interfaces

/-- Write some columns of every row, never the id. -/
def update (t : Interfaces) (f : NetworkInterface → NetworkInterface)
    (keeps : ∀ r, (f r).id = r.id) : Interfaces where
  rows := t.rows.map f
  ids := by
    have same : (t.rows.map f).map (·.id) = t.rows.map (·.id) := by simp [keeps]
    rw [same]
    exact t.ids

/-- `SetRoleTx`. -/
def setRole (t : Interfaces) (id : Nat) (role : RoleTag) (slot : SlotTag) : Interfaces :=
  t.update (fun r => if r.id = id then { r with role := role, slot := slot } else r)
    (by intro r; split <;> rfl)

def saveWANIntent (t : Interfaces) (row : NetworkInterface) : Interfaces :=
  t.update (fun r => if r.id = row.id then
      { r with
        method := row.method, staticAddress := row.staticAddress
        staticGateway := row.staticGateway, gatewayOnLink := row.gatewayOnLink
        dnsServer := row.dnsServer, dnsServer2 := row.dnsServer2
        dnsDomains := row.dnsDomains, learnedGateway := row.learnedGateway } else r)
    (by intro r; split <;> rfl)

end Interfaces

/-- The target's row with its role, its slot and its settings. -/
def ChangeRequest.settle (req : ChangeRequest) (r : NetworkInterface) : NetworkInterface :=
  let row := { r with role := req.role, slot := req.slot }
  match req.wanChange r with
  | some cfg => row.setWAN cfg
  | none =>
    if req.role = roleWAN ∧ req.slot.holds UplinkSlot.isSecondary = true then
      { row with dnsServer := "", dnsServer2 := "", dnsDomains := "" }
    else row

open ChangeRequest

def Interfaces.evicted (t : Interfaces) (req : ChangeRequest) : Interfaces :=
  match req.evictID with
  | some id => t.setRole id roleUnassigned slotNone
  | none => t

open Interfaces

/-- The transaction of `buildPlan`. It fails when the target has no row. -/
def Interfaces.assign (t : Interfaces) (req : ChangeRequest) : Option Interfaces :=
  let t := t.evicted req
  (t.rows.find? (·.id == req.interfaceID)).map fun row =>
    (t.setRole req.interfaceID req.role req.slot).saveWANIntent (req.settle row)

/-- What the transaction makes of each row. -/
def ChangeRequest.after (req : ChangeRequest) (r : NetworkInterface) : NetworkInterface :=
  if r.id = req.interfaceID then req.settle (req.evict r) else req.evict r

section Assign
variable {t t' : Interfaces} {req : ChangeRequest} {r : NetworkInterface}

theorem settle_eq (req : ChangeRequest) (r : NetworkInterface) : req.settle r =
    { r with
      role := req.role, slot := req.slot
      method := (req.settle r).method, staticAddress := (req.settle r).staticAddress
      staticGateway := (req.settle r).staticGateway, gatewayOnLink := (req.settle r).gatewayOnLink
      dnsServer := (req.settle r).dnsServer, dnsServer2 := (req.settle r).dnsServer2
      dnsDomains := (req.settle r).dnsDomains,
      learnedGateway := (req.settle r).learnedGateway } := by
  unfold settle
  split
  · rfl
  · split <;> rfl

@[simp] theorem settle_id : (req.settle r).id = r.id := by rw [settle_eq]
@[simp] theorem settle_role : (req.settle r).role = req.role := by rw [settle_eq]
@[simp] theorem settle_slot : (req.settle r).slot = req.slot := by rw [settle_eq]
@[simp] theorem settle_phyName : (req.settle r).phyName = r.phyName := by rw [settle_eq]
@[simp] theorem settle_present : (req.settle r).present = r.present := by rw [settle_eq]

@[simp] theorem after_id : (req.after r).id = r.id := by
  unfold ChangeRequest.after
  split <;> simp

@[simp] theorem after_phyName : (req.after r).phyName = r.phyName := by
  unfold ChangeRequest.after
  split <;> simp

@[simp] theorem after_present : (req.after r).present = r.present := by
  unfold ChangeRequest.after
  split <;> simp

theorem evicted_rows : (t.evicted req).rows = t.rows.map req.evict := by
  unfold evicted
  cases evictee : req.evictID with
  | some id =>
    apply map_congr_left
    intro r _
    simp only [evict, evictee, Option.some.injEq, eq_comm]
  | none =>
    have same : req.evict = fun r => r := by
      funext r
      simp [evict, evictee]
    simp [same]

/-- **The transaction writes each row on its own.** -/
theorem assign_eq (h : t.assign req = some t') : t'.rows = t.rows.map req.after := by
  obtain ⟨row, found, rfl⟩ := Option.map_eq_some_iff.mp h
  have mem := mem_of_find?_eq_some found
  have id : row.id = req.interfaceID := by simpa using find?_some found
  rw [evicted_rows] at mem
  obtain ⟨target, hTarget, rfl⟩ := mem_map.mp mem
  change (((t.evicted req).rows.map _).map _) = _
  rw [evicted_rows, map_map, map_map]
  apply map_congr_left
  intro r hr
  by_cases here : r.id = req.interfaceID
  · -- the ids are the key, so this is the row that was read
    have same : r = target := t.eq_of_id hr hTarget (by rw [here, ← id, evict_id])
    subst same
    rw [ChangeRequest.after, if_pos here, settle_eq]
    simp [here]
  · rw [evict_id] at id
    simp [here, id, ChangeRequest.after]

/-- Who a row belongs to after the request: the target has what was asked for, the evicted row has
nothing, every other row what it had. -/
theorem after_cases (req : ChangeRequest) (r : NetworkInterface) :
    (r.id = req.interfaceID ∧ (req.after r).role = req.role ∧ (req.after r).slot = req.slot) ∨
    (r.id ≠ req.interfaceID ∧ req.evictID = some r.id ∧ (req.after r).role = roleUnassigned ∧
      (req.after r).slot = slotNone) ∨
    (r.id ≠ req.interfaceID ∧ req.evictID ≠ some r.id ∧ req.after r = r) := by
  unfold ChangeRequest.after
  by_cases target : r.id = req.interfaceID
  · simp [target]
  by_cases evicted : req.evictID = some r.id
  · simp [target, evicted, evict]
  · simp [target, evicted, evict]

end Assign

/-! ## The request against the table -/

def defaultMgmtCIDR : String := "192.168.99.1/24"

/-- What a validation reads besides the table and the LAN row. -/
structure Env where
  liveAddresses : String → List String
  hostapdInstalled : Bool
  iwdInstalled : Bool
  radioSupportsAP : String → Bool
  radioSupportsSTA : String → Bool
  countryCode : String
  endFirst : Bool

/-- `validationInput`. No caller names the interface of the admin's session. -/
def validationInput (env : Env) (t : Interfaces) (lan : Option LANConfig) (req : ChangeRequest) :
    ValidationInput where
  liveAddresses := env.liveAddresses
  rows := t.rows
  req := req
  lan := lan
  mgmtCIDR := defaultMgmtCIDR
  peerIfName := ""
  hostapdInstalled := env.hostapdInstalled
  iwdInstalled := env.iwdInstalled
  radioSupportsAP := env.radioSupportsAP
  radioSupportsSTA := env.radioSupportsSTA
  countryCode := env.countryCode
  endFirst := env.endFirst

def stops (req : ChangeRequest) (v : Verdict) : Bool :=
  v.level == .reject || (v.level == .confirm && !req.confirmed)

/-- `Apply`, as far as the table goes. -/
def Interfaces.apply (t : Interfaces) (env : Env) (lan : Option LANConfig) (req : ChangeRequest) :
    Option Interfaces :=
  if (validationInput env t lan req).validate.any (stops req) then none else t.assign req

theorem apply_some {t t' : Interfaces} {env : Env} {lan : Option LANConfig} {req : ChangeRequest}
    (h : t.apply env lan req = some t') :
    rejected (validationInput env t lan req).validate = false ∧ t.assign req = some t' := by
  unfold apply at h
  split at h
  · cases h
  next clear =>
    refine ⟨?_, h⟩
    by_contra refused
    apply clear
    obtain ⟨v, mem, level⟩ := any_eq_true.mp (Bool.eq_true_of_not_eq_false refused)
    exact any_eq_true.mpr ⟨v, mem, by rw [stops, level]; rfl⟩

/-! ## The shape of the table -/

/-- No two rows hold one slot, one LAN and one management port at most, a slot exactly for an
uplink, and no radio that is an access point and something else. -/
structure WellFormed (t : Interfaces) : Prop where
  slots : ∀ r ∈ t.rows, ∀ s ∈ t.rows, r.slot ≠ slotNone → r.slot = s.slot → r = s
  lan : ∀ r ∈ t.rows, ∀ s ∈ t.rows, r.role = roleLAN → s.role = roleLAN → r = s
  mgmt : ∀ r ∈ t.rows, ∀ s ∈ t.rows, r.role = roleMgmt → s.role = roleMgmt → r = s
  slotted : ∀ r ∈ t.rows, r.role = roleWAN ↔ r.slot ≠ slotNone
  radios : ∀ r ∈ t.rows, ∀ s ∈ t.rows, r.phyName ≠ "" → r.phyName = s.phyName →
    apRole r.role = true → s.role ≠ roleUnassigned → apRole s.role = true

section Shape
variable {t t' : Interfaces} {inp : ValidationInput} {target : NetworkInterface}
  {r s : NetworkInterface}

/-- What has one holder has one holder after the request: whoever held what is asked for was
named. -/
theorem one_after {κ : Type} (k : RoleTag → SlotTag → κ) {P : κ → Prop}
    (free : ¬ P (k roleUnassigned slotNone))
    (named : ∀ q ∈ inp.rows, q.id ≠ inp.req.interfaceID → P (k q.role q.slot) →
      k q.role q.slot = k inp.req.role inp.req.slot → inp.req.evictID = some q.id)
    (one : ∀ r ∈ inp.rows, ∀ s ∈ inp.rows, P (k r.role r.slot) →
      k r.role r.slot = k s.role s.slot → r = s)
    (newR : r ∈ inp.rows.map inp.req.after) (newS : s ∈ inp.rows.map inp.req.after)
    (holds : P (k r.role r.slot)) (same : k r.role r.slot = k s.role s.slot) : r.id = s.id := by
  obtain ⟨r, hr, rfl⟩ := mem_map.mp newR
  obtain ⟨s, hs, rfl⟩ := mem_map.mp newS
  rw [after_id, after_id]
  rcases after_cases inp.req r with
    ⟨idR, roleR, slotR⟩ | ⟨_, _, role, slot⟩ | ⟨otherR, staysR, sameR⟩
  · rcases after_cases inp.req s with ⟨idS, _, _⟩ | ⟨_, _, role, slot⟩ | ⟨otherS, staysS, sameS⟩
    · rw [idR, idS]
    · rw [same, role, slot] at holds
      exact absurd holds free
    · rw [same, sameS] at holds
      rw [roleR, slotR, sameS] at same
      exact absurd (named s hs otherS holds same.symm) staysS
  · rw [role, slot] at holds
    exact absurd holds free
  · rw [sameR] at holds same
    rcases after_cases inp.req s with ⟨_, roleS, slotS⟩ | ⟨_, _, role, slot⟩ | ⟨_, _, sameS⟩
    · rw [roleS, slotS] at same
      exact absurd (named r hr otherR holds same) staysR
    · rw [same, role, slot] at holds
      exact absurd holds free
    · rw [sameS] at same
      rw [one r hr s hs holds same]

variable (accepted : Accepted inp target)
include accepted

theorem singleton_after {role : RoleTag} (single : role.holds InterfaceRole.isSingleton = true)
    (held : role ≠ roleUnassigned)
    (wf : ∀ r ∈ inp.rows, ∀ s ∈ inp.rows, r.role = role → s.role = role → r = s)
    (hr : r ∈ inp.rows.map inp.req.after) (hs : s ∈ inp.rows.map inp.req.after)
    (roleR : r.role = role) (roleS : s.role = role) : r.id = s.id := by
  refine one_after (fun role _ => role) (P := (· = role)) held.symm ?_ ?_ hr hs roleR
    (roleR.trans roleS.symm)
  · intro q hq other holds asked
    exact accepted.singleton (asked ▸ holds ▸ single) q hq asked (accepted.id ▸ other)
  · intro r hr s hs holds same
    exact wf r hr s hs holds (same ▸ holds)

theorem slot_after
    (slots : ∀ r ∈ inp.rows, ∀ s ∈ inp.rows, r.slot ≠ slotNone → r.slot = s.slot → r = s)
    (slotted : ∀ r ∈ inp.rows, r.role = roleWAN ↔ r.slot ≠ slotNone)
    (hr : r ∈ inp.rows.map inp.req.after) (hs : s ∈ inp.rows.map inp.req.after)
    (held : r.slot ≠ slotNone) (same : r.slot = s.slot) : r.id = s.id := by
  refine one_after (fun _ slot => slot) (P := (· ≠ slotNone))
    (not_not_intro rfl) ?_ slots hr hs held
    same
  intro q hq other holds asked
  have wan : inp.req.role = roleWAN := accepted.slot.mpr (asked ▸ holds)
  exact accepted.slotFree wan q hq (accepted.id ▸ other) ((slotted q hq).mpr holds) asked

theorem radio_after (ids : ∀ r ∈ inp.rows, r.id = target.id → r = target)
    (radios : ∀ r ∈ inp.rows, ∀ s ∈ inp.rows, r.phyName ≠ "" → r.phyName = s.phyName →
      apRole r.role = true → s.role ≠ roleUnassigned → apRole s.role = true)
    (hr : r ∈ inp.rows) (hs : s ∈ inp.rows) (phy : r.phyName ≠ "")
    (same : r.phyName = s.phyName) (ap : apRole (inp.req.after r).role = true)
    (assigned : (inp.req.after s).role ≠ roleUnassigned) :
    apRole (inp.req.after s).role = true := by
  rcases after_cases inp.req r with ⟨idR, askedR, _⟩ | ⟨_, _, gone, _⟩ | ⟨otherR, _, sameR⟩
  · obtain rfl := ids r hr (idR.trans accepted.id.symm)
    rw [askedR] at ap
    have asked : inp.req.role ≠ roleUnassigned := by
      rintro none
      rw [none] at ap
      cases ap
    rcases after_cases inp.req s with ⟨_, askedS, _⟩ | ⟨_, _, gone, _⟩ | ⟨otherS, _, sameS⟩
    · rw [askedS]
      exact ap
    · exact absurd gone assigned
    rw [sameS] at assigned ⊢
    rw [accepted.oneRadio phy asked s hs (accepted.id ▸ otherS) same.symm assigned]
    exact ap
  · rw [gone] at ap
    cases ap
  · rw [sameR] at ap
    have held : r.role ≠ roleUnassigned := by
      rintro none
      rw [none] at ap
      cases ap
    rcases after_cases inp.req s with ⟨idS, askedS, _⟩ | ⟨_, _, gone, _⟩ | ⟨_, _, sameS⟩
    · obtain rfl := ids s hs (idS.trans accepted.id.symm)
      rw [askedS] at assigned ⊢
      rw [← accepted.oneRadio (same ▸ phy) assigned r hr (accepted.id ▸ otherR) same held]
      exact ap
    · exact absurd gone assigned
    · rw [sameS] at assigned ⊢
      exact radios r hr s hs phy same ap assigned

/-- **A request that meets the rules keeps the shape of the table.** -/
theorem wellFormed_assign (rows : inp.rows = t.rows) (wf : WellFormed t)
    (h : t.assign inp.req = some t') : WellFormed t' := by
  obtain ⟨slots, lan, mgmt, slotted, radios⟩ := wf
  have ids : ∀ r ∈ inp.rows, r.id = target.id → r = target := by
    intro r hr id
    rw [rows] at hr
    exact t.eq_of_id hr (rows ▸ accepted.found) id
  rw [← rows] at slots lan mgmt slotted radios
  -- a row of the new table is a row of the old one, written
  have new : t'.rows = inp.rows.map inp.req.after := rows ▸ assign_eq h
  have written : ∀ r' ∈ t'.rows, ∃ r ∈ inp.rows, inp.req.after r = r' :=
    fun r' h' => mem_map.mp (new ▸ h')
  constructor
  · intro r' hr' s' hs' held same
    exact t'.eq_of_id hr' hs' (slot_after accepted slots slotted (new ▸ hr') (new ▸ hs') held same)
  · intro r' hr' s' hs' roleR roleS
    exact t'.eq_of_id hr' hs' (singleton_after accepted rfl (by decide) lan (new ▸ hr') (new ▸ hs')
      roleR roleS)
  · intro r' hr' s' hs' roleR roleS
    exact t'.eq_of_id hr' hs' (singleton_after accepted rfl (by decide) mgmt (new ▸ hr') (new ▸ hs')
      roleR roleS)
  · intro r' hr'
    obtain ⟨r, hr, rfl⟩ := written r' hr'
    rcases after_cases inp.req r with ⟨_, role, slot⟩ | ⟨_, _, role, slot⟩ | ⟨_, _, same⟩
    · rw [role, slot]
      exact accepted.slot
    · rw [role, slot]
      decide
    · rw [same]
      exact slotted r hr
  · intro r' hr' s' hs' phy same ap assigned
    obtain ⟨r, hr, rfl⟩ := written r' hr'
    obtain ⟨s, hs, rfl⟩ := written s' hs'
    rw [after_phyName] at phy same
    rw [after_phyName] at same
    exact radio_after accepted ids radios hr hs phy same ap assigned

end Shape

/-! ## Taking a plan back -/

/-- The operator's part of a row, and the remembered gateway. -/
structure InterfaceIntent where
  id : Nat
  role : RoleTag
  slot : SlotTag
  masterID : Option Nat
  method : MethodTag
  staticAddress : String
  staticGateway : String
  gatewayOnLink : Bool
  dnsServer : String
  dnsServer2 : String
  dnsDomains : String
  learnedGateway : String
deriving DecidableEq, Repr

open InterfaceIntent

def NetworkInterface.intent (r : NetworkInterface) : InterfaceIntent :=
  { id := r.id, role := r.role, slot := r.slot, masterID := r.masterID, method := r.method
    staticAddress := r.staticAddress, staticGateway := r.staticGateway
    gatewayOnLink := r.gatewayOnLink, dnsServer := r.dnsServer, dnsServer2 := r.dnsServer2
    dnsDomains := r.dnsDomains, learnedGateway := r.learnedGateway }

def InterfaceIntent.write (i : InterfaceIntent) (r : NetworkInterface) : NetworkInterface :=
  if r.id = i.id then
    { r with
      role := i.role, slot := i.slot, masterID := i.masterID, method := i.method
      staticAddress := i.staticAddress, staticGateway := i.staticGateway
      gatewayOnLink := i.gatewayOnLink, dnsServer := i.dnsServer, dnsServer2 := i.dnsServer2
      dnsDomains := i.dnsDomains, learnedGateway := i.learnedGateway }
  else r

def InterfaceIntent.release (i : InterfaceIntent) (r : NetworkInterface) : NetworkInterface :=
  if r.id = i.id then { r with role := roleUnassigned, slot := slotNone } else r

@[simp] theorem write_id (i : InterfaceIntent) (r : NetworkInterface) : (i.write r).id = r.id := by
  unfold write
  split <;> rfl

@[simp] theorem release_id (i : InterfaceIntent) (r : NetworkInterface) :
    (i.release r).id = r.id := by
  unfold release
  split <;> rfl

namespace Interfaces

/-- `CaptureInterfaceIntent`. -/
def capture (t : Interfaces) : List InterfaceIntent := t.rows.map (·.intent)

/-- `RestoreInterfaceIntent`: singleton roles are released before they are swapped back. -/
def restore (t : Interfaces) (intents : List InterfaceIntent) : Interfaces :=
  let released := intents.foldl (fun t i => t.update i.release (release_id i)) t
  intents.foldl (fun t i => t.update i.write (write_id i)) released

end Interfaces

section Restore
variable {t u : Interfaces} {r : NetworkInterface} {intents : List InterfaceIntent}

theorem foldl_update_rows (f : InterfaceIntent → NetworkInterface → NetworkInterface)
    (keeps : ∀ i r, (f i r).id = r.id) :
    (intents.foldl (fun t i => t.update (f i) (keeps i)) t).rows =
      t.rows.map fun r => intents.foldl (fun r i => f i r) r := by
  induction intents generalizing t with
  | nil => simp
  | cons i rest ih =>
    rw [foldl_cons, ih]
    simp [update]

variable {i : InterfaceIntent}

theorem write_release {j : InterfaceIntent} (same : i.id = j.id) :
    i.write (j.release r) = i.write r := by
  unfold write release
  by_cases here : r.id = j.id
  · simp [here, same]
  · simp [here, same]

theorem write_of_ne (other : r.id ≠ i.id) : i.write r = r :=
  if_neg other

theorem release_of_ne (other : r.id ≠ i.id) : i.release r = r :=
  if_neg other

theorem foldl_write (ids : (intents.map (·.id)).Nodup) (mem : i ∈ intents)
    (own : r.id = i.id) : intents.foldl (fun r i => i.write r) r = i.write r := by
  have others : ∀ (rest : List InterfaceIntent) (q : NetworkInterface), (∀ j ∈ rest, q.id ≠ j.id) →
      rest.foldl (fun r i => i.write r) q = q := fun rest q apart =>
    foldlRecOn (motive := (· = q)) rest _ rfl fun r same j hj => by
      rw [same, write_of_ne (apart j hj)]
  induction intents with
  | nil => cases mem
  | cons j rest ih =>
    rw [map_cons, nodup_cons] at ids
    rcases mem_cons.mp mem with rfl | mem
    · rw [foldl_cons]
      apply others
      intro k hk
      rw [write_id, own]
      exact fun clash => ids.1 (clash ▸ mem_map_of_mem hk)
    · have apart : r.id ≠ j.id := fun clash =>
        ids.1 (clash ▸ own ▸ mem_map_of_mem mem)
      rw [foldl_cons, write_of_ne apart]
      exact ih ids.2 mem

theorem write_foldl_release (own : r.id = i.id) :
    i.write (intents.foldl (fun r i => i.release r) r) = i.write r := by
  induction intents generalizing r with
  | nil => rfl
  | cons j rest ih =>
    rw [foldl_cons, ih (by rw [release_id, own])]
    by_cases same : i.id = j.id
    · exact write_release same
    · rw [release_of_ne (own ▸ same)]

/-- Every device of `t` is one of `u`. -/
def Knows (u t : Interfaces) : Prop :=
  ∀ r ∈ t.rows, ∃ q ∈ u.rows, q.id = r.id ∧ q.phyName = r.phyName

theorem Knows.refl (t : Interfaces) : Knows t t := fun r hr => ⟨r, hr, rfl, rfl⟩

theorem Knows.of_written {t' : Interfaces} (knows : Knows u t)
    (written : ∀ r' ∈ t'.rows, ∃ r ∈ t.rows, r'.id = r.id ∧ r'.phyName = r.phyName) :
    Knows u t' := by
  intro r' hr'
  obtain ⟨r, hr, id, phy⟩ := written r' hr'
  obtain ⟨q, hq, id', phy'⟩ := knows r hr
  exact ⟨q, hq, id'.trans id.symm, phy'.trans phy.symm⟩

/-- **A restored row has the role and the slot it was captured with.** -/
theorem restore_capture (knows : Knows u t) : ∀ r' ∈ (t.restore u.capture).rows,
    (∃ r ∈ t.rows, r'.id = r.id ∧ r'.phyName = r.phyName) ∧
    ∃ q ∈ u.rows, r'.id = q.id ∧ r'.phyName = q.phyName ∧ r'.role = q.role ∧ r'.slot = q.slot := by
  intro r' hr'
  rw [restore, foldl_update_rows _ write_id, foldl_update_rows _ release_id, map_map] at hr'
  obtain ⟨r, hr, rfl⟩ := mem_map.mp hr'
  obtain ⟨q, hq, id, phy⟩ := knows r hr
  have ids : (u.capture.map (·.id)).Nodup := by
    have same : u.capture.map (·.id) = u.rows.map (·.id) := by
      simp [capture, NetworkInterface.intent]
    rw [same]
    exact u.ids
  have mem : q.intent ∈ u.capture := mem_map_of_mem hq
  have own : r.id = q.intent.id := id.symm
  have released : (u.capture.foldl (fun r i => i.release r) r).id = q.intent.id := by
    refine foldlRecOn (motive := (NetworkInterface.id · = _)) _ _ own fun r own i _ => ?_
    rw [release_id, own]
  rw [Function.comp_apply, foldl_write ids mem released, write_foldl_release own]
  simp only [write, if_pos own]
  exact ⟨⟨r, hr, rfl, rfl⟩, q, hq, own, phy.symm, rfl, rfl⟩

theorem wellFormed_restore (wf : WellFormed u) (knows : Knows u t) :
    WellFormed (t.restore u.capture) := by
  have was := fun r' hr' => (restore_capture knows r' hr').2
  -- two rows restored from one row are one row
  have one : ∀ r' ∈ (t.restore u.capture).rows, ∀ s' ∈ (t.restore u.capture).rows,
      ∀ q p : NetworkInterface, r'.id = q.id → s'.id = p.id → q = p → r' = s' := by
    intro r' hr' s' hs' q p idR idS same
    exact (t.restore u.capture).eq_of_id hr' hs' (by rw [idR, idS, same])
  constructor
  · intro r' hr' s' hs' held same
    obtain ⟨q, hq, idR, _, _, slotR⟩ := was r' hr'
    obtain ⟨p, hp, idS, _, _, slotS⟩ := was s' hs'
    rw [slotR] at held same
    exact one r' hr' s' hs' q p idR idS (wf.slots q hq p hp held (same.trans slotS))
  · intro r' hr' s' hs' roleR roleS
    obtain ⟨q, hq, idR, _, wasR, _⟩ := was r' hr'
    obtain ⟨p, hp, idS, _, wasS, _⟩ := was s' hs'
    exact one r' hr' s' hs' q p idR idS (wf.lan q hq p hp (wasR ▸ roleR) (wasS ▸ roleS))
  · intro r' hr' s' hs' roleR roleS
    obtain ⟨q, hq, idR, _, wasR, _⟩ := was r' hr'
    obtain ⟨p, hp, idS, _, wasS, _⟩ := was s' hs'
    exact one r' hr' s' hs' q p idR idS (wf.mgmt q hq p hp (wasR ▸ roleR) (wasS ▸ roleS))
  · intro r' hr'
    obtain ⟨q, hq, _, _, role, slot⟩ := was r' hr'
    rw [role, slot]
    exact wf.slotted q hq
  · intro r' hr' s' hs' phy same ap assigned
    obtain ⟨q, hq, _, phyR, wasR, _⟩ := was r' hr'
    obtain ⟨p, hp, _, phyS, wasS, _⟩ := was s' hs'
    rw [phyR] at phy same
    rw [wasS] at assigned ⊢
    exact wf.radios q hq p hp phy (same.trans phyS) (wasR ▸ ap) assigned

end Restore

/-! ## Runs of requests and rollbacks -/

/-- The table, and what was captured before each applied request. -/
structure RoleState where
  table : Interfaces
  captured : List (List InterfaceIntent)

inductive RoleLabel where
  /-- A request comes in, with the LAN row and the facts it is validated against. -/
  | change (env : Env) (lan : Option LANConfig) (req : ChangeRequest)
  /-- The plan of an earlier request is taken back, up to the state it was applied in. -/
  | rollback (plan : Nat)

/-- One applied request or one rollback. A request that is refused is no step. -/
def roleStep (s : RoleState) : RoleLabel → Option RoleState
  | .change env lan req => (s.table.apply env lan req).map fun t =>
      { table := t, captured := s.captured ++ [s.table.capture] }
  | .rollback plan => (s.captured[plan]?).map fun intents =>
      { s with table := s.table.restore intents }

/-- The table has its shape, and so had every table that was captured. -/
structure RoleInv (s : RoleState) : Prop where
  table : WellFormed s.table
  captured : ∀ c ∈ s.captured, ∃ u : Interfaces, WellFormed u ∧ Knows u s.table ∧ c = u.capture

/-- One call keeps the shape of the table and of every table captured. -/
theorem roleInv_step (s : RoleState) (a : RoleLabel) (s' : RoleState) (inv : RoleInv s)
    (h : roleStep s a = some s') : RoleInv s' := by
  cases a with
  | change env lan req =>
    obtain ⟨t, applied, rfl⟩ := Option.map_eq_some_iff.mp h
    obtain ⟨clear, assigned⟩ := apply_some applied
    obtain ⟨target, accepted⟩ := accepted_of_not_rejected clear
    have written : ∀ r' ∈ t.rows, ∃ r ∈ s.table.rows, r'.id = r.id ∧ r'.phyName = r.phyName := by
      intro r' hr'
      rw [assign_eq assigned] at hr'
      obtain ⟨r, hr, rfl⟩ := mem_map.mp hr'
      exact ⟨r, hr, after_id, after_phyName⟩
    refine ⟨wellFormed_assign accepted rfl inv.table assigned, forall_mem_append.mpr
      ⟨fun c hc => ?_, forall_mem_singleton.mpr
        ⟨s.table, inv.table, (Knows.refl s.table).of_written written, rfl⟩⟩⟩
    obtain ⟨u, wf, knows, rfl⟩ := inv.captured c hc
    exact ⟨u, wf, knows.of_written written, rfl⟩
  | rollback plan =>
    obtain ⟨intents, found, rfl⟩ := Option.map_eq_some_iff.mp h
    obtain ⟨u, wf, knows, rfl⟩ := inv.captured intents (mem_of_getElem? found)
    refine ⟨wellFormed_restore wf knows, ?_⟩
    intro c hc
    obtain ⟨v, wf', knows', rfl⟩ := inv.captured c hc
    exact ⟨v, wf', knows'.of_written fun r' hr' => (restore_capture knows r' hr').1, rfl⟩

/-- **No run of requests and rollbacks breaks the shape of the table.** Requests may evict any
row. -/
theorem roles_stay_wellFormed (t : Interfaces) (labels : List RoleLabel) (s : RoleState)
    (start : WellFormed t) (h : Runs.run roleStep { table := t, captured := [] } labels = some s) :
    WellFormed s.table :=
  (Runs.run_inv roleInv_step ⟨start, by simp⟩ h).table

/-- A box without radios and with no address of its own. -/
def wiredEnv : Env where
  liveAddresses := fun _ => []
  hostapdInstalled := false
  iwdInstalled := false
  radioSupportsAP := fun _ => false
  radioSupportsSTA := fun _ => false
  countryCode := ""
  endFirst := false

def defaultLANConfig : LANConfig :=
  { cidr := "10.77.0.1/24", dhcpRangeLow := "10.77.0.100", dhcpRangeHigh := "10.77.0.200" }

/-- One uplink, and a free port beside it. -/
def onlyUplink : Interfaces where
  rows := [{ id := 1, ifName := "eth0", source := "eth_pci", role := roleWAN
             slot := .known .domestic },
           { id := 2, ifName := "eth1", source := "eth_usb" }]
  ids := by decide

/-- `eth1` takes the slot of `eth0` over. V17 counts both and asks for the confirmation. -/
def takesOver : ChangeRequest :=
  { interfaceID := 2, role := roleWAN, slot := .known .domestic, evictID := some 1
    confirmed := true }

/-- The slot changes hands, and back. -/
theorem roles_stay_wellFormed_takesOver :
    ∃ s, Runs.run roleStep { table := onlyUplink, captured := [] }
        [.change wiredEnv (some defaultLANConfig) takesOver, .rollback 0] = some s ∧
          WellFormed s.table := by
  have start : WellFormed onlyUplink := by constructor <;> decide
  have runs : (Runs.run roleStep { table := onlyUplink, captured := [] }
      [.change wiredEnv (some defaultLANConfig) takesOver, .rollback 0]).isSome = true := by decide
  obtain ⟨s, reached⟩ := Option.isSome_iff_exists.mp runs
  exact ⟨s, reached, roles_stay_wellFormed onlyUplink _ s start reached⟩

/-! ## One radio, two roles -/

/-- No radio has one interface in an access-point role and another in a different assigned role. -/
def OneRoleARadio (t : Interfaces) : Prop :=
  ∀ r ∈ t.rows, ∀ s ∈ t.rows, r.phyName ≠ "" → r.phyName = s.phyName →
    apRole r.role = true → s.role ≠ roleUnassigned → s.role = r.role

instance (t : Interfaces) : Decidable (OneRoleARadio t) := by
  unfold OneRoleARadio
  infer_instance

/-- A box whose radios can be access points. -/
def radioEnv : Env :=
  { wiredEnv with hostapdInstalled := true, radioSupportsAP := fun _ => true, countryCode := "DE" }

/-- Two interfaces of one radio; the first is the LAN. -/
def twoOnOneRadio : Interfaces where
  rows := [{ id := 1, ifName := "wlan0", source := "wifi_pci", phyName := "phy0", role := roleLAN },
           { id := 2, ifName := "wlan1", source := "wifi_pci", phyName := "phy0" }]
  ids := by decide

/-- `wlan1` joins the LAN that `wlan0` holds. -/
def joinsLAN : ChangeRequest := { interfaceID := 2, role := roleLANMember, masterID := some 1 }

/-- **One radio may be the LAN and a member of it.** V13 asks only whether the two roles are both
roles of an access point. -/
theorem lan_beside_member :
    WellFormed twoOnOneRadio ∧ OneRoleARadio twoOnOneRadio ∧
    ∃ s, Runs.run roleStep { table := twoOnOneRadio, captured := [] }
        [.change radioEnv (some defaultLANConfig) joinsLAN] = some s ∧ ¬ OneRoleARadio s.table := by
  refine ⟨by constructor <;> decide, by decide, ?_⟩
  have runs : ((Runs.run roleStep { table := twoOnOneRadio, captured := [] }
      [.change radioEnv (some defaultLANConfig) joinsLAN]).any
        fun s => !decide (OneRoleARadio s.table)) = true := by decide
  obtain ⟨s, reached, broken⟩ := (Option.any_eq_true _ _).mp runs
  exact ⟨s, reached, by simpa using broken⟩

/-! ## The last uplink -/

/-- A row is an uplink after the request if it is the target of a request for one, or if it was
one and is neither the target nor evicted. -/
theorem after_role_wan {req : ChangeRequest} {r : NetworkInterface} :
    (req.after r).role = roleWAN ↔ (r.id = req.interfaceID ∧ req.role = roleWAN) ∨
      (r.id ≠ req.interfaceID ∧ req.evictID ≠ some r.id ∧ r.role = roleWAN) := by
  rcases after_cases req r with ⟨id, role, _⟩ | ⟨id, evicted, role, _⟩ | ⟨id, stays, same⟩
  · rw [role]
    simp [id]
  · rw [role]
    simp [id, evicted, roleUnassigned, roleWAN]
  · rw [same]
    simp [id, stays]

/-- `eth1` becomes the LAN port and evicts the only uplink. -/
def evictsLast : ChangeRequest := { interfaceID := 2, role := roleLAN, evictID := some 1 }

end NasnetPanel.Domain
