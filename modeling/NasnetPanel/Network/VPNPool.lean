import Mathlib.Data.List.Sort
import NasnetPanel.Network.Deadman

/-!
# Network.VPNPool — the tunnel pool, its snapshot and its rollback

The profiles are a table of the database: `VPNProfiles` carries what the database guarantees, ids
that are distinct and slots that no two undeleted rows share. The functions are those of
`vpnRepository`, each one transaction, and of the use case where it checks more.

Before a plan the enabled profiles are captured, and a rollback puts them back (`SetPool`). The
snapshot goes through a file that leaves the configs out of the profiles and carries them beside
(`load_save`).

`SetPool` writes the rows it finds by id, and writes neither the pin nor a row that is gone.
`rollback_restores_iff` says that this is all that can be missing, and `keeps_after` that in a plan
it takes a step that deletes the profile or pins it elsewhere.
-/

namespace NasnetPanel.Domain
open List
open Deadman (snapshotVersion)

/-! ## The table -/

/-- The columns of a profile. A deleted row stays, and no query sees it. -/
structure VPNProfile where
  id : Nat
  name : String := ""
  type : String := "wireguard"
  enabled : Bool := false
  priority : Int := 0
  weight : Int := 1
  wgSlot : Option Nat := none
  /-- The key of one secondary, empty for none. -/
  transportUplink : String := ""
  config : String
  deleted : Bool := false
deriving DecidableEq, Repr

def wgSlots (rows : List VPNProfile) : List Nat :=
  (rows.filter fun r => !r.deleted).filterMap (·.wgSlot)

/-- `vpn_profiles`, with its primary key and the index of `EnsureVPNPoolIndex`. -/
structure VPNProfiles where
  rows : List VPNProfile
  ids : (rows.map (·.id)).Nodup
  slots : (wgSlots rows).Nodup

open VPNProfiles

def maxEnabledProfiles : Nat := 8

def errPoolFull : String := "all 8 tunnel slots are in use"
def errProfileActive : String := "this VPN is in use — turn it off first"
def errProfileNotFound : String := "no such VPN profile"
def errValidationFailed : String := "validation failed"

/-- What the database stores: rows that keep its constraints. -/
def store (rows : List VPNProfile) : Except String VPNProfiles :=
  if h : (rows.map (·.id)).Nodup ∧ (wgSlots rows).Nodup then .ok ⟨rows, h.1, h.2⟩
  else .error "UNIQUE constraint failed: vpn_profiles"

def writeTo (id : Nat) (f : VPNProfile → VPNProfile) (rows : List VPNProfile) : List VPNProfile :=
  rows.map fun r => if r.id = id ∧ r.deleted = false then f r else r

def validatePoolRole (priority weight : Int) : Except String Unit :=
  if priority < 0 ∨ 7 < priority then .error "priority must be between 0 and 7"
  else if weight < 1 ∨ 100 < weight then .error "weight must be between 1 and 100"
  else .ok ()

namespace VPNProfiles
variable (t : VPNProfiles)

def get (id : Nat) : Option VPNProfile := t.rows.find? fun r => r.id == id && !r.deleted

/-- The pool, by priority and then by id. -/
def enabled : List VPNProfile :=
  (t.rows.filter fun r => !r.deleted && r.enabled).insertionSort fun a b =>
    a.priority < b.priority ∨ (a.priority = b.priority ∧ a.id ≤ b.id)

/-- `Create`, under the next id. -/
def create (p : VPNProfile) : Except String VPNProfiles :=
  store (t.rows ++
    [{ p with id := (t.rows.map (·.id)).foldl max 0 + 1
              type := if p.type = "" then "wireguard" else p.type }])

/-- The name, the type and the config. -/
def update (p : VPNProfile) : Except String VPNProfiles :=
  if p.id = 0 then .error "no profile ID given"
  else if p.config = "" then .error "refusing to store a profile with no config"
  else store (writeTo p.id
    (fun r => { r with name := p.name, type := p.type, config := p.config }) t.rows)

def delete (id : Nat) : Except String VPNProfiles :=
  match t.get id with
  | none => .error errProfileNotFound
  | some p =>
    if p.enabled then .error errProfileActive
    else store (writeTo id (fun r => { r with deleted := true }) t.rows)

def freeSlot : Option Nat :=
  let taken := (t.rows.filter fun r => !r.deleted && r.enabled).filterMap (·.wgSlot)
  (List.range maxEnabledProfiles).find? fun s => !taken.contains s

def setEnabled (id : Nat) (on : Bool) : Except String VPNProfiles :=
  match t.get id with
  | none => .error errProfileNotFound
  | some p =>
    if !on then store (writeTo id (fun r => { r with enabled := false, wgSlot := none }) t.rows)
    else if p.enabled then .ok t
    else
      match t.freeSlot with
      | none => .error errPoolFull
      | some slot =>
        store (writeTo id (fun r => { r with enabled := true, wgSlot := some slot }) t.rows)

def updateOne (id : Nat) (f : VPNProfile → VPNProfile) : Except String VPNProfiles :=
  if (t.get id).isNone then .error errProfileNotFound else store (writeTo id f t.rows)

def setRole (id : Nat) (priority weight : Int) : Except String VPNProfiles := do
  validatePoolRole priority weight
  t.updateOne id fun r => { r with priority := priority, weight := weight }

/-- The positions, first to last. -/
def setOrder (ids : List Nat) : Except String VPNProfiles :=
  ids.zipIdx.foldlM (fun t e => t.updateOne e.1 fun r => { r with priority := e.2 }) t

def setTransport (id : Nat) (uplinkKey : String) : Except String VPNProfiles :=
  t.updateOne id fun r => { r with transportUplink := uplinkKey }

end VPNProfiles

/-- What `SetPool` does first to a row: it leaves the pool. -/
def VPNProfile.leave (r : VPNProfile) : VPNProfile :=
  if r.enabled = true ∧ r.deleted = false then { r with enabled := false, wgSlot := none } else r

/-- The columns `SetPool` puts back into the row of a wanted profile. -/
def VPNProfile.putBack (p r : VPNProfile) : VPNProfile :=
  { r with enabled := true, wgSlot := p.wgSlot, priority := p.priority, weight := p.weight
           config := p.config }

def VPNProfiles.setPool (t : VPNProfiles) (want : List VPNProfile) : Except String VPNProfiles := do
  want.foldlM (fun t p => store (writeTo p.id p.putBack t.rows))
    (← store (t.rows.map VPNProfile.leave))

/-! ## What an operator does -/

/-- The loop of `SetPoolOrder` over the ids. -/
def orderFault (known : List Nat) : List Nat → List Nat → Option String
  | _, [] => none
  | seen, id :: rest =>
    if !known.contains id then some s!"{errValidationFailed}: {id} is not in the pool"
    else if seen.contains id then some s!"{errValidationFailed}: {id} is listed twice"
    else orderFault known (id :: seen) rest

namespace VPNProfiles
variable (t : VPNProfiles)

def setPoolOrder (ids : List Nat) : Except String VPNProfiles :=
  match orderFault (t.enabled.map (·.id)) [] ids with
  | some fault => .error fault
  | none =>
    if ids.length ≠ t.enabled.length then
      .error s!"{errValidationFailed}: the order must name every tunnel in the pool"
    else t.setOrder ids

/-- Last in the pool. -/
def appendToChain (id : Nat) : Except String VPNProfiles :=
  let last := (t.enabled.filter fun r => r.id ≠ id).foldl (fun last r => max last r.priority) (-1)
  t.setRole id (last + 1) 1

/-- A call that fails has written nothing. -/
def attempt (result : Except String VPNProfiles) : VPNProfiles :=
  match result with
  | .ok u => u
  | .error _ => t

/-- The plan of `EnableVPNProfile` on the table: three calls, and what a failing one leaves. -/
def enable (p : VPNProfile) : VPNProfiles :=
  match t.update p with
  | .error _ => t
  | .ok stored =>
    match stored.setEnabled p.id true with
    | .error _ => stored
    | .ok joined => joined.attempt (joined.appendToChain p.id)

end VPNProfiles

/-- What changes the table between a capture and a restore. -/
inductive PoolOp where
  /-- The profile with its endpoint resolved. -/
  | enable (p : VPNProfile)
  | disable (id : Nat)
  | role (id : Nat) (priority weight : Int)
  | order (ids : List Nat)
  | transport (id : Nat) (uplinkKey : String)
  /-- An edit, or an endpoint resolved again. -/
  | edit (p : VPNProfile)
  | delete (id : Nat)
  | create (p : VPNProfile)

namespace VPNProfiles

def step (t : VPNProfiles) : PoolOp → VPNProfiles
  | .enable p => t.enable p
  | .disable id => t.attempt (t.setEnabled id false)
  | .role id priority weight => t.attempt (t.setRole id priority weight)
  | .order ids => t.attempt (t.setPoolOrder ids)
  | .transport id uplinkKey => t.attempt (t.setTransport id uplinkKey)
  | .edit p => t.attempt (t.update p)
  | .delete id => t.attempt (t.delete id)
  | .create p => t.attempt (t.create p)

def after (t : VPNProfiles) (ops : List PoolOp) : VPNProfiles := ops.foldl step t

end VPNProfiles

/-! ## The snapshot -/

structure PoolSnapshot where
  version : Int
  /-- Tells an empty pool from a snapshot that did not look. -/
  vpnPoolCaptured : Bool
  vpnProfiles : List VPNProfile
  vpnConfigs : List String
deriving DecidableEq, Repr

def VPNProfiles.capture (t : VPNProfiles) : PoolSnapshot where
  version := snapshotVersion
  vpnPoolCaptured := true
  vpnProfiles := t.enabled
  vpnConfigs := t.enabled.map (·.config)

/-- What the JSON of a profile keeps. -/
def PoolSnapshot.save (snap : PoolSnapshot) : PoolSnapshot :=
  { snap with vpnProfiles := snap.vpnProfiles.map fun p =>
    { p with config := "", deleted := false } }

/-- The configs back into the profiles, as many as there are. -/
def withConfigs : List VPNProfile → List String → List VPNProfile
  | p :: ps, config :: configs => { p with config := config } :: withConfigs ps configs
  | ps, _ => ps

/-- `LoadSnapshot`. -/
def PoolSnapshot.load (file : PoolSnapshot) : Except String PoolSnapshot :=
  if file.version = snapshotVersion then
    .ok { file with vpnProfiles := withConfigs file.vpnProfiles file.vpnConfigs }
  else .error s!"snapshot version {file.version}, this build understands {snapshotVersion}"

/-- The pool's part of `Restore`. -/
def VPNProfiles.restore (t : VPNProfiles) (snap : PoolSnapshot) : Except String VPNProfiles :=
  if snap.vpnPoolCaptured then t.setPool snap.vpnProfiles else .ok t

def VPNProfiles.rollback (t : VPNProfiles) (file : PoolSnapshot) : Except String VPNProfiles := do
  t.restore (← file.load)

section Snapshot
variable {t : VPNProfiles} {p : VPNProfile}

theorem mem_enabled : p ∈ t.enabled ↔ p ∈ t.rows ∧ p.deleted = false ∧ p.enabled = true := by
  simp [enabled]

theorem withConfigs_map {ps : List VPNProfile} (live : ∀ p ∈ ps, p.deleted = false) :
    withConfigs (ps.map fun p => { p with config := "", deleted := false }) (ps.map (·.config)) =
      ps := by
  induction ps with
  | nil => rfl
  | cons p ps ih =>
    rw [map_cons, map_cons, withConfigs, ih fun q hq => live q (mem_cons_of_mem _ hq)]
    have here := live p mem_cons_self
    cases p
    cases here
    rfl

/-- **A capture comes back from its file as it was.** -/
theorem load_save : t.capture.save.load = .ok t.capture := by
  have live : ∀ p ∈ t.enabled, p.deleted = false := fun p hp => (mem_enabled.mp hp).2.1
  simp [PoolSnapshot.load, PoolSnapshot.save, capture, withConfigs_map live]

end Snapshot

/-! ## What a restore leaves -/

structure PoolEntry where
  id : Nat
  wgSlot : Option Nat
  priority : Int
  weight : Int
  transportUplink : String
  config : String
deriving DecidableEq, Repr

def VPNProfile.entry (p : VPNProfile) : PoolEntry :=
  { id := p.id, wgSlot := p.wgSlot, priority := p.priority, weight := p.weight
    transportUplink := p.transportUplink, config := p.config }

def VPNProfiles.pool (t : VPNProfiles) : Set PoolEntry := { e | e ∈ t.enabled.map (·.entry) }

/-- A profile is still there, with its pin. -/
def VPNProfiles.Keeps (t : VPNProfiles) (p : VPNProfile) : Prop :=
  ∃ r ∈ t.rows, r.deleted = false ∧ r.id = p.id ∧ r.transportUplink = p.transportUplink

section SetPool
variable {t u : VPNProfiles} {want : List VPNProfile} {p r : VPNProfile}

theorem rows_of_store {rows : List VPNProfile} (h : store rows = .ok u) : u.rows = rows := by
  unfold store at h
  split at h
  · cases h
    rfl
  · cases h

/-- What one wanted profile does to a row. -/
def putBackInto (r p : VPNProfile) : VPNProfile :=
  if r.id = p.id ∧ r.deleted = false then p.putBack r else r

theorem rows_of_setPool (h : t.setPool want = .ok u) :
    u.rows = t.rows.map fun r => want.foldl putBackInto r.leave := by
  unfold setPool at h
  cases cleared : store (t.rows.map VPNProfile.leave) with
  | error e =>
    rw [cleared] at h
    cases h
  | ok v =>
    rw [cleared] at h
    have rows := rows_of_store cleared
    -- the wanted profiles one after the other, from any table
    have loop : ∀ (want : List VPNProfile) (v : VPNProfiles),
        want.foldlM (fun t p => store (writeTo p.id p.putBack t.rows)) v = .ok u →
        u.rows = v.rows.map fun r => want.foldl putBackInto r := by
      intro want
      induction want with
      | nil =>
        intro v h
        cases h
        simp
      | cons p want ih =>
        intro v h
        rw [foldlM_cons] at h
        cases written : store (writeTo p.id p.putBack v.rows) with
        | error e =>
          rw [written] at h
          cases h
        | ok w =>
          rw [written] at h
          rw [ih w h, rows_of_store written, writeTo, map_map]
          rfl
    rw [loop want v h, rows, map_map]
    rfl

theorem putBackInto_kept : (putBackInto r p).id = r.id ∧ (putBackInto r p).deleted = r.deleted ∧
    (putBackInto r p).transportUplink = r.transportUplink := by
  unfold putBackInto VPNProfile.putBack
  split <;> exact ⟨rfl, rfl, rfl⟩

theorem leave_kept : r.leave.id = r.id ∧ r.leave.deleted = r.deleted ∧
    r.leave.transportUplink = r.transportUplink := by
  unfold VPNProfile.leave
  split <;> exact ⟨rfl, rfl, rfl⟩

theorem foldl_putBackInto_kept :
    (want.foldl putBackInto r).id = r.id ∧ (want.foldl putBackInto r).deleted = r.deleted ∧
      (want.foldl putBackInto r).transportUplink = r.transportUplink := by
  induction want generalizing r with
  | nil => exact ⟨rfl, rfl, rfl⟩
  | cons p want ih =>
    obtain ⟨id, deleted, pin⟩ := @ih (putBackInto r p)
    obtain ⟨id', deleted', pin'⟩ := @putBackInto_kept p r
    exact ⟨id.trans id', deleted.trans deleted', pin.trans pin'⟩

theorem foldl_putBackInto_of_ne (other : ∀ p ∈ want, r.id ≠ p.id) :
    want.foldl putBackInto r = r := by
  refine foldlRecOn (motive := (· = r)) want _ rfl fun q same p hp => ?_
  rw [same]
  exact if_neg fun same => other p hp same.1

theorem foldl_putBackInto_of_mem (ids : (want.map (·.id)).Nodup) (hp : p ∈ want)
    (same : r.id = p.id) (live : r.deleted = false) :
    (want.foldl putBackInto r).enabled = true ∧
      (want.foldl putBackInto r).entry = { p.entry with transportUplink := r.transportUplink } := by
  induction want generalizing r with
  | nil => cases hp
  | cons q want ih =>
    rw [map_cons, nodup_cons] at ids
    rw [foldl_cons]
    rcases mem_cons.mp hp with rfl | hp
    · -- the profiles after it have other ids
      have here : putBackInto r p = p.putBack r := if_pos ⟨same, live⟩
      have other : ∀ q ∈ want, (p.putBack r).id ≠ q.id := by
        intro q hq eq
        apply ids.1
        rw [← same]
        exact eq ▸ mem_map_of_mem hq
      rw [here, foldl_putBackInto_of_ne other]
      exact ⟨rfl, by simp [VPNProfile.entry, VPNProfile.putBack, same]⟩
    · have apart : r.id ≠ q.id := by
        intro eq
        apply ids.1
        rw [← eq, same]
        exact mem_map_of_mem hp
      have here : putBackInto r q = r := if_neg fun h => apart h.1
      rw [here]
      exact ih ids.2 hp same live

end SetPool

section Restored
variable {t t' u : VPNProfiles} {p : VPNProfile} {e : PoolEntry}

theorem nodup_enabled : (t.enabled.map (·.id)).Nodup := by
  have perm := perm_insertionSort (fun a b : VPNProfile =>
    a.priority < b.priority ∨ (a.priority = b.priority ∧ a.id ≤ b.id))
    (t.rows.filter fun r => !r.deleted && r.enabled)
  rw [enabled, (perm.map _).nodup_iff]
  exact t.ids.sublist (filter_sublist.map _)

/-- The pool after a restore: the captured entries whose rows are there, with the pins the rows
have. -/
theorem mem_pool_of_setPool (restored : t'.setPool t.enabled = .ok u) :
    e ∈ u.pool ↔ ∃ p ∈ t.enabled, ∃ r ∈ t'.rows, r.deleted = false ∧ r.id = p.id ∧
      e = { p.entry with transportUplink := r.transportUplink } := by
  have rows := rows_of_setPool restored
  constructor
  · intro he
    obtain ⟨q, hq, rfl⟩ := mem_map.mp he
    obtain ⟨hq, live, enabled⟩ := mem_enabled.mp hq
    rw [rows] at hq
    obtain ⟨r, hr, rfl⟩ := mem_map.mp hq
    obtain ⟨idL, deletedL, pinL⟩ := @leave_kept r
    obtain ⟨id, deleted, pin⟩ := @foldl_putBackInto_kept t.enabled r.leave
    have liveR : r.leave.deleted = false := deleted.symm.trans live
    by_cases wanted : ∃ p ∈ t.enabled, r.leave.id = p.id
    · obtain ⟨p, hp, same⟩ := wanted
      refine ⟨p, hp, r, hr, deletedL.symm.trans liveR, idL.symm.trans same, ?_⟩
      rw [(foldl_putBackInto_of_mem nodup_enabled hp same liveR).2, pinL]
    -- a row that is not wanted has left the pool
    have other : ∀ p ∈ t.enabled, r.leave.id ≠ p.id := fun p hp same => wanted ⟨p, hp, same⟩
    rw [foldl_putBackInto_of_ne other] at enabled
    have live : r.deleted = false := deletedL.symm.trans liveR
    cases on : r.enabled <;> simp [VPNProfile.leave, live, on] at enabled
  · rintro ⟨p, hp, r, hr, live, same, rfl⟩
    obtain ⟨idL, deletedL, pinL⟩ := @leave_kept r
    obtain ⟨enabled, entry⟩ :=
      foldl_putBackInto_of_mem nodup_enabled hp (idL.trans same) (deletedL.trans live)
    apply mem_map.mpr
    refine ⟨t.enabled.foldl putBackInto r.leave, mem_enabled.mpr ⟨?_, ?_, enabled⟩, ?_⟩
    · rw [rows]
      exact mem_map_of_mem hr
    · rw [foldl_putBackInto_kept.2.1, deletedL, live]
    · rw [entry, pinL]

end Restored

/-- **A rollback brings the captured pool back exactly when each captured profile is still stored
with its pin**, whatever the plan and the operator did in between. -/
theorem rollback_restores_iff (t u : VPNProfiles) (ops : List PoolOp)
    (restored : (t.after ops).rollback t.capture.save = .ok u) :
    u.pool = t.pool ↔ ∀ p ∈ t.enabled, (t.after ops).Keeps p := by
  have restored : (t.after ops).setPool t.enabled = .ok u := by
    rw [rollback, load_save] at restored
    exact restored
  constructor
  · intro same p hp
    have mem : p.entry ∈ u.pool := by
      rw [same]
      exact mem_map_of_mem hp
    obtain ⟨q, hq, r, hr, live, id, entry⟩ := (mem_pool_of_setPool restored).mp mem
    have ids : p.id = q.id := congrArg PoolEntry.id entry
    have pins : p.transportUplink = r.transportUplink := congrArg PoolEntry.transportUplink entry
    exact ⟨r, hr, live, id.trans ids.symm, pins.symm⟩
  · intro kept
    ext e
    rw [mem_pool_of_setPool restored]
    constructor
    · rintro ⟨p, hp, r, hr, live, id, rfl⟩
      -- the row of the id is the one that was kept
      obtain ⟨r', hr', _, id', pin⟩ := kept p hp
      obtain rfl := inj_on_of_nodup_map (t.after ops).ids hr hr' (id.trans id'.symm)
      rw [pin]
      exact (mem_map_of_mem hp : p.entry ∈ t.enabled.map (·.entry))
    · intro he
      obtain ⟨p, hp, rfl⟩ := mem_map.mp he
      obtain ⟨r, hr, live, id, pin⟩ := kept p hp
      exact ⟨p, hp, r, hr, live, id, by rw [pin]; rfl⟩

/-! ## What a plan keeps -/

/-- The step neither deletes the profile nor pins it. -/
def PoolOp.Spares (id : Nat) : PoolOp → Prop
  | .delete other => other ≠ id
  | .transport other _ => other ≠ id
  | _ => True

section Keeps
variable {t u : VPNProfiles} {p : VPNProfile} {id : Nat} {q : VPNProfile}
  {f : VPNProfile → VPNProfile}

section
variable (kept : t.Keeps p)
include kept

/-- An update of other columns, or of another row, keeps the profile. -/
theorem keeps_of_writeTo (h : store (writeTo id f t.rows) = .ok u)
    (spares : id ≠ p.id ∨ ∀ r, (f r).id = r.id ∧ (f r).deleted = r.deleted ∧
      (f r).transportUplink = r.transportUplink) : u.Keeps p := by
  obtain ⟨r, hr, live, same, pin⟩ := kept
  refine ⟨if r.id = id ∧ r.deleted = false then f r else r, ?_, ?_⟩
  · rw [rows_of_store h]
    exact mem_map_of_mem hr
  split
  next here =>
    obtain other | spares := spares
    · exact absurd (here.1.symm.trans same) other
    · obtain ⟨id', deleted', pin'⟩ := spares r
      exact ⟨deleted'.trans live, id'.trans same, pin'.trans pin⟩
  · exact ⟨live, same, pin⟩

theorem keeps_of_updateOne (h : t.updateOne id f = .ok u)
    (spares : id ≠ p.id ∨ ∀ r, (f r).id = r.id ∧ (f r).deleted = r.deleted ∧
      (f r).transportUplink = r.transportUplink) : u.Keeps p := by
  unfold updateOne at h
  split at h
  · cases h
  · exact keeps_of_writeTo kept h spares

theorem keeps_of_update (h : t.update q = .ok u) : u.Keeps p := by
  unfold update at h
  split at h
  · cases h
  split at h
  · cases h
  · exact keeps_of_writeTo kept h (.inr fun _ => ⟨rfl, rfl, rfl⟩)

theorem keeps_of_setEnabled {on : Bool} (h : t.setEnabled id on = .ok u) : u.Keeps p := by
  unfold setEnabled at h
  split at h
  · cases h
  split at h
  · exact keeps_of_writeTo kept h (.inr fun _ => ⟨rfl, rfl, rfl⟩)
  split at h
  · cases h
    exact kept
  split at h
  · cases h
  · exact keeps_of_writeTo kept h (.inr fun _ => ⟨rfl, rfl, rfl⟩)

theorem keeps_of_setRole {priority weight : Int}
    (h : t.setRole id priority weight = .ok u) : u.Keeps p := by
  unfold setRole at h
  cases valid : validatePoolRole priority weight with
  | error e =>
    rw [valid] at h
    cases h
  | ok _ =>
    rw [valid] at h
    exact keeps_of_updateOne kept h (.inr fun _ => ⟨rfl, rfl, rfl⟩)

theorem keeps_of_setOrder {ids : List (Nat × Nat)}
    (h : ids.foldlM (fun t e => t.updateOne e.1 fun r => { r with priority := e.2 }) t = .ok u) :
    u.Keeps p := by
  induction ids generalizing t with
  | nil =>
    cases h
    exact kept
  | cons e ids ih =>
    rw [foldlM_cons] at h
    cases written : t.updateOne e.1 fun r => { r with priority := e.2 } with
    | error e =>
      rw [written] at h
      cases h
    | ok v =>
      rw [written] at h
      exact ih (keeps_of_updateOne kept written (.inr fun _ => ⟨rfl, rfl, rfl⟩)) h

theorem keeps_of_setPoolOrder {ids : List Nat} (h : t.setPoolOrder ids = .ok u) : u.Keeps p := by
  unfold setPoolOrder at h
  split at h
  · cases h
  split at h
  · cases h
  · exact keeps_of_setOrder kept h

theorem keeps_of_delete (h : t.delete id = .ok u) (other : id ≠ p.id) : u.Keeps p := by
  unfold delete at h
  split at h
  · cases h
  split at h
  · cases h
  · exact keeps_of_writeTo kept h (.inl other)

theorem keeps_of_create (h : t.create q = .ok u) : u.Keeps p := by
  obtain ⟨r, hr, rest⟩ := kept
  refine ⟨r, ?_, rest⟩
  rw [rows_of_store h]
  exact mem_append_left _ hr

/-- A call keeps the profile when its success does. -/
theorem keeps_of_attempt {result : Except String VPNProfiles}
    (h : ∀ u, result = .ok u → u.Keeps p) : (t.attempt result).Keeps p := by
  cases result with
  | ok u => exact h u rfl
  | error e => exact kept

theorem keeps_of_enable : (t.enable q).Keeps p := by
  unfold enable
  split
  · exact kept
  next stored h =>
    have kept := keeps_of_update kept h
    split
    · exact kept
    next joined h =>
      have kept := keeps_of_setEnabled kept h
      exact keeps_of_attempt kept fun u h => keeps_of_setRole kept h

/-- One step keeps a profile it spares. -/
theorem keeps_step {op : PoolOp} (spares : op.Spares p.id) : (t.step op).Keeps p := by
  cases op with
  | enable q => exact keeps_of_enable kept
  | disable id => exact keeps_of_attempt kept fun u h => keeps_of_setEnabled kept h
  | role id priority weight => exact keeps_of_attempt kept fun u h => keeps_of_setRole kept h
  | order ids => exact keeps_of_attempt kept fun u h => keeps_of_setPoolOrder kept h
  | transport id key =>
    exact keeps_of_attempt kept fun u h => keeps_of_updateOne kept h (.inl spares)
  | edit q => exact keeps_of_attempt kept fun u h => keeps_of_update kept h
  | delete id => exact keeps_of_attempt kept fun u h => keeps_of_delete kept h spares
  | create q => exact keeps_of_attempt kept fun u h => keeps_of_create kept h

/-- **A plan keeps a profile that none of its steps deletes or pins.** -/
theorem keeps_after {ops : List PoolOp} (spares : ∀ op ∈ ops, op.Spares p.id) :
    (t.after ops).Keeps p := by
  induction ops generalizing t with
  | nil => exact kept
  | cons op ops ih =>
    exact ih (keeps_step kept (spares op mem_cons_self))
      fun op' hop => spares op' (mem_cons_of_mem _ hop)

end

end Keeps

/-! ## Two tables -/

/-- One tunnel in the pool and one outside. -/
def twoTunnels : VPNProfiles where
  rows :=
    [{ id := 1, name := "a", enabled := true, wgSlot := some 0, config := "one" },
      { id := 2, name := "b", config := "two" }]
  ids := by decide
  slots := by decide

/-- The other tunnel takes over, and the first is edited and pushed back. -/
def swapTunnels : List PoolOp :=
  [.disable 1, .enable { id := 2, name := "b", config := "two, resolved" },
    .edit { id := 1, name := "a", config := "one, edited" }, .role 1 3 50]

/-- The pool after a rollback, `none` when it fails. -/
def rolledBack (t : VPNProfiles) (ops : List PoolOp) : Option (List PoolEntry) :=
  match (t.after ops).rollback t.capture.save with
  | .ok u => some (u.enabled.map (·.entry))
  | .error _ => none

theorem rolledBack_some {t : VPNProfiles} {ops : List PoolOp} {entries : List PoolEntry}
    (h : rolledBack t ops = some entries) :
    ∃ u, (t.after ops).rollback t.capture.save = .ok u ∧ u.enabled.map (·.entry) = entries := by
  unfold rolledBack at h
  split at h
  next u restored => exact ⟨u, restored, Option.some.inj h⟩
  · cases h

def firstEntry : PoolEntry :=
  { id := 1, wgSlot := some 0, priority := 0, weight := 1, transportUplink := "", config := "one" }

theorem firstEntry_mem : firstEntry ∈ twoTunnels.pool := by
  change firstEntry ∈ twoTunnels.enabled.map (·.entry)
  decide

theorem rollback_restores_swapTunnels :
    ∃ u, (twoTunnels.after swapTunnels).rollback twoTunnels.capture.save = .ok u ∧
      u.pool = twoTunnels.pool := by
  have outcome : rolledBack twoTunnels swapTunnels = some [firstEntry] := by decide
  obtain ⟨u, restored, _⟩ := rolledBack_some outcome
  refine ⟨u, restored, (rollback_restores_iff twoTunnels u swapTunnels restored).mpr ?_⟩
  intro p hp
  obtain ⟨stored, live, _⟩ := mem_enabled.mp hp
  apply keeps_after ⟨p, stored, live, rfl, rfl⟩
  simp [swapTunnels, PoolOp.Spares]

/-- **A profile deleted in the window is not restored, and no error says so.** -/
theorem deleted_not_restored :
    ∃ u, (twoTunnels.after [.disable 1, .delete 1]).rollback twoTunnels.capture.save = .ok u ∧
      u.pool ≠ twoTunnels.pool := by
  have outcome : rolledBack twoTunnels [.disable 1, .delete 1] = some [] := by decide
  obtain ⟨u, restored, none⟩ := rolledBack_some outcome
  refine ⟨u, restored, ?_⟩
  intro same
  have captured := firstEntry_mem
  rw [← same, pool, none] at captured
  cases captured

end NasnetPanel.Domain
