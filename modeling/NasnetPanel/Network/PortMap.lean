import NasnetPanel.Lib.GoMap
import NasnetPanel.Lib.Runs
import NasnetPanel.Network.FilterInput
import NasnetPanel.Network.Netip

/-!
# Network.PortMap — mappings on the upstream routers, and to whom they are given back

Behind a router the box asks it to forward ports (NAT-PMP, PCP or UPnP). A pass of the mapper
gathers one `PMInputs` per uplink, releases the mappings of what is no longer an uplink, and brings
each uplink's leases to what is wanted there (`reconcilePortMapWAN`).

The router is outside: what it answers, and the clock, come with each pass (`Answers`). What the
mapper does is a list of `PMAct`s. A lease carries the gateway of the call that it was granted in,
which the source does not keep, so that giving it back to the right router can be said: in an
`unmap` the gateway called is the one that granted.

The state of an uplink has the gateway twice, in `gateway` and inside `wan`. Releases go to `wan`,
and the two part when a pass finds no gateway: it is written into `wan` alone. `unmap_to_granter` is
for runs in which no uplink with leases meets such a pass, and `unmap_to_nobody` is one that does.
-/

namespace NasnetPanel.Network
open List Option Std.ExtTreeMap GoMap
open Netip (Addr parseAddr parsePrefix)

/-! ## What the mapper and the router say to one another -/

/-- Nanoseconds since Go's zero time. -/
abbrev Instant := Int

def second : Int := 1000000000

/-- A probe answer is trusted this long. -/
def portMapProbeTrust : Int := 600 * second

def portMapLease : Int := 7200 * second

/-- One uplink as the mapper sees it: where to bind, whom to ask. -/
structure PortMapWAN where
  ifName : String := ""
  gateway : Option Addr := none
  selfIP : Option Addr := none
deriving DecidableEq, Repr

structure PortMapRequest where
  proto : String
  internalPort : Nat
  /-- 0 asks for `internalPort`. -/
  externalHint : Nat
  lifetime : Int
  description : String
  renewal : Bool := false
  nonce : BitVec 96 := 0
deriving DecidableEq, Repr

/-- A mapping server's uptime counter, and our clock when it was read. -/
structure PortMapEpoch where
  secs : Nat := 0
  readAt : Instant := 0
deriving DecidableEq, Repr

def PortMapEpoch.known (e : PortMapEpoch) : Bool := e.readAt != 0

/-- The counter is below 7/8 of the time elapsed, less two seconds. -/
def PortMapEpoch.rebooted (e next : PortMapEpoch) : Bool :=
  e.known && next.known && !decide (next.readAt < e.readAt) &&
    decide (8 * second * next.secs < 8 * second * e.secs +
      7 * (next.readAt - e.readAt) - 16 * second)

structure PortMapLease where
  proto : String
  internalPort : Nat
  external : Option Addr
  externalPort : Nat
  method : String
  goodUntil : Instant
  renewAfter : Instant
  epoch : PortMapEpoch := {}
  nonce : BitVec 96 := 0
deriving DecidableEq, Repr

/-- What one pass over the gateway found. -/
structure PortMapProbe where
  pmp : Bool := false
  pcp : Bool := false
  upnp : Bool := false
  /-- Something answered, but mapping is turned off there. -/
  denied : Bool := false
  epoch : PortMapEpoch := {}
  seenAt : Instant := 0
deriving DecidableEq, Repr

def PortMapProbe.any (p : PortMapProbe) : Bool := p.pmp || p.pcp || p.upnp

/-- The errors the mapper tells apart. -/
inductive PortMapErrorKind where
  | denied
  | nestedNAT
  | other
deriving DecidableEq, Repr

structure PortMapError where
  kind : PortMapErrorKind := .other
  text : String
deriving DecidableEq, Repr

/-- What the router and the clock say while one uplink is reconciled. The calls for the wanted ports
are told apart by their place in the list. -/
structure Answers where
  /-- When the age of the last probe is looked at. -/
  now : Instant := 0
  probe : Except String PortMapProbe := .ok {}
  /-- When a held lease is looked at. -/
  dueAt : Nat → Instant := fun _ => 0
  map : Nat → PortMapRequest → Except PortMapError PortMapLease :=
    fun _ _ => .error { text := "" }
  /-- When a failed call returns. -/
  failedAt : Nat → Instant := fun _ => 0

/-! ## The state of one uplink -/

structure PMLeaseKey where
  proto : String
  port : Nat
deriving DecidableEq, Repr

/-- By protocol, then by port, as `sortedLeaseKeys` sorts. -/
instance : Ord PMLeaseKey where
  compare := compareLex (compareOn PMLeaseKey.proto) (compareOn PMLeaseKey.port)

instance : Std.TransOrd PMLeaseKey :=
  inferInstanceAs (Std.TransCmp (compareLex (compareOn PMLeaseKey.proto)
    (compareOn PMLeaseKey.port)))

theorem PMLeaseKey.compare_eq_iff (a b : PMLeaseKey) :
    compare a b = .eq ↔ compare a.proto b.proto = .eq ∧ compare a.port b.port = .eq := by
  change (compareOn PMLeaseKey.proto a b).then (compareOn PMLeaseKey.port a b) = .eq ↔ _
  rw [Ordering.then_eq_eq]
  rfl

instance : Std.LawfulEqOrd PMLeaseKey where
  compare_self := by
    intro a
    rw [PMLeaseKey.compare_eq_iff]
    exact ⟨Std.ReflCmp.compare_self, Std.ReflCmp.compare_self⟩
  eq_of_compare := by
    rintro ⟨proto, port⟩ ⟨proto', port'⟩ h
    rw [PMLeaseKey.compare_eq_iff] at h
    obtain ⟨rfl, rfl⟩ := And.imp Std.LawfulEqOrd.compare_eq_iff_eq.mp
      Std.LawfulEqOrd.compare_eq_iff_eq.mp h
    rfl

structure PMDesired where
  key : PMLeaseKey
  source : String
  hint : Nat := 0
deriving DecidableEq, Repr

/-- One live mapping, the row that asked for it, and the gateway that granted it. The last is ours:
the source keeps the lease and its row. -/
structure PMHeld where
  lease : PortMapLease
  source : String
  grantedBy : Addr
deriving DecidableEq, Repr

/-- A wanted mapping the gateway would not grant. -/
structure PMFailure where
  source : String
  err : String
deriving DecidableEq, Repr

/-- What the status card shows. An uplink that no pass has reached is pending. -/
inductive PortMapVerdict where
  | pending
  | disabled
  | publicDirect
  | ok
  /-- `partial`: some ports could not be mapped. -/
  | partly
  | nestedNAT
  | noService
  | denied
  | error
deriving DecidableEq, Repr

structure PMWANState where
  wan : PortMapWAN := {}
  gateway : Option Addr := none
  probe : PortMapProbe := {}
  probed : Bool := false
  epoch : PortMapEpoch := {}
  held : GoMap PMLeaseKey PMHeld := ∅
  failed : GoMap PMLeaseKey PMFailure := ∅
  verdict : PortMapVerdict := .pending
  lastErr : String := ""
  suspended : Bool := false

structure PMInputs where
  wan : PortMapWAN
  key : String
  enabled : Bool
  desired : List PMDesired := []

inductive PMEvent where
  | acquired (ifName : String) (key : PMLeaseKey) (external : Option Addr) (externalPort : Nat)
      (method : String)
  /-- A lease that could not be renewed in time. -/
  | expired (ifName : String) (key : PMLeaseKey)
  /-- Given back to a router that is no longer ours to ask. -/
  | released (ifName : String) (count : Nat)
  | dropped (ifName : String) (count : Nat) (reason : String)
  | denied (ifName : String)
deriving DecidableEq, Repr

/-- What the mapper does: its calls, and the events it emits. -/
inductive PMAct where
  | probe (wan : PortMapWAN)
  | map (wan : PortMapWAN) (req : PortMapRequest)
  /-- The lease is given back; `grantedBy` is the gateway it was granted by. -/
  | unmap (wan : PortMapWAN) (lease : PortMapLease) (grantedBy : Addr)
  | emit (event : PMEvent)
deriving DecidableEq, Repr

/-- An uplink's state, and what the mapper has done so far. -/
structure Mapping where
  st : PMWANState := {}
  acts : List PMAct := []

/-- An address the internet can dial. -/
def publicV4 : Option Addr → Bool
  | none => false
  | some a => a.is4 && !a.isPrivate && !((parsePrefix "100.64.0.0/10").any (·.contains a)) &&
      !a.isLoopback && !a.isLinkLocalUnicast && !a.isUnspecified

/-! ## The reconciler -/

namespace Mapping
variable (m : Mapping)

def record (acts : List PMAct) : Mapping := { m with acts := m.acts ++ acts }

/-- Drop the record without dialing. -/
def forgetPortMapLeases (why : String) : Mapping :=
  { st := { m.st with held := ∅ }
    acts := m.acts ++
      if m.st.held.isEmpty then [] else [.emit (.dropped m.st.wan.ifName m.st.held.size why)] }

/-- Give every mapping back, then forget it. -/
def releasePortMapLeases (lost : Bool) : Mapping :=
  { st := { m.st with held := ∅, probed := false }
    acts := m.acts ++ (m.st.held.toList.map fun e => .unmap m.st.wan e.2.lease e.2.grantedBy) ++
      if lost && !m.st.held.isEmpty then [.emit (.released m.st.wan.ifName m.st.held.size)]
      else [] }

/-- `noteEpoch`, and what its callers do about a reboot: the router forgot every mapping. -/
def noteEpoch (e : PortMapEpoch) : Mapping :=
  if !e.known then m
  else
    let noted : Mapping := { m with st := { m.st with epoch := e } }
    if m.st.epoch.rebooted e then noted.forgetPortMapLeases "the upstream router rebooted"
    else noted

def disable (inp : PMInputs) : Mapping :=
  let m := m.releasePortMapLeases false
  { m with st := { m.st with wan := inp.wan, verdict := .disabled, lastErr := "", failed := ∅ } }

def noGateway (inp : PMInputs) : Mapping :=
  { m with
    st := { m.st with wan := inp.wan, verdict := .error, lastErr := "no gateway learned yet" } }

def moved (gw : Addr) : Bool := m.st.gateway.any (· != gw)

/-- The uplink is taken over; what another gateway granted is given back first. -/
def adopt (inp : PMInputs) (gw : Addr) : Mapping :=
  if m.moved gw then
    let m := m.releasePortMapLeases true
    { m with st := { m.st with wan := inp.wan, gateway := some gw, probed := false, probe := {}
                               epoch := {} } }
  else { m with st := { m.st with wan := inp.wan, gateway := some gw } }

/-- No NAT in front of the uplink. -/
def publicDirect : Mapping :=
  let m := m.releasePortMapLeases false
  { m with st := { m.st with verdict := .publicDirect, lastErr := "", failed := ∅ } }

/-- The probe, when the last is not there or not trusted; `error` when the pass ends with it. -/
def ensureProbe (inp : PMInputs) (a : Answers) : Except Mapping Mapping :=
  if m.st.probed && !decide (portMapProbeTrust < a.now - m.st.probe.seenAt) then .ok m
  else
    let m := m.record [.probe inp.wan]
    match a.probe with
    | .error text => .error { m with st := { m.st with verdict := .error, lastErr := text } }
    | .ok probe =>
      let m := m.noteEpoch probe.epoch
      .ok { m with st := { m.st with probe := probe, probed := true } }

/-- A verdict, and the event when it has become a refusal. -/
def judge (inp : PMInputs) (verdict : PortMapVerdict) (lastErr : String) : Mapping :=
  { st := { m.st with verdict := verdict, lastErr := lastErr }
    acts := m.acts ++
      if verdict = .denied ∧ m.st.verdict ≠ .denied then [.emit (.denied inp.wan.ifName)] else [] }

def noService (inp : PMInputs) : Mapping :=
  if m.st.probe.denied then m.judge inp .denied "the upstream router refuses port mappings"
  else m.judge inp .noService ""

def releaseStale (inp : PMInputs) : Mapping :=
  let wanted := fun k => inp.desired.any (·.key == k)
  { st := { m.st with held := m.st.held.filter fun k _ => wanted k
                      failed := m.st.failed.filter fun k _ => wanted k }
    acts := m.acts ++ (m.st.held.toList.filter fun e => !wanted e.1).map fun e =>
      .unmap inp.wan e.2.lease e.2.grantedBy }

end Mapping

/-- The call for a wanted port. A renewal asks for the port it holds and shows its nonce. -/
def PMDesired.request (d : PMDesired) (held : Option PMHeld) : PortMapRequest :=
  let req : PortMapRequest :=
    { proto := d.key.proto, internalPort := d.key.port, externalHint := d.hint
      lifetime := portMapLease, description := "nasnet:" ++ d.source }
  match held with
  | none => req
  | some h =>
    { req with externalHint := h.lease.externalPort, renewal := true, nonce := h.lease.nonce }

/-- The loop over the wanted ports: the state, and which refusals were seen. -/
structure Acquiring where
  m : Mapping
  deniedSeen : Bool := false
  nestedSeen : Bool := false

/-- One turn of the loop: acquire the missing, renew the due. -/
def Acquiring.acquire (inp : PMInputs) (gw : Addr) (a : Answers) (r : Acquiring)
    (d : PMDesired × Nat) : Acquiring :=
  let key := d.1.key
  let held := r.m.st.held[key]?
  if held.any fun h => a.dueAt d.2 < h.lease.renewAfter then r
  else
    let req := d.1.request held
    let m := r.m.record [.map inp.wan req]
    match a.map d.2 req with
    | .error e =>
      let expired := held.any fun h => h.lease.goodUntil < a.failedAt d.2
      { m :=
          { st := { m.st with
              failed := m.st.failed.insert key { source := d.1.source, err := e.text }
              -- gone upstream too
              held := if expired then m.st.held.erase key else m.st.held }
            acts := m.acts ++ if expired then [.emit (.expired inp.wan.ifName key)] else [] }
        deniedSeen := r.deniedSeen || e.kind == .denied
        nestedSeen := r.nestedSeen || e.kind == .nestedNAT }
    | .ok lease =>
      let m := m.noteEpoch lease.epoch
      { r with
        m :=
          { st := { m.st with
                    held := m.st.held.insert key
                      { lease := lease, source := d.1.source, grantedBy := gw }
                    failed := m.st.failed.erase key }
            acts := m.acts ++ if held.isSome then [] else
              [.emit (.acquired inp.wan.ifName key lease.external lease.externalPort
                lease.method)] } }

/-- The leases held against what was wanted. -/
def Acquiring.setPortMapVerdict (inp : PMInputs) (r : Acquiring) : Mapping :=
  let st := r.m.st
  let privateExternal := st.held.toList.any fun e => !publicV4 e.2.lease.external
  let missing := inp.desired.countP fun d => st.held[d.key]?.isNone
  if privateExternal || r.nestedSeen then
    r.m.judge inp .nestedNAT
      "the upstream router is itself behind NAT — its forward cannot reach the internet"
  else if missing = 0 then r.m.judge inp .ok ""
  else if r.deniedSeen && st.held.isEmpty then
    r.m.judge inp .denied "the upstream router refuses port mappings"
  else if !st.held.isEmpty then
    r.m.judge inp .partly s!"{missing} of {inp.desired.length} ports could not be mapped"
  else r.m.judge inp .error ((st.failed.toList.head?.map fun e => e.2.err).getD "")

def reconcilePortMapWAN (inp : PMInputs) (a : Answers) (m : Mapping) : Mapping :=
  if !inp.enabled then m.disable inp
  else
    match inp.wan.gateway with
    | none => m.noGateway inp
    | some gw =>
      let m := m.adopt inp gw
      if publicV4 inp.wan.selfIP then m.publicDirect
      else
        match m.ensureProbe inp a with
        | .error m => m
        | .ok m =>
          if !m.st.probe.any then m.noService inp
          else
            let r : Acquiring := { m := m.releaseStale inp }
            (inp.desired.zipIdx.foldl (Acquiring.acquire inp gw a) r).setPortMapVerdict inp

/-! ## What one pass is about -/

/-- One wanted port, unless it is out of range or already there. -/
def wantPort (out : List PMDesired) (proto : String) (port : Int) (source : String) (hint : Nat) :
    List PMDesired :=
  let key : PMLeaseKey := { proto := proto, port := port.toNat }
  if port ≤ 0 ∨ 65535 < port ∨ out.any (·.key == key) then out
  else out ++ [{ key := key, source := source, hint := hint }]

def desiredPortMaps (inbounds : List InboundSpec) (rules : List PortMapRule) (uplinkKey : String) :
    List PMDesired :=
  let auto := (inbounds.filter fun ib => ib.enabled && !ib.noAutoMap).foldl
    (fun out ib => wantPort out ib.proto ib.port ib.tag 0) []
  let manual := rules.filter fun r => r.enabled && (r.uplinkKey == "" || r.uplinkKey == uplinkKey)
  let all := manual.foldl (fun out r => wantPort out r.proto r.port
    (if r.comment = "" then "manual" else r.comment)
    (if 0 < r.externalHint ∧ r.externalHint ≤ 65535 then r.externalHint.toNat else 0)) auto
  all.insertionSort fun a b => (compare a.key b.key).isLE = true

/-- The columns of a WAN row that the mapper reads. -/
structure PMRow where
  ifName : String := ""
  healthy : Bool := false
  staticGateway : String := ""
  learnedGateway : String := ""
deriving DecidableEq, Repr

/-- What a pass reads: the repositories, the addresses of the host, and the routers' answers. -/
structure PassEnv where
  uplinks : List Uplink
  /-- `none` when the rows cannot be read. -/
  rows : Option (List PMRow)
  enabled : Bool
  inbounds : List InboundSpec := []
  rules : List PortMapRule := []
  /-- Interface and CIDR; empty when they cannot be read. -/
  addrs : List (String × String) := []
  answers : Nat → Answers := fun _ => {}

namespace PassEnv
variable (env : PassEnv)

/-- The interface's first IPv4 address that is not link-local. -/
def selfIP (ifName : String) : Option Addr :=
  if env.enabled then
    env.addrs.findSome? fun (name, cidr) =>
      match parsePrefix cidr with
      | some p => if name = ifName ∧ p.addr.is4 ∧ !p.addr.isLinkLocalUnicast then some p.addr
        else none
      | none => none
  else none

/-- The inputs of one uplink; `none` when it is suspended. -/
def inputsFor (rows : List PMRow) (up : Uplink) : Option PMInputs :=
  let row := (rows.filter fun r => r.ifName = up.ifName).getLast?.getD {}
  if env.enabled && !row.healthy then none
  else
    let gateway := if row.staticGateway = "" then row.learnedGateway else row.staticGateway
    some
      { wan := { ifName := up.ifName, gateway := parseAddr gateway, selfIP := env.selfIP up.ifName }
        key := up.key
        enabled := env.enabled
        desired := if env.enabled then desiredPortMaps env.inbounds env.rules up.key else [] }

def inputs : List (PMInputs × Answers) :=
  match env.rows with
  | none => []
  | some rows => env.uplinks.zipIdx.filterMap fun (up, i) =>
      (env.inputsFor rows up).map fun inp => (inp, env.answers i)

end PassEnv

/-- The mapper's states by uplink key, and what it has done so far. -/
structure PortMapper where
  states : GoMap String PMWANState := ∅
  acts : List PMAct := []

open PortMapper

namespace PortMapper
variable (s : PortMapper)

/-- A state is made where there is none. -/
def portMapStateFor (key : String) : Mapping := { st := s.states.getD key {}, acts := s.acts }

def onState (key : String) (f : Mapping → Mapping) : PortMapper :=
  let m := f (s.portMapStateFor key)
  { states := s.states.insert key m.st, acts := m.acts }

/-- `gatherPortMapInputs` marks the uplinks that are down. -/
def markSuspended (env : PassEnv) : PortMapper :=
  match env.rows with
  | none => s
  | some rows => env.uplinks.foldl (fun s up => s.onState up.key fun m =>
      { m with st := { m.st with suspended := (env.inputsFor rows up).isNone } }) s

/-- The states that were passed over because the uplink is down. -/
def suspendedKeys : List String := (s.states.toList.filter fun e => e.2.suspended).map (·.1)

/-- A state's mappings are given back and the state is deleted. -/
def retire (key : String) : PortMapper :=
  let s := s.onState key (·.releasePortMapLeases true)
  { s with states := s.states.erase key }

/-- Release what is no longer an uplink. -/
def prunePortMapStates (keep : List String) : PortMapper :=
  (s.states.keys.filter fun key => !keep.contains key).foldl retire s

def reconcile (i : PMInputs × Answers) : PortMapper :=
  s.onState i.1.key (reconcilePortMapWAN i.1 i.2)

/-- What a pass has done before it comes to the uplinks. -/
def prepare (env : PassEnv) : PortMapper :=
  let s := s.markSuspended env
  if env.inputs.isEmpty then s
  else s.prunePortMapStates (env.inputs.map (·.1.key) ++ s.suspendedKeys)

def portMapPass (env : PassEnv) : PortMapper := env.inputs.foldl reconcile (s.prepare env)

/-- `releaseAllPortMaps`, the shutdown. -/
def releaseAllPortMaps : PortMapper :=
  s.states.keys.foldl (fun s key => s.onState key (·.releasePortMapLeases false)) s

def forcePortMapProbe : PortMapper :=
  { s with states := s.states.map fun _ st => { st with probed := false } }

end PortMapper

inductive PMLabel where
  | pass (env : PassEnv)
  | forceProbe
  | shutdown

def portMapStep (s : PortMapper) : PMLabel → Option PortMapper
  | .pass env => some (s.portMapPass env)
  | .forceProbe => some s.forcePortMapProbe
  | .shutdown => some s.releaseAllPortMaps

/-! ## To whom a lease is given back -/

/-- Every lease given back was given to the gateway that granted it. -/
def ToGranter (acts : List PMAct) : Prop :=
  ∀ wan lease grantedBy, .unmap wan lease grantedBy ∈ acts → wan.gateway = some grantedBy

/-- The leases of an uplink are its gateway's, and its calls go there. -/
structure Backed (m : Mapping) : Prop where
  gateway : ∀ (k : PMLeaseKey) (h : PMHeld), m.st.held[k]? = some h →
    m.st.gateway = some h.grantedBy
  wan : ∀ (k : PMLeaseKey) (h : PMHeld), m.st.held[k]? = some h →
    m.st.wan.gateway = some h.grantedBy
  returned : ToGranter m.acts

/-- The same in the middle of a pass, with the gateway of the pass. -/
structure OnRouter (wan : PortMapWAN) (gw : Addr) (m : Mapping) : Prop where
  known : wan.gateway = some gw
  wan : m.st.wan = wan
  gateway : m.st.gateway = some gw
  held : ∀ (k : PMLeaseKey) (h : PMHeld), m.st.held[k]? = some h → h.grantedBy = gw
  returned : ToGranter m.acts

section Returned
variable {acts more : List PMAct}

theorem ToGranter.append (h : ToGranter acts) (h' : ToGranter more) : ToGranter (acts ++ more) := by
  intro wan lease grantedBy mem
  rcases mem_append.mp mem with mem | mem
  · exact h wan lease grantedBy mem
  · exact h' wan lease grantedBy mem

theorem toGranter_emit (c : Prop) [Decidable c] (event : PMEvent) :
    ToGranter (if c then [.emit event] else []) := by
  intro wan lease grantedBy mem
  split at mem
  · cases mem_singleton.mp mem
  · cases mem

theorem toGranter_emit_unless (c : Prop) [Decidable c] (event : PMEvent) :
    ToGranter (if c then [] else [.emit event]) := by
  rw [← ite_not]
  exact toGranter_emit _ event

theorem toGranter_unmap {wan : PortMapWAN} {leases : List (PMLeaseKey × PMHeld)}
    (h : ∀ e ∈ leases, wan.gateway = some e.2.grantedBy) :
    ToGranter (leases.map fun e => .unmap wan e.2.lease e.2.grantedBy) := by
  intro wan' lease grantedBy mem
  obtain ⟨e, he, same⟩ := List.mem_map.mp mem
  cases same
  exact h e he

end Returned

section Adopt
variable {inp : PMInputs} {a : Answers} {m : Mapping} {wan : PortMapWAN} {gw : Addr}

theorem backed_of_empty (none : m.st.held = ∅) (returned : ToGranter m.acts) : Backed m := by
  constructor
  · intro k h found
    rw [none] at found
    simp at found
  · intro k h found
    rw [none] at found
    simp at found
  · exact returned

theorem OnRouter.backed (h : OnRouter wan gw m) : Backed m := by
  constructor
  · intro k e found
    rw [h.gateway, h.held k e found]
  · intro k e found
    rw [h.wan, h.known, h.held k e found]
  · exact h.returned

theorem Backed.release (h : Backed m) (lost : Bool) :
    ToGranter (m.releasePortMapLeases lost).acts := by
  refine (h.returned.append (toGranter_unmap ?_)).append (toGranter_emit _ _)
  intro e he
  exact h.wan e.1 e.2 (mem_toList_iff_getElem?_eq_some.mp he)

theorem Backed.adopt (h : Backed m) (known : inp.wan.gateway = some gw) :
    OnRouter inp.wan gw (m.adopt inp gw) := by
  unfold Mapping.adopt
  split
  · -- the other gateway's leases are gone
    refine ⟨known, rfl, rfl, ?_, h.release true⟩
    intro k e found
    simp [Mapping.releasePortMapLeases] at found
  next same =>
    refine ⟨known, rfl, rfl, ?_, h.returned⟩
    intro k e found
    have gateway := h.gateway k e found
    rw [Mapping.moved, gateway] at same
    simpa using same

end Adopt

section Keep
variable {inp : PMInputs} {a : Answers} {m : Mapping} {wan : PortMapWAN} {gw : Addr}
  (h : OnRouter wan gw m)
include h

theorem OnRouter.record {acts : List PMAct} (toGranter : ToGranter acts) :
    OnRouter wan gw (m.record acts) :=
  { h with returned := h.returned.append toGranter }

theorem OnRouter.forget (why : String) : OnRouter wan gw (m.forgetPortMapLeases why) := by
  refine ⟨h.known, h.wan, h.gateway, ?_, h.returned.append (toGranter_emit_unless _ _)⟩
  intro k e found
  simp [Mapping.forgetPortMapLeases] at found

theorem OnRouter.noteEpoch (e : PortMapEpoch) : OnRouter wan gw (m.noteEpoch e) := by
  have noted : OnRouter wan gw { m with st := { m.st with epoch := e } } :=
    { h with }
  unfold Mapping.noteEpoch
  split
  · exact h
  split
  · exact noted.forget _
  · exact noted

theorem OnRouter.judge (verdict : PortMapVerdict) (lastErr : String) :
    OnRouter wan gw (m.judge inp verdict lastErr) :=
  { h with returned := h.returned.append (toGranter_emit _ _) }

theorem OnRouter.ensureProbe {m' : Mapping}
    (done : m.ensureProbe inp a = .error m' ∨ m.ensureProbe inp a = .ok m') :
    OnRouter wan gw m' := by
  have recorded : OnRouter wan gw (m.record [.probe inp.wan]) :=
    h.record (fun _ _ _ mem => by cases mem_singleton.mp mem)
  unfold Mapping.ensureProbe at done
  split at done
  · obtain done | done := done
    · cases done
    · cases done
      exact h
  · cases answer : a.probe with
    | error text =>
      rw [answer] at done
      obtain done | done := done
      · cases done
        exact { h with returned := recorded.returned }
      · cases done
    | ok probe =>
      rw [answer] at done
      have noted := recorded.noteEpoch probe.epoch
      obtain done | done := done
      · cases done
      · cases done
        exact { noted with known := h.known }

theorem OnRouter.releaseStale (here : inp.wan = wan) : OnRouter wan gw (m.releaseStale inp) := by
  refine ⟨h.known, h.wan, h.gateway, ?_, h.returned.append (toGranter_unmap ?_)⟩
  · intro k e found
    exact h.held k e (of_filter found).1
  intro e he
  have found := mem_toList_iff_getElem?_eq_some.mp (List.mem_filter.mp he).1
  rw [here, h.known, h.held e.1 e.2 found]

end Keep

section Loop
variable {inp : PMInputs} {a : Answers} {wan : PortMapWAN} {gw : Addr} {r : Acquiring}

theorem OnRouter.acquire (h : OnRouter wan gw r.m) (d : PMDesired × Nat) :
    OnRouter wan gw (r.acquire inp gw a d).m := by
  unfold Acquiring.acquire
  dsimp only
  split
  · exact h
  have asked : OnRouter wan gw (r.m.record [.map inp.wan (d.1.request r.m.st.held[d.1.key]?)]) :=
    h.record (fun _ _ _ mem => by cases mem_singleton.mp mem)
  cases a.map d.2 (d.1.request r.m.st.held[d.1.key]?) with
  | error e =>
    refine ⟨h.known, h.wan, h.gateway, ?_, asked.returned.append (toGranter_emit _ _)⟩
    intro k e found
    dsimp only at found
    split at found
    · exact h.held k e (of_erase found).2
    · exact h.held k e found
  | ok lease =>
    have noted := asked.noteEpoch lease.epoch
    exact ⟨h.known, noted.wan, noted.gateway, forall_insert rfl noted.held,
      noted.returned.append (toGranter_emit_unless _ _)⟩

theorem OnRouter.acquireAll (h : OnRouter wan gw r.m) (wanted : List (PMDesired × Nat)) :
    OnRouter wan gw (wanted.foldl (Acquiring.acquire inp gw a) r).m := by
  induction wanted generalizing r with
  | nil => exact h
  | cons d rest ih => exact ih (h.acquire d)

theorem OnRouter.setPortMapVerdict (h : OnRouter wan gw r.m) :
    OnRouter wan gw (r.setPortMapVerdict inp) := by
  unfold Acquiring.setPortMapVerdict
  dsimp only
  repeat' split
  all_goals exact h.judge _ _

/-- **One uplink's pass keeps the leases its gateway's**, unless it has leases and no gateway is
known. -/
theorem Backed.reconcile {m : Mapping} (h : Backed m)
    (known : inp.enabled = true → inp.wan.gateway = none → m.st.held = ∅) :
    Backed (reconcilePortMapWAN inp a m) := by
  unfold reconcilePortMapWAN
  split
  · exact backed_of_empty rfl (h.release false)
  next enabled =>
    have enabled : inp.enabled = true := by simpa using enabled
    split
    next none => exact backed_of_empty (known enabled none) h.returned
    next gw some =>
      have adopted := h.adopt some
      dsimp only
      split
      · exact backed_of_empty rfl (adopted.backed.release false)
      split
      next m' failed => exact (adopted.ensureProbe (.inl failed)).backed
      next m' done =>
        have probed := adopted.ensureProbe (.inr done)
        split
        · unfold Mapping.noService
          split <;> exact (probed.judge _ _).backed
        have stale : OnRouter inp.wan gw ({ m := m'.releaseStale inp } : Acquiring).m :=
          probed.releaseStale rfl
        exact (stale.acquireAll _).setPortMapVerdict.backed

end Loop

/-! ## Whole runs -/

/-- Every state of the mapper is backed by its gateway. -/
structure MapperInv (s : PortMapper) : Prop where
  states : ∀ key, Backed (s.portMapStateFor key)
  returned : ToGranter s.acts

section Runs
variable {s : PortMapper} {key : String}

/-- A state that is put back under its key, or left out. -/
theorem MapperInv.put {m : Mapping} (h : MapperInv s) (key : String) (backed : Backed m)
    {states : GoMap String PMWANState}
    (same : ∀ k, k ≠ key → states[k]? = s.states[k]?)
    (here : states[key]? = some m.st ∨ states[key]? = none) :
    MapperInv { states := states, acts := m.acts } := by
  refine ⟨?_, backed.returned⟩
  intro k
  have read : ({ states := states, acts := m.acts } : PortMapper).portMapStateFor k =
      { st := states[k]?.getD {}, acts := m.acts } := by
    rw [portMapStateFor, getD_eq]
  rw [read]
  by_cases at_key : k = key
  · rw [at_key]
    rcases here with here | here
    · rw [here]
      exact { backed with }
    · rw [here]
      exact backed_of_empty rfl backed.returned
  · rw [same k at_key, ← getD_eq]
    exact { h.states k with returned := backed.returned }

/-- One state changes and is backed again. -/
theorem MapperInv.onState {f : Mapping → Mapping} (h : MapperInv s)
    (backed : Backed (f (s.portMapStateFor key))) : MapperInv (s.onState key f) := by
  apply h.put key backed
  · intro k other
    rw [GoMap.getElem?_insert, if_neg other]
  · left
    rw [GoMap.getElem?_insert, if_pos rfl]

theorem MapperInv.release (h : MapperInv s) (lost : Bool) :
    MapperInv (s.onState key (·.releasePortMapLeases lost)) :=
  h.onState (backed_of_empty rfl ((h.states key).release lost))

/-- An uplink is retired, with its leases given back. -/
theorem MapperInv.retire (h : MapperInv s) : MapperInv (s.retire key) := by
  apply h.put key (backed_of_empty rfl ((h.states key).release true))
  · intro k other
    rw [GoMap.getElem?_erase, if_neg other]
    exact (getElem?_insert _ _ _ _).trans (if_neg other)
  · right
    rw [GoMap.getElem?_erase, if_pos rfl]

theorem MapperInv.prepare (h : MapperInv s) (env : PassEnv) : MapperInv (s.prepare env) := by
  have marked : MapperInv (s.markSuspended env) := by
    unfold markSuspended
    split
    · exact h
    apply List.foldlRecOn
    · exact h
    intro s h up _
    apply h.onState
    have backed := h.states up.key
    exact { backed with }
  unfold PortMapper.prepare
  split
  · exact marked
  · exact List.foldlRecOn _ _ marked (fun s h key _ => h.retire)

end Runs

/-- No uplink that holds leases is reconciled without a gateway. -/
def gatewaysKnown : PortMapper → List (PMInputs × Answers) → Bool
  | _, [] => true
  | s, i :: rest =>
    (!i.1.enabled || i.1.wan.gateway.isSome || (s.portMapStateFor i.1.key).st.held.isEmpty) &&
      gatewaysKnown (s.reconcile i) rest

/-- In the pass, if it is one. -/
def PMLabel.gatewaysKnown (s : PortMapper) : PMLabel → Bool
  | .pass env => Network.gatewaysKnown (s.prepare env) env.inputs
  | _ => true

variable {s : PortMapper}

/-- The uplinks of a pass, one after the other. -/
theorem MapperInv.reconcileAll {inputs : List (PMInputs × Answers)}
    (h : MapperInv s) (known : gatewaysKnown s inputs = true) :
    MapperInv (inputs.foldl PortMapper.reconcile s) := by
  induction inputs generalizing s with
  | nil => exact h
  | cons i rest ih =>
    rw [gatewaysKnown, Bool.and_eq_true] at known
    apply ih _ known.2
    apply h.onState
    apply (h.states _).reconcile
    intro enabled none
    have empty := known.1
    rw [enabled, none] at empty
    exact Std.ExtTreeMap.isEmpty_iff.mp (by simpa using empty)

/-- One step keeps every state backed by its gateway, while gateways are known. -/
theorem mapperInv_step (s : PortMapper) (label : PMLabel) (s' : PortMapper) (h : MapperInv s)
    (known : label.gatewaysKnown s = true) (step : portMapStep s label = some s') :
    MapperInv s' := by
  cases label with
  | pass env =>
    cases step
    exact (h.prepare env).reconcileAll known
  | forceProbe =>
    cases step
    refine ⟨?_, h.returned⟩
    intro key
    have backed := h.states key
    rw [portMapStateFor, getD_eq] at backed ⊢
    unfold forcePortMapProbe
    rw [Std.ExtTreeMap.getElem?_map]
    cases found : s.states[key]? with
    | none => exact backed_of_empty rfl h.returned
    | some st =>
      rw [found] at backed
      exact { backed with }
  | shutdown =>
    cases step
    exact List.foldlRecOn _ _ h (fun s h key _ => h.release false)

/-- **Every lease given back goes to the gateway that granted it**, over every run of passes, probes
and shutdowns in which no uplink with leases is reconciled without a gateway. -/
theorem unmap_to_granter (labels : List PMLabel) (s : PortMapper)
    (known : Runs.Along portMapStep (fun s label => label.gatewaysKnown s = true) {} labels)
    (h : Runs.run portMapStep {} labels = some s) : ToGranter s.acts := by
  have start : MapperInv {} := by
    constructor
    · intro key
      apply backed_of_empty
      · simp [portMapStateFor, getD_eq]
      · intro _ _ _ mem
        cases mem
    · intro _ _ _ mem
      cases mem
  exact (Runs.run_inv_along mapperInv_step start known h).returned

def grants : Answers where
  probe := .ok { pmp := true }
  map := fun _ req => .ok
    { proto := req.proto, internalPort := req.internalPort, external := parseAddr "203.0.113.7"
      externalPort := req.internalPort, method := "natpmp", goodUntil := portMapLease
      renewAfter := portMapLease / 2 }

/-- A pass over one healthy line behind a router, with one port to map. -/
def linePass (enabled : Bool) (gateway : String) : PMLabel :=
  .pass
    { uplinks := [lineA]
      rows := some [{ ifName := "eth0", healthy := true, learnedGateway := gateway }]
      enabled := enabled
      rules := [{ proto := "tcp", port := 8080 }]
      answers := fun _ => grants }

/-- The gateways asked to take leases back, each with the one that granted. -/
def PortMapper.returns (s : PortMapper) : List (Option Addr × Addr) :=
  s.acts.filterMap fun
    | .unmap wan _ grantedBy => some (wan.gateway, grantedBy)
    | _ => none

theorem PortMapper.unmap_of_returns {asked : Option Addr} {grantedBy : Addr}
    (h : (asked, grantedBy) ∈ s.returns) :
    ∃ wan lease, .unmap wan lease grantedBy ∈ s.acts ∧ wan.gateway = asked := by
  obtain ⟨act, mem, h⟩ := List.mem_filterMap.mp h
  split at h
  · cases h
    exact ⟨_, _, mem, rfl⟩
  · cases h

/-- The router is replaced, and the box shut down. -/
def replacedRun : List PMLabel :=
  [linePass true "192.168.1.1", linePass true "192.168.2.1", .shutdown]

theorem unmap_to_granter_replacedRun :
    ∃ s, Runs.run portMapStep {} replacedRun = some s ∧ s.returns.length = 2 ∧
      ToGranter s.acts := by
  have outcome : (Runs.runChecked portMapStep (fun s label => label.gatewaysKnown s) {}
      replacedRun).map (·.returns.length) = some 2 := by
    decide
  obtain ⟨s, ran, returned⟩ := map_eq_some_iff.mp outcome
  obtain ⟨reached, known⟩ := Runs.of_runChecked ran
  exact ⟨s, reached, returned, unmap_to_granter replacedRun s known reached⟩

def firstRouter : Addr := { ip := Inet.ofV4 0xC0A80101#32, is4 := true }

/-- The gateway is not known for one pass, and mapping is turned off when it is back. -/
def lostGatewayRun : List PMLabel :=
  [linePass true "192.168.1.1", linePass true "", linePass false "192.168.1.1"]

/-- **A lease is given back to no router at all**, after a pass that knew no gateway. -/
theorem unmap_to_nobody :
    ∃ s, Runs.run portMapStep {} lostGatewayRun = some s ∧
      ∃ wan lease, .unmap wan lease firstRouter ∈ s.acts ∧ wan.gateway = none := by
  have outcome : (Runs.run portMapStep {} lostGatewayRun).map (·.returns) =
      some [(none, firstRouter)] := by
    decide
  obtain ⟨s, reached, returned⟩ := map_eq_some_iff.mp outcome
  refine ⟨s, reached, unmap_of_returns ?_⟩
  rw [returned]
  exact mem_singleton_self _

end NasnetPanel.Network
