import Mathlib.Data.List.Dedup
import Mathlib.Data.List.Induction
import NasnetPanel.Subscription.Domain

/-!
# Subscription.Access — whom a push lets onto a node

A push gives a node its Xray users (`nodeUsers`), its WireGuard peers (`ActivePeersByInbound`) and
its core users (`BuildCoreStatePayloads`). Each row has a status of its own, which is only as right
as the last hook that wrote it, so each of the three asks the subscription too.

They differ in what they make of a subscription that is not there any more. A peer and a core user
of one are left out. An account's subscription is preloaded with the account: for a deleted one the
preload is empty, as it is for an account that never had one, and the account is pushed.
`pushed_only_granted` says that this is all that goes wrong: a push lets on only who is entitled
just where the subscription of every account it lets on is there.

All reads of the database succeed here.
-/

namespace NasnetPanel.Access
open Subscriptions List Option

/-! ## The database -/

/-- A row of `subscriptions`; `deleted` is the soft delete. -/
structure SubscriptionRow where
  id : Nat
  sub : Subscription
  deleted : Bool := false
  configEmail : String := ""
deriving DecidableEq, Repr

structure Inbound where
  id : Nat
  nodeID : Nat
  tag : String
  protocol : String
  isDisabled : Bool := false
  deleted : Bool := false
deriving DecidableEq, Repr

inductive AccountStatus where
  | active | disabled | expired | pendingProvision
deriving DecidableEq, Repr

structure Account where
  inboundID : Nat
  email : String
  uuid : String
  flow : String := ""
  encryption : String := "none"
  subscriptionID : Option Nat
  status : AccountStatus := .active
  deleted : Bool := false
deriving DecidableEq, Repr

inductive PeerStatus where
  | active | disabled
deriving DecidableEq, Repr

/-- A row of `wg_peers`; a subscription id of 0 is none. -/
structure WGPeer where
  id : Nat
  subscriptionID : Nat
  inboundID : Nat
  publicKey : String
  presharedKey : String
  assignedIP : String
  status : PeerStatus
deriving DecidableEq, Repr

inductive CoreProtocol where
  | ssh | mtproto
deriving DecidableEq, Repr

inductive EgressMode where
  | direct | xray | hub
deriving DecidableEq, Repr

structure CoreInbound where
  id : Nat
  nodeID : Nat
  protocol : CoreProtocol
  listen : String
  port : Nat
  egressMode : EgressMode
  isDisabled : Bool
deriving DecidableEq, Repr

structure CoreUserRow where
  coreInboundID : Nat
  subscriptionID : Option Nat
  username : String
  secret : String
  email : String
  kLimit : Nat
  enabled : Bool
deriving DecidableEq, Repr

structure Database where
  subscriptions : List SubscriptionRow
  inbounds : List Inbound
  accounts : List Account
  peers : List WGPeer
  coreInbounds : List CoreInbound
  coreUsers : List CoreUserRow
  /-- The protocols switched off on a node. -/
  disabledProtocols : Nat → CoreProtocol → Bool

structure Node where
  id : Nat
  isActive : Bool
deriving DecidableEq, Repr

/-- `FindByID`, and the preload of an account's subscription: a deleted row is not found. -/
def Database.findSubscription (db : Database) (id : Nat) : Option Subscription :=
  (db.subscriptions.find? fun r => r.id = id ∧ r.deleted = false).map (·.sub)

def Database.findInbound (db : Database) (id : Nat) : Option Inbound :=
  db.inbounds.find? fun r => r.id = id ∧ r.deleted = false

/-! ## Xray users -/

structure XrayUser where
  email : String
  uuid : String
  level : Nat
  protocol : String
  flow : String
  encryption : String
deriving DecidableEq, Repr

/-- `GetTier(mbps).Level`: the least tier of at least that rate, the highest one above all. -/
def tierLevel (mbps : Int) : Nat :=
  if mbps ≤ 0 then 0
  else (([10, 30, 50, 100, 200, 500] : List Int).findIdx? (mbps ≤ ·)).elim 6 (· + 1)

structure LoadedAccount where
  acc : Account
  inbound : Option Inbound
  subscription : Option Subscription
deriving DecidableEq, Repr

def Database.load (db : Database) (acc : Account) : LoadedAccount :=
  ⟨acc, db.findInbound acc.inboundID, acc.subscriptionID.bind db.findSubscription⟩

/-- `ListByNodeID`. The join to the inbounds looks at deleted ones too. -/
def Database.listByNodeID (db : Database) (nodeID : Nat) : List LoadedAccount :=
  (db.accounts.filter fun a => !a.deleted &&
    db.inbounds.any fun r => r.id = a.inboundID ∧ r.nodeID = nodeID).map db.load

def LoadedAccount.target (a : LoadedAccount) (now : Int) : Option Inbound :=
  match a.inbound with
  | none => none
  | some inb =>
    if a.acc.status ≠ .active then none
    else if (a.subscription.any fun s => !s.grantsAccess now) then none
    else if inb.isDisabled then none
    else some inb

def LoadedAccount.xrayUser (a : LoadedAccount) (inb : Inbound) : XrayUser :=
  { email := a.acc.email, uuid := a.acc.uuid
    level := a.subscription.elim 0 fun s => tierLevel s.effectiveBandwidthLimit
    protocol := inb.protocol, flow := a.acc.flow, encryption := a.acc.encryption }

/-- One turn of the loop: `usersMap` as the tags and users in order, `addedUUIDs` beside it. -/
def nodeUsersStep (now : Int) (acc : List (String × XrayUser) × List (String × String))
    (a : LoadedAccount) : List (String × XrayUser) × List (String × String) :=
  match a.target now with
  | none => acc
  | some inb =>
    if (inb.tag, a.acc.uuid) ∈ acc.2 then acc
    else (acc.1 ++ [(inb.tag, a.xrayUser inb)], (inb.tag, a.acc.uuid) :: acc.2)

def nodeUsers (db : Database) (now : Int) (node : Node) : List (String × XrayUser) :=
  if node.isActive then ((db.listByNodeID node.id).foldl (nodeUsersStep now) ([], [])).1 else []

/-! ## WireGuard peers -/

/-- `strings.EqualFold(protocol, "wireguard")`. -/
def isWireGuard (protocol : String) : Bool :=
  protocol.toList.map Char.toLower == "wireguard".toList

/-- The access resolver: a subscription that is gone grants nothing. -/
def accessResolver (db : Database) (now : Int) (ids : List Nat) (id : Nat) : Option Bool :=
  if id ∈ ids then some ((db.findSubscription id).any (·.grantsAccess now)) else none

def subscriptionIDs (rows : List WGPeer) : List Nat :=
  ((rows.map (·.subscriptionID)).filter (· ≠ 0)).dedup

def filterRevoked (db : Database) (now : Int) (rows : List WGPeer) : List WGPeer :=
  if subscriptionIDs rows = [] then rows
  else rows.filter fun p =>
    accessResolver db now (subscriptionIDs rows) p.subscriptionID ≠ some false

def activePeersByInbound (db : Database) (now : Int) (inboundID : Nat) : List WGPeer :=
  filterRevoked db now (db.peers.filter fun p => p.inboundID = inboundID ∧ p.status = .active)

/-- The device peers merged into the inbounds of a push. -/
def pushedPeers (db : Database) (now : Int) (node : Node) : List WGPeer :=
  if node.isActive then
    (db.inbounds.filter fun r => r.nodeID = node.id ∧ r.deleted = false ∧
      r.isDisabled = false ∧ isWireGuard r.protocol).flatMap fun r =>
        activePeersByInbound db now r.id
  else []

/-! ## Core users -/

structure UserPolicy where
  active : Bool
  expiresAt : Option Int := none
  rateLimitBps : Int := 0
deriving DecidableEq, Repr

/-- `tunnelPolicies`, for one id: a subscription that is gone revokes. -/
def tunnelPolicy (db : Database) (now : Int) (id : Nat) : UserPolicy :=
  match db.findSubscription id with
  | none => { active := false }
  | some sub =>
    let mbps := sub.effectiveBandwidthLimit
    { active := sub.grantsAccess now
      expiresAt := sub.effectiveEndDate
      rateLimitBps := if 0 < mbps then mbps * 1000000 / 8 else 0 }

structure CoreUser where
  username : String
  secret : String
  email : String
  kLimit : Nat
  enabled : Bool
  expiresAtUnix : Int := 0
  rateLimitUpBps : Int := 0
  rateLimitDownBps : Int := 0
deriving DecidableEq, Repr

structure CoreStatePayload where
  coreType : CoreProtocol
  inboundID : Nat
  enabled : Bool
  listen : String
  port : Nat
  egressMode : EgressMode
  users : List CoreUser
deriving DecidableEq, Repr

def Database.listUsersByInbound (db : Database) (inboundID : Nat) : List CoreUserRow :=
  db.coreUsers.filter (·.coreInboundID = inboundID)

def Database.listInboundsByNode (db : Database) (nodeID : Nat) : List CoreInbound :=
  db.coreInbounds.filter (·.nodeID = nodeID)

/-- The policies of all subscriptions behind the node's core users. -/
def resolvePolicies (db : Database) (now : Int) (inbounds : List CoreInbound) (id : Nat) :
    Option UserPolicy :=
  if id ∈ inbounds.flatMap fun i => (db.listUsersByInbound i.id).filterMap (·.subscriptionID)
  then some (tunnelPolicy db now id) else none

/-- A core user as pushed. The subscription can take access away, never grant it. -/
def coreUser (policies : Nat → Option UserPolicy) (u : CoreUserRow) : CoreUser :=
  let pu : CoreUser :=
    { username := u.username, secret := u.secret, email := u.email, kLimit := u.kLimit
      enabled := u.enabled }
  match u.subscriptionID.bind policies with
  | none => pu
  | some pol =>
    { pu with
      enabled := u.enabled && pol.active
      expiresAtUnix := pol.expiresAt.getD 0
      rateLimitUpBps := pol.rateLimitBps
      rateLimitDownBps := pol.rateLimitBps }

def buildCoreStatePayloads (db : Database) (now : Int) (nodeID : Nat) : List CoreStatePayload :=
  let inbounds := db.listInboundsByNode nodeID
  let policyBySub := resolvePolicies db now inbounds
  inbounds.map fun i =>
    { coreType := i.protocol, inboundID := i.id
      enabled := !i.isDisabled && !db.disabledProtocols nodeID i.protocol
      listen := i.listen, port := i.port, egressMode := i.egressMode
      users := (db.listUsersByInbound i.id).map (coreUser policyBySub) }

/-! ## Who is let on -/

def Granted (db : Database) (now : Int) (id : Nat) : Prop :=
  ∃ sub, db.findSubscription id = some sub ∧ sub.grantsAccess now = true

def Entitled (db : Database) (now : Int) (subscriptionID : Option Nat) : Prop :=
  ∀ id, subscriptionID = some id → Granted db now id

/-- What `addedUUIDs` knows an account by, if the account is let on. -/
def LoadedAccount.key (now : Int) (a : LoadedAccount) : Option (String × String) :=
  (a.target now).map fun inb => (inb.tag, a.acc.uuid)

/-- The first account of its tag and uuid. -/
def First (now : Int) (as : List LoadedAccount) (a : LoadedAccount) (inb : Inbound) : Prop :=
  a.target now = some inb ∧ ∃ before after, as = before ++ a :: after ∧
    ∀ b ∈ before, b.key now ≠ some (inb.tag, a.acc.uuid)

/-- A push of the node lets this account onto this inbound. -/
def LetOn (db : Database) (now : Int) (node : Node) (a : LoadedAccount) (inb : Inbound) : Prop :=
  node.isActive = true ∧ First now (db.listByNodeID node.id) a inb

section
variable {db : Database} {now : Int} {nodeID : Nat} {u : String × XrayUser}
  {p : WGPeer} {node : Node}

theorem first_concat {as : List LoadedAccount} {x a : LoadedAccount} {inb : Inbound} :
    First now (as ++ [x]) a inb ↔ First now as a inb ∨
      a = x ∧ x.target now = some inb ∧ ∀ b ∈ as, b.key now ≠ some (inb.tag, x.acc.uuid) := by
  constructor
  · rintro ⟨target, before, after, split, fresh⟩
    rcases eq_nil_or_concat after with rfl | ⟨mid, y, rfl⟩
    · obtain ⟨rfl, same⟩ := append_inj' split rfl
      cases same
      exact .inr ⟨rfl, target, fresh⟩
    · rw [concat_eq_append, ← cons_append, ← append_assoc] at split
      obtain ⟨rfl, -⟩ := append_inj' split rfl
      exact .inl ⟨target, before, mid, rfl, fresh⟩
  · rintro (⟨target, before, after, rfl, fresh⟩ | ⟨rfl, target, fresh⟩)
    · exact ⟨target, before, after ++ [x], by simp, fresh⟩
    · exact ⟨target, as, [], rfl, fresh⟩

/-- The loop adds the first account of each tag and uuid, and notes every one. -/
theorem mem_foldl_nodeUsersStep (as : List LoadedAccount) :
    (∀ u, u ∈ (as.foldl (nodeUsersStep now) ([], [])).1 ↔
      ∃ a inb, First now as a inb ∧ u = (inb.tag, a.xrayUser inb)) ∧
    ∀ k, k ∈ (as.foldl (nodeUsersStep now) ([], [])).2 ↔ ∃ a ∈ as, a.key now = some k := by
  induction as using reverseRecOn with
  | nil => simp [First]
  | append_singleton as x ih =>
    rw [foldl_append, foldl_cons, foldl_nil]
    simp only [first_concat]
    generalize as.foldl (nodeUsersStep now) ([], []) = acc at ih
    unfold nodeUsersStep
    cases target : x.target now with
    | none =>
      have key : x.key now = none := by rw [LoadedAccount.key, target, map_none]
      simp [ih.1, ih.2, key, or_and_right, exists_or]
    | some inb =>
      have key : x.key now = some (inb.tag, x.acc.uuid) := by
        rw [LoadedAccount.key, target, map_some]
      have noted := ih.2 (inb.tag, x.acc.uuid)
      dsimp only
      split
      next seen =>
        obtain ⟨b, mem, same⟩ := noted.mp seen
        constructor
        · intro u
          rw [ih.1]
          refine exists_congr fun a => exists_congr fun i => and_congr_left' ?_
          refine (or_iff_left ?_).symm
          rintro ⟨-, here, fresh⟩
          cases here
          exact fresh b mem same
        · intro k
          rw [ih.2]
          refine ⟨fun ⟨a, mem, has⟩ => ⟨a, mem_append_left _ mem, has⟩, ?_⟩
          rintro ⟨a, mem', has⟩
          rcases mem_append.mp mem' with old | new
          · exact ⟨a, old, has⟩
          · rw [mem_singleton.mp new, key, ← same] at has
            exact ⟨b, mem, has⟩
      next unseen =>
        have fresh : ∀ b ∈ as, b.key now ≠ some (inb.tag, x.acc.uuid) :=
          fun b mem same => unseen (noted.mpr ⟨b, mem, same⟩)
        constructor
        · intro u
          rw [mem_append, mem_singleton, ih.1]
          constructor
          · rintro (⟨a, i, first, same⟩ | same)
            · exact ⟨a, i, .inl first, same⟩
            · exact ⟨x, inb, .inr ⟨rfl, rfl, fresh⟩, same⟩
          · rintro ⟨a, i, first | ⟨rfl, here, -⟩, same⟩
            · exact .inl ⟨a, i, first, same⟩
            · cases here
              exact .inr same
        · intro k
          rw [mem_cons, ih.2]
          constructor
          · rintro (rfl | ⟨a, mem, has⟩)
            · exact ⟨x, by simp, key⟩
            · exact ⟨a, mem_append_left _ mem, has⟩
          · rintro ⟨a, mem, has⟩
            rcases mem_append.mp mem with old | new
            · exact .inr ⟨a, old, has⟩
            · rw [mem_singleton.mp new, key] at has
              exact .inl (Option.some.inj has).symm

/-- The users of a push are those of the accounts it lets on. -/
theorem mem_nodeUsers :
    u ∈ nodeUsers db now node ↔
      ∃ a inb, LetOn db now node a inb ∧ u = (inb.tag, a.xrayUser inb) := by
  unfold nodeUsers LetOn
  split
  next active => simp [active, (mem_foldl_nodeUsersStep (db.listByNodeID node.id)).1]
  next inactive => simp [inactive]

theorem of_target {a : LoadedAccount} {inb : Inbound} (h : a.target now = some inb) :
    a.acc.status = .active ∧ ∀ s, a.subscription = some s → s.grantsAccess now = true := by
  unfold LoadedAccount.target at h
  split at h
  · cases h
  split at h
  · cases h
  case isFalse status =>
    split at h
    · cases h
    case isFalse granted =>
      refine ⟨not_not.mp status, fun s hs => ?_⟩
      rw [hs, any_some] at granted
      simpa using granted

/-- An account that is let on is one of the database, active, and entitled just when its
subscription is there. -/
theorem entitled_letOn {a : LoadedAccount} {inb : Inbound} (h : LetOn db now node a inb) :
    a.acc ∈ db.accounts ∧ a.acc.status = .active ∧
      (Entitled db now a.acc.subscriptionID ↔
        ∀ id, a.acc.subscriptionID = some id → (db.findSubscription id).isSome = true) := by
  obtain ⟨-, target, before, after, split, -⟩ := h
  have listed : a ∈ db.listByNodeID node.id := by simp [split]
  obtain ⟨acc, mem, rfl⟩ := List.mem_map.mp listed
  obtain ⟨active, granted⟩ := of_target target
  refine ⟨(mem_filter.mp mem).1, active, forall_congr' fun id => imp_congr_right fun hid => ?_⟩
  rw [isSome_iff_exists]
  refine ⟨fun ⟨sub, found, _⟩ => ⟨sub, found⟩, fun ⟨sub, found⟩ => ⟨sub, found, granted sub ?_⟩⟩
  show acc.subscriptionID.bind db.findSubscription = some sub
  rw [show acc.subscriptionID = some id from hid, bind_some, found]

variable {rows : List WGPeer}

theorem mem_subscriptionIDs (mem : p ∈ rows) :
    p.subscriptionID ∈ subscriptionIDs rows ↔ p.subscriptionID ≠ 0 := by
  rw [subscriptionIDs, mem_dedup, mem_filter, decide_eq_true_eq]
  exact and_iff_right (List.mem_map_of_mem mem)

/-- The filter keeps the peers of no subscription and of those that grant access: one whose
subscription is gone is dropped with the revoked ones. -/
theorem mem_filterRevoked :
    p ∈ filterRevoked db now rows ↔
      p ∈ rows ∧ (p.subscriptionID = 0 ∨ Granted db now p.subscriptionID) := by
  unfold filterRevoked
  split
  case isTrue none =>
    refine ⟨fun mem => ⟨mem, .inl ?_⟩, And.left⟩
    by_contra some
    have id := (mem_subscriptionIDs mem).mpr some
    rw [none] at id
    cases id
  case isFalse =>
    rw [mem_filter, decide_eq_true_eq]
    refine and_congr_right fun mem => ?_
    unfold accessResolver
    by_cases none : p.subscriptionID = 0
    · rw [if_neg fun id => (mem_subscriptionIDs mem).mp id none]
      simp [none]
    · rw [if_pos ((mem_subscriptionIDs mem).mpr none)]
      cases found : db.findSubscription p.subscriptionID <;> simp [Granted, found, none]

theorem mem_activePeersByInbound {inboundID : Nat} :
    p ∈ activePeersByInbound db now inboundID ↔
      (p ∈ db.peers ∧ p.inboundID = inboundID ∧ p.status = .active) ∧
        (p.subscriptionID = 0 ∨ Granted db now p.subscriptionID) := by
  rw [activePeersByInbound, mem_filterRevoked, mem_filter, decide_eq_true_eq]

theorem entitled_pushedPeers (h : p ∈ pushedPeers db now node) :
    p ∈ db.peers ∧ p.status = .active ∧
      (p.subscriptionID = 0 ∨ Granted db now p.subscriptionID) := by
  unfold pushedPeers at h
  split at h
  case isFalse => cases h
  obtain ⟨inb, -, h⟩ := mem_flatMap.mp h
  obtain ⟨⟨mem, -, active⟩, entitled⟩ := mem_activePeersByInbound.mp h
  exact ⟨mem, active, entitled⟩

theorem entitled_coreUsers {payload : CoreStatePayload} {u : CoreUser}
    (hp : payload ∈ buildCoreStatePayloads db now nodeID) (hu : u ∈ payload.users)
    (enabled : u.enabled = true) :
    ∃ row ∈ db.coreUsers, u.username = row.username ∧ u.email = row.email ∧ row.enabled = true ∧
      Entitled db now row.subscriptionID := by
  obtain ⟨inb, hi, rfl⟩ := List.mem_map.mp hp
  obtain ⟨row, hr, rfl⟩ := List.mem_map.mp hu
  have mem := (mem_filter.mp hr).1
  refine ⟨row, mem, ?_⟩
  unfold coreUser at enabled ⊢
  cases hid : row.subscriptionID with
  | none =>
    rw [hid, bind_none] at enabled
    exact ⟨rfl, rfl, enabled, fun id h => by cases h⟩
  | some id =>
    have listed : id ∈ (db.listInboundsByNode nodeID).flatMap fun i =>
        (db.listUsersByInbound i.id).filterMap (·.subscriptionID) :=
      mem_flatMap.mpr ⟨inb, hi, mem_filterMap.mpr ⟨row, hr, hid⟩⟩
    have policy : (some id).bind (resolvePolicies db now (db.listInboundsByNode nodeID)) =
        some (tunnelPolicy db now id) := by
      rw [bind_some, resolvePolicies, if_pos listed]
    rw [hid, policy] at enabled
    rw [policy]
    have both : row.enabled = true ∧ (tunnelPolicy db now id).active = true := by
      simpa using enabled
    refine ⟨rfl, rfl, both.1, fun id' h => ?_⟩
    cases h
    have active := both.2
    unfold tunnelPolicy at active
    cases found : db.findSubscription id with
    | none => simp [found] at active
    | some sub => exact ⟨sub, found, by simpa [found] using active⟩

end

/-- **A push lets on only who is entitled, just where the subscription of every account it lets on
is there.** Each Xray user is that of an account, each peer a row, and each enabled core user that
of a row, of no subscription or of one that grants access; of the peers and the core users this is
so in every database. -/
theorem pushed_only_granted (db : Database) (now : Int) (node : Node) :
    ((∀ u ∈ nodeUsers db now node, ∃ a inb, LetOn db now node a inb ∧
        u = (inb.tag, a.xrayUser inb) ∧ a.acc ∈ db.accounts ∧ a.acc.status = .active) ∧
      (∀ a inb, LetOn db now node a inb → (inb.tag, a.xrayUser inb) ∈ nodeUsers db now node ∧
        Entitled db now a.acc.subscriptionID) ∧
    (∀ p ∈ pushedPeers db now node, p ∈ db.peers ∧ p.status = .active ∧
      (p.subscriptionID = 0 ∨ Granted db now p.subscriptionID)) ∧
    (∀ payload ∈ buildCoreStatePayloads db now node.id, ∀ u ∈ payload.users, u.enabled = true →
      ∃ row ∈ db.coreUsers, u.username = row.username ∧ u.email = row.email ∧
        row.enabled = true ∧ Entitled db now row.subscriptionID)) ↔
    ∀ a inb, LetOn db now node a inb → ∀ id, a.acc.subscriptionID = some id →
      (db.findSubscription id).isSome = true := by
  constructor
  · rintro ⟨-, entitled, -⟩ a inb on
    exact (entitled_letOn on).2.2.mp (entitled a inb on).2
  · intro there
    refine ⟨fun u hu => ?_, fun a inb on => ⟨?_, ?_⟩, fun _ hp => entitled_pushedPeers hp,
      fun _ hp _ hu enabled => entitled_coreUsers hp hu enabled⟩
    · obtain ⟨a, inb, on, same⟩ := mem_nodeUsers.mp hu
      exact ⟨a, inb, on, same, (entitled_letOn on).1, (entitled_letOn on).2.1⟩
    · exact mem_nodeUsers.mpr ⟨a, inb, on, rfl⟩
    · exact (entitled_letOn on).2.2.mpr (there a inb on)

/-- Node 1 with one Xray inbound and one WireGuard inbound. -/
def oneNode (subscriptions : List SubscriptionRow) : Database :=
  { subscriptions := subscriptions
    inbounds := [⟨1, 1, "in-1", "vless", false, false⟩, ⟨2, 1, "wg-1", "wireguard", false, false⟩]
    accounts := [{ inboundID := 1, email := "a@panel", uuid := "u1", subscriptionID := some 7 }]
    peers := [⟨1, 7, 2, "pub", "psk", "10.0.0.2", .active⟩]
    coreInbounds := [⟨1, 1, .ssh, "0.0.0.0", 22, .direct, false⟩]
    coreUsers := [⟨1, some 7, "a", "secret", "a@panel", 1, true⟩]
    disabledProtocols := fun _ _ => false }

theorem pushed_only_granted_running :
    (nodeUsers (oneNode [⟨7, {}, false, "a@panel"⟩]) 0 ⟨1, true⟩ ≠ []) ∧
      ∀ a inb, LetOn (oneNode [⟨7, {}, false, "a@panel"⟩]) 0 ⟨1, true⟩ a inb →
        Entitled (oneNode [⟨7, {}, false, "a@panel"⟩]) 0 a.acc.subscriptionID := by
  have there : ∀ acc ∈ (oneNode [⟨7, {}, false, "a@panel"⟩]).accounts, ∀ id,
      acc.subscriptionID = some id →
        ((oneNode [⟨7, {}, false, "a@panel"⟩]).findSubscription id).isSome = true := by decide
  refine ⟨by decide, fun a inb on => ?_⟩
  exact (((pushed_only_granted _ 0 ⟨1, true⟩).mpr fun a inb on =>
    there a.acc (entitled_letOn on).1).2.1 a inb on).2

/-- **The account of a deleted subscription is pushed**: the subscription is cancelled and deleted,
its peer is left out and its core user is off, and its account is on the node. -/
theorem deleted_subscription_pushed :
    let db := oneNode [⟨7, { status := .cancelled }, true, "a@panel"⟩]
    nodeUsers db 0 ⟨1, true⟩ = [("in-1", ⟨"a@panel", "u1", 0, "vless", "", "none"⟩)] ∧
      (∀ r ∈ db.subscriptions, r.id = 7 → r.sub.grantsAccess 0 = false) ∧
      pushedPeers db 0 ⟨1, true⟩ = [] ∧
      (buildCoreStatePayloads db 0 1).all (fun p => p.users.all fun u => !u.enabled) = true := by
  decide

end NasnetPanel.Access
