import Mathlib.Algebra.Order.BigOperators.Group.List
import Mathlib.Algebra.Order.Group.Int
import NasnetPanel.Agent.Traffic
import NasnetPanel.Subscription.Access

/-!
# Ingest.Batch — a batch of traffic records, and whom its bytes go to

`persistBufferedTraffic` of `node/usecase/traffic_batch.go`: the records of a node's agent are added
up by email, each email is resolved to a subscription, and the bytes are booked in one transaction
on the subscriptions, their days, the accounts, the core users and the WireGuard peers.

An email is resolved in two ways. The synthetic email of a WireGuard peer is looked up in an index
of the node's peers, any other one among the config emails. The totals and the days are added up in
two maps and resolved in two loops.

Byte counts are `int64` sums, which wrap. A batch is `Sane` for an email where they do
not, and `Sane.exact` is the law that carries the proofs about it.

The reads of the database succeed here. The counts of the node itself, of its outbounds and of
reverse tunnels, and the time written next to each delta, are not modelled.
-/

namespace NasnetPanel.Ingest
open Traffic Access List GoMap

/-! ## Adding up the records -/

/-- Upload and download, with the source's wrapping sums. -/
@[ext] structure TrafficBytes where
  up : Int64 := 0
  down : Int64 := 0
deriving DecidableEq, Repr

namespace TrafficBytes

instance : Zero TrafficBytes := ⟨{}⟩
instance : Add TrafficBytes := ⟨fun a b => ⟨a.up + b.up, a.down + b.down⟩⟩
instance : Neg TrafficBytes := ⟨fun a => ⟨-a.up, -a.down⟩⟩

@[simp] theorem up_add (a b : TrafficBytes) : (a + b).up = a.up + b.up := rfl
@[simp] theorem down_add (a b : TrafficBytes) : (a + b).down = a.down + b.down := rfl

instance : AddCommGroup TrafficBytes where
  add_assoc a b c := by ext1 <;> simp [Int64.add_assoc]
  zero_add a := TrafficBytes.ext (Int64.zero_add _) (Int64.zero_add _)
  add_zero a := TrafficBytes.ext (Int64.add_zero _) (Int64.add_zero _)
  add_comm a b := by ext1 <;> simp [Int64.add_comm]
  neg_add_cancel a := TrafficBytes.ext (Int64.add_left_neg _) (Int64.add_left_neg _)
  nsmul := nsmulRec
  zsmul := zsmulRec

def total (b : TrafficBytes) : Int64 := b.up + b.down

end TrafficBytes

/-- The hidden user of a reverse tunnel, which is no customer. -/
def isReverseEmail (email : String) : Bool :=
  "rvs-".toList.isPrefixOf email.toList && "@reverse".toList.isSuffixOf email.toList

def uploads (r : TrafficBucket) : GoMap String TrafficBytes :=
  (r.userUplink.filter fun email _ => !isReverseEmail email).map fun _ bytes => ⟨bytes, 0⟩

def downloads (r : TrafficBucket) : GoMap String TrafficBytes :=
  (r.userDownlink.filter fun email _ => !isReverseEmail email).map fun _ bytes => ⟨0, bytes⟩

def addUsers (users : GoMap String TrafficBytes) (r : TrafficBucket) : GoMap String TrafficBytes :=
  GoMap.addAll (· + ·) 0 (GoMap.addAll (· + ·) 0 users (uploads r)) (downloads r)

/-- The UTC day of a record, counted from the epoch. -/
def day (r : TrafficBucket) : Int := r.timestamp / 86400

def users (records : List TrafficBucket) : GoMap String TrafficBytes := records.foldl addUsers ∅

def dailyUsers (records : List TrafficBucket) : GoMap Int (GoMap String TrafficBytes) :=
  records.foldl (fun days r => days.insert (day r) (addUsers (days.getD (day r) ∅) r)) ∅

def activeInbounds (records : List TrafficBucket) (tag : String) : Bool :=
  records.any fun r => decide (0 < r.inboundUplink.getD tag 0) ||
    decide (0 < r.inboundDownlink.getD tag 0)

structure CoreUsageRecord where
  protocol : String
  email : String
  uplink : Int64
  downlink : Int64

def coreUsageRecords (r : TrafficBucket) : List CoreUsageRecord :=
  r.coreUsage.toList.flatMap fun (protocol, byEmail) =>
    byEmail.toList.map fun (email, c) => ⟨protocol, email, c.uplink, c.downlink⟩

/-- The tagged core bytes of each email and protocol. -/
def coreTraffic (records : List TrafficBucket) : GoMap String (GoMap String Int64) :=
  (records.flatMap coreUsageRecords).foldl (fun traffic usage =>
    let byProtocol := traffic.getD usage.email ∅
    traffic.insert usage.email (byProtocol.insert usage.protocol
      (byProtocol.getD usage.protocol 0 + (usage.uplink + usage.downlink)))) ∅

/-- The highest timestamp, which is what is acknowledged. -/
def through (records : List TrafficBucket) : Int :=
  records.foldl (fun t r => if t < r.timestamp then r.timestamp else t) 0

/-! ## What the panel knows -/

inductive AccountSource where
  | subscription | manual | imported | adminBulk | adminExcluded
deriving DecidableEq, Repr

/-- A row of `ListTrafficRefsByNode`; a subscription id of 0 is none. -/
structure AccountTrafficRef where
  id : Nat
  email : String
  inboundID : Nat
  subscriptionID : Nat
  source : AccountSource := .subscription
  createdAt : Int := 0
deriving DecidableEq, Repr

/-- A row of `ListCoreTrafficRefsByNode`. -/
structure CoreTrafficRef where
  id : Nat
  subscriptionID : Nat
  protocol : String
deriving DecidableEq, Repr

structure WGRef where
  subID : Nat
  peerID : Nat
  inboundID : Nat
deriving DecidableEq, Repr

theorem none_fits : 0 < 2 ^ 63 := by decide

theorem one_fits : 1 < 2 ^ 63 := by decide

theorem perm_kept (l : List (String × List WGPeer)) : (id l).Perm l := .rfl

/-- What a batch of a node is booked against. A slice is no longer than an `int` counts, and the map
of peers by tag is walked in any order. -/
structure Panel where
  db : Database
  now : Int
  nodeID : Nat
  accountRefs : List AccountTrafficRef
  coreRefs : List CoreTrafficRef
  /-- Whether core usage is wired. -/
  coreUsage : Bool
  tagOrder : List (String × List WGPeer) → List (String × List WGPeer) := id
  accountRefs_lt : accountRefs.length < 2 ^ 63 := by decide
  coreRefs_lt : coreRefs.length < 2 ^ 63 := by decide
  tagOrder_perm : ∀ l, (tagOrder l).Perm l := by exact perm_kept

def wgEmailKey (inboundTag ip : String) : String := "wg:" ++ inboundTag ++ ":" ++ ip

/-- The email starts with the key of the inbound's peers. -/
def hasTag (inboundTag email : String) : Bool :=
  (wgEmailKey inboundTag "").toList.isPrefixOf email.toList

def buildWGIndex (peers : List (String × List WGPeer)) : GoMap String WGRef :=
  GoMap.collect (fun e => wgEmailKey e.1 e.2.assignedIP)
    (fun e => ⟨e.2.subscriptionID, e.2.id, e.2.inboundID⟩)
    (peers.flatMap fun (tag, rows) => rows.map fun p => (tag, p))

namespace Panel

def inbounds (p : Panel) : List Inbound :=
  p.db.inbounds.filter fun i => i.nodeID = p.nodeID ∧ i.deleted = false

/-- The subscription of each email, the last one found. -/
def findByConfigEmails (p : Panel) (emails : List String) : GoMap String Nat :=
  GoMap.collect (·.configEmail) (·.id) (p.db.subscriptions.filter fun r =>
    r.deleted = false ∧ r.configEmail ≠ "" ∧ r.configEmail ∈ emails)

variable (p : Panel) (records : List TrafficBucket)

def subs : GoMap String Nat := p.findByConfigEmails (users records).keys

/-- The accounts of an email on the inbounds that carried something. -/
def matchedByEmail (email : String) : List Nat :=
  (p.accountRefs.filter fun ref => ref.email = email ∧
    p.inbounds.any fun i => i.id = ref.inboundID ∧ activeInbounds records i.tag).map (·.id)

def accountsBySub (sub inbound : Nat) : Option AccountTrafficRef :=
  (p.accountRefs.filter fun ref => ref.subscriptionID = sub ∧ ref.inboundID = inbound ∧
    ref.subscriptionID ≠ 0 ∧ ref.source ≠ .adminExcluded).foldl (fun previous ref =>
      if previous.all fun q => q.id = 0 ∨ q.createdAt < ref.createdAt ∨
          (ref.createdAt = q.createdAt ∧ q.id < ref.id)
      then some ref else previous) none

/-- The peers of the node's WireGuard inbounds that have traffic in the batch, by tag. -/
def wgPeers : GoMap String (List WGPeer) :=
  GoMap.collect (·.tag) (fun i => activePeersByInbound p.db p.now i.id) (p.inbounds.filter fun i =>
    isWireGuard i.protocol && (users records).keys.any (hasTag i.tag))

def wgIndex : GoMap String WGRef := buildWGIndex (p.tagOrder (p.wgPeers records).toList)

def needsCoreRefs : Bool :=
  (users records).toList.any fun (email, b) =>
    !(decide (b.total ≤ 0) || (p.subs records)[email]?.isNone) &&
      (p.wgIndex records)[email]?.isNone &&
      (!((coreTraffic records).getD email ∅).isEmpty || (p.matchedByEmail records email).isEmpty)

/-- The core users, read only when they are needed. -/
def coreTrafficRefs : List CoreTrafficRef :=
  if p.coreUsage && p.needsCoreRefs records then p.coreRefs else []

def coreBySub (sub : Nat) : List Nat :=
  ((p.coreTrafficRefs records).filter (·.subscriptionID = sub)).map (·.id)

def coreByProtocol (sub : Nat) (protocol : String) : List Nat :=
  ((p.coreTrafficRefs records).filter fun ref =>
    ref.subscriptionID = sub ∧ ref.protocol = protocol).map (·.id)

end Panel

/-! ## The deltas -/

structure UsageDelta where
  subscriptionID : Nat
  bytes : TrafficBytes
deriving DecidableEq, Repr

structure DailyUsageDelta extends UsageDelta where
  date : Int
deriving DecidableEq, Repr

/-- Bytes for an account, or for a core user. -/
structure ShareDelta where
  id : Nat
  bytes : Int64
deriving DecidableEq, Repr

structure WGUsageDelta where
  peerID : Nat
  bytes : TrafficBytes
deriving DecidableEq, Repr

structure EmailDeltas where
  subs : List UsageDelta := []
  accounts : List ShareDelta := []
  core : List ShareDelta := []
  peers : List WGUsageDelta := []
deriving DecidableEq, Repr

/-- Every id is given the same part, rounded down. -/
def shares (bytes : Int64) (ids : List Nat) : List ShareDelta :=
  ids.map fun id => ⟨id, bytes / Int64.ofNat ids.length⟩

/-- The same, but a part of nothing is not given. -/
def positiveShares (bytes : Int64) (ids : List Nat) : List ShareDelta :=
  if 0 < bytes / Int64.ofNat ids.length then shares bytes ids else []

namespace Panel
variable (p : Panel) (records : List TrafficBucket)

def taggedShares (sub : Nat) (email : String) : List ShareDelta :=
  ((coreTraffic records).getD email ∅).toList.flatMap fun (protocol, bytes) =>
    let ids := p.coreByProtocol records sub protocol
    if bytes ≤ 0 ∨ ids = [] then [] else positiveShares bytes ids

/-- The shares of an email's bytes that carry no tag and have no account. -/
def untaggedShares (sub : Nat) (email : String) (total : Int64) : List ShareDelta :=
  let ids := p.coreBySub records sub
  if ((coreTraffic records).getD email ∅).isEmpty && (p.matchedByEmail records email).isEmpty &&
      !ids.isEmpty
  then positiveShares total ids else []

def coreShares (sub : Nat) (email : String) (total : Int64) : List ShareDelta :=
  if p.coreUsage then p.taggedShares records sub email ++ p.untaggedShares records sub email total
  else []

/-- One turn of the loop over the totals. -/
def emailDeltas (email : String) (b : TrafficBytes) : EmailDeltas :=
  if b.total ≤ 0 then {}
  else match (p.wgIndex records)[email]? with
    | some ref =>
      { subs := [⟨ref.subID, b⟩]
        peers := [⟨ref.peerID, b⟩]
        accounts :=
          ((p.accountsBySub ref.subID ref.inboundID).toList.filter (·.id ≠ 0)).map fun a =>
          ⟨a.id, b.total⟩ }
    | none =>
      match (p.subs records)[email]? with
      | none => {}
      | some sub =>
        { subs := [⟨sub, b⟩]
          accounts := shares b.total (p.matchedByEmail records email)
          core := p.coreShares records sub email b.total }

def handedOut (email : String) : EmailDeltas :=
  p.emailDeltas records email ((users records).getD email 0)

/-- One turn of the loop over the days. -/
def dailyDeltas (date : Int) (email : String) (b : TrafficBytes) : List DailyUsageDelta :=
  if b.up = 0 ∧ b.down = 0 then []
  else match (p.wgIndex records)[email]? with
    | some ref => [⟨⟨ref.subID, b⟩, date⟩]
    | none =>
      match (p.subs records)[email]? with
      | none => []
      | some sub => [⟨⟨sub, b⟩, date⟩]

end Panel

structure Booking where
  through : Int := 0
  subs : List UsageDelta := []
  daily : List DailyUsageDelta := []
  accounts : List ShareDelta := []
  core : List ShareDelta := []
  peers : List WGUsageDelta := []
deriving DecidableEq, Repr

/-- `persistBufferedTraffic`, up to the transaction. -/
def Panel.persistBufferedTraffic (p : Panel) (records : List TrafficBucket) :
    Except String Booking :=
  if records = [] then .ok {}
  else if records.any fun r => decide (r.timestamp ≤ 0) then
    .error "invalid buffered traffic timestamp"
  else
    let deltas := (users records).toList.map fun (email, b) => p.emailDeltas records email b
    .ok
      { through := through records
        subs := deltas.flatMap (·.subs)
        daily := (dailyUsers records).toList.flatMap fun (date, byEmail) =>
          byEmail.toList.flatMap fun (email, b) => p.dailyDeltas records date email b
        accounts := deltas.flatMap (·.accounts)
        core := deltas.flatMap (·.core)
        peers := deltas.flatMap (·.peers) }

/-- `AddUsageDeltas` merges the deltas of a subscription, and adds each to its row. -/
def addUsageDeltas (deltas : List UsageDelta) : GoMap Nat TrafficBytes :=
  deltas.foldl (fun byID d =>
    byID.insert d.subscriptionID (byID.getD d.subscriptionID 0 + d.bytes)) ∅

/-- `AddDailyUsageSplits` merges those of a subscription and day. -/
def addDailyUsageSplits (deltas : List DailyUsageDelta) : GoMap Nat (GoMap Int TrafficBytes) :=
  deltas.foldl (fun byDay d =>
    let days := byDay.getD d.subscriptionID ∅
    byDay.insert d.subscriptionID (days.insert d.date (days.getD d.date 0 + d.bytes))) ∅

/-! ## Laws of the sums -/

def bytesOf (r : TrafficBucket) (email : String) : TrafficBytes :=
  if isReverseEmail email then 0 else ⟨r.userUplink.getD email 0, r.userDownlink.getD email 0⟩

theorem getD_visible (m : GoMap String Int64) (f : Int64 → TrafficBytes) (zero : f 0 = 0)
    (email : String) :
    ((m.filter fun email _ => !isReverseEmail email).map fun _ b => f b).getD email 0 =
      if isReverseEmail email then 0 else f (m.getD email 0) := by
  rw [GoMap.getD_eq, GoMap.getD_eq m, Std.ExtTreeMap.getElem?_map, GoMap.getElem?_filter]
  cases m[email]? with
  | none => simp [zero]
  | some b => cases isReverseEmail email <;> simp [Option.filter]

theorem getD_addUsers (m : GoMap String TrafficBytes) (r : TrafficBucket) (email : String) :
    (addUsers m r).getD email 0 = m.getD email 0 + bytesOf r email := by
  rw [addUsers, getD_addAll_add, getD_addAll_add, add_assoc, uploads, downloads,
    getD_visible _ (fun b => ⟨b, 0⟩) rfl, getD_visible _ (fun b => ⟨0, b⟩) rfl]
  unfold bytesOf
  split
  · simp
  · ext1 <;> simp

theorem getD_users (records : List TrafficBucket) (email : String) :
    (users records).getD email 0 = (records.map (bytesOf · email)).sum := by
  rw [users, foldl_add (·.getD email 0) (bytesOf · email) fun m r => getD_addUsers m r email]
  simp

theorem getD_dailyUsers (records : List TrafficBucket) (date : Int) (email : String) :
    ((dailyUsers records).getD date ∅).getD email 0 =
      ((records.filter (day · = date)).map (bytesOf · email)).sum := by
  rw [dailyUsers, foldl_add (fun m : GoMap Int (GoMap String _) => (m.getD date ∅).getD email 0)
    fun r => if day r = date then bytesOf r email else 0]
  · simp [sum_map_ite]
  intro days r
  rw [GoMap.getD_eq (_ : GoMap Int _), GoMap.getElem?_insert]
  by_cases today : date = day r
  · rw [if_pos today, if_pos today.symm, Option.getD_some, getD_addUsers, ← today]
  · rw [if_neg today, if_neg (Ne.symm today), ← getD_eq, add_zero]

/-- No count the batch has of an email is negative, and its bytes do not pass what an `int64`
holds. -/
structure Sane (records : List TrafficBucket) (email : String) : Prop where
  nonneg : ∀ r ∈ records, 0 ≤ r.read (.userUplink email) ∧ 0 ≤ r.read (.userDownlink email)
  fits :
    (records.map fun r => r.read (.userUplink email) + r.read (.userDownlink email)).sum < 2 ^ 63

def uploadOf (records : List TrafficBucket) (email : String) : Int :=
  (records.map fun r => r.read (.userUplink email)).sum

def downloadOf (records : List TrafficBucket) (email : String) : Int :=
  (records.map fun r => r.read (.userDownlink email)).sum

structure Exact (b : TrafficBytes) (records : List TrafficBucket) (email : String) : Prop where
  up : b.up.toInt = uploadOf records email
  down : b.down.toInt = downloadOf records email

section
variable {records : List TrafficBucket} {email : String}

variable {r : TrafficBucket} {b : TrafficBytes}

theorem Sane.of_cons (sane : Sane (r :: records) email) : Sane records email := by
  refine ⟨fun s hs => sane.nonneg s (mem_cons_of_mem _ hs), ?_⟩
  have fits := sane.fits
  have head := sane.nonneg r mem_cons_self
  rw [map_cons, sum_cons] at fits
  omega

section
variable (sane : Sane records email)
include sane

theorem Sane.nonneg_sums : 0 ≤ uploadOf records email ∧ 0 ≤ downloadOf records email := by
  constructor
  · exact sum_nonneg (forall_mem_map.mpr fun r hr => (sane.nonneg r hr).1)
  · exact sum_nonneg (forall_mem_map.mpr fun r hr => (sane.nonneg r hr).2)

theorem Sane.sum_lt : uploadOf records email + downloadOf records email < 2 ^ 63 := by
  have fits := sane.fits
  rw [sum_map_add] at fits
  exact fits

theorem Sane.exact (visible : isReverseEmail email = false) :
    Exact (records.map (bytesOf · email)).sum records email := by
  induction records with
  | nil => exact ⟨rfl, rfl⟩
  | cons r rs ih =>
    have rest := ih sane.of_cons
    have sums := sane.of_cons.nonneg_sums
    have head := sane.nonneg r mem_cons_self
    have small := sane.sum_lt
    have up : uploadOf (r :: rs) email = r.read (.userUplink email) + uploadOf rs email := rfl
    have down : downloadOf (r :: rs) email = r.read (.userDownlink email) + downloadOf rs email :=
      rfl
    have own : bytesOf r email = ⟨r.get (.userUplink email), r.get (.userDownlink email)⟩ := by
      rw [bytesOf, visible]
      rfl
    have ups := rest.up
    have downs := rest.down
    unfold XrayStatsSnapshot.read at head up down
    rw [map_cons, sum_cons, own]
    constructor
    · rw [TrafficBytes.up_add, toInt_add_of_lt head.1 (by omega) (by omega)]
      omega
    · rw [TrafficBytes.down_add, toInt_add_of_lt head.2 (by omega) (by omega)]
      omega

omit sane in
theorem Exact.total_pos (exact : Exact b records email)
    (sane : Sane records email) (some : b ≠ 0) : ¬ b.total ≤ 0 := by
  have up := exact.up
  have down := exact.down
  have sums := sane.nonneg_sums
  have small := sane.sum_lt
  intro none
  rw [Int64.le_iff_toInt_le, TrafficBytes.total, toInt_add_of_lt (by omega) (by omega) (by omega),
    Int64.toInt_zero] at none
  refine some (TrafficBytes.ext ?_ ?_)
  all_goals
    rw [← Int64.toInt_inj]
    show _ = (0 : Int64).toInt
    rw [Int64.toInt_zero]
    omega

end

end

end NasnetPanel.Ingest
