import NasnetPanel.Agent.Traffic
import NasnetPanel.Usage.Totals

/-!
# Usage.Records — an agent's buckets, read for what counts

`nodecfg/emails.go` and the reading half of `usage/collect.go`. Whose bytes are whose goes by the
email alone: a subscription's, the node's own bridge, or nobody's. `records` reads the answer of an
agent: buckets with a positive timestamp that are not past a limit, oldest first.

Two laws are what the rest uses. `subs_reading`: what a bucket gives a subscription is the exact sum
of its counts, capped. `mem_records`: what is read of a store's buckets.
-/

namespace NasnetPanel.Usage
open Totals Traffic List Option Std.ExtTreeMap

/-! ## Emails -/

def cutPrefix (s p : List Char) : Option (List Char) :=
  if p.isPrefixOf s then some (s.drop p.length) else none

def cutSuffix (s p : List Char) : Option (List Char) :=
  if p.isSuffixOf s then some (s.take (s.length - p.length)) else none

def digits (s : List Char) : Option Nat :=
  if s.isEmpty ∨ ¬ s.all Char.isDigit then none
  else some (s.foldl (fun n c => 10 * n + (c.toNat - '0'.toNat)) 0)

/-- `strconv.Atoi`: an optional sign and digits, within an `int`. -/
def atoi (s : List Char) : Option Int :=
  let value : Option Int :=
    match s with
    | '-' :: ds => (digits ds).map fun n => -(n : Int)
    | '+' :: ds => (digits ds).map fun n => (n : Int)
    | ds => (digits ds).map fun n => (n : Int)
  value.filter fun n => -(2 ^ 63) ≤ n ∧ n < 2 ^ 63

def itoa (n : Int) : List Char :=
  if n < 0 then '-' :: Nat.toDigits 10 n.natAbs else Nat.toDigits 10 n.natAbs

/-- Accepts only what printing the number would have written. -/
def positiveInt (s : List Char) : Option Nat :=
  (atoi s).bind fun n => if n < 1 ∨ itoa n ≠ s then none else some n.toNat

def parseSubscriptionEmail (email : String) : Option Nat :=
  (cutPrefix email.toList "sub-".toList).bind fun s =>
    (cutSuffix s "@remote-nodes".toList).bind positiveInt

def parseBridgeEmail (email : String) : Option Nat :=
  (cutPrefix email.toList "rvs-t".toList).bind fun s =>
    (cutSuffix s "@reverse".toList).bind positiveInt

theorem positiveInt_pos {s : List Char} {n : Nat} (h : positiveInt s = some n) : 0 < n := by
  rw [positiveInt, bind_eq_some_iff] at h
  obtain ⟨v, -, h⟩ := h
  split at h
  · cases h
  next large =>
    cases h
    omega

theorem parseSubscriptionEmail_pos {email : String} {id : Nat}
    (h : parseSubscriptionEmail email = some id) : 0 < id := by
  rw [parseSubscriptionEmail, bind_eq_some_iff] at h
  obtain ⟨s, -, h⟩ := h
  obtain ⟨t, -, h⟩ := bind_eq_some_iff.mp h
  exact positiveInt_pos h

/-! ## Buckets -/

/-- What one of the agent's buckets held that counts: each subscription's bytes, and the bridge's
apart from them. -/
structure Bucket where
  subs : GoMap Nat Totals := ∅
  bridge : Totals := 0

open Bucket

namespace Bucket

def node (b : Bucket) : Totals := GoMap.total (fun _ t => t) b.subs

/-- Files bytes under whose they are: a subscription's, this node's bridge's, or nobody's. -/
def take (b : Bucket) (email : String) (nodeID : Nat) (t : Totals) : Bucket :=
  if t.isZero then b
  else
    match parseSubscriptionEmail email with
    | some id => { b with subs := b.subs.insert id (b.subs.getD id 0 + t) }
    | none =>
      match parseBridgeEmail email with
      | some id => if id = nodeID then { b with bridge := b.bridge + t } else b
      | none => b

end Bucket

def nonNegative (v : Int64) : UInt64 := if v < 0 then 0 else v.toUInt64

/-- The users' bytes of an agent's record, filed. -/
def Bucket.takeRecord (b : Bucket) (nodeID : Nat) (r : XrayStatsSnapshot) : Bucket :=
  let b := r.userUplink.foldl (fun b email v => b.take email nodeID ⟨nonNegative v, 0⟩) b
  r.userDownlink.foldl (fun b email v => b.take email nodeID ⟨0, nonNegative v⟩) b

/-- One of the agent's buckets, read for what counts. -/
structure Record where
  ts : Int
  b : Bucket

/-- Reads the agent's buckets for what counts: valid ones only, oldest first, a timestamp once. The
count is how many were dropped for being past `limit`. -/
def records (buffered : List TrafficBucket) (nodeID : Nat) (limit : Int) : List Record × Nat :=
  let (byTime, ahead) := buffered.foldl
    (fun (acc : GoMap Int Bucket × Nat) r =>
      if r.timestamp ≤ 0 then acc
      else if limit < r.timestamp then (acc.1, acc.2 + 1)
      else
        let rec_ := acc.1.getD r.timestamp {}
        (acc.1.insert r.timestamp (rec_.takeRecord nodeID r.toXrayStatsSnapshot), acc.2))
    (∅, 0)
  (byTime.toList.map fun e => ⟨e.1, e.2⟩, ahead)

/-- One bucket as `records` reads it. -/
def reading (nodeID : Nat) (b : XrayStatsSnapshot) : Bucket := ({} : Bucket).takeRecord nodeID b

/-! ## What a subscription is given -/

/-- The exact count of a subscription in the users' counts; a negative count is none. -/
def userBytes (sub : Nat) (counts : GoMap String Int64) : Nat :=
  GoMap.total (fun email v => if parseSubscriptionEmail email = some sub then v.toInt.toNat else 0)
    counts

def subBytes (sub : Nat) (s : XrayStatsSnapshot) : Nat × Nat :=
  (userBytes sub s.userUplink, userBytes sub s.userDownlink)

theorem nonNegative_toNat (v : Int64) : (nonNegative v).toNat = v.toInt.toNat := by
  have sign : v < 0 ↔ v.toInt < 0 := by rw [Int64.lt_iff_toInt_lt, Int64.toInt_zero]
  rw [nonNegative]
  split
  next neg =>
    have := sign.mp neg
    rw [UInt64.toNat_zero]
    omega
  next nonneg =>
    have pos : 0 ≤ v.toInt := Int.not_lt.mp (nonneg ∘ sign.mpr)
    have same : v.toInt = (v.toUInt64.toNat : Int) := by
      have := BitVec.toInt_eq_toNat_cond v.toBitVec
      rw [Int64.toInt_toBitVec] at this
      rw [this]
      split
      · rfl
      next big => omega
    omega

theorem cap_up (v : Int64) :
    (⟨nonNegative v, 0⟩ : Totals) = Totals.cap (AddMonoidHom.inl Nat Nat v.toInt.toNat) := by
  have top := v.toInt_lt
  refine ext_toNat ?_ rfl
  rw [up_cap, AddMonoidHom.inl_apply, nonNegative_toNat, maxUint64]
  omega

theorem cap_down (v : Int64) :
    (⟨0, nonNegative v⟩ : Totals) = Totals.cap (AddMonoidHom.inr Nat Nat v.toInt.toNat) := by
  have top := v.toInt_lt
  refine ext_toNat rfl ?_
  rw [down_cap, AddMonoidHom.inr_apply, nonNegative_toNat, maxUint64]
  omega

namespace Bucket

theorem subs_take (b : Bucket) (email : String) (nodeID : Nat) (t : Totals) (sub : Nat) :
    (b.take email nodeID t).subs.getD sub 0 =
      b.subs.getD sub 0 + if parseSubscriptionEmail email = some sub then t else 0 := by
  rw [take]
  split
  next zero =>
    rw [isZero, beq_iff_eq] at zero
    rw [zero, ite_self, add_zero]
  · split
    next id parsed =>
      rw [parsed, GoMap.getD_eq, GoMap.getElem?_insert]
      by_cases same : sub = id
      · rw [if_pos same, if_pos (congrArg some same.symm), getD_some, same]
      · rw [if_neg same, if_neg fun h => same (Option.some.inj h).symm, add_zero, ← GoMap.getD_eq]
    next none =>
      rw [none, if_neg nofun, add_zero]
      split
      · split
        · rfl
        · rfl
      · rfl

/-- Filing a map of counts adds, to each subscription, the exact sum of its counts, capped. `side`
is where the counts go: up or down. -/
theorem subs_takeAll (b : Bucket) (nodeID sub : Nat) (counts : GoMap String Int64)
    {g : Int64 → Totals} {side : Nat →+ Nat × Nat}
    (capped : ∀ v, g v = Totals.cap (side v.toInt.toNat)) :
    (counts.foldl (fun b email v => b.take email nodeID (g v)) b).subs.getD sub 0 =
      b.subs.getD sub 0 + Totals.cap (side (userBytes sub counts)) := by
  rw [foldl_eq_foldl_toList, userBytes, GoMap.total]
  induction counts.toList generalizing b with
  | nil => rw [foldl_nil, map_nil, sum_nil, map_zero, cap_zero, add_zero]
  | cons e l ih =>
    rw [foldl_cons, ih, subs_take, map_cons, sum_cons, map_add, cap_add, ← add_assoc, capped]
    split
    · rfl
    · rw [map_zero, cap_zero]

end Bucket

/-- **A bucket gives a subscription the exact sum of its counts**, capped. -/
theorem subs_reading (nodeID sub : Nat) (s : XrayStatsSnapshot) :
    (reading nodeID s).subs.getD sub 0 = Totals.cap (subBytes sub s) := by
  rw [reading, takeRecord, subs_takeAll _ _ _ _ cap_down,
    subs_takeAll _ _ _ _ cap_up, add_assoc, ← cap_add]
  have none : ({} : Bucket).subs.getD sub 0 = 0 := by simp
  have pair : AddMonoidHom.inl Nat Nat (userBytes sub s.userUplink) +
      AddMonoidHom.inr Nat Nat (userBytes sub s.userDownlink) = subBytes sub s := by
    rw [AddMonoidHom.inl_apply, AddMonoidHom.inr_apply, Prod.mk_add_mk, add_zero,
      zero_add, subBytes]
  rw [none, zero_add, pair]

variable {b : Bucket} {s : MemoryStore}

theorem Bucket.take_pos (pos : ∀ id t, b.subs[id]? = some t → 0 < id) (email : String)
    (nodeID : Nat) (t : Totals) : ∀ id u, (b.take email nodeID t).subs[id]? = some u → 0 < id := by
  intro id u found
  rw [take] at found
  split at found
  · exact pos id u found
  split at found
  next sub parsed =>
    exact GoMap.forall_insert (P := fun id _ => 0 < id) (parseSubscriptionEmail_pos parsed) pos
      id u found
  · split at found
    · split at found
      · exact pos id u found
      · exact pos id u found
    · exact pos id u found

theorem Bucket.takeAll_pos (pos : ∀ id t, b.subs[id]? = some t → 0 < id)
    (nodeID : Nat) (g : Int64 → Totals) (counts : GoMap String Int64) :
    ∀ id u, (counts.foldl (fun b email v => b.take email nodeID (g v)) b).subs[id]? = some u →
      0 < id := by
  rw [foldl_eq_foldl_toList]
  induction counts.toList generalizing b with
  | nil => exact pos
  | cons e l ih => exact ih (take_pos pos e.1 nodeID (g e.2))

theorem reading_pos (nodeID : Nat) (s : XrayStatsSnapshot) :
    ∀ id t, (reading nodeID s).subs[id]? = some t → 0 < id := by
  refine takeAll_pos (takeAll_pos ?_ _ _ _) _ _ _
  intro id t found
  simp at found

/-! ## What is read of a store -/

/-- The buckets of a store that `records` reads, by timestamp. -/
def readable (m : GoMap Int TrafficBucket) (nodeID : Nat) (limit : Int) : GoMap Int Bucket :=
  GoMap.addAll (fun b (r : TrafficBucket) => b.takeRecord nodeID r.toXrayStatsSnapshot) {} ∅
    (m.filter fun ts _ => decide (0 < ts ∧ ts ≤ limit))

theorem getElem?_readable (m : GoMap Int TrafficBucket) (nodeID : Nat) (limit ts : Int) :
    (readable m nodeID limit)[ts]? =
      if 0 < ts ∧ ts ≤ limit then m[ts]?.map fun b => reading nodeID b.toXrayStatsSnapshot
      else none := by
  rw [readable, GoMap.getElem?_addAll, GoMap.getElem?_filter]
  cases found : m[ts]? with
  | none => simp
  | some b =>
    by_cases within : 0 < ts ∧ ts ≤ limit
    · simp [within, reading, Option.filter]
    · simp [within]

theorem records_getAll (keyed : s.Keyed) (nodeID : Nat) (limit : Int) :
    (records s.getAll nodeID limit).1 =
      (readable s.buckets nodeID limit).toList.map fun e => ⟨e.1, e.2⟩ := by
  have entry : ∀ e ∈ s.buckets.toList, e.2.timestamp = e.1 := fun e he =>
    keyed e.1 e.2 (mem_toList_iff_getElem?_eq_some.mp he)
  rw [records, MemoryStore.getAll, readable, GoMap.addAll, foldl_eq_foldl_toList,
    Std.ExtTreeMap.toList_filter, foldl_map, foldl_filter]
  refine congrArg (fun m : GoMap Int Bucket => m.toList.map fun e => (⟨e.1, e.2⟩ : Record)) ?_
  refine foldl_rel (r := (Prod.fst · = ·)) rfl fun e he acc m same => ?_
  rw [entry e he, ← same]
  split
  next old =>
    have skipped : ¬ (0 < e.1 ∧ e.1 ≤ limit) := by omega
    rw [decide_eq_false skipped]
    rfl
  · split
    next ahead =>
      have skipped : ¬ (0 < e.1 ∧ e.1 ≤ limit) := by omega
      rw [decide_eq_false skipped]
      rfl
    · have within : 0 < e.1 ∧ e.1 ≤ limit := by omega
      rw [decide_eq_true within]
      rfl

/-- **What is read of a store's buckets.** -/
theorem mem_records (keyed : s.Keyed) {nodeID : Nat} {limit : Int} {r : Record} :
    r ∈ (records s.getAll nodeID limit).1 ↔
      (0 < r.ts ∧ r.ts ≤ limit) ∧
        ∃ b, s.buckets[r.ts]? = some b ∧ reading nodeID b.toXrayStatsSnapshot = r.b := by
  rw [records_getAll keyed, List.mem_map]
  constructor
  · rintro ⟨e, he, rfl⟩
    rw [mem_toList_iff_getElem?_eq_some, getElem?_readable] at he
    split at he
    next within => exact ⟨within, map_eq_some_iff.mp he⟩
    · cases he
  · rintro ⟨within, b, found, read⟩
    refine ⟨(r.ts, r.b), ?_, rfl⟩
    rw [mem_toList_iff_getElem?_eq_some, getElem?_readable, if_pos within, found, map_some, read]

theorem records_sorted (buffered : List TrafficBucket) (nodeID : Nat) (limit : Int) :
    (records buffered nodeID limit).1.Pairwise fun a b => a.ts < b.ts := by
  refine pairwise_map.mpr ?_
  exact ordered_keys_toList.imp fun lt => Std.compare_eq_lt.mp lt

end NasnetPanel.Usage
