import NasnetPanel.Lib.GoMap

/-!
# Agent.Traffic — the agent's traffic buckets, their file and the counters' differences

`agent/traffic`: the in-memory store of time buckets (`memory_store.go`), its file
(`file_store.go`) and the collector's difference of Xray's cumulative counters (`collector.go`).
Byte counts are the source's `int64`, so they wrap; `read` is what a counter holds as an integer,
and the laws say when an operation adds without wrapping.

Over every run of the store, restarts included, only the newest bucket grows (`older_final`), and
restarts change no bucket (`restarts_unseen`).

Times are in seconds. `Aggregate` and `DrainAll`, which nothing below uses, are not modelled.
-/

namespace NasnetPanel.Traffic
open List Option Std.ExtTreeMap GoMap Int64

/-! ## Snapshots and buckets -/

/-- The byte counts of one protocol and email. -/
structure CoreUsageCounts where
  uplink : Int64
  downlink : Int64
deriving DecidableEq, Repr

def CoreUsageCounts.plus (a b : CoreUsageCounts) : CoreUsageCounts :=
  ⟨a.uplink + b.uplink, a.downlink + b.downlink⟩

/-- Xray's traffic counters, or a difference of them. -/
structure XrayStatsSnapshot where
  userUplink : GoMap String Int64 := ∅
  userDownlink : GoMap String Int64 := ∅
  inboundUplink : GoMap String Int64 := ∅
  inboundDownlink : GoMap String Int64 := ∅
  outboundUplink : GoMap String Int64 := ∅
  outboundDownlink : GoMap String Int64 := ∅
  totalUplink : Int64 := 0
  totalDownlink : Int64 := 0
  coreUsage : GoMap String (GoMap String CoreUsageCounts) := ∅

structure TrafficBucket extends XrayStatsSnapshot where
  timestamp : Int

inductive Counter where
  | userUplink (key : String)
  | userDownlink (key : String)
  | inboundUplink (key : String)
  | inboundDownlink (key : String)
  | outboundUplink (key : String)
  | outboundDownlink (key : String)
  | totalUplink
  | totalDownlink
deriving DecidableEq, Repr

namespace XrayStatsSnapshot

/-- A counter's value; one that is not there reads zero. -/
def get (s : XrayStatsSnapshot) : Counter → Int64
  | .userUplink k => s.userUplink.getD k 0
  | .userDownlink k => s.userDownlink.getD k 0
  | .inboundUplink k => s.inboundUplink.getD k 0
  | .inboundDownlink k => s.inboundDownlink.getD k 0
  | .outboundUplink k => s.outboundUplink.getD k 0
  | .outboundDownlink k => s.outboundDownlink.getD k 0
  | .totalUplink => s.totalUplink
  | .totalDownlink => s.totalDownlink

def read (s : XrayStatsSnapshot) (c : Counter) : Int := (s.get c).toInt

/-- What `+=` over the entries of a map of counts does. -/
def addCounts (dst src : GoMap String Int64) : GoMap String Int64 :=
  GoMap.addAll (· + ·) 0 dst src

def merge (dst src : XrayStatsSnapshot) : XrayStatsSnapshot where
  userUplink := addCounts dst.userUplink src.userUplink
  userDownlink := addCounts dst.userDownlink src.userDownlink
  inboundUplink := addCounts dst.inboundUplink src.inboundUplink
  inboundDownlink := addCounts dst.inboundDownlink src.inboundDownlink
  outboundUplink := addCounts dst.outboundUplink src.outboundUplink
  outboundDownlink := addCounts dst.outboundDownlink src.outboundDownlink
  totalUplink := dst.totalUplink + src.totalUplink
  totalDownlink := dst.totalDownlink + src.totalDownlink
  coreUsage := GoMap.addAll (GoMap.addAll CoreUsageCounts.plus ⟨0, 0⟩) ∅ dst.coreUsage src.coreUsage

/-- A copy, without the core usage, which a baseline does not carry. -/
def clone (s : XrayStatsSnapshot) : XrayStatsSnapshot := { s with coreUsage := ∅ }

end XrayStatsSnapshot

/-! ## The collector's differences -/

/-- The difference of two maps of counters: a counter that went back counts in full, and one that
did not grow is left out. -/
def diffMap (prev curr : GoMap String Int64) : GoMap String Int64 :=
  curr.filterMap fun k c =>
    if c ≤ 0 then none
    else
      let p := prev.getD k 0
      if c < p then some c
      else if p < c then some (c - p)
      else none

def diffInt64 (prev curr : Int64) : Int64 := if curr < prev then curr else curr - prev

/-- The difference from the last counters read; all of the counters when none were. -/
def diffSnapshot (prev : Option XrayStatsSnapshot) (curr : XrayStatsSnapshot) : XrayStatsSnapshot :=
  match prev with
  | none => curr.clone
  | some prev =>
    { userUplink := diffMap prev.userUplink curr.userUplink
      userDownlink := diffMap prev.userDownlink curr.userDownlink
      inboundUplink := diffMap prev.inboundUplink curr.inboundUplink
      inboundDownlink := diffMap prev.inboundDownlink curr.inboundDownlink
      outboundUplink := diffMap prev.outboundUplink curr.outboundUplink
      outboundDownlink := diffMap prev.outboundDownlink curr.outboundDownlink
      totalUplink := diffInt64 prev.totalUplink curr.totalUplink
      totalDownlink := diffInt64 prev.totalDownlink curr.totalDownlink }

def snapshotIsEmpty (s : XrayStatsSnapshot) : Bool :=
  s.totalUplink == 0 && s.totalDownlink == 0 &&
    s.userUplink.isEmpty && s.userDownlink.isEmpty &&
    s.inboundUplink.isEmpty && s.inboundDownlink.isEmpty &&
    s.outboundUplink.isEmpty && s.outboundDownlink.isEmpty

/-! ## The store -/

/-- The buckets in memory, and the counters they are up to. -/
structure MemoryStore where
  buckets : GoMap Int TrafficBucket := ∅
  baseline : Option XrayStatsSnapshot := none
  bucketDuration : Int
  retention : Int

namespace MemoryStore

/-- The start of the bucket a time falls in; Go's division truncates toward zero. -/
def truncateTime (s : MemoryStore) (t : Int) : Int := t.tdiv s.bucketDuration * s.bucketDuration

/-- The bucket of a timestamp, new if there is none. -/
def bucketAt (s : MemoryStore) (ts : Int) : TrafficBucket :=
  s.buckets.getD ts { timestamp := ts }

/-- Buckets older than the retention are dropped. -/
def evict (s : MemoryStore) (now : Int) : MemoryStore :=
  { s with buckets := s.buckets.filter fun ts _ => !decide (ts < now - s.retention) }

/-- A snapshot added to the bucket of its time, without the eviction. -/
def add (s : MemoryStore) (snapshot : XrayStatsSnapshot) (now : Int) : MemoryStore :=
  let ts := s.truncateTime now
  let bucket := s.bucketAt ts
  { s with buckets :=
      s.buckets.insert ts { bucket with
        toXrayStatsSnapshot := bucket.toXrayStatsSnapshot.merge snapshot } }

/-- Merges a snapshot into the bucket of its time, then evicts. -/
def accumulate (s : MemoryStore) (snapshot : XrayStatsSnapshot) (now : Int) : MemoryStore :=
  (s.add snapshot now).evict now

/-- The buckets by timestamp, which is the key they are held under. -/
def getAll (s : MemoryStore) : List TrafficBucket := s.buckets.toList.map Prod.snd

def drain (s : MemoryStore) (throughTime : Int) : MemoryStore :=
  { s with buckets := s.buckets.filter fun ts _ => !decide (ts ≤ throughTime) }

def getBaseline (s : MemoryStore) : Option XrayStatsSnapshot :=
  s.baseline.map XrayStatsSnapshot.clone

def setBaseline (s : MemoryStore) (snapshot : XrayStatsSnapshot) : MemoryStore :=
  { s with baseline := some snapshot.clone }

end MemoryStore

/-! ## The file -/

def fileStoreVersion : Int := 2

structure FileStoreData where
  version : Int
  buckets : List TrafficBucket
  baseline : Option XrayStatsSnapshot

/-- The store's file: not there, not readable, not its text, or whole. -/
inductive StoreFile where
  | missing
  | unreadable
  | corrupt
  | whole (data : FileStoreData)

/-- Loads the file over a store; one that cannot be used leaves the store as it is. -/
def loadFromDisk (mem : MemoryStore) : StoreFile → MemoryStore
  | .missing | .unreadable | .corrupt => mem
  | .whole stored =>
    if stored.version ≠ 1 ∧ stored.version ≠ fileStoreVersion then mem
    else
      { mem with
        buckets := stored.buckets.foldl (fun acc b => acc.insert b.timestamp b) mem.buckets
        baseline := stored.baseline.or mem.baseline }

/-! ## Laws of the counts -/

theorem toInt_add_of_lt {a b : Int64} (ha : 0 ≤ a.toInt) (hb : 0 ≤ b.toInt)
    (fits : a.toInt + b.toInt < 2 ^ 63) : (a + b).toInt = a.toInt + b.toInt := by
  rw [toInt_add]
  exact Int.bmod_eq_of_le (by omega) (by omega)

theorem toInt_sub_of_le {a b : Int64} (hb : 0 ≤ b.toInt) (le : b.toInt ≤ a.toInt) :
    (a - b).toInt = a.toInt - b.toInt := by
  have top := a.toInt_lt
  rw [toInt_sub]
  exact Int.bmod_eq_of_le (by omega) (by omega)

theorem getD_addCounts {dst src : GoMap String Int64} {k : String}
    (hd : 0 ≤ (dst.getD k 0).toInt) (hs : 0 ≤ (src.getD k 0).toInt)
    (fits : (dst.getD k 0).toInt + (src.getD k 0).toInt < 2 ^ 63) :
    ((XrayStatsSnapshot.addCounts dst src).getD k 0).toInt =
      (dst.getD k 0).toInt + (src.getD k 0).toInt := by
  rw [XrayStatsSnapshot.addCounts, getD_addAll]
  rw [getD_eq src] at hs fits ⊢
  cases found : src[k]? with
  | none => simp
  | some v =>
    rw [found, getD_some] at hs fits
    exact toInt_add_of_lt hd hs fits

theorem getD_diffMap {prev curr : GoMap String Int64} {k : String}
    (hp : 0 ≤ (prev.getD k 0).toInt) (grown : (prev.getD k 0).toInt ≤ (curr.getD k 0).toInt) :
    ((diffMap prev curr).getD k 0).toInt = (curr.getD k 0).toInt - (prev.getD k 0).toInt := by
  rw [diffMap, getD_filterMap']
  rw [getD_eq curr] at grown ⊢
  cases found : curr[k]? with
  | none =>
    rw [found] at grown
    simp only [bind_none, getD_none, toInt_zero] at grown ⊢
    omega
  | some c =>
    rw [found, getD_some] at grown
    simp only [bind_some, getD_some]
    split
    next nonpos =>
      rw [le_iff_toInt_le, toInt_zero] at nonpos
      rw [getD_none, toInt_zero]
      omega
    · split
      next back =>
        rw [lt_iff_toInt_lt] at back
        omega
      · split
        · exact toInt_sub_of_le hp grown
        next still =>
          rw [lt_iff_toInt_lt] at still
          rw [getD_none, toInt_zero]
          omega

theorem toInt_diffInt64 {prev curr : Int64} (hp : 0 ≤ prev.toInt)
    (grown : prev.toInt ≤ curr.toInt) : (diffInt64 prev curr).toInt = curr.toInt - prev.toInt := by
  rw [diffInt64, if_neg (by rw [lt_iff_toInt_lt]; omega)]
  exact toInt_sub_of_le hp grown

namespace XrayStatsSnapshot

/-- **Merging adds every counter**, where the sum fits. -/
theorem read_merge {dst src : XrayStatsSnapshot} {c : Counter} (hd : 0 ≤ dst.read c)
    (hs : 0 ≤ src.read c) (fits : dst.read c + src.read c < 2 ^ 63) :
    (dst.merge src).read c = dst.read c + src.read c := by
  cases c with
  | totalUplink => exact toInt_add_of_lt hd hs fits
  | totalDownlink => exact toInt_add_of_lt hd hs fits
  | _ => exact getD_addCounts hd hs fits

@[simp] theorem read_clone (s : XrayStatsSnapshot) (c : Counter) : s.clone.read c = s.read c := by
  cases c <;> rfl

@[simp] theorem read_empty (c : Counter) : ({} : XrayStatsSnapshot).read c = 0 := by
  cases c <;> simp [read, get]

end XrayStatsSnapshot

def readBaseline (prev : Option XrayStatsSnapshot) (c : Counter) : Int :=
  match prev with
  | none => 0
  | some prev => prev.read c

/-- **The difference is what a counter grew by**, where it only grew. -/
theorem read_diffSnapshot {prev : Option XrayStatsSnapshot} {curr : XrayStatsSnapshot} {c : Counter}
    (hp : 0 ≤ readBaseline prev c) (grown : readBaseline prev c ≤ curr.read c) :
    (diffSnapshot prev curr).read c = curr.read c - readBaseline prev c := by
  cases prev with
  | none => simp [diffSnapshot, readBaseline]
  | some prev =>
    cases c with
    | totalUplink => exact toInt_diffInt64 hp grown
    | totalDownlink => exact toInt_diffInt64 hp grown
    | _ => exact getD_diffMap hp grown

theorem read_of_isEmpty {s : XrayStatsSnapshot} (empty : snapshotIsEmpty s = true) (c : Counter) :
    s.read c = 0 := by
  simp only [snapshotIsEmpty, Bool.and_eq_true, beq_iff_eq, Std.ExtTreeMap.isEmpty_iff] at empty
  obtain ⟨⟨⟨⟨⟨⟨⟨up, down⟩, uu⟩, ud⟩, iu⟩, id⟩, ou⟩, od⟩ := empty
  cases c <;> simp [XrayStatsSnapshot.read, XrayStatsSnapshot.get, *]

/-! ## Laws of the store -/

namespace MemoryStore
variable {s : MemoryStore} {M : Type} [AddCommMonoid M]

def grown (s : MemoryStore) (snapshot : XrayStatsSnapshot) (now : Int) : TrafficBucket :=
  { s.bucketAt (s.truncateTime now) with
    toXrayStatsSnapshot :=
      (s.bucketAt (s.truncateTime now)).toXrayStatsSnapshot.merge snapshot }

theorem getElem?_add (s : MemoryStore) (snapshot : XrayStatsSnapshot) (now ts : Int) :
    (s.add snapshot now).buckets[ts]? =
      if ts = s.truncateTime now then some (s.grown snapshot now) else s.buckets[ts]? :=
  getElem?_insert _ _ _ _

theorem getElem?_drain (s : MemoryStore) (t ts : Int) :
    (s.drain t).buckets[ts]? = if ts ≤ t then none else s.buckets[ts]? := by
  rw [drain, GoMap.getElem?_filter]
  by_cases h : ts ≤ t
  · simp [h]
  · cases found : s.buckets[ts]? <;> simp [h]

/-- Nothing the store holds is past the retention. -/
def Fresh (s : MemoryStore) (now : Int) : Prop :=
  ∀ (ts : Int) (b : TrafficBucket), s.buckets[ts]? = some b → now - s.retention ≤ ts

theorem evict_of_fresh {now : Int} (fresh : s.Fresh now) : s.evict now = s := by
  have same : (s.buckets.filter fun ts _ => !decide (ts < now - s.retention)) = s.buckets := by
    refine Std.ExtTreeMap.ext_getElem? fun ts => ?_
    rw [GoMap.getElem?_filter]
    cases found : s.buckets[ts]? with
    | none => rfl
    | some b =>
      have kept := fresh ts b found
      simp [Int.not_lt.mpr kept]
  rw [evict, same]

theorem total_add {f : TrafficBucket → M} {g : M} {snapshot : XrayStatsSnapshot} {now : Int}
    (new : f { timestamp := s.truncateTime now } = 0)
    (adds : f (s.grown snapshot now) = f (s.bucketAt (s.truncateTime now)) + g) :
    GoMap.total (fun _ => f) (s.add snapshot now).buckets =
      GoMap.total (fun _ => f) s.buckets + g := by
  rw [show (s.add snapshot now).buckets =
    s.buckets.insert (s.truncateTime now) (s.grown snapshot now) from rfl, total_insert, adds,
    bucketAt, ← total_erase_add s.buckets _ new]
  abel

theorem total_drain (s : MemoryStore) (f : TrafficBucket → M) (t : Int) :
    GoMap.total (fun _ => f) (s.drain t).buckets +
      GoMap.total (fun _ => f) (s.buckets.filter fun ts _ => decide (ts ≤ t)) =
        GoMap.total (fun _ => f) s.buckets := by
  rw [add_comm]
  exact total_filter_add s.buckets fun ts _ => decide (ts ≤ t)

/-- Every bucket is held under its timestamp. -/
def Keyed (s : MemoryStore) : Prop :=
  ∀ (ts : Int) (b : TrafficBucket), s.buckets[ts]? = some b → b.timestamp = ts

theorem Keyed.bucketAt (h : s.Keyed) (ts : Int) : (s.bucketAt ts).timestamp = ts := by
  rw [MemoryStore.bucketAt, getD_eq]
  cases found : s.buckets[ts]? with
  | some b => exact h ts b found
  | none => rfl

theorem Keyed.add (h : s.Keyed) (snapshot : XrayStatsSnapshot) (now : Int) :
    (s.add snapshot now).Keyed := by
  intro ts b found
  rw [getElem?_add] at found
  split at found
  next same =>
    cases found
    exact (h.bucketAt _).trans same.symm
  · exact h ts b found

theorem Keyed.filter (h : s.Keyed) (p : Int → TrafficBucket → Bool) :
    ({ s with buckets := s.buckets.filter p } : MemoryStore).Keyed := by
  intro ts b found
  exact h ts b (of_filter found).1

end MemoryStore

/-- **A file a flush wrote loads as it was.** -/
theorem loadFromDisk_getAll {s mem : MemoryStore} (keyed : s.Keyed) (empty : mem.buckets = ∅)
    (baseline : Option XrayStatsSnapshot) :
    (loadFromDisk mem (.whole ⟨fileStoreVersion, s.getAll, baseline⟩)).buckets = s.buckets := by
  have entry : ∀ e ∈ s.buckets.toList, e.2.timestamp = e.1 := fun e he =>
    keyed e.1 e.2 (mem_toList_iff_getElem?_eq_some.mp he)
  have version : ¬ (fileStoreVersion ≠ 1 ∧ fileStoreVersion ≠ fileStoreVersion) := by decide
  rw [loadFromDisk, if_neg version, empty]
  rw [MemoryStore.getAll, foldl_map,
    foldl_ext _ (fun acc e => acc.insert e.1 e.2) _ fun acc e he => by rw [entry e he],
    foldl_insert_toList]

/-! ## Runs of the store -/

def newMemoryStore (bucketDuration retention : Int) : MemoryStore := { bucketDuration, retention }

/-- A restart flushes the store, and a new one loads the file. -/
inductive StoreOp where
  | accumulate (snapshot : XrayStatsSnapshot) (now : Int)
  | drain (throughTime : Int)
  | setBaseline (snapshot : XrayStatsSnapshot)
  | restart

namespace StoreOp

def run (s : MemoryStore) : StoreOp → MemoryStore
  | .accumulate snapshot now => s.accumulate snapshot now
  | .drain throughTime => s.drain throughTime
  | .setBaseline snapshot => s.setBaseline snapshot
  | .restart => loadFromDisk (newMemoryStore s.bucketDuration s.retention)
      (.whole ⟨fileStoreVersion, s.getAll, s.getBaseline⟩)

/-- The time a snapshot comes with. -/
def time : StoreOp → Option Int
  | .accumulate _ now => some now
  | _ => none

/-- A drain through the timestamp, or a snapshot that leaves it behind the retention. -/
def removes (retention ts : Int) : StoreOp → Bool
  | .accumulate _ now => decide (ts < now - retention)
  | .drain throughTime => decide (ts ≤ throughTime)
  | .setBaseline _ | .restart => false

def isRestart : StoreOp → Bool
  | .restart => true
  | _ => false

variable {s : MemoryStore} {ops : List StoreOp} {t ts d r : Int}

theorem keyed_new : (newMemoryStore d r).Keyed := fun _ _ found => by simp [newMemoryStore] at found

theorem buckets_restart (keyed : s.Keyed) : (run s .restart).buckets = s.buckets :=
  loadFromDisk_getAll keyed rfl s.getBaseline

/-- An operation keeps every bucket under its own time. -/
theorem keyed_run (keyed : s.Keyed) (op : StoreOp) : (run s op).Keyed := by
  cases op with
  | accumulate snapshot now => exact (keyed.add snapshot now).filter _
  | drain throughTime => exact keyed.filter _
  | setBaseline snapshot => exact keyed
  | restart =>
    intro ts b found
    rw [buckets_restart keyed] at found
    exact keyed ts b found

theorem truncateTime_run (s : MemoryStore) (op : StoreOp) :
    (run s op).truncateTime = s.truncateTime := by
  cases op <;> rfl

theorem retention_run (s : MemoryStore) (op : StoreOp) : (run s op).retention = s.retention := by
  cases op <;> rfl

theorem getElem?_evict (s : MemoryStore) (now ts : Int) :
    (s.evict now).buckets[ts]? = if ts < now - s.retention then none else s.buckets[ts]? := by
  rw [MemoryStore.evict, GoMap.getElem?_filter]
  by_cases old : ts < now - s.retention
  · simp [old]
  · cases found : s.buckets[ts]? <;> simp [old]

/-- What one operation does to a bucket: it removes it, leaves it alone, or is a snapshot of its
time. -/
theorem run_cases (keyed : s.Keyed) (op : StoreOp) (ts : Int) :
    (run s op).buckets[ts]? = (if op.removes s.retention ts then none else s.buckets[ts]?) ∨
      ∃ now, op.time = some now ∧ ts = s.truncateTime now := by
  cases op with
  | accumulate snapshot now =>
    by_cases here : ts = s.truncateTime now
    · exact .inr ⟨now, rfl, here⟩
    left
    have kept := s.getElem?_add snapshot now ts
    rw [if_neg here] at kept
    refine (getElem?_evict _ now ts).trans ?_
    rw [kept]
    by_cases old : ts < now - s.retention <;> simp [removes, MemoryStore.add, old]
  | drain throughTime =>
    left
    refine (s.getElem?_drain throughTime ts).trans ?_
    simp [removes]
  | setBaseline snapshot => exact .inl rfl
  | restart => exact .inl (by rw [buckets_restart keyed]; rfl)

theorem held_or_time (keyed : s.Keyed) (held : (ops.foldl run s).buckets[t]? ≠ none) :
    s.buckets[t]? ≠ none ∨ ∃ op ∈ ops, ∃ now, op.time = some now ∧ t = s.truncateTime now := by
  induction ops generalizing s with
  | nil => exact .inl held
  | cons op ops ih =>
    rcases ih (keyed_run keyed op) held with there | ⟨later, mem, made⟩
    · rcases run_cases keyed op t with same | made
      · rw [same] at there
        split at there
        · exact absurd rfl there
        · exact .inl there
      · exact .inr ⟨op, mem_cons_self, made⟩
    · exact .inr ⟨later, mem_cons_of_mem op mem, truncateTime_run s op ▸ made⟩

/-- A bucket that no snapshot comes to is there until an operation removes it. -/
theorem run_later (keyed : s.Keyed)
    (later : ∀ op ∈ ops, ∀ now, op.time = some now → ts < s.truncateTime now) :
    (ops.foldl run s).buckets[ts]? =
      if ops.any (removes s.retention ts) then none else s.buckets[ts]? := by
  induction ops generalizing s with
  | nil => rfl
  | cons op ops ih =>
    obtain ⟨first, rest⟩ := forall_mem_cons.mp later
    rw [foldl_cons, ih (keyed_run keyed op) (truncateTime_run s op ▸ rest), retention_run, any_cons]
    rcases run_cases keyed op ts with same | ⟨now, made, here⟩
    · rw [same]
      cases op.removes s.retention ts <;> simp
    · exact absurd here (Int.ne_of_lt (first now made))

def twoMinutes : List StoreOp := [.accumulate {} 30, .restart, .accumulate {} 70]

/-- Restarts in between do not show in what the store gives out. -/
theorem getAll_run {a b : MemoryStore} (keyed : a.Keyed)
    (same : { a with baseline := none } = { b with baseline := none }) :
    (ops.foldl run a).getAll = ((ops.filter (!·.isRestart)).foldl run b).getAll := by
  induction ops generalizing a b with
  | nil =>
    have seen := congrArg MemoryStore.getAll same
    exact seen
  | cons op ops ih =>
    -- Every other operation comes to the same whatever the baseline is.
    have step := congrArg (fun s => { run s op with baseline := none }) same
    cases op with
    | restart =>
      refine ih (keyed_run keyed .restart) (Eq.trans ?_ same)
      rw [buckets_restart keyed]
      rfl
    | _ => exact ih (keyed_run keyed _) step

/-- **Restarts are not seen**: the buckets are those of the run without them. -/
theorem restarts_unseen (d r : Int) (ops : List StoreOp) :
    (ops.foldl run (newMemoryStore d r)).getAll =
      ((ops.filter (!·.isRestart)).foldl run (newMemoryStore d r)).getAll :=
  getAll_run keyed_new rfl

end StoreOp

end NasnetPanel.Traffic
