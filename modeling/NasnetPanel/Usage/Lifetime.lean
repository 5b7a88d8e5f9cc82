import Mathlib.Algebra.Order.BigOperators.Group.List
import NasnetPanel.Usage.Bytes
import NasnetPanel.Usage.Marks

/-!
# Usage.Lifetime — a subscription's lifetime only grows

A lifetime is what has been counted, on the nodes and on removed ones, and what is shown of each
node's newest bucket, which is not counted yet. What is shown may be replaced by a later answer, so
that it is not lost rests on the agent: it still has the newest bucket the hub has accepted from it,
with at least the bytes shown, because every mark is older than that bucket (`Shown`). The next
answer therefore has the bucket again, and shows it or counts it.

The hub skips a bucket dated more than a day past its clock, so the clock must not go back to before
a date it has accepted; the run keeps a note of those (`Dates`). And `Forget` drops what the node
shows: that much a lifetime falls by, and no more (`lifetime_grows`).
-/

namespace NasnetPanel.Usage
open GoMap Runs Traffic List Option

/-! ## The dates accepted -/

/-- The newest date the hub has accepted from each node. -/
abbrev Dates := Nat → Int

/-- The node and the answer a poll is about to take in. -/
def System.answer (s : System) (tid : Nat) : Option (Nat × List TrafficBucket) := do
  let h ← s.hub
  let p ← h.polls[tid]?
  let _ ← h.c.nodeAt p.id p.ref
  match p.phase with
  | .answered buffered => return (p.id, buffered)
  | _ => none

def accept (s : System) (a : Action) (dates : Dates) : Dates :=
  match a with
  | .fold tid now =>
    match s.answer tid with
    | some (id, buffered) => Function.update dates id
        (max (dates id) (newestOf (records buffered id (now + maxAhead)).1))
    | none => dates
  | _ => dates

/-- Agents are given what fits, in order, and evict nothing; and no date the hub has accepted from a
node is more than a day past the hub's clock when it takes in another of the node's answers. -/
def steady (d : System × Dates) : Action → Bool
  | .accumulate id delta now =>
    orderly d.1 (.accumulate id delta now) && (d.1.agents id).fits delta now
  | .fold tid now =>
    match d.1.answer tid with
    | some (id, _) => decide (d.2 id ≤ now + maxAhead)
    | none => true
  | _ => true

variable {a : Action} {id sub : Nat} {dates : Dates} {s t : System} {h : Hub}

theorem orderly_of_steady {d : System × Dates} (h : steady d a = true) : orderly d.1 a = true := by
  cases a with
  | accumulate id delta now => exact (Bool.and_eq_true_iff.mp h).1
  | _ => rfl

/-! ## What is shown is still with the agent -/

/-- The agent has at least these bytes under the timestamp. -/
def Has (a : Box) (id : Nat) (ts : Int) (b : Bucket) : Prop :=
  ∃ c, a.store.buckets[ts]? = some c ∧ b ≤ reading id c.toXrayStatsSnapshot

/-- An answer has the newest date accepted, with at least what is shown, and the agent still has the
answer's buckets from that date on. -/
def Fetched (a : Box) (id : Nat) (date : Int) (n : Node) (buffered : List TrafficBucket) : Prop :=
  ∃ store : MemoryStore, store.Keyed ∧ buffered = store.getAll ∧
    (0 < date → ∃ b, store.buckets[date]? = some b ∧
      ∀ q, n.growing = some q → q.b ≤ reading id b.toXrayStatsSnapshot) ∧
    ∀ (ts : Int) (b : TrafficBucket), store.buckets[ts]? = some b → date ≤ ts →
      Has a id ts (reading id b.toXrayStatsSnapshot)

structure HubShown (dates : Dates) (agents : Nat → Box) (h : Hub) : Prop where
  growing : ∀ (id : Nat) (n : Node) (q : Partial), h.c.nodes[id]? = some n → n.growing = some q →
    0 < q.ts ∧ q.ts = dates id ∧ Has (agents id) id q.ts q.b
  fetched : ∀ (tid : Nat) (p : Poll) (buffered : List TrafficBucket) (n : Node),
    h.polls[tid]? = some p → p.phase = .answered buffered → h.c.nodeAt p.id p.ref = some n →
      Fetched (agents p.id) p.id (dates p.id) n buffered
  locked : ∀ (tid tid' : Nat) (p p' : Poll), h.polls[tid]? = some p → h.polls[tid']? = some p' →
    p.holds = true → p'.holds = true → p.id = p'.id → p.ref = p'.ref → tid = tid'
  pollRefs : ∀ (tid : Nat) (p : Poll), h.polls[tid]? = some p → p.ref < h.c.made
  nodeRefs : ∀ (id : Nat) (n : Node), h.c.nodes[id]? = some n → n.ref < h.c.made

/-- The newest bucket accepted from each node is still with its agent, every mark is older, and what
is shown is of that bucket. -/
structure Shown (dates : Dates) (s : System) : Prop where
  there : ∀ id, 0 < dates id → ∃ b, (s.agents id).store.buckets[dates id]? = some b
  marks : Marks (fun id m => 0 < m → m < dates id) s
  hub : ∀ h, s.hub = some h → HubShown dates s.agents h

theorem Has.mono {a : Box} {ts : Int} {b b' : Bucket} (has : Has a id ts b)
    (le : b' ≤ b) : Has a id ts b' := by
  obtain ⟨c, here, more⟩ := has
  exact ⟨c, here, le.trans more⟩

/-! ### The agents' steps -/

def Keeps (date : Int) (id : Nat) (a a' : Box) : Prop :=
  ∀ (ts : Int) (b : TrafficBucket), date ≤ ts → a.store.buckets[ts]? = some b →
    Has a' id ts (reading id b.toXrayStatsSnapshot)

variable {now : Int}

section Agents
variable {a a' : Box} {id : Nat} {date : Int}

theorem Keeps.has {ts : Int} {b : Bucket} (keeps : Keeps date id a a') (has : Has a id ts b)
    (le : date ≤ ts) : Has a' id ts b := by
  obtain ⟨c, here, more⟩ := has
  exact (keeps ts c le here).mono more

theorem Keeps.refl (date : Int) (id : Nat) (a : Box) : Keeps date id a a :=
  fun _ b _ here => ⟨b, here, le_refl _⟩

theorem keeps_drain {t : Int} (older : t < date) : Keeps date id a (a.drain t) := by
  intro ts b le here
  refine ⟨b, ?_, le_refl _⟩
  rw [Box.drain, MemoryStore.getElem?_drain, if_neg (by omega), here]

theorem keeps_accumulate {written : List Entry} (kept : Kept a written id) (exact_ : Exact a)
    {delta : XrayStatsSnapshot}
    (newest : Newest a.held.buckets (a.store.truncateTime now))
    (fresh : (a.store.add delta now).Fresh now) (fits : a.fits delta now = true) :
    Keeps date id a (a.accumulate delta now) := by
  have store : (a.accumulate delta now).store = a.store.add delta now :=
    MemoryStore.evict_of_fresh fresh
  intro ts b _ here
  rw [Has, store, MemoryStore.getElem?_add]
  split
  next same =>
    have bucket : a.store.bucketAt (a.store.truncateTime now) = b := by
      rw [MemoryStore.bucketAt, getD_eq, ← same, here]
      rfl
    have nonneg := exact_.bucketAt (a.store.truncateTime now)
    rw [kept.bucketAt newest, bucket] at nonneg
    rw [Box.fits, bucket] at fits
    refine ⟨_, rfl, Bucket.le_def.mpr fun sub => ?_⟩
    rw [MemoryStore.grown, bucket, subs_reading, subs_reading, subBytes_merge nonneg fits,
      Totals.cap_add]
    exact le_self_add
  · exact ⟨b, here, le_refl _⟩

theorem Shown.setAgent {dates : Dates} {s : System} (shown : Shown dates s)
    (keeps : Keeps (dates id) id (s.agents id) a) : Shown dates (s.setAgent id a) := by
  have all := s.forall_setAgent (P := fun k b => Keeps (dates k) k (s.agents k) b) keeps
    fun k => Keeps.refl _ _ _
  refine ⟨fun k pos => ?_, { shown.marks with }, fun h running => ?_⟩
  · obtain ⟨b, here⟩ := shown.there k pos
    obtain ⟨c, there, -⟩ := all k (dates k) b le_rfl here
    exact ⟨c, there⟩
  have hub := shown.hub h running
  refine { hub with
    growing := fun k n q here shows => ?_
    fetched := fun tid p buffered n here phase at_ => ?_ }
  · obtain ⟨pos, date, has⟩ := hub.growing k n q here shows
    exact ⟨pos, date, (all k).has has date.ge⟩
  · obtain ⟨store, keyed, same, newest, kept⟩ := hub.fetched tid p buffered n here phase at_
    exact ⟨store, keyed, same, newest, fun ts b there le => (all p.id).has (kept ts b there le) le⟩

end Agents

/-! ### Polls -/

variable {n : Node} {h' : Hub} {tid : Nat} {ms : List Action}

theorem nodeAt_of {c : Collector} (found : c.nodes[id]? = some n) : c.nodeAt id n.ref = some n := by
  rw [Collector.nodeAt, found, filter_some, beq_self_eq_true, if_pos rfl]

section Polls
variable {dates : Dates} {agents : Nat → Box} {h h' : Hub}

theorem HubShown.within (shown : HubShown dates agents h) (within : Within h h') :
    HubShown dates agents h' := by
  refine ⟨fun id n' q' here shows => ?_, fun tid p' buffered n' here phase at_ => ?_,
    fun tid tid' p p' here here' lock lock' same ref => ?_, fun tid p' here => ?_,
    fun id n' here => ?_⟩
  · obtain ⟨n, found, -, grows⟩ := within.nodes id n' here
    obtain ⟨q, shown', ts, le⟩ := grows q' shows
    rw [ts]
    obtain ⟨pos, date, has⟩ := shown.growing id n q found shown'
    exact ⟨pos, date, has.mono le⟩
  · obtain ⟨p, found, same, ref, -, answered⟩ := within.polls tid p' here
    obtain ⟨here', ref'⟩ := nodeAt_eq at_
    obtain ⟨n, found', same', grows⟩ := within.nodes p'.id n' here'
    rw [same] at found' ⊢
    have old : h.c.nodeAt p.id p.ref = some n := by
      rw [← ref, ← ref', same']
      exact nodeAt_of found'
    obtain ⟨store, keyed, all, newest, kept⟩ :=
      shown.fetched tid p buffered n found (answered buffered phase) old
    refine ⟨store, keyed, all, fun pos => ?_, kept⟩
    obtain ⟨b, there, more⟩ := newest pos
    refine ⟨b, there, fun q' shows => ?_⟩
    obtain ⟨q, shown', -, le⟩ := grows q' shows
    exact le.trans (more q shown')
  · obtain ⟨r, found, id, rref, holds, -⟩ := within.polls tid p here
    obtain ⟨r', found', id', rref', holds', -⟩ := within.polls tid' p' here'
    exact shown.locked tid tid' r r' found found' (holds lock) (holds' lock')
      (id.symm.trans (same.trans id')) (rref.symm.trans (ref.trans rref'))
  · obtain ⟨p, found, -, ref, -⟩ := within.polls tid p' here
    rw [ref, within.made]
    exact shown.pollRefs tid p found
  · obtain ⟨n, found, ref, -⟩ := within.nodes id n' here
    rw [ref, within.made]
    exact shown.nodeRefs id n found

theorem HubShown.setPoll (shown : HubShown dates agents h) (tid : Nat) {p : Poll}
    (fetched : ∀ buffered n, p.phase = .answered buffered → h.c.nodeAt p.id p.ref = some n →
      Fetched (agents p.id) p.id (dates p.id) n buffered)
    (alone : p.holds = true → ∀ (k : Nat) (q : Poll), h.polls[k]? = some q → q.holds = true →
      q.id = p.id → q.ref = p.ref → False)
    (ref : p.ref < h.c.made) : HubShown dates agents { h with polls := h.polls.insert tid p } := by
  refine ⟨shown.growing, fun k q buffered n here phase at_ => ?_,
    fun k k' q q' here here' lock lock' same ref' => ?_, forall_insert ref shown.pollRefs,
    shown.nodeRefs⟩
  · rcases insert_cases here with ⟨-, rfl⟩ | ⟨-, here⟩
    · exact fetched buffered n phase at_
    · exact shown.fetched k q buffered n here phase at_
  rcases insert_cases here with ⟨first, rfl⟩ | ⟨-, was⟩
  · rcases insert_cases here' with ⟨second, rfl⟩ | ⟨-, was'⟩
    · rw [first, second]
    · exact (alone lock k' q' was' lock' same.symm ref'.symm).elim
  · rcases insert_cases here' with ⟨-, rfl⟩ | ⟨-, was'⟩
    · exact (alone lock' k q was lock same ref').elim
    · exact shown.locked k k' q q' was was' lock lock' same ref'

theorem HubShown.addPoll (shown : HubShown dates agents h) (tid : Nat) {p : Poll}
    (waiting : p.phase = .waiting) (ref : p.ref < h.c.made) :
    HubShown dates agents { h with polls := h.polls.insert tid p } := by
  refine shown.setPoll tid (fun _ _ phase => ?_) (fun lock => ?_) ref
  · cases waiting.symm.trans phase
  · rw [Poll.holds, waiting] at lock
    cases lock

theorem HubShown.newNode (shown : HubShown dates agents h) (id : Nat) :
    HubShown dates agents { h with
      c := { h.c.setNode id { ref := h.c.made, src := true } with made := h.c.made + 1 } } := by
  refine ⟨fun k m q here shows => ?_, fun tid p buffered m here phase at_ => ?_, shown.locked,
    fun tid p here => Nat.lt_succ_of_lt (shown.pollRefs tid p here),
    forall_insert (Nat.lt_succ_self _) fun k m here =>
      Nat.lt_succ_of_lt (shown.nodeRefs k m here)⟩
  · rcases insert_cases here with ⟨-, rfl⟩ | ⟨-, here⟩
    · cases shows
    · exact shown.growing k m q here shows
  obtain ⟨here', ref⟩ := nodeAt_eq at_
  have older := shown.pollRefs tid p here
  rcases insert_cases here' with ⟨-, rfl⟩ | ⟨-, found⟩
  · dsimp only at ref
    omega
  · exact shown.fetched tid p buffered m here phase (ref ▸ nodeAt_of found)

variable {tid id : Nat}

theorem hubShown_poll (shown : HubShown dates agents h)
    (hs : h.poll tid id = some h') : HubShown dates agents h' := by
  obtain ⟨-, n, ⟨found, rfl⟩ | ⟨-, rfl, rfl⟩⟩ := Hub.poll_cases hs
  · have same : Quiet h { h with c := h.c.setNode id { n with src := true } } :=
      quiet_setNode found rfl rfl rfl rfl
    exact (shown.within same.within).addPoll tid rfl (shown.nodeRefs id n found)
  · exact (shown.newNode id).addPoll tid rfl (Nat.lt_succ_self _)

variable {P : Nat → Int → Prop}

theorem hubMarks_poll (zero : ∀ id, P id 0) (marks : HubMarks P h)
    (hs : h.poll tid id = some h') : HubMarks P h' := by
  have polls : ∀ (ref k : Nat) (q : Poll) (t : Int),
      (h.polls.insert tid ⟨id, ref, .waiting⟩)[k]? = some q → q.phase = .acking t → P q.id t := by
    intro ref k q t here phase
    rcases insert_cases here with ⟨-, rfl⟩ | ⟨-, here⟩
    · cases phase
    · exact marks.polls k q t here phase
  obtain ⟨-, n, ⟨found, rfl⟩ | ⟨-, rfl, rfl⟩⟩ := Hub.poll_cases hs
  · exact ⟨forall_insert (marks.nodes id n found) marks.nodes, marks.flush, polls n.ref⟩
  · exact ⟨forall_insert ⟨zero id, zero id⟩ marks.nodes, marks.flush, polls h.c.made⟩

theorem lifetime_poll {sub : Nat} (hs : h.poll tid id = some h') :
    h'.c.subscriptionLifetime sub = h.c.subscriptionLifetime sub := by
  obtain ⟨-, n, ⟨found, rfl⟩ | ⟨found, rfl, rfl⟩⟩ := Hub.poll_cases hs
  · have same : Quiet h { h with c := h.c.setNode id { n with src := true } } :=
      quiet_setNode found rfl rfl rfl rfl
    exact same.lifetime sub
  have none : ({ ref := h.c.made, src := true } : Node).lifetime sub = 0 := by rfl
  refine (lifetime_setNode h.c id _ sub).trans ?_
  rw [none, zero_add, erase_of_none found]

/-- **An answer has what is shown**, and the lock is the poll's alone. -/
theorem hubShown_fetch {s : System} (sound : Sound s) (shown : Shown dates s)
    (running : s.hub = some h) (hs : h.fetch tid s.agents = some h') :
    HubShown dates s.agents h' := by
  have hub := shown.hub h running
  obtain ⟨p, found, free, rfl⟩ := Hub.fetch_cases hs
  rw [Hub.unlocked, List.all_eq_true] at free
  refine hub.setPoll tid (fun buffered n phase at_ => ?_) (fun _ k q here lock same ref => ?_)
    (hub.pollRefs tid p found)
  · cases phase
    refine ⟨(s.agents p.id).store, (sound.kept p.id).keyed, rfl, fun pos => ?_,
      fun ts b there _ => ⟨b, there, le_refl _⟩⟩
    obtain ⟨b, there⟩ := shown.there p.id pos
    refine ⟨b, there, fun q shows => ?_⟩
    obtain ⟨-, date, c, there', more⟩ := hub.growing p.id n q (nodeAt_eq at_).1 shows
    rw [date] at there'
    cases there.symm.trans there'
    exact more
  · have busy := free (k, q) (Std.ExtTreeMap.mem_toList_iff_getElem?_eq_some.mpr here)
    simp [lock, same, ref] at busy

theorem hubMarks_fetch (marks : HubMarks P h)
    (hs : h.fetch tid agents = some h') : HubMarks P h' ∧ h'.c = h.c := by
  obtain ⟨p, -, -, rfl⟩ := Hub.fetch_cases hs
  refine ⟨{ marks with polls := fun k q t here phase => ?_ }, rfl⟩
  rcases insert_cases here with ⟨-, rfl⟩ | ⟨-, here⟩
  · cases phase
  · exact marks.polls k q t here phase

end Polls

/-! ### Taking in an answer -/

theorem le_newestOf {recs : List Record} (sorted : Rising recs) {r : Record}
    (hr : r ∈ recs) : r.ts ≤ newestOf recs := by
  rcases eq_nil_or_concat recs with rfl | ⟨front, last, rfl⟩
  · cases hr
  rw [concat_eq_append] at sorted hr ⊢
  rw [newestOf, getLast?_concat]
  rcases mem_append.mp hr with hr | hr
  · exact ((pairwise_append.mp sorted).2.2 r hr last (mem_singleton_self last)).le
  · rw [mem_singleton.mp hr]

section Taking
variable {a : Box} {id : Nat} {date limit : Int} {n : Node} {store : MemoryStore}
  (keyed : store.Keyed)
  (newest : 0 < date → ∃ b, store.buckets[date]? = some b ∧
    ∀ q, n.growing = some q → q.b ≤ reading id b.toXrayStatsSnapshot)
  (clock : date ≤ limit)
include keyed newest clock

theorem record_of_date (pos : 0 < date) : ∃ r ∈ (records store.getAll id limit).1, r.ts = date ∧
    ∀ q, n.growing = some q → q.b ≤ r.b := by
  obtain ⟨b, there, more⟩ := newest pos
  exact ⟨⟨date, reading id b.toXrayStatsSnapshot⟩,
    (mem_records keyed).mpr ⟨⟨pos, clock⟩, b, there, rfl⟩, rfl, more⟩

theorem last_record (kept : ∀ (ts : Int) (b : TrafficBucket), store.buckets[ts]? = some b →
      date ≤ ts → Has a id ts (reading id b.toXrayStatsSnapshot)) :
    (records store.getAll id limit).1.getLast? = none ∧
        max date (newestOf (records store.getAll id limit).1) ≤ 0 ∨
      ∃ r, (records store.getAll id limit).1.getLast? = some r ∧ 0 < r.ts ∧
        r.ts = max date (newestOf (records store.getAll id limit).1) ∧ Has a id r.ts r.b := by
  have sorted := records_sorted store.getAll id limit
  cases last : (records store.getAll id limit).1.getLast? with
  | none =>
    have empty := getLast?_eq_none_iff.mp last
    refine .inl ⟨rfl, ?_⟩
    have notPos : ¬ 0 < date := by
      intro pos
      obtain ⟨r, hr, -⟩ := record_of_date keyed newest clock pos
      rw [empty] at hr
      cases hr
    rw [empty]
    exact max_le (Int.not_lt.mp notPos) le_rfl
  | some r =>
    have mem := mem_of_getLast? last
    obtain ⟨⟨pos, -⟩, b, there, read⟩ := (mem_records keyed).mp mem
    have top : newestOf (records store.getAll id limit).1 = r.ts := by rw [newestOf, last]
    have le : date ≤ r.ts := by
      by_cases pos : 0 < date
      · obtain ⟨r', hr', same, -⟩ := record_of_date keyed newest clock pos
        rw [← same, ← top]
        exact le_newestOf sorted hr'
      · omega
    exact .inr ⟨r, rfl, pos, by rw [top, max_eq_right le], read ▸ kept r.ts b there le⟩

/-- **What was shown is shown or counted.** -/
theorem lifetime_fold (older : 0 < n.hist.through → n.hist.through < date)
    (dated : ∀ q, n.growing = some q → 0 < date) (noWrite : Bool) (sub : Nat) :
    n.lifetime sub ≤ (n.fold (records store.getAll id limit).1 noWrite).1.lifetime sub := by
  have sorted := records_sorted store.getAll id limit
  rw [Node.lifetime, Node.lifetime, hist_fold n sorted, life_counts, add_assoc]
  refine add_le_add le_rfl ?_
  cases shows : n.growing with
  | none =>
    rw [Node.share, shows]
    exact zero_le
  | some q =>
    have pos := dated q shows
    obtain ⟨r, hr, same, more⟩ := record_of_date keyed newest clock pos
    have share : n.share sub ≤ r.b.subs.getD sub 0 := by
      rw [Node.share, shows]
      exact Bucket.le_def.mp (more q shows) sub
    have past : n.hist.through < r.ts := by
      rw [same]
      by_cases counted : 0 < n.hist.through
      · exact older counted
      · omega
    refine share.trans ?_
    by_cases complete : r.ts < newestOf (records store.getAll id limit).1
    · -- A newer bucket has come: this one is counted.
      have fresh := mem_freshRecords.mpr ⟨hr, past, complete⟩
      have counted : r.b.subs.getD sub 0 ≤ ((freshRecords n.hist.through
          (records store.getAll id limit).1).map fun r => r.b.subs.getD sub 0).sum :=
        le_sum_of_mem (List.mem_map.mpr ⟨r, fresh, rfl⟩)
      exact counted.trans (le_self_add)
    · -- It is the newest still, and shown again.
      have shown := growing_fold n sorted noWrite
      have top := le_newestOf sorted hr
      rw [newestOf] at complete top
      cases last : (records store.getAll id limit).1.getLast? with
      | none =>
        rw [getLast?_eq_none_iff.mp last] at hr
        cases hr
      | some r' =>
        rw [last] at shown complete top
        dsimp only at shown complete top
        obtain ⟨-, b, there, read⟩ := (mem_records keyed).mp hr
        obtain ⟨-, b', there', read'⟩ := (mem_records keyed).mp (mem_of_getLast? last)
        have ts : r'.ts = r.ts := by omega
        rw [ts] at there'
        cases there.symm.trans there'
        rw [if_neg (by omega)] at shown
        rw [Node.share, shown, add_comm, ← read, read']
        exact le_self_add

end Taking

/-! ### Every step -/

theorem le_accept (s : System) (a : Action) (dates : Dates) (id : Nat) :
    dates id ≤ accept s a dates id := by
  cases a with
  | fold tid now =>
    rw [accept]
    cases s.answer tid with
    | none => exact le_rfl
    | some e =>
      dsimp only
      by_cases same : id = e.1
      · rw [same, Function.update_self]
        exact le_max_left _ _
      · rw [Function.update_of_ne same]
  | _ => exact le_rfl

theorem Shown.onHub (shown : Shown dates s)
    (marks : HubMarks (fun id m => 0 < m → m < dates id) h') (hub : HubShown dates s.agents h') :
    Shown dates { s with hub := some h' } := by
  refine ⟨shown.there, { shown.marks with hub := fun k hk => ?_ }, fun k hk => ?_⟩
  · cases hk
    exact marks
  · cases hk
    exact hub

theorem Shown.narrow (shown : Shown dates s)
    (running : s.hub = some h) (moves : Moves h h') : Shown dates { s with hub := some h' } :=
  shown.onHub
    (moves.marks _ (fun _ pos => (Int.lt_irrefl 0 pos).elim) (shown.marks.hub h running))
    ((shown.hub h running).within moves.within)

/-- What taking in an answer changes: the poll's node, and the poll, which is over or has an
acknowledgement to send. -/
structure Took (h h' : Hub) (tid : Nat) (p : Poll) (n n' : Node) : Prop where
  found : h.polls[tid]? = some p
  holds : p.holds = true
  at_ : h.c.nodeAt p.id p.ref = some n
  c : h'.c = h.c.setNode p.id n'
  ref : n'.ref = n.ref
  disk : n'.diskThrough = n.diskThrough
  polls : ∀ (k : Nat) (q : Poll), h'.polls[k]? = some q →
    k = tid ∧ q = { p with phase := .acking n.diskThrough } ∨ k ≠ tid ∧ h.polls[k]? = some q
  flush : h'.flush = h.flush

theorem took_fold (hs : h.fold tid now = some h') :
    ∃ p buffered, h.polls[tid]? = some p ∧ p.phase = .answered buffered ∧
      (h.c.nodeAt p.id p.ref = none ∧ h' = { h with polls := h.polls.erase tid } ∨
        ∃ n, h.c.nodeAt p.id p.ref = some n ∧ Took h h' tid p n
          (n.fold (records buffered p.id (now + maxAhead)).1 h.c.noWrite).1) := by
  obtain ⟨p, buffered, found, phase, gone | ⟨n, taken, at_, rfl, rfl⟩⟩ := Hub.fold_cases hs
  · exact ⟨p, buffered, found, phase, .inl gone⟩
  refine ⟨p, buffered, found, phase, .inr ⟨n, at_, found, ?_, at_, rfl, rfl, rfl,
    fun k q there => ?_, rfl⟩⟩
  · rw [Poll.holds, phase]
  split at there
  next pos =>
    rw [n.ack_fold pos] at there
    exact insert_cases there
  · exact .inr (of_erase there)

section Took
variable {h h' : Hub} {tid : Nat} {p : Poll} {n n' : Node} (took : Took h h' tid p n n')
include took

theorem Took.nodes (k : Nat) (m : Node) (there : h'.c.nodes[k]? = some m) :
    k = p.id ∧ m = n' ∨ k ≠ p.id ∧ h.c.nodes[k]? = some m := by
  rw [took.c] at there
  exact insert_cases there

theorem Took.marks {P : Nat → Int → Prop}
    (marks : HubMarks P h) (through : P p.id n'.hist.through) :
    HubMarks P h' := by
  have disk := (marks.nodes p.id n (nodeAt_eq took.at_).1).2
  refine ⟨fun k m there => ?_, took.flush ▸ marks.flush, fun k q u there acking => ?_⟩
  · rcases took.nodes k m there with ⟨rfl, rfl⟩ | ⟨-, there⟩
    · exact ⟨through, took.disk ▸ disk⟩
    · exact marks.nodes k m there
  rcases took.polls k q there with ⟨-, rfl⟩ | ⟨-, there⟩
  · cases acking
    exact disk
  · exact marks.polls k q u there acking

theorem Took.poll {k : Nat} {q : Poll} (there : h'.polls[k]? = some q) (lock : q.holds = true) :
    ∃ r, h.polls[k]? = some r ∧ r.holds = true ∧ r.id = q.id ∧ r.ref = q.ref := by
  rcases took.polls k q there with ⟨rfl, rfl⟩ | ⟨-, there⟩
  · exact ⟨p, took.found, took.holds, rfl, rfl⟩
  · exact ⟨q, there, lock, rfl, rfl⟩

theorem Took.shown {dates dates' : Dates} {agents : Nat → Box} (hub : HubShown dates agents h)
    (others : ∀ k, k ≠ p.id → dates' k = dates k)
    (growing : ∀ q, n'.growing = some q →
      0 < q.ts ∧ q.ts = dates' p.id ∧ Has (agents p.id) p.id q.ts q.b) :
    HubShown dates' agents h' := by
  obtain ⟨here, ref⟩ := nodeAt_eq took.at_
  have made : h'.c.made = h.c.made := by rw [took.c]; rfl
  refine ⟨fun k m q there shows => ?_, fun k q buffered m there answered at' => ?_,
    fun k k' q q' there there' lock lock' same ref' => ?_, fun k q there => ?_, fun k m there => ?_⟩
  · rcases took.nodes k m there with ⟨rfl, rfl⟩ | ⟨other, there⟩
    · exact growing q shows
    · rw [others k other]
      exact hub.growing k m q there shows
  · rcases took.polls k q there with ⟨-, rfl⟩ | ⟨other, there⟩
    · cases answered
    · obtain ⟨there', ref'⟩ := nodeAt_eq at'
      rcases took.nodes q.id m there' with ⟨same, rfl⟩ | ⟨differ, found'⟩
      · -- Another answer of this node object would have had its lock.
        have locked : q.holds = true := by rw [Poll.holds, answered]
        exact (other (hub.locked k tid q p there took.found locked took.holds same
          (ref'.symm.trans (took.ref.trans ref)))).elim
      · rw [others q.id differ]
        exact hub.fetched k q buffered m there answered (ref' ▸ nodeAt_of found')
  · obtain ⟨r, hr, rlock, rid, rref⟩ := took.poll there lock
    obtain ⟨r', hr', rlock', rid', rref'⟩ := took.poll there' lock'
    exact hub.locked k k' r r' hr hr' rlock rlock' (rid.trans (same.trans rid'.symm))
      (rref.trans (ref'.trans rref'.symm))
  · rw [made]
    rcases took.polls k q there with ⟨-, rfl⟩ | ⟨-, there⟩
    · exact hub.pollRefs tid p took.found
    · exact hub.pollRefs k q there
  · rw [made]
    rcases took.nodes k m there with ⟨-, rfl⟩ | ⟨-, there⟩
    · rw [took.ref]
      exact hub.nodeRefs p.id n here
    · exact hub.nodeRefs k m there

end Took

/-- **Taking in an answer shows the agent's newest bucket**, which is now the newest accepted, and
loses nothing of what was shown. -/
theorem shown_fold (shown : Shown dates s)
    (ok : steady (s, dates) (.fold tid now) = true) (ht : step s (.fold tid now) = some t) :
    Shown (accept s (.fold tid now) dates) t ∧ ∃ h h', s.hub = some h ∧ t.hub = some h' ∧
      ∀ sub, h.c.subscriptionLifetime sub ≤ h'.c.subscriptionLifetime sub := by
  obtain ⟨h, h', running, hf, rfl⟩ := System.onHub_eq ht
  have hub := shown.hub h running
  obtain ⟨p, buffered, found, phase, ⟨none, rfl⟩ | ⟨n, at_, took⟩⟩ := took_fold hf
  · have answer : s.answer tid = Option.none := by simp [System.answer, running, found, none]
    have same : accept s (.fold tid now) dates = dates := by rw [accept, answer]
    rw [same]
    exact ⟨shown.narrow running (quiet_dropPoll h tid).toMoves, h, _, running, rfl, fun _ => le_rfl⟩
  · have answer : s.answer tid = some (p.id, buffered) := by
      simp [System.answer, running, found, at_, phase]
    obtain ⟨store, keyed, rfl, newest, kept⟩ := hub.fetched tid p buffered n found phase at_
    have here := (nodeAt_eq at_).1
    have clock : dates p.id ≤ now + maxAhead := by
      rw [steady] at ok
      rw [answer] at ok
      exact of_decide_eq_true ok
    have marks := shown.marks.hub h running
    have older := (marks.nodes p.id n here).1
    have sorted := records_sorted store.getAll p.id (now + maxAhead)
    have last := last_record keyed newest clock kept
    have grows := fun k => le_accept s (.fold tid now) dates k
    have self : accept s (.fold tid now) dates p.id = max (dates p.id)
        (newestOf (records store.getAll p.id (now + maxAhead)).1) := by
      rw [accept, answer]
      exact Function.update_self _ _ _
    have others : ∀ k, k ≠ p.id → accept s (.fold tid now) dates k = dates k := by
      intro k other
      rw [accept, answer]
      exact Function.update_of_ne other _ _
    have weaker : ∀ (k : Nat) (m : Int), (0 < m → m < dates k) → 0 < m →
        m < accept s (.fold tid now) dates k := fun k m lt pos => (lt pos).trans_le (grows k)
    refine ⟨⟨fun k pos => ?_, ⟨fun k m sent => ?_, fun k => ?_, fun k hk => ?_⟩, fun k hk => ?_⟩,
      h, h', running, rfl, fun sub => ?_⟩
    · by_cases same : k = p.id
      · rw [same, self] at pos ⊢
        rcases last with ⟨-, none⟩ | ⟨r, -, -, top, b, there, -⟩
        · omega
        · exact ⟨b, top ▸ there⟩
      · rw [others k same] at pos ⊢
        exact shown.there k pos
    · exact weaker k m (shown.marks.wire k m sent)
    · exact weaker k _ (shown.marks.file k)
    · cases hk
      refine took.marks (marks.mono weaker) fun pos => ?_
      rw [hist_fold n sorted] at pos ⊢
      obtain ⟨-, -, same | ⟨r, hr, mark⟩⟩ :=
        through_counts (freshRecords_sorted sorted _) past_of_fresh
      · rw [same] at pos ⊢
        exact (older pos).trans_le (grows p.id)
      · rw [← mark, self]
        exact (mem_freshRecords.mp hr).2.2.trans_le (le_max_right _ _)
    · cases hk
      refine took.shown hub others fun q shows => ?_
      rw [growing_fold n sorted] at shows
      rcases last with ⟨none, -⟩ | ⟨r, some, pos, top, has⟩
      · rw [none] at shows
        cases shows
      rw [some] at shows
      obtain ⟨-, rfl⟩ := of_unless shows
      exact ⟨pos, top.trans self.symm, has⟩
    · rw [lifetime_of_node here, took.c, lifetime_setNode]
      refine add_le_add (lifetime_fold keyed newest clock older (fun q shows => ?_) _ _) le_rfl
      obtain ⟨pos, date, -⟩ := hub.growing p.id n q here shows
      exact date ▸ pos

theorem opened_node {file : HubFile} (stored : Stored file)
    (here : (Collector.openOn file now).1.nodes[id]? = some n) :
    n.hist.through = (fileView file).through id ∧ n.diskThrough = (fileView file).through id ∧
      n.growing = none ∧ n.ref < (Collector.openOn file now).1.made := by
  obtain ⟨hists, retired, loaded, -, view⟩ := load_stored stored
  rw [Collector.openOn, loaded] at here ⊢
  obtain ⟨_, held, rfl⟩ := of_map here
  obtain ⟨hist, found, rfl⟩ := of_map held
  have mark : (fileView file).through id = hist.through := by
    rw [← view, viewOf]
    dsimp only
    rw [found]
    rfl
  rw [mark]
  exact ⟨rfl, rfl, rfl, Nat.zero_lt_one⟩

theorem shown_start (sound : Sound s) (shown : Shown dates s)
    (ht : step s (.start now) = some t) : Shown dates t := by
  obtain ⟨-, rfl⟩ := start_eq ht
  have same := openOn_stored sound.stored now
  refine ⟨shown.there, ⟨shown.marks.wire, same.symm ▸ shown.marks.file, fun h hh => ?_⟩,
    fun h hh => ?_⟩
  · cases hh
    refine ⟨fun id n here => ?_, trivial, fun tid p t here => by simp at here⟩
    obtain ⟨through, disk, -, -⟩ := opened_node sound.stored here
    rw [through, disk]
    exact ⟨shown.marks.file id, shown.marks.file id⟩
  · cases hh
    refine ⟨fun id n q here shows => ?_, fun tid p _ _ here => by simp at here,
      fun tid _ p _ here => by simp at here, fun tid p here => by simp at here,
      fun id n here => (opened_node sound.stored here).2.2.2⟩
    rw [(opened_node sound.stored here).2.2.1] at shows
    cases shows

structure Steady (d : System × Dates) : Prop where
  sound : Sound d.1
  bytes : ∀ id, Exact (d.1.agents id)
  shown : Shown d.2 d.1

/-- One step keeps what every agent holds exact. -/
theorem exact_step (sound : Sound s)
    (bytes : ∀ id, Exact (s.agents id)) (ok : steady (s, dates) a = true)
    (ht : step s a = some t) : ∀ id, Exact (t.agents id) := by
  rcases agents_step ht with ⟨id, delta, now, rfl, rfl⟩ | ⟨id, u, -, -, rfl⟩ | same
  · simp only [steady, orderly, Bool.and_eq_true] at ok
    have newest := Box.inOrder_iff.mp ok.1.1
    exact s.forall_setAgent (exact_accumulate (sound.kept id) (bytes id) newest ok.2) bytes
  · exact s.forall_setAgent (exact_drain (bytes id) u) bytes
  · rw [same]
    exact bytes

/-- One step keeps the newest bucket accepted from a node with its agent. -/
theorem shown_step (steady_ : Steady (s, dates))
    (ok : steady (s, dates) a = true) (ht : step s a = some t) : Shown (accept s a dates) t := by
  obtain ⟨sound, bytes, shown⟩ := steady_
  have zero : ∀ id : Nat, 0 < (0 : Int) → 0 < dates id := fun _ pos => (Int.lt_irrefl 0 pos).elim
  have quiet : a.quiet = true → Shown dates t := by
    intro quiet
    obtain ⟨⟨h, h', running, after, same⟩, agents, marks⟩ := quiet_step sound quiet ht
    refine ⟨agents.symm ▸ shown.there, marks _ zero shown.marks, fun k hk => ?_⟩
    cases after.symm.trans hk
    rw [agents]
    exact (shown.hub h running).within same.within
  cases a with
  | accumulate id delta now =>
    cases ht
    simp only [steady, orderly, Bool.and_eq_true] at ok
    exact shown.setAgent (keeps_accumulate (sound.kept id) (bytes id)
      (Box.inOrder_iff.mp ok.1.1) (Box.fresh_of_keepsAll ok.1.2) ok.2)
  | deliver id u =>
    obtain ⟨sent, rfl⟩ := of_guard ht
    exact shown.setAgent (keeps_drain (shown.marks.wire id u sent (sound.wire id u sent).pos))
  | poll tid id =>
    obtain ⟨h, h', running, hf, rfl⟩ := System.onHub_eq ht
    exact shown.onHub (hubMarks_poll zero (shown.marks.hub h running) hf)
      (hubShown_poll (shown.hub h running) hf)
  | fetch tid =>
    obtain ⟨h, h', running, hf, rfl⟩ := System.onHub_eq ht
    exact shown.onHub (hubMarks_fetch (shown.marks.hub h running) hf).1
      (hubShown_fetch sound shown running hf)
  | fold tid now => exact (shown_fold shown ok ht).1
  | forget id =>
    obtain ⟨h, h', running, hf, rfl⟩ := System.onHub_eq ht
    cases hf
    exact shown.narrow running (moves_forget h id)
  | forgetSubscription sub =>
    obtain ⟨h, h', running, hf, rfl⟩ := System.onHub_eq ht
    cases hf
    exact shown.narrow running (moves_forgetSubscription h sub)
  | crash =>
    cases ht
    exact ⟨shown.there, { shown.marks with hub := (fun k hk => by cases hk) },
      fun k hk => by cases hk⟩
  | start now => exact shown_start sound shown ht
  | _ => exact quiet rfl

/-- One step keeps the system steady. -/
theorem steady_step (d : System × Dates) (a : Action) (e : System × Dates) (inv : Steady d)
    (ok : steady d a = true) (he : Runs.noting step accept d a = some e) : Steady e := by
  obtain ⟨t, ht, rfl⟩ := map_eq_some_iff.mp he
  exact ⟨sound_step d.1 a t inv.sound (orderly_of_steady ok) ht,
    exact_step inv.sound inv.bytes ok ht, shown_step inv ok ht⟩

theorem steady_init (agents : Nat → MemoryStore) : Steady (System.init agents, fun _ => 0) := by
  refine ⟨sound_init agents, fun id => exact_init (agents id),
    ⟨fun id pos => ?_, ⟨fun _ _ sent => ?_, ?_,
    fun h hh => ?_⟩, fun h hh => ?_⟩⟩
  · cases pos
  · cases sent
  · intro id pos
    simp [System.init, fileView, viewOf] at pos
  · cases hh
  · cases hh

/-! ## Lifetimes -/

/-- What a step drops of a subscription's lifetime: what a forgotten node shows. -/
def droppedBy (sub : Nat) (s : System) : Action → Totals
  | .forget id => ((s.hub.bind fun h => h.c.nodes[id]?).map fun n => n.share sub).getD 0
  | _ => 0

def dropped (sub : Nat) : System → List Action → Totals
  | _, [] => 0
  | s, a :: as => droppedBy sub s a +
    match step s a with
    | some t => dropped sub t as
    | none => 0

theorem dropped_eq_zero (none : ∀ id, Action.forget id ∉ ms) : dropped sub s ms = 0 := by
  induction ms generalizing s with
  | nil => rfl
  | cons a ms ih =>
    have zero : droppedBy sub s a = 0 := by
      cases a with
      | forget id => exact (none id mem_cons_self).elim
      | _ => rfl
    rw [dropped, zero, zero_add]
    cases step s a with
    | none => rfl
    | some t => exact ih fun id mem => none id (mem_cons_of_mem _ mem)

/-- **A step loses no more of a lifetime than it drops.** -/
theorem lifetime_step
    (inv : Steady (s, dates)) (ok : steady (s, dates) a = true) (ht : step s a = some t)
    (process : a ≠ .crash) (kept : a ≠ .forgetSubscription sub) (running : s.hub = some h) :
    ∃ h', t.hub = some h' ∧
      h.c.subscriptionLifetime sub ≤ droppedBy sub s a + h'.c.subscriptionLifetime sub := by
  have quiet : a.quiet = true → ∃ h', t.hub = some h' ∧
      h.c.subscriptionLifetime sub ≤ droppedBy sub s a + h'.c.subscriptionLifetime sub := by
    intro quiet
    obtain ⟨⟨k, h', running', after, same⟩, -, -⟩ := quiet_step inv.sound quiet ht
    cases running.symm.trans running'
    exact ⟨h', after, (same.lifetime sub).ge.trans le_add_self⟩
  cases a with
  | accumulate id delta now =>
    cases ht
    exact ⟨h, running, le_add_self⟩
  | deliver id u =>
    obtain ⟨-, rfl⟩ := of_guard ht
    exact ⟨h, running, le_add_self⟩
  | poll tid id =>
    obtain ⟨k, h', running', hf, rfl⟩ := System.onHub_eq ht
    cases running.symm.trans running'
    exact ⟨h', rfl, (lifetime_poll hf).ge.trans le_add_self⟩
  | fetch tid =>
    obtain ⟨k, h', running', hf, rfl⟩ := System.onHub_eq ht
    cases running.symm.trans running'
    have same := (hubMarks_fetch (inv.shown.marks.hub h running) hf).2
    exact ⟨h', rfl, by rw [same]; exact le_add_self⟩
  | fold tid now =>
    obtain ⟨-, k, h', running', after, grows⟩ := shown_fold inv.shown ok ht
    cases running.symm.trans running'
    exact ⟨h', after, (grows sub).trans le_add_self⟩
  | forget id =>
    obtain ⟨k, h', running', hf, rfl⟩ := System.onHub_eq ht
    cases running.symm.trans running'
    cases hf
    refine ⟨_, rfl, ?_⟩
    rw [droppedBy, running, bind_some]
    cases found : h.c.nodes[id]? with
    | none =>
      rw [Collector.forget, found]
      exact le_add_self
    | some n =>
      rw [lifetime_forget found sub, add_comm]
      rfl
  | forgetSubscription other =>
    obtain ⟨k, h', running', hf, rfl⟩ := System.onHub_eq ht
    cases running.symm.trans running'
    cases hf
    have differ : sub ≠ other := fun same => kept (congrArg Action.forgetSubscription same.symm)
    exact ⟨_, rfl, (lifetime_forgetSubscription h.c differ).ge.trans le_add_self⟩
  | crash => exact (process rfl).elim
  | start now =>
    obtain ⟨stopped, -⟩ := start_eq ht
    cases stopped.symm.trans running
  | _ => exact quiet rfl

/-- Along a run of one process a lifetime falls only by what is dropped. -/
theorem lifetime_run (inv : Steady (s, dates))
    (along : Runs.Along (Runs.noting step accept) (fun d a => steady d a = true) (s, dates) ms)
    (process : ∀ a ∈ ms, a ≠ .crash ∧ a ≠ .forgetSubscription sub)
    (more : Runs.run step s ms = some t) (running : s.hub = some h) :
    ∃ h', t.hub = some h' ∧
      h.c.subscriptionLifetime sub ≤ dropped sub s ms + h'.c.subscriptionLifetime sub := by
  induction ms generalizing s dates h with
  | nil =>
    cases more
    exact ⟨h, running, le_add_self⟩
  | cons a ms ih =>
    obtain ⟨m, hm, more⟩ := run_cons.mp more
    obtain ⟨notCrash, kept⟩ := process a mem_cons_self
    obtain ⟨h₁, running₁, le₁⟩ := lifetime_step inv along.1 hm notCrash kept running
    have noted : noting step accept (s, dates) a = some (m, accept s a dates) := by
      rw [noting, hm]
      rfl
    obtain ⟨h₂, running₂, le₂⟩ := ih (steady_step _ a _ inv along.1 noted) (along.2 _ noted)
      (fun b hb => process b (mem_cons_of_mem _ hb)) more running₁
    refine ⟨h₂, running₂, le₁.trans ?_⟩
    rw [dropped, hm, add_assoc]
    exact add_le_add le_rfl le₂

/-- **A subscription's lifetime only grows, until the subscription is deleted**, but for what a
forgotten node shows. In every steady run, between any two reads of one hub process without
`ForgetSubscription` of it, both components fall by at most what the nodes forgotten in between had
in the bucket that was still growing; so not at all when no node was forgotten. -/
theorem lifetime_grows (agents : Nat → MemoryStore) (ls ms : List Action) (s t : System)
    (h : Runs.run step (System.init agents) ls = some s) (more : Runs.run step s ms = some t)
    (along : Runs.Along (Runs.noting step accept) (fun d a => steady d a = true)
      (System.init agents, fun _ => 0) (ls ++ ms))
    (sub : Nat) (process : ∀ a ∈ ms, a ≠ .crash ∧ a ≠ .forgetSubscription sub)
    (hub hub' : Hub) (first : s.hub = some hub) (second : t.hub = some hub') :
    hub.c.subscriptionLifetime sub ≤ dropped sub s ms + hub'.c.subscriptionLifetime sub ∧
      ((∀ id, Action.forget id ∉ ms) →
        hub.c.subscriptionLifetime sub ≤ hub'.c.subscriptionLifetime sub) := by
  obtain ⟨before, after⟩ := along_append.mp along
  obtain ⟨dates, noted⟩ := run_noting accept h fun _ => 0
  have inv : Steady (s, dates) := run_inv_along steady_step (steady_init agents) before noted
  obtain ⟨k, second', le⟩ := lifetime_run inv (after _ noted) process more first
  cases second.symm.trans second'
  refine ⟨le, fun none => ?_⟩
  rw [dropped_eq_zero none, zero_add] at le
  exact le

/-! ## Runs -/

/-- A subscription's lifetime before and after the second part of a run. -/
def lifetimes (retention : Int) (ls ms : List Action) (sub : Nat) : Option (Totals × Totals) := do
  let s ← Runs.run step (System.init (hourly retention)) ls
  let t ← Runs.run step s ms
  return ((← s.hub).c.subscriptionLifetime sub, (← t.hub).c.subscriptionLifetime sub)

/-- Five bytes an hour ago and one in the hour that is still growing, both shown. -/
def shows : List Action :=
  [.start 20000, .accumulate 1 (sent 5) 7200, .accumulate 1 (sent 1) 10800, .poll 0 1, .fetch 0,
    .fold 0 20000]

/-- The hour is over: a flush and its acknowledgement, and a poll that counts it. Then the node is
forgotten, with the two bytes of the next. -/
def countsAndForgets : List Action :=
  [.prepare 20000, .write .done, .stamp, .collectJobs, .sendJob, .deliver 1 7200, .jobReply true,
    .flushEnds, .accumulate 1 (sent 2) 14400, .poll 1 1, .fetch 1, .fold 1 20000, .forget 1]

theorem lifetime_grows_countsAndForgets :
    lifetimes 86400 shows countsAndForgets 1 = some (⟨6, 0⟩, ⟨6, 0⟩) ∧
      ∃ s t hub hub', Runs.run step (System.init (hourly 86400)) shows = some s ∧
        Runs.run step s countsAndForgets = some t ∧ s.hub = some hub ∧ t.hub = some hub' ∧
        hub.c.subscriptionLifetime 1 ≤
          dropped 1 s countsAndForgets + hub'.c.subscriptionLifetime 1 := by
  have pair : lifetimes 86400 shows countsAndForgets 1 = some (⟨6, 0⟩, ⟨6, 0⟩) := by decide +kernel
  refine ⟨pair, ?_⟩
  simp only [lifetimes, bind_eq_bind, bind_eq_some_iff] at pair
  obtain ⟨s, hs, t, ht, hub, first, hub', second, -⟩ := pair
  have checked : checkAlong (noting step accept) steady
      (System.init (hourly 86400), fun _ => 0) (shows ++ countsAndForgets) = true := by
    decide +kernel
  have process : ∀ a ∈ countsAndForgets, a ≠ .crash ∧ a ≠ .forgetSubscription 1 := by
    intro a ha
    simp only [countsAndForgets, mem_cons, not_mem_nil, or_false] at ha
    rcases ha with rfl | rfl | rfl | rfl | rfl | rfl | rfl | rfl | rfl | rfl | rfl | rfl | rfl <;>
      exact ⟨(fun same => by cases same), fun same => by cases same⟩
  exact ⟨s, t, hub, hub', hs, ht, first, second, (lifetime_grows (hourly 86400) shows
    countsAndForgets s t hs ht (along_of_check checked) 1 process hub hub' first second).1⟩

/-- **How a lifetime falls.** `Forget` drops the hour that is still growing; a hub's clock that is
set back by more than a day skips it; an agent evicts it unpolled; and a count that passes the
largest `int64` wraps. -/
theorem lifetime_falls :
    lifetimes 86400 shows [.forget 1] 1 = some (⟨6, 0⟩, ⟨5, 0⟩) ∧
    lifetimes 864000 [.start 200000, .accumulate 1 (sent 5) 180000, .poll 0 1, .fetch 0,
        .fold 0 200000] [.poll 1 1, .fetch 1, .fold 1 20000] 1 = some (⟨5, 0⟩, ⟨0, 0⟩) ∧
    lifetimes 3600 [.start 20000, .accumulate 1 (sent 5) 7200, .poll 0 1, .fetch 0, .fold 0 20000]
        [.accumulate 1 (sent 1) 18000, .poll 1 1, .fetch 1, .fold 1 20000] 1 =
      some (⟨5, 0⟩, ⟨1, 0⟩) ∧
    lifetimes 86400 [.start 20000, .accumulate 1 (sent (2 ^ 62)) 7200, .poll 0 1, .fetch 0,
        .fold 0 20000] [.accumulate 1 (sent (2 ^ 62)) 7200, .poll 1 1, .fetch 1, .fold 1 20000] 1 =
      some (⟨UInt64.ofNat (2 ^ 62), 0⟩, ⟨0, 0⟩) := by
  decide +kernel

end NasnetPanel.Usage
