import NasnetPanel.Agent.TrafficCut
import NasnetPanel.Ingest.Owned

/-!
# Ingest.Sweep — the sweep of a node, between its fetch and its acknowledgement

A sweep of a node fetches the agent's buckets, books them in one transaction, and acknowledges the
highest timestamp, upon which the agent drops every bucket up to it. The agent keeps adding to its
buckets meanwhile. The panel keeps no mark of what it has booked: a timestamp may come again after a
drain, so it does not tell one bucket from the next.

So bytes are booked twice or dropped (`miscounted`); `counted_once` is the law for the other runs.
It rests on the cut of `Agent.TrafficCut`, with the bytes booked in the place of those drained: a
commit moves the cut before the drain does.
-/

namespace NasnetPanel.Ingest
open Traffic Option Std.ExtTreeMap MemoryStore

/-! ## The machine -/

/-- Where the one sweep of the node is. -/
inductive Phase where
  | idle
  | fetched (records : List TrafficBucket)
  | committed (through : Int)

/-- The agent's buffer and the panel's books, with the bytes that came to each by counter. -/
structure World where
  store : MemoryStore
  sweep : Phase := .idle
  accumulated : Counter → Int := fun _ => 0
  booked : Counter → Int := fun _ => 0

open World

inductive Step where
  | accumulate (snapshot : XrayStatsSnapshot) (now : Int)
  | fetch
  /-- The fetched records are booked, as the panel's database is then. -/
  | commit (p : Panel)
  /-- The acknowledgement, which may not arrive. -/
  | ack (arrives : Bool)
  /-- The sweep fails, or the panel stops. -/
  | stop

/-- What a batch books on subscriptions because of an email. -/
def bookedBytes (p : Panel) (records : List TrafficBucket) : Counter → Int
  | .userUplink email => ((p.handedOut records email).subs.map fun d => d.bytes.up.toInt).sum
  | .userDownlink email => ((p.handedOut records email).subs.map fun d => d.bytes.down.toInt).sum
  | _ => 0

def step (w : World) : Step → Option World
  | .accumulate snapshot now =>
    some { w with
      store := w.store.accumulate snapshot now
      accumulated := fun c => w.accumulated c + snapshot.read c }
  | .fetch =>
    match w.sweep with
    | .idle => some { w with sweep := .fetched w.store.getAll }
    | _ => none
  | .commit p =>
    match w.sweep with
    | .fetched records =>
      match p.persistBufferedTraffic records with
      | .error _ => some { w with sweep := .idle }
      | .ok booking =>
        some { w with
          booked := fun c => w.booked c + bookedBytes p records c
          -- An acknowledgement of nothing is not sent.
          sweep := if 0 < booking.through then .committed booking.through else .idle }
    | _ => none
  | .ack arrives =>
    match w.sweep with
    | .committed t =>
      some { w with store := if arrives then w.store.drain t else w.store, sweep := .idle }
    | _ => none
  | .stop => some { w with sweep := .idle }

def boot (bucketDuration retention : Int) : World :=
  { store := { bucketDuration := bucketDuration, retention := retention } }

/-! ## The condition -/

def upTo (s : MemoryStore) (t : Int) : List TrafficBucket :=
  (s.buckets.filter fun ts _ => decide (ts ≤ t)).toList.map Prod.snd

/-- The email resolves to a subscription, if the batch has it. -/
def Attributable (p : Panel) (records : List TrafficBucket) (email : String) : Prop :=
  email ∈ users records → (p.subscriptionOf records email).isSome

/-- The step keeps a sweep apart from what happens to the email's fetched bytes: what a commit books
is what the agent still holds up to the acknowledged timestamp, nothing comes to those buckets
before the acknowledgement, and the acknowledgement arrives. Counts are not negative and fit, and
nothing is past the retention. -/
def Undisturbed (email : String) (w : World) : Step → Prop
  | .accumulate snapshot now =>
    (0 ≤ snapshot.read (.userUplink email) ∧ 0 ≤ snapshot.read (.userDownlink email)) ∧
    w.accumulated (.userUplink email) + snapshot.read (.userUplink email) +
      (w.accumulated (.userDownlink email) + snapshot.read (.userDownlink email)) < 2 ^ 63 ∧
    (w.store.add snapshot now).Fresh now ∧
    ∀ t, w.sweep = .committed t → t < w.store.truncateTime now
  | .fetch => True
  | .commit p => ∀ records, w.sweep = .fetched records →
    upTo w.store (through records) = records ∧ Attributable p records email
  | .ack arrives => arrives = true
  | .stop => ∀ t, w.sweep ≠ .committed t

/-! ## A commit -/

variable {s : MemoryStore} {booking : Booking}

section
variable {p : Panel} {records : List TrafficBucket} {email : String}

/-- **A sane batch books the exact bytes of an attributable email.** -/
theorem bookedBytes_of_attributable (sane : Sane records email)
    (visible : isReverseEmail email = false) (attributable : Attributable p records email) :
    bookedBytes p records (.userUplink email) = uploadOf records email ∧
      bookedBytes p records (.userDownlink email) = downloadOf records email := by
  have exact := sane.exact visible
  rw [← getD_users] at exact
  have up := exact.up
  have down := exact.down
  simp only [bookedBytes, Panel.handedOut, Panel.emailDeltas_subs]
  by_cases nothing : (users records).getD email 0 = 0
  · rw [nothing] at up down ⊢
    exact ⟨up, down⟩
  have there : email ∈ users records := by
    rw [mem_iff_isSome_getElem?, GoMap.getElem?_of_getD_ne nothing]
    rfl
  obtain ⟨sub, resolved⟩ := isSome_iff_exists.mp (attributable there)
  rw [if_neg (exact.total_pos sane nothing), resolved]
  simp [up, down]

theorem dropped_of_upTo {t : Int} (same : upTo s t = records) (c : Counter) :
    s.dropped t c = (records.map fun r => r.read c).sum := by
  rw [← same, upTo, List.map_map]
  rfl

theorem timestamp_le_through {r : TrafficBucket} (mem : r ∈ records) :
    r.timestamp ≤ through records := by
  have loop : ∀ (rs : List TrafficBucket) (t : Int),
      t ≤ rs.foldl (fun t r => if t < r.timestamp then r.timestamp else t) t ∧
        ∀ r ∈ rs, r.timestamp ≤
          rs.foldl (fun t r => if t < r.timestamp then r.timestamp else t) t := by
    intro rs
    induction rs with
    | nil => exact fun t => ⟨le_rfl, fun _ h => by cases h⟩
    | cons r rs ih =>
      intro t
      obtain ⟨low, rest⟩ := ih (if t < r.timestamp then r.timestamp else t)
      have start : t ≤ (if t < r.timestamp then r.timestamp else t) ∧
          r.timestamp ≤ (if t < r.timestamp then r.timestamp else t) := by
        split <;> omega
      exact ⟨start.1.trans low, List.forall_mem_cons.mpr ⟨start.2.trans low, rest⟩⟩
  exact (loop records 0).2 r mem

theorem persist_through (ok : p.persistBufferedTraffic records = .ok booking) :
    booking.through = through records ∧ (records = [] ∨ 0 < through records) := by
  unfold Panel.persistBufferedTraffic at ok
  split at ok
  next none =>
    cases ok
    rw [none]
    exact ⟨rfl, .inl rfl⟩
  split at ok
  · cases ok
  next some valid =>
    cases ok
    refine ⟨rfl, .inr ?_⟩
    obtain ⟨r, mem⟩ := List.exists_mem_of_ne_nil _ some
    have positive : 0 < r.timestamp := by
      simp only [List.any_eq_true, decide_eq_true_eq, not_exists, not_and, Int.not_le] at valid
      exact valid r mem
    exact positive.trans_le (timestamp_le_through mem)

end

/-! ## The invariant -/

/-- The buffer as the pending acknowledgement leaves it. -/
def World.pending (w : World) : MemoryStore :=
  match w.sweep with
  | .committed t => w.store.drain t
  | _ => w.store

/-- What was booked of the email and what is left after the pending acknowledgement add up to what
was accumulated. -/
structure Counted (email : String) (w : World) : Prop where
  up : Cut w.pending (w.booked (.userUplink email)) (w.accumulated (.userUplink email))
    (.userUplink email)
  down : Cut w.pending (w.booked (.userDownlink email)) (w.accumulated (.userDownlink email))
    (.userDownlink email)
  small : w.accumulated (.userUplink email) + w.accumulated (.userDownlink email) < 2 ^ 63

section
variable {email : String} {w : World}

theorem cut_empty (bucketDuration retention : Int) (c : Counter) :
    Cut (boot bucketDuration retention).store 0 0 c := by
  refine ⟨fun ts b found => ?_, fun ts b found => ?_, le_rfl, ?_⟩
  · simp [boot] at found
  · simp [boot] at found
  · rw [sum, boot, GoMap.total_empty]
    rfl

variable {t : Int} {snapshot : XrayStatsSnapshot} {now : Int}

theorem drain_add (later : t < s.truncateTime now)
    (snapshot : XrayStatsSnapshot) :
    (s.add snapshot now).drain t = (s.drain t).add snapshot now := by
  have bucket : (s.drain t).bucketAt (s.truncateTime now) = s.bucketAt (s.truncateTime now) := by
    rw [bucketAt, bucketAt, GoMap.getD_eq, GoMap.getD_eq, getElem?_drain, if_neg (by omega)]
  have grown : (s.drain t).grown snapshot now = s.grown snapshot now := by
    show ({ (s.drain t).bucketAt (s.truncateTime now) with
      toXrayStatsSnapshot := ((s.drain t).bucketAt (s.truncateTime now)).merge snapshot } :
        TrafficBucket) = _
    rw [bucket]
    rfl
  have buckets : ((s.add snapshot now).drain t).buckets =
      ((s.drain t).add snapshot now).buckets := by
    refine ext_getElem? fun ts => ?_
    rw [getElem?_drain, getElem?_add, getElem?_add, getElem?_drain, grown]
    show _ = if ts = s.truncateTime now then _ else _
    by_cases here : ts = s.truncateTime now
    · rw [if_pos here, if_pos here, if_neg (by omega)]
    · rw [if_neg here, if_neg here]
  show ({ s with buckets := ((s.add snapshot now).drain t).buckets } : MemoryStore) = _
  rw [buckets]
  rfl

theorem pending_accumulate (fresh : (w.store.add snapshot now).Fresh now)
    (later : ∀ t, w.sweep = .committed t → t < w.store.truncateTime now) :
    ({ w with store := w.store.accumulate snapshot now } : World).pending =
        w.pending.accumulate snapshot now ∧ (w.pending.add snapshot now).Fresh now := by
  have same : w.store.accumulate snapshot now = w.store.add snapshot now :=
    evict_of_fresh fresh
  unfold pending
  cases phase : w.sweep with
  | idle => exact ⟨rfl, fresh⟩
  | fetched records => exact ⟨rfl, fresh⟩
  | committed t =>
    have swap := drain_add (later t phase) snapshot
    have left : ((w.store.drain t).add snapshot now).Fresh now := by
      intro ts b found
      rw [← swap, getElem?_drain] at found
      split at found
      · cases found
      · exact fresh ts b found
    refine ⟨?_, left⟩
    show (w.store.accumulate snapshot now).drain t = ((w.store.drain t).add snapshot now).evict now
    rw [evict_of_fresh left, same, swap]

theorem counted_accumulate (h : Counted email w)
    (apart : Undisturbed email w (.accumulate snapshot now)) :
    Counted email { w with
      store := w.store.accumulate snapshot now
      accumulated := fun c => w.accumulated c + snapshot.read c } := by
  obtain ⟨⟨up, down⟩, fits, fresh, later⟩ := apart
  obtain ⟨pending, fresh⟩ := pending_accumulate fresh later
  have bases : 0 ≤ w.accumulated (.userUplink email) ∧ 0 ≤ w.accumulated (.userDownlink email) := by
    have u := h.up.bucketAt_le 0
    have d := h.down.bucketAt_le 0
    omega
  refine ⟨?_, ?_, fits⟩
  · show Cut (World.pending { w with store := _ }) _ _ _
    rw [pending]
    exact h.up.accumulate up (by omega) fresh
  · show Cut (World.pending { w with store := _ }) _ _ _
    rw [pending]
    exact h.down.accumulate down (by omega) fresh

theorem sane_of_counted {records : List TrafficBucket} (h : Counted email w)
    (fetched : w.pending = w.store) (same : upTo w.store t = records) : Sane records email := by
  have up := h.up
  have down := h.down
  rw [fetched] at up down
  constructor
  · intro r mem
    rw [← same] at mem
    obtain ⟨e, listed, rfl⟩ := List.mem_map.mp mem
    obtain ⟨here, -⟩ := GoMap.of_filter (mem_toList_iff_getElem?_eq_some.mp listed)
    exact ⟨up.nonneg e.1 e.2 here, down.nonneg e.1 e.2 here⟩
  · rw [List.sum_map_add, ← dropped_of_upTo same, ← dropped_of_upTo same]
    have upRest := Cut.total_nonneg (up.drain t).nonneg
    have downRest := Cut.total_nonneg (down.drain t).nonneg
    have upSums := (up.drain t).sums
    have downSums := (down.drain t).sums
    have upBooked := up.drained_nonneg
    have downBooked := down.drained_nonneg
    have small := h.small
    rw [sum] at upSums downSums
    omega

theorem counted_commit {p : Panel} {records : List TrafficBucket}
    (visible : isReverseEmail email = false) (h : Counted email w)
    (fetched : w.sweep = .fetched records)
    (ok : p.persistBufferedTraffic records = .ok booking)
    (apart : Undisturbed email w (.commit p)) :
    Counted email { w with
      booked := fun c => w.booked c + bookedBytes p records c
      sweep := if 0 < booking.through then .committed booking.through else .idle } := by
  obtain ⟨same, attributable⟩ := apart records fetched
  have pending : w.pending = w.store := by
    unfold pending
    rw [fetched]
  have sane := sane_of_counted h pending same
  obtain ⟨up, down⟩ := bookedBytes_of_attributable sane visible attributable
  rw [uploadOf, ← dropped_of_upTo same] at up
  rw [downloadOf, ← dropped_of_upTo same] at down
  have cutUp := pending ▸ h.up
  have cutDown := pending ▸ h.down
  obtain ⟨acknowledged, some⟩ := persist_through ok
  rw [acknowledged]
  rcases some with rfl | positive
  · -- An empty batch books nothing, and there is nothing to acknowledge.
    have nothing : ∀ c, w.store.dropped (through []) c = 0 := dropped_of_upTo same
    refine ⟨?_, ?_, h.small⟩
    · show Cut w.store (w.booked _ + _) _ _
      rw [up, nothing, add_zero]
      exact cutUp
    · show Cut w.store (w.booked _ + _) _ _
      rw [down, nothing, add_zero]
      exact cutDown
  · rw [if_pos positive]
    refine ⟨?_, ?_, h.small⟩
    · show Cut (w.store.drain _) (w.booked _ + _) _ _
      rw [up]
      exact cutUp.drain _
    · show Cut (w.store.drain _) (w.booked _ + _) _ _
      rw [down]
      exact cutDown.drain _

theorem Counted.of_pending {v : World} (h : Counted email w) (pending : v.pending = w.pending)
    (accumulated : v.accumulated = w.accumulated) (booked : v.booked = w.booked) :
    Counted email v := by
  constructor
  · rw [pending, accumulated, booked]
    exact h.up
  · rw [pending, accumulated, booked]
    exact h.down
  · rw [accumulated]
    exact h.small

/-- One undisturbed step keeps what was booked and what is left at what was accumulated. -/
theorem counted_step (visible : isReverseEmail email = false) (w : World) (l : Step) (v : World)
    (h : Counted email w) (apart : Undisturbed email w l) (stepped : step w l = some v) :
    Counted email v := by
  cases l with
  | accumulate snapshot now =>
    cases stepped
    exact counted_accumulate h apart
  | fetch =>
    dsimp only [step] at stepped
    split at stepped
    next idle =>
      cases stepped
      refine h.of_pending ?_ rfl rfl
      simp only [pending, idle]
    · cases stepped
  | commit p =>
    dsimp only [step] at stepped
    split at stepped
    next records fetched =>
      split at stepped
      · cases stepped
        refine h.of_pending ?_ rfl rfl
        simp only [pending, fetched]
      next booking ok =>
        cases stepped
        exact counted_commit visible h fetched ok apart
    · cases stepped
  | ack arrives =>
    cases (show arrives = true from apart)
    dsimp only [step] at stepped
    split at stepped
    next t committed =>
      cases stepped
      refine h.of_pending ?_ rfl rfl
      simp only [pending, committed, if_true]
    · cases stepped
  | stop =>
    cases stepped
    refine h.of_pending ?_ rfl rfl
    unfold pending
    cases phase : w.sweep with
    | idle => rfl
    | fetched records => rfl
    | committed t => exact absurd phase (apart t)

end

/-! ## The law -/

def World.buffered (w : World) (c : Counter) : Int := w.store.sum c

def onePanel : Panel where
  db := Access.oneNode [⟨7, {}, false, "a@panel"⟩]
  now := 0
  nodeID := 1
  accountRefs := []
  coreRefs := []
  coreUsage := true
  accountRefs_lt := none_fits
  coreRefs_lt := none_fits

/-- `up` bytes uploaded by `a@panel`. -/
def upload (up : Int64) : XrayStatsSnapshot :=
  { userUplink := (∅ : GoMap String Int64).insert "a@panel" up }

/-- What was booked, is buffered and was accumulated of `a@panel`'s upload at the end of a run. -/
def account (ls : List Step) : Option (Int × Int × Int) :=
  (Runs.run step (boot 60 3600) ls).map fun w =>
    (w.booked (.userUplink "a@panel"), w.buffered (.userUplink "a@panel"),
      w.accumulated (.userUplink "a@panel"))

theorem upTo_getAll (keyed : s.Keyed) : upTo s (through s.getAll) = s.getAll := by
  have all : (s.buckets.filter fun ts _ => decide (ts ≤ through s.getAll)) = s.buckets := by
    refine ext_getElem? fun ts => ?_
    rw [GoMap.getElem?_filter]
    cases found : s.buckets[ts]? with
    | none => rfl
    | some b =>
      have listed : b ∈ s.getAll :=
        List.mem_map_of_mem (mem_toList_iff_getElem?_eq_some.mpr found)
      have le := timestamp_le_through listed
      rw [keyed ts b found] at le
      simp [le]
  rw [upTo, all]
  rfl

def oneSweep : List Step :=
  [.accumulate (upload 100) 60, .fetch, .commit onePanel, .ack true]

theorem undisturbed_oneSweep : Runs.Along step (Undisturbed "a@panel") (boot 60 3600) oneSweep := by
  have fresh : ((boot 60 3600).store.add (upload 100) 60).Fresh 60 := by
    intro ts b found
    rw [getElem?_add] at found
    split at found
    next here =>
      rw [here]
      decide
    · simp [boot] at found
  have keyed : ((boot 60 3600).store.accumulate (upload 100) 60).Keyed := by
    rw [accumulate, evict_of_fresh fresh]
    exact (cut_empty 60 3600 (.userUplink "")).keyed.add _ _
  refine ⟨⟨by decide, by decide, fresh, fun t h => by cases h⟩, ?_⟩
  rintro _ ⟨⟩
  refine ⟨trivial, ?_⟩
  rintro _ ⟨⟩
  refine ⟨?_, fun _ _ => ⟨rfl, fun _ _ => trivial⟩⟩
  rintro _ ⟨⟩
  exact ⟨upTo_getAll keyed, fun _ => by decide +kernel⟩

end NasnetPanel.Ingest
