import NasnetPanel.Usage.Bytes
import NasnetPanel.Usage.Views

/-!
# Usage.ExactlyOnce — every byte of an agent is counted once

A node's entries in a ledger are in order of their timestamps and none is past the mark, so each
bucket is there at most once; the mark is safe, so each bucket up to it is there. A node's lifetimes
are therefore the sums over the buckets up to its mark, and what is past the mark is still with the
agent: together, everything the agent was given (`counted_exactly_once`), whichever of the hub and
its file is asked, after any polls, flushes, failed writes, lost acknowledgements and restarts.

The agent's timestamps have to be positive, since the hub skips a bucket that is not, and no count
may pass the largest `int64`, where the agent's own addition wraps (`counted_wrongly`).
-/

namespace NasnetPanel.Usage
open Totals Traffic List Option Std.ExtTreeMap

/-- Agents are given what fits, in order and at positive times, and evict nothing; no node and no
subscription is removed. -/
def counting (s : System) : Action → Bool
  | .accumulate id delta now =>
    orderly s (.accumulate id delta now) && decide (0 < (s.agents id).store.truncateTime now) &&
      (s.agents id).fits delta now
  | .forget _ => false
  | .forgetSubscription _ => false
  | _ => true

variable {s : System} {a : Action} {id : Nat} {l : List Entry}

theorem orderly_of_counting (h : counting s a = true) : orderly s a = true := by
  cases a with
  | accumulate id delta now =>
    rw [counting, Bool.and_eq_true, Bool.and_eq_true] at h
    exact h.1.1
  | _ => rfl

/-! ## A node's entries -/

def entriesOf (id : Nat) (l : List Entry) : List Entry := l.filter fun e => e.node == id

theorem mem_entriesOf {e : Entry} : e ∈ entriesOf id l ↔ e ∈ l ∧ e.node = id := by
  rw [entriesOf, List.mem_filter, beq_iff_eq]

/-- A node's entries are in order, none past its mark, and its lifetimes are their sums. -/
structure PerNode (id : Nat) (v : View) (l : List Entry) : Prop where
  sorted : (entriesOf id l).Pairwise fun a b => a.ts < b.ts
  bounded : ∀ e ∈ entriesOf id l, e.ts ≤ v.through id
  life : ∀ sub, v.life id sub = sumOf sub (entriesOf id l)

theorem entriesOf_append (id : Nat) (l l' : List Entry) :
    entriesOf id (l ++ l') = entriesOf id l ++ entriesOf id l' :=
  filter_append l l'

theorem entriesOf_fresh (n : Node) (id : Nat) (buffered : List TrafficBucket) (now : Int) :
    entriesOf id (freshEntries n id buffered now) = freshEntries n id buffered now :=
  filter_eq_self.mpr (forall_mem_map.mpr fun _ _ => beq_self_eq_true id)

theorem entriesOf_fresh_of_ne (n : Node) {k : Nat} (other : k ≠ id)
    (buffered : List TrafficBucket) (now : Int) :
    entriesOf k (freshEntries n id buffered now) = [] := by
  refine filter_eq_nil_iff.mpr (forall_mem_map.mpr fun _ _ => ?_)
  exact fun same => other (beq_iff_eq.mp same).symm

/-- **Taking in an answer counts each bucket once**: what it adds is past everything counted. -/
theorem perNode_fold {h h' : Hub} {tid : Nat} {now : Int} (hs : h.fold tid now = some h')
    (per : ∀ id, PerNode id h.c.view h.counted) : ∀ id, PerNode id h'.c.view h'.counted := by
  obtain ⟨p, buffered, -, -, ⟨-, rfl⟩ | ⟨n, taken, at_, rfl, rfl⟩⟩ := Hub.fold_cases hs
  · exact per
  intro id
  have old := per id
  by_cases same : id = p.id
  · subst same
    have sorted := records_sorted buffered p.id (now + maxAhead)
    have mark : h.c.view.through p.id = n.hist.through := by
      rw [view_through, (nodeAt_eq at_).1]
      rfl
    obtain ⟨grows, bounds, -⟩ := through_counts (freshRecords_sorted sorted _) past_of_fresh
    refine ⟨?_, ?_, fun sub => ?_⟩
    · rw [entriesOf_append, entriesOf_fresh, pairwise_append]
      refine ⟨old.sorted, pairwise_map.mpr (freshRecords_sorted sorted _), fun a ha b hb => ?_⟩
      obtain ⟨r, hr, rfl⟩ := List.mem_map.mp hb
      have before := old.bounded a ha
      have after := past_of_fresh r hr
      dsimp only
      omega
    · rw [entriesOf_append, entriesOf_fresh, through_setNode, if_pos rfl, hist_fold n sorted]
      intro e he
      rcases mem_append.mp he with he | he
      · have before := old.bounded e he
        rw [mark] at before
        exact before.trans grows
      · obtain ⟨r, hr, rfl⟩ := List.mem_map.mp he
        exact bounds r hr
    · have life := old.life sub
      rw [view_life, (nodeAt_eq at_).1] at life
      rw [entriesOf_append, entriesOf_fresh, life_setNode, if_pos rfl, life_fold, sumOf_append]
      exact congrArg (· + sumOf sub (freshEntries n p.id buffered now)) life
  · have none := entriesOf_fresh_of_ne n same buffered now
    refine ⟨?_, ?_, fun sub => ?_⟩
    · rw [entriesOf_append, none, append_nil]
      exact old.sorted
    · rw [entriesOf_append, none, append_nil, through_setNode, if_neg same]
      exact old.bounded
    · rw [entriesOf_append, none, append_nil, life_setNode, if_neg same]
      exact old.life sub

/-- One step keeps each node's entries in order and its lifetimes their sums. -/
theorem perNode_step {t : System} (sound : Sound s) (ok : counting s a = true)
    (agrees : Agrees (fun v l => ∀ id, PerNode id v l) s) (ht : step s a = some t) :
    Agrees (fun v l => ∀ id, PerNode id v l) t := by
  refine agrees_step sound agrees (fun _ _ _ _ _ _ hf => perNode_fold hf) ?_ ?_ ht
  · rintro h id rfl
    cases ok
  · rintro h sub rfl
    cases ok

/-! ## The agents -/

/-- An agent's buckets have positive timestamps and what it was given. -/
structure Given (a : Box) : Prop extends Exact a where
  positive : ∀ (ts : Int) (b : TrafficBucket), a.held.buckets[ts]? = some b → 0 < ts

/-- One step keeps every agent's buckets what it was given. -/
theorem given_step {t : System} (sound : Sound s) (ok : counting s a = true)
    (given : ∀ id, Given (s.agents id)) (ht : step s a = some t) : ∀ id, Given (t.agents id) := by
  rcases agents_step ht with ⟨id, delta, now, rfl, rfl⟩ | ⟨id, u, -, -, rfl⟩ | same
  · simp only [counting, orderly, Bool.and_eq_true, decide_eq_true_eq] at ok
    obtain ⟨⟨⟨order, -⟩, positive⟩, fits⟩ := ok
    have newest := Box.inOrder_iff.mp order
    refine s.forall_setAgent
      ⟨exact_accumulate (sound.kept id) (given id).toExact newest fits, fun ts b found => ?_⟩ given
    rw [Box.held_accumulate, MemoryStore.getElem?_add, Box.truncateTime_held] at found
    split at found
    next same => exact same ▸ positive
    · exact (given id).positive ts b found
  · exact s.forall_setAgent ⟨exact_drain (given id).toExact u, (given id).positive⟩ given
  · rw [same]
    exact given

theorem given_init (agents : Nat → MemoryStore) (id : Nat) :
    Given ((System.init agents).agents id) :=
  ⟨exact_init (agents id), fun ts b found => by simp [System.init, Box.held] at found⟩

/-! ## Once -/

theorem sumOf_entriesOf {held upTo : GoMap Int TrafficBucket} {v : View}
    (older : ∀ ts b, upTo[ts]? = some b ↔ held[ts]? = some b ∧ ts ≤ v.through id)
    (positive : ∀ (ts : Int) (b : TrafficBucket), held[ts]? = some b → 0 < ts)
    (safe : Safe held l id (v.through id)) (honest : Honest held l id) (per : PerNode id v l)
    (sub : Nat) :
    sumOf sub (entriesOf id l) = Totals.cap (GoMap.total
      (fun _ (b : TrafficBucket) => subBytes sub b.toXrayStatsSnapshot) upTo) := by
  let worth : Int → Totals := fun ts =>
    (held[ts]?.map fun b => cap (subBytes sub b.toXrayStatsSnapshot)).getD 0
  have entry : ∀ e ∈ entriesOf id l, e.b.subs.getD sub 0 = worth e.ts := by
    intro e he
    obtain ⟨mem, node⟩ := mem_entriesOf.mp he
    obtain ⟨-, ⟨b, found, read⟩, -⟩ := honest e mem node
    rw [← read, subs_reading]
    show _ = (held[e.ts]?.map _).getD 0
    rw [found]
    rfl
  have bucket : ∀ p ∈ upTo.toList, cap (subBytes sub p.2.toXrayStatsSnapshot) = worth p.1 := by
    intro p hp
    obtain ⟨found, -⟩ := (older p.1 p.2).mp (mem_toList_iff_getElem?_eq_some.mp hp)
    show _ = (held[p.1]?.map _).getD 0
    rw [found]
    rfl
  -- The same timestamps, each once.
  have perm : ((entriesOf id l).map Entry.ts).Perm (upTo.toList.map Prod.fst) := by
    refine (perm_ext_iff_of_nodup (pairwise_map.mpr (per.sorted.imp fun lt => lt.ne))
      (pairwise_map.mpr (GoMap.distinct_toList _))).mpr fun ts => ?_
    rw [List.mem_map, List.mem_map]
    constructor
    · rintro ⟨e, he, rfl⟩
      obtain ⟨mem, node⟩ := mem_entriesOf.mp he
      obtain ⟨-, ⟨b, found, -⟩, -⟩ := honest e mem node
      have here := (older e.ts b).mpr ⟨found, per.bounded e he⟩
      exact ⟨(e.ts, b), mem_toList_iff_getElem?_eq_some.mpr here, rfl⟩
    · rintro ⟨⟨k, b⟩, hp, rfl⟩
      obtain ⟨found, le⟩ := (older k b).mp (mem_toList_iff_getElem?_eq_some.mp hp)
      obtain ⟨c, hc⟩ := safe.known k b found (positive k b found) le
      exact ⟨_, mem_entriesOf.mpr ⟨hc, rfl⟩, rfl⟩
  have capped := GoMap.total_hom (f := fun _ (b : TrafficBucket) =>
    subBytes sub b.toXrayStatsSnapshot) capHom upTo
  calc sumOf sub (entriesOf id l) = (((entriesOf id l).map Entry.ts).map worth).sum := by
        rw [sumOf, List.map_map]
        exact congrArg List.sum (map_congr_left entry)
    _ = ((upTo.toList.map Prod.fst).map worth).sum := (perm.map worth).sum_eq
    _ = GoMap.total (fun _ b => capHom (subBytes sub b.toXrayStatsSnapshot)) upTo := by
        rw [GoMap.total, List.map_map]
        exact congrArg List.sum (map_congr_left fun p hp => (bucket p hp).symm)
    _ = _ := capped

/-- A subscription's bytes in the agent's buckets newer than a mark, up and down. -/
def Box.newer (a : Box) (through : Int) (sub : Nat) : Nat × Nat :=
  GoMap.total (fun _ b => subBytes sub b.toXrayStatsSnapshot)
    (a.store.buckets.filter fun ts _ => decide (through < ts))

/-- Below saturation, a lifetime up to a mark and the bytes newer than it are all the agent was ever
given. -/
structure Accounted (a : Box) (through : Int) (life : Totals) (sub : Nat) : Prop where
  up : (a.ever sub).1 < maxUint64 → life.up.toNat + (a.newer through sub).1 = (a.ever sub).1
  down : (a.ever sub).2 < maxUint64 → life.down.toNat + (a.newer through sub).2 = (a.ever sub).2

/-- **None lost and none twice**, for a view whose ledger has what the file's has. -/
theorem accounted_of_perNode {a : Box} {written : List Entry} {v : View}
    (kept : Kept a written id) (given : Given a) (more : ∀ e ∈ written, e ∈ l)
    (safe : Safe a.held.buckets l id (v.through id)) (honest : Honest a.held.buckets l id)
    (per : PerNode id v l) (sub : Nat) : Accounted a (v.through id) (v.life id sub) sub := by
  -- Past the mark, the agent still has all it ever had.
  have newer : (a.store.buckets.filter fun ts _ => decide (v.through id < ts)) =
      a.held.buckets.filter fun ts _ => !decide (ts ≤ v.through id) := by
    refine Std.ExtTreeMap.ext_getElem? fun ts => ?_
    rw [GoMap.getElem?_filter, GoMap.getElem?_filter]
    by_cases past : v.through id < ts
    · have same : a.store.buckets[ts]? = a.held.buckets[ts]? := by
        cases found : a.held.buckets[ts]? with
        | none =>
          cases here : a.store.buckets[ts]? with
          | none => rfl
          | some b => cases found.symm.trans (kept.had ts b here)
        | some b =>
          cases here : a.store.buckets[ts]? with
          | some c => rw [← found, kept.had ts c here]
          | none =>
            obtain ⟨c, hc⟩ := (kept.gone ts b found (given.positive ts b found) here).mono more
            have bound := per.bounded _ (mem_entriesOf.mpr ⟨hc, rfl⟩)
            dsimp only at bound
            omega
      rw [same, decide_eq_true past, decide_eq_false (Int.not_le.mpr past)]
      rfl
    · rw [decide_eq_false past, decide_eq_true (Int.not_lt.mp past)]
      cases a.store.buckets[ts]? <;> cases a.held.buckets[ts]? <;> rfl
  have split := GoMap.total_filter_add (f := fun _ (b : TrafficBucket) =>
    subBytes sub b.toXrayStatsSnapshot) a.held.buckets fun ts _ => decide (ts ≤ v.through id)
  have older (ts : Int) (b : TrafficBucket) :
      (a.held.buckets.filter fun ts _ => decide (ts ≤ v.through id))[ts]? = some b ↔
        a.held.buckets[ts]? = some b ∧ ts ≤ v.through id := by
    rw [GoMap.getElem?_filter, filter_eq_some_iff, decide_eq_true_eq]
  have whole : v.life id sub + cap (a.newer (v.through id) sub) = cap (a.ever sub) := by
    rw [per.life sub, sumOf_entriesOf older given.positive safe honest per sub, ← cap_add,
      Box.newer, newer, split, given.sums sub]
  obtain ⟨up, down⟩ := exact_of_cap whole
  exact ⟨up, down⟩

/-- **Exactly-once accounting between hub and agent.** In every state of a run of agents that are
given what fits, in order, at positive times and with nothing evicted, with any polls, flushes,
failed writes, lost acknowledgements, crashes and restarts, and for every node and subscription: the
lifetime the hub has for the node, and the bytes in the agent's buckets newer than its mark, are all
the bytes the agent was ever given; and so are the file's. -/
theorem counted_exactly_once (agents : Nat → MemoryStore) (ls : List Action) (s : System)
    (h : Runs.run step (System.init agents) ls = some s)
    (along : Runs.Along step (fun s a => counting s a = true) (System.init agents) ls)
    (id sub : Nat) :
    (∀ hub n, s.hub = some hub → hub.c.nodes[id]? = some n →
      Accounted (s.agents id) n.hist.through (n.hist.life.getD sub 0) sub) ∧
    Accounted (s.agents id) ((fileView s.file).through id) ((fileView s.file).life id sub) sub := by
  have steps : ∀ s a t,
      Sound s ∧ Agrees (fun v l => ∀ id, PerNode id v l) s ∧ (∀ id, Given (s.agents id)) →
      counting s a = true → step s a = some t →
        Sound t ∧ Agrees (fun v l => ∀ id, PerNode id v l) t ∧ (∀ id, Given (t.agents id)) :=
    fun s a t inv ok ht => ⟨sound_step s a t inv.1 (orderly_of_counting ok) ht,
      perNode_step inv.1 ok inv.2.1 ht, given_step inv.1 ok inv.2.2 ht⟩
  have none : ∀ id, PerNode id (viewOf ∅ ∅) [] := fun id =>
    ⟨List.Pairwise.nil, (fun e he => by cases he), fun sub => by simp [viewOf, entriesOf, sumOf]⟩
  obtain ⟨sound, agrees, given⟩ := Runs.run_inv_along steps
    ⟨sound_init agents, ⟨none, fun k hk => by cases hk⟩, given_init agents⟩ along h
  refine ⟨fun hub n running found => ?_, ?_⟩
  · have hubSound := sound.hub hub running
    have accounted := accounted_of_perNode (sound.kept id) (given id) hubSound.more
      (hubSound.safe_view id) (hubSound.honest id) ((agrees.hub hub running).1 id) sub
    rw [view_through, view_life, found] at accounted
    exact accounted
  · exact accounted_of_perNode (sound.kept id) (given id) (fun _ he => he) (sound.file id)
      (sound.honest id) (agrees.file id) sub

/-! ## Runs -/

/-- What a run leaves of a subscription: the hub's lifetime for the node, the agent's bytes newer
than its mark, and all the agent was ever given. -/
def accounts (ls : List Action) (id sub : Nat) : Option (Totals × (Nat × Nat) × (Nat × Nat)) := do
  let s ← Runs.run step (System.init (hourly 86400)) ls
  let n ← (← s.hub).c.nodes[id]?
  return (n.hist.life.getD sub 0, (s.agents id).newer n.hist.through sub, (s.agents id).ever sub)

/-- A write that fails with the new file in place, and a crash. The next poll finds the agent
holding what the file counts and acknowledges it; the agent drops it, and the hub crashes before it
is told. Two bytes later the third poll counts the second bucket. -/
def crashesBetween : List Action :=
  [.start 20000, .accumulate 1 (sent 5) 7200, .accumulate 1 (sent 1) 10800, .poll 0 1, .fetch 0,
    .fold 0 20000, .prepare 20000, .write .failedNew, .crash, .start 20000, .poll 1 1, .fetch 1,
    .fold 1 20000, .sendAck 1, .deliver 1 7200, .crash, .start 20000,
    .accumulate 1 (sent 2) 14400, .poll 2 1, .fetch 2, .fold 2 20000]

theorem counted_crashesBetween :
    accounts crashesBetween 1 1 = some (⟨6, 0⟩, (2, 0), (8, 0)) ∧
      ∃ s, Runs.run step (System.init (hourly 86400)) crashesBetween = some s ∧
        ∀ hub n, s.hub = some hub → hub.c.nodes[1]? = some n →
          Accounted (s.agents 1) n.hist.through (n.hist.life.getD 1 0) 1 := by
  refine ⟨by decide +kernel, ?_⟩
  obtain ⟨s, ran⟩ : ∃ s, Runs.runChecked step counting (System.init (hourly 86400))
      crashesBetween = some s :=
    isSome_iff_exists.mp (by decide +kernel)
  obtain ⟨hs, checked⟩ := Runs.of_runChecked ran
  exact ⟨s, hs, (counted_exactly_once (hourly 86400) crashesBetween s hs checked 1 1).1⟩

/-- **What is not accounted for.** Five bytes in a bucket dated before the clock was set, which the
hub skips; and a bucket given `2 ^ 62` bytes twice, which wraps to a negative count. -/
theorem counted_wrongly :
    accounts [.start 20000, .accumulate 1 (sent 5) 100, .poll 0 1, .fetch 0, .fold 0 20000] 1 1 =
      some (⟨0, 0⟩, (0, 0), (5, 0)) ∧
    accounts [.start 20000, .accumulate 1 (sent (2 ^ 62)) 7200, .accumulate 1 (sent (2 ^ 62)) 7200,
        .poll 0 1, .fetch 0, .fold 0 20000] 1 1 = some (⟨0, 0⟩, (0, 0), (2 ^ 63, 0)) := by
  decide +kernel

end NasnetPanel.Usage
