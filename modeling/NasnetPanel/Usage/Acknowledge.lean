import NasnetPanel.Usage.Views

/-!
# Usage.Acknowledge — no agent is told to drop what the file has not counted

Whenever an acknowledgement leaves the hub, every bucket up to its mark with a positive timestamp
that the agent holds or held is in the file's ledger, as the agent's bucket stands, and the file's
totals are the sums over that ledger (`acknowledged_counted`). That covers polls and flushes in any
order, nodes forgotten and polled again at any moment, also between the two halves of a write,
failed writes and a hub that stops and starts.

It asks of the agents that timestamps do not go back and that nothing is evicted. Without either,
and for a bucket whose timestamp is not positive, which the hub skips, an acknowledgement drops what
no file has counted (`acknowledged_uncounted`).
-/

namespace NasnetPanel.Usage

open Traffic

theorem sent_cases {s t : System} {a : Action} (ht : step s a = some t) :
    t.wire = s.wire ∨
      t.agents = s.agents ∧ t.written = s.written ∧ orderly s a = true := by
  cases a with
  | sendAck | sendJob =>
    obtain ⟨h, h', id, u, -, -, rfl⟩ := System.sending_eq ht
    exact .inr ⟨rfl, rfl, rfl⟩
  | accumulate | crash =>
    cases ht
    exact .inl rfl
  | deliver id u =>
    obtain ⟨-, rfl⟩ := Runs.of_guard ht
    exact .inl rfl
  | write outcome =>
    obtain ⟨h, h', file, written, -, -, rfl⟩ := write_eq ht
    exact .inl rfl
  | start now =>
    obtain ⟨-, rfl⟩ := start_eq ht
    exact .inl rfl
  | _ =>
    obtain ⟨h, h', -, -, rfl⟩ := System.onHub_eq ht
    exact .inl rfl

theorem mem_of_safe {held : GoMap Int TrafficBucket} {l : List Entry} {id : Nat} {t : Int}
    (safe : Safe held l id t) (honest : Honest held l id) {ts : Int} {b : TrafficBucket}
    (found : held[ts]? = some b) (pos : 0 < ts) (le : ts ≤ t) :
    (⟨id, ts, reading id b.toXrayStatsSnapshot⟩ : Entry) ∈ l := by
  obtain ⟨c, hc⟩ := safe.known ts b found pos le
  obtain ⟨-, ⟨b', here, read⟩, -⟩ := honest _ hc rfl
  cases found.symm.trans here
  exact read ▸ hc

/-- **The hub never tells an agent to drop bytes the file has not counted.** In every orderly run,
whenever an acknowledgement is sent, every bucket up to its mark with a positive timestamp that the
agent holds or held is counted in the file as it is then; and what the file has counted is what its
totals say, of every subscription that was not forgotten. -/
theorem acknowledged_counted (agents : Nat → MemoryStore) (ls : List Action) (s : System)
    (h : Runs.run step (System.init agents) ls = some s)
    (along : Runs.Along step (fun s a => orderly s a = true) (System.init agents) ls)
    (a : Action) (t : System) (ht : step s a = some t) (id : Nat) (mark : Int)
    (sent : t.wire = (id, mark) :: s.wire) :
    (∀ (ts : Int) (b : TrafficBucket), (s.agents id).held.buckets[ts]? = some b → 0 < ts →
      ts ≤ mark → (⟨id, ts, reading id b.toXrayStatsSnapshot⟩ : Entry) ∈ s.written) ∧
    ∀ sub, Action.forgetSubscription sub ∉ ls →
      (fileView s.file).total sub = sumOf sub s.written := by
  have sound : Sound s := Runs.run_inv_along sound_step (sound_init agents) along h
  refine ⟨fun ts b found pos le => ?_, fun sub kept => ?_⟩
  · rcases sent_cases ht with same | ⟨held, written, ok⟩
    · have length := congrArg List.length (sent.symm.trans same)
      simp at length
    · have ack := (sound_step s a t sound ok ht).wire id mark (sent ▸ List.mem_cons_self)
      have safe : Safe (s.agents id).held.buckets s.written id mark := by
        rw [← held, ← written]
        exact ack.safe
      exact mem_of_safe safe (sound.honest id) found pos le
  · have notForgotten : ∀ a ∈ ls, a ≠ .forgetSubscription sub := fun a ha same => kept (same ▸ ha)
    have steps : ∀ s a t, Sound s ∧ Agrees (Balanced sub) s →
        orderly s a = true ∧ a ≠ .forgetSubscription sub → step s a = some t →
          Sound t ∧ Agrees (Balanced sub) t := fun s a t inv ok ht =>
      ⟨sound_step s a t inv.1 ok.1 ht, balanced_step inv.1 ok.2 inv.2 ht⟩
    exact (Runs.run_inv_along steps ⟨sound_init agents, balanced_init agents sub⟩
      (Runs.along_and_mem along notForgotten) h).2.file

/-! ## Runs -/

/-- What an agent ever held of a subscription in its buckets up to a mark. -/
def heldUpTo (a : Box) (id sub : Nat) (mark : Int) : Totals :=
  GoMap.total (fun _ b => (reading id b.toXrayStatsSnapshot).subs.getD sub 0)
    (a.held.buckets.filter fun ts _ => decide (ts ≤ mark))

/-- The acknowledgement a run ends with, what the file has of the subscription then, and what the
agent ever held of it up to the mark. -/
def acknowledges (retention : Int) (ls : List Action) (a : Action) (sub : Nat) :
    Option ((Nat × Int) × Totals × Totals) := do
  let s ← Runs.run step (System.init (hourly retention)) ls
  let t ← step s a
  let ack ← t.wire.head?
  return (ack, (fileView s.file).total sub, heldUpTo (s.agents ack.1) ack.1 sub ack.2)

def pollAndFlush : List Action :=
  [.poll 0 1, .fetch 0, .fold 0 20000, .prepare 20000, .write .done, .stamp, .collectJobs]

/-- Five bytes, and the next hour's bucket. The node is forgotten, and polled again, between the two
halves of the write: its new object is stamped with the old one's mark. -/
def replacedNode : List Action :=
  [.start 20000, .accumulate 1 (sent 5) 7200, .accumulate 1 (sent 1) 10800, .poll 0 1, .fetch 0,
    .fold 0 20000, .prepare 20000, .write .done, .forget 1, .poll 1 1, .stamp, .collectJobs]

theorem acknowledged_replacedNode :
    acknowledges 86400 replacedNode .sendJob 1 = some ((1, 7200), ⟨5, 0⟩, ⟨5, 0⟩) ∧
      ∃ s t, Runs.run step (System.init (hourly 86400)) replacedNode = some s ∧
        step s .sendJob = some t ∧ t.wire = (1, 7200) :: s.wire ∧
        ∀ (ts : Int) (b : TrafficBucket), (s.agents 1).held.buckets[ts]? = some b → 0 < ts →
          ts ≤ 7200 → (⟨1, ts, reading 1 b.toXrayStatsSnapshot⟩ : Entry) ∈ s.written := by
  refine ⟨by decide +kernel, ?_⟩
  have wires : (Runs.runChecked step orderly (System.init (hourly 86400)) replacedNode).bind
      (fun s => (step s .sendJob).map fun t => (s.wire, t.wire)) = some ([], [(1, 7200)]) := by
    decide +kernel
  obtain ⟨s, ran, wires⟩ := Option.bind_eq_some_iff.mp wires
  obtain ⟨hs, checked⟩ := Runs.of_runChecked ran
  obtain ⟨t, ht, same⟩ := Option.map_eq_some_iff.mp wires
  obtain ⟨before, after⟩ := Prod.mk.inj same
  have new : t.wire = (1, 7200) :: s.wire := by rw [after, before]
  exact ⟨s, t, hs, ht, new, (acknowledged_counted (hourly 86400) replacedNode s hs
    checked .sendJob t ht 1 7200 new).1⟩

/-- **What an acknowledgement drops uncounted.** The agent's clock goes back an hour after the hour
was counted, and its bucket grows; a bucket is evicted before a poll finds it; and a bucket is dated
before the clock was set. -/
theorem acknowledged_uncounted :
    acknowledges 86400 ([.start 20000, .accumulate 1 (sent 5) 7200, .accumulate 1 (sent 1) 10800] ++
        pollAndFlush ++ [.accumulate 1 (sent 3) 7200]) .sendJob 1 =
      some ((1, 7200), ⟨5, 0⟩, ⟨8, 0⟩) ∧
    acknowledges 3600 ([.start 20000, .accumulate 1 (sent 5) 7200, .accumulate 1 (sent 1) 14400,
        .accumulate 1 (sent 1) 18000] ++ pollAndFlush) .sendJob 1 =
      some ((1, 14400), ⟨1, 0⟩, ⟨6, 0⟩) ∧
    acknowledges 86400 ([.start 20000, .accumulate 1 (sent 5) 100, .accumulate 1 (sent 1) 7200,
        .accumulate 1 (sent 1) 10800] ++ pollAndFlush) .sendJob 1 =
      some ((1, 7200), ⟨1, 0⟩, ⟨6, 0⟩) := by
  decide +kernel

end NasnetPanel.Usage
