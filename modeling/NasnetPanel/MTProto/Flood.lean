import Mathlib.Algebra.BigOperators.Group.List.Basic
import Mathlib.Algebra.GroupWithZero.Nat
import NasnetPanel.Lib.Runs

/-!
# MTProto.Flood — bursts of a node's events

`onEvent` of `mtprotonode/manager.go` thins the events of two kinds to one a second that carries a
count. `coalesce` and `flush` hold the entry's lock and touch the burst of one kind, so a run is a
list of them in the order they get the lock, each with what Go's monotonic clock reads there. What
they decide is emitted after the lock is released, in any order. The feed and the bus are left out.
-/

namespace NasnetPanel.MTProto
open List

/-- In nanoseconds. -/
def burstEvery : Int := 1000000000

inductive Kind where
  | egressFailed
  | violation
deriving DecidableEq

variable {E : Type}

/-- A zero time is `none`; of the timer it is known when it is due. -/
structure Burst (E : Type) where
  sent : Option Int := none
  held : Nat := 0
  last : Option E := none
  timer : Option Int := none

/-- The burst, and whether the event goes out alone. -/
def Burst.coalesce (b : Burst E) (ev : E) (now : Int) : Burst E × Bool :=
  if b.timer = none ∧ b.sent.all (burstEvery ≤ now - ·) then ({ b with sent := some now }, true)
  else
    ({ b with
      held := b.held + 1
      last := some ev
      timer := b.timer.or (b.sent.map (· + burstEvery)) }, false)

/-- What `emit` is called with, and the time at which that was decided. -/
structure Emission (E : Type) where
  time : Int
  event : Option E
  count : Nat

/-- The burst of a kind, the number of events there were, and the emissions: all that were decided,
those still to come and those that are out. -/
structure Flood (E : Type) where
  burst : Burst E := {}
  occurred : Nat := 0
  decided : List (Emission E) := []
  pending : List (Emission E) := []
  emitted : List (Emission E) := []

namespace Flood

def decide (f : Flood E) (m : Emission E) : Flood E :=
  { f with decided := f.decided ++ [m], pending := m :: f.pending }

def onEvent (f : Flood E) (ev : E) (now : Int) : Flood E :=
  let r := f.burst.coalesce ev now
  let f := { f with burst := r.1, occurred := f.occurred + 1 }
  if r.2 then f.decide ⟨now, some ev, 1⟩ else f

def flush (f : Flood E) (now : Int) : Flood E :=
  let b := f.burst
  let f := { f with burst := { b with held := 0, timer := none, sent := some now } }
  if 0 < b.held then f.decide ⟨now, b.last, b.held⟩ else f

end Flood

inductive Act (E : Type) where
  | event (kind : Kind) (ev : E) (now : Int)
  | fire (kind : Kind) (now : Int)
  | emit (kind : Kind) (i : Nat)

/-- A timer fires when it is due or later. -/
def step (s : Kind → Flood E) : Act E → Option (Kind → Flood E)
  | .event k ev now => some (Function.update s k ((s k).onEvent ev now))
  | .fire k now =>
    if (s k).burst.timer.any (· ≤ now) then some (Function.update s k ((s k).flush now)) else none
  | .emit k i => (s k).pending[i]?.map fun m => Function.update s k { s k with
      pending := (s k).pending.eraseIdx i
      emitted := m :: (s k).emitted }

structure Inv (f : Flood E) : Prop where
  apart : f.decided.Pairwise fun a b => a.time + burstEvery ≤ b.time
  sent : ∀ m ∈ f.decided, ∃ t, f.burst.sent = some t ∧ m.time ≤ t
  due : ∀ t, f.burst.timer = some t → ∃ u, f.burst.sent = some u ∧ t = u + burstEvery
  held : f.burst.timer = none ↔ f.burst.held = 0
  sum : (f.decided.map (·.count)).sum + f.burst.held = f.occurred
  out : (f.pending ++ f.emitted).Perm f.decided

variable {f : Flood E} {now : Int}

/-- A decision a second after the last one leaves nothing held. -/
theorem Inv.decide (h : Inv f) {m : Emission E} {b : Burst E} {n : Nat}
    (late : ∀ t, f.burst.sent = some t → t + burstEvery ≤ m.time) (sent : b.sent = some m.time)
    (timer : b.timer = none) (held : b.held = 0)
    (sum : (f.decided.map (·.count)).sum + m.count = n) :
    Inv ({ f with burst := b, occurred := n }.decide m) where
  apart := by
    refine pairwise_append.mpr ⟨h.apart, pairwise_singleton _ _,
      fun a mem => forall_mem_singleton.mpr ?_⟩
    obtain ⟨t, was, le⟩ := h.sent a mem
    have := late t was
    omega
  sent := by
    refine forall_mem_append.mpr ⟨fun a mem => ⟨_, sent, ?_⟩,
      forall_mem_singleton.mpr ⟨_, sent, Int.le_refl _⟩⟩
    obtain ⟨t, was, le⟩ := h.sent a mem
    have := late t was
    unfold burstEvery at this
    omega
  due t some := by cases timer.symm.trans some
  held := iff_of_true timer held
  sum := by
    show ((f.decided ++ [m]).map (·.count)).sum + b.held = n
    rw [map_append, sum_append, held]
    exact sum
  out := (h.out.cons m).trans (perm_append_singleton m f.decided).symm

theorem Inv.onEvent (h : Inv f) (ev : E) : Inv (f.onEvent ev now) := by
  unfold Flood.onEvent Burst.coalesce
  split
  next free =>
    have none := h.held.mp free.1
    have sum := h.sum
    rw [none] at sum
    refine h.decide (fun t was => ?_) rfl free.1 none (congrArg Nat.succ sum)
    have wait := free.2
    rw [was] at wait
    have := of_decide_eq_true wait
    dsimp only
    omega
  next busy =>
    refine { h with due := fun t some => ?_, held := ?_, sum := congrArg Nat.succ h.sum }
    · rcases Option.or_eq_some_iff.mp some with set | ⟨-, set⟩
      · exact h.due t set
      · obtain ⟨u, was, rfl⟩ := Option.map_eq_some_iff.mp set
        exact ⟨u, was, rfl⟩
    · refine iff_of_false (fun none => busy ?_) (Nat.succ_ne_zero _)
      obtain ⟨idle, never⟩ := Option.or_eq_none_iff.mp none
      rw [Option.map_eq_none_iff.mp never]
      exact ⟨idle, rfl⟩

/-- The timer fires, and what was held is decided. -/
theorem Inv.flush (h : Inv f) (fires : f.burst.timer.any (· ≤ now) = true) :
    Inv (f.flush now) := by
  cases set : f.burst.timer with
  | none =>
    rw [set] at fires
    cases fires
  | some t =>
    rw [set] at fires
    have due := of_decide_eq_true fires
    obtain ⟨u, was, rfl⟩ := h.due t set
    have some : 0 < f.burst.held := by
      refine Nat.pos_of_ne_zero fun none => ?_
      cases set.symm.trans (h.held.mpr none)
    unfold Flood.flush
    rw [if_pos some]
    refine h.decide (fun t was' => ?_) rfl rfl rfl h.sum
    cases was.symm.trans was'
    exact due

theorem Inv.emit (h : Inv f) {i : Nat} {m : Emission E} (next : f.pending[i]? = some m) :
    Inv { f with pending := f.pending.eraseIdx i, emitted := m :: f.emitted } := by
  obtain ⟨lt, rfl⟩ := List.getElem?_eq_some_iff.mp next
  have taken := (getElem_cons_eraseIdx_perm lt).append_right f.emitted
  exact { h with out := (perm_middle.trans taken).trans h.out }

/-- One action keeps the invariant of every kind. -/
theorem inv_step (s : Kind → Flood E) (a : Act E) (t : Kind → Flood E) (h : ∀ k, Inv (s k))
    (ht : step s a = some t) : ∀ k, Inv (t k) := by
  have only {k : Kind} {f : Flood E} (inv : Inv f) : ∀ j, Inv (Function.update s k f j) :=
    (Function.forall_update_iff s fun _ => Inv).mpr ⟨inv, fun j _ => h j⟩
  cases a with
  | event k ev now =>
    cases ht
    exact only ((h k).onEvent ev)
  | fire k now =>
    obtain ⟨fires, rfl⟩ := Runs.of_guard ht
    exact only ((h k).flush fires)
  | emit k i =>
    obtain ⟨m, next, rfl⟩ := Option.map_eq_some_iff.mp ht
    exact only ((h k).emit next)

/-- **Flood events are thinned without losing count.** In every run what was decided of a kind is a
second apart; and once its timer has fired and all is out, the counts emitted add up to the events
there were. -/
theorem counts_add_up {acts : List (Act E)} {s : Kind → Flood E}
    (h : Runs.run step (fun _ => {}) acts = some s) (k : Kind) :
    (s k).decided.Pairwise (fun a b => a.time + burstEvery ≤ b.time) ∧
      ((s k).burst.timer = none → (s k).pending = [] → (s k).emitted.Perm (s k).decided ∧
        ((s k).emitted.map (·.count)).sum = (s k).occurred) := by
  have start : Inv ({} : Flood E) :=
    ⟨.nil, fun _ mem => (by cases mem), fun _ some => (by cases some), by simp, rfl, .nil⟩
  have inv := Runs.run_inv inv_step (fun _ => start) h k
  refine ⟨inv.apart, fun fired out => ?_⟩
  have all := inv.out
  rw [out, nil_append] at all
  have sum := inv.sum
  rw [inv.held.mp fired, Nat.add_zero] at sum
  exact ⟨all, (all.map (·.count)).sum_eq.trans sum⟩

/-- Three violations within a second: one goes out alone, and two when the timer fires. -/
def three : List (Act Nat) :=
  [.event .violation 1 5, .event .violation 2 6, .event .violation 3 7,
    .fire .violation 1000000005, .emit .violation 0, .emit .violation 0]

theorem counts_add_up_three : ∃ s, Runs.run step (fun _ => {}) three = some s ∧
    (s .violation).emitted = [⟨5, some 1, 1⟩, ⟨1000000005, some 3, 2⟩] ∧
      ((s .violation).emitted.map (·.count)).sum = (s .violation).occurred :=
  ⟨_, rfl, rfl, ((@counts_add_up Nat three _ rfl .violation).2 rfl rfl).2⟩

end NasnetPanel.MTProto
