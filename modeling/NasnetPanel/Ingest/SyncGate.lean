import NasnetPanel.Lib.Runs

/-!
# Ingest.SyncGate — one sweep of a node at a time

`acquireStatsSync` keeps a gate object per node as long as somebody refers to it. The map and the
references are changed under one mutex; what excludes is the gate's channel of one token. A move is
what one caller does with nobody in between: a section under the mutex, or one channel operation and
the return after it. Callers at the same place of the same gate are alike, so they are counted.

A gate is an object with an address: nothing in the model keeps a node from having callers at two of
them. **`one_sweep_per_node`** rests on its never having: the entry is taken out with the last
reference, so a gate that somebody refers to is the one in the entry. No gate is reached from two
nodes, which is why the objects are kept by node.
-/

namespace NasnetPanel.Ingest.SyncGate
open Function Option

/-- `nodeStatsSyncGate`, and how many of its callers are where. -/
structure Gate where
  /-- Whether the channel holds its token. -/
  token : Bool := false
  users : Int := 0
  /-- At the `select`. -/
  waiting : Nat := 0
  /-- The token sent, the context to be looked at again. -/
  sent : Nat := 0
  holding : Nat := 0
  /-- Before `releaseRef`, with the context's error or in the release function. -/
  leaving : Nat := 0

/-- What a caller of a gate does next. -/
inductive Op
  /-- `gate.token <- struct{}{}` -/
  | send
  /-- The context has no error. -/
  | enter
  /-- The context has one: `<-gate.token`. -/
  | refuse
  /-- `<-ctx.Done()` -/
  | cancel
  /-- `<-gate.token` of the release function. -/
  | release
  | releaseRef
deriving DecidableEq

namespace Gate

def step (gate : Gate) : Op → Option Gate
  | .send => if 0 < gate.waiting ∧ gate.token = false then some { gate with
      token := true
      waiting := gate.waiting - 1
      sent := gate.sent + 1 } else none
  | .enter => if 0 < gate.sent then some { gate with
      sent := gate.sent - 1
      holding := gate.holding + 1 } else none
  | .refuse => if 0 < gate.sent ∧ gate.token then some { gate with
      token := false
      sent := gate.sent - 1
      leaving := gate.leaving + 1 } else none
  | .cancel => if 0 < gate.waiting then some { gate with
      waiting := gate.waiting - 1
      leaving := gate.leaving + 1 } else none
  | .release => if 0 < gate.holding ∧ gate.token then some { gate with
      token := false
      holding := gate.holding - 1
      leaving := gate.leaving + 1 } else none
  | .releaseRef => if 0 < gate.leaving then some { gate with
      users := gate.users - 1
      leaving := gate.leaving - 1 } else none

def callers (gate : Gate) : Nat :=
  gate.waiting + gate.sent + gate.holding + gate.leaving

/-- The gate counts its callers, and its token is that of the one who has it. -/
def Counted (gate : Gate) : Prop :=
  gate.users = gate.callers ∧ gate.token.toNat = gate.sent + gate.holding

/-- A step of a caller leaves the gate with its callers counted. -/
theorem Counted.step {gate next : Gate} (h : gate.Counted) {op : Op}
    (stepped : gate.step op = some next) :
    next.Counted ∧ 0 < gate.callers ∧ (op = .releaseRef ∨ 0 < next.callers) := by
  obtain ⟨users, token⟩ := h
  cases op
  all_goals
    obtain ⟨enabled, next_is⟩ := ite_none_right_eq_some.mp stepped
    cases next_is
    simp only [Counted, callers] at *
    grind

end Gate

/-- What there is for one node: its entry in `statsSyncs`, and the gates by their addresses. -/
structure Slot where
  entry : Option Nat := none
  gates : Nat → Gate := fun _ => {}
  fresh : Nat := 0

namespace Slot

/-- The section that `acquireStatsSync` starts with. -/
def acquire (s : Slot) : Slot :=
  match s.entry with
  | some g => { s with gates := update s.gates g { s.gates g with
      users := (s.gates g).users + 1
      waiting := (s.gates g).waiting + 1 } }
  | none => {
      entry := some s.fresh
      gates := update s.gates s.fresh { users := 1, waiting := 1 }
      fresh := s.fresh + 1 }

/-- A caller of the gate at an address goes on. -/
def step (s : Slot) (g : Nat) (op : Op) : Option Slot :=
  ((s.gates g).step op).map fun gate => { s with
    entry := if op = .releaseRef ∧ gate.users = 0 then none else s.entry
    gates := update s.gates g gate }

/-- The gate that somebody refers to is the one in the entry. -/
structure Inv (s : Slot) : Prop where
  counted : ∀ g, (s.gates g).Counted
  entry : ∀ g, s.entry = some g ↔ 0 < (s.gates g).callers

variable {s t : Slot}

/-- A gate is replaced, and nobody refers to another one. -/
theorem Inv.put (h : s.Inv) {g fresh : Nat} {gate : Gate} {entry : Option Nat}
    (counted : gate.Counted) (others : ∀ k, s.entry = some k → k = g)
    (mine : entry = if gate.users = 0 then none else some g) :
    Inv ⟨entry, update s.gates g gate, fresh⟩ := by
  have users := counted.1
  refine ⟨fun k => ?_, fun k => ?_⟩
  · by_cases same : k = g
    · simpa only [same, update_self] using counted
    · simpa only [update_of_ne same] using h.counted k
  have there := h.entry k
  by_cases same : k = g
  · simp only [same, update_self]
    grind
  · simp only [update_of_ne same]
    grind

/-- One step keeps the gate that somebody refers to in the entry. -/
theorem Inv.step (h : s.Inv) {g : Nat} {op : Op} (stepped : s.step g op = some t) : t.Inv := by
  obtain ⟨gate, moved, rfl⟩ := map_eq_some_iff.mp stepped
  obtain ⟨counted, before, left⟩ := (h.counted g).step moved
  have here := (h.entry g).mpr before
  have users := counted.1
  refine h.put counted (fun k found => some.inj (found.symm.trans here)) ?_
  grind

/-- A new caller refers to the gate in the entry, or makes one. -/
theorem Inv.acquire (h : s.Inv) : s.acquire.Inv := by
  unfold Slot.acquire
  split
  next g found =>
    obtain ⟨users, token⟩ := h.counted g
    rw [Gate.callers] at users
    refine h.put ⟨?_, token⟩ (fun k there => some.inj (there.symm.trans found)) ?_
    · simp only [Gate.callers]
      omega
    · rw [if_neg (by simp only; omega), found]
  next free => exact h.put ⟨rfl, rfl⟩ (by simp [free]) rfl

end Slot

/-- The callers of all nodes: a new one (`none`), or one at a gate. -/
def step (s : Nat → Slot) (nodeID : Nat) : Option (Nat × Op) → Option (Nat → Slot)
  | none => some (update s nodeID (s nodeID).acquire)
  | some (g, op) => ((s nodeID).step g op).map (update s nodeID)

/-- **One sweep per node.** In whatever order the callers of any nodes move, at most one caller of a
node has the gate. The gate counts nobody but the callers it has: one that returns with the
context's error has left neither a reference nor a token. A caller that waits while nobody has the
gate can take it, and with the last caller the entry is gone. -/
theorem one_sweep_per_node {moves : List (Nat × Option (Nat × Op))} {s : Nat → Slot}
    (ran : Runs.run (fun s a => step s a.1 a.2) (fun _ => {}) moves = some s) (n : Nat) :
    (∀ g k, 0 < ((s n).gates g).sent + ((s n).gates g).holding → 0 < ((s n).gates k).callers →
      k = g ∧ ((s n).gates g).sent + ((s n).gates g).holding = 1) ∧
    (∀ g, ((s n).gates g).Counted) ∧
    (∀ g, 0 < ((s n).gates g).waiting → ((s n).gates g).sent + ((s n).gates g).holding = 0 →
      ∃ t u, (s n).step g .send = some t ∧ t.step g .enter = some u ∧ (u.gates g).holding = 1) ∧
    ((∀ g, ((s n).gates g).callers = 0) → (s n).entry = none) := by
  have inv : ∀ n, (s n).Inv := by
    refine @Runs.run_inv _ _ _ (fun s => ∀ n, (s n).Inv) ?_ _ _ _
      (fun _ => ⟨fun _ => ⟨rfl, rfl⟩, fun _ => by simp [Gate.callers]⟩) ran
    intro s a t h stepped n
    have moved : ∀ slot : Slot, slot.Inv → (update s a.1 slot n).Inv := by
      intro slot kept
      by_cases same : n = a.1
      · rw [same, update_self]
        exact kept
      · rw [update_of_ne same]
        exact h n
    obtain ⟨nodeID, _ | ⟨g, op⟩⟩ := a
    · cases stepped
      exact moved _ (h nodeID).acquire
    · obtain ⟨slot, went, rfl⟩ := map_eq_some_iff.mp stepped
      exact moved _ ((h nodeID).step went)
  have h := inv n
  refine ⟨fun g k owned used => ?_, h.counted, fun g waits free => ?_, fun nobody => ?_⟩
  · have token := (h.counted g).2
    have here := (h.entry g).mpr (by rw [Gate.callers]; omega)
    refine ⟨some.inj (((h.entry k).mpr used).symm.trans here), ?_⟩
    have := Bool.toNat_le ((s n).gates g).token
    omega
  · have token : ((s n).gates g).token = false := by
      rw [← Bool.toNat_eq_zero, (h.counted g).2, free]
    have held : ((s n).gates g).holding = 0 := by omega
    simp [Slot.step, Gate.step, waits, token, held]
  · cases found : (s n).entry with
    | none => rfl
    | some g =>
      have used := (h.entry g).mp found
      rw [nobody] at used
      cases used

/-- Two callers of node 7, of which the first holds the gate. -/
def twoCallers : List (Nat × Option (Nat × Op)) :=
  [(7, none), (7, some (0, .send)), (7, some (0, .enter)), (7, none)]

theorem one_sweep_two_callers :
    ∃ s, Runs.run (fun s a => step s a.1 a.2) (fun _ => {}) twoCallers = some s ∧
      ((s 7).gates 0).holding = 1 ∧ ∀ k, 0 < ((s 7).gates k).callers → k = 0 :=
  ⟨_, rfl, rfl, fun k used => ((@one_sweep_per_node twoCallers _ rfl 7).1 0 k (by decide) used).1⟩

end NasnetPanel.Ingest.SyncGate
