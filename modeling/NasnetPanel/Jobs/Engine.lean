import NasnetPanel.Jobs.Job
import NasnetPanel.Lib.GoMap
import NasnetPanel.Lib.Runs
import NasnetPanel.Lib.TopBy

/-!
# Jobs.Engine — the running and the finished jobs of the plugin

The engine remembers its jobs in three collections: by id, in the order of their start, and by the
node they run on. `prune` forgets finished jobs that are too old, and then those beyond a number,
the ones that ended longest ago first. Each operation holds the engine's lock from its start to its
end, so a run is a list of operations; the clock reads what it likes in each.

A job is a pointer in the source. Here it is a place in `heap`, which keeps every job ever started.
`Consistent` says how the collections hang together, and `Pruned` which finished jobs are left after
a prune: those that fewer than the number to keep ended after. `engine_consistent` is both, over
every run.
-/

namespace NasnetPanel.Jobs
open TopBy List

/-! ## The engine -/

/-- What the engine is given. The fields left at zero have defaults. -/
structure Config where
  keep : Int := 0
  maxAge : Int := 0
  stepKey : Option (String → String) := none

namespace Config
variable (cfg : Config)

/-- `Keep`, after `New`. -/
def keepCount : Nat := if cfg.keep ≤ 0 then 20 else cfg.keep.toNat

/-- `MaxAge`, after `New`. -/
def ageLimit : Int := if cfg.maxAge ≤ 0 then 3600000000000 else cfg.maxAge

def keyOf (name : String) : String := (cfg.stepKey.map fun f => f name).getD ""

end Config

structure Spec where
  kind : JobKind
  nodeID : Nat := 0
  target : String := ""
  steps : List String := []
  secrets : List String := []
  install : Option InstallForm := none

/-- Why `Start` refuses. -/
inductive StartError where
  | notAKind (kind : JobKind)
  | closed
  | busy (nodeID : Nat) (jobID : String)
deriving DecidableEq, Repr

/-- `Engine`. The maps and the list hold places in the heap. -/
structure Engine where
  closed : Bool := false
  /-- How many jobs have ended. -/
  ended : Nat := 0
  heap : List JobRec := []
  byID : GoMap String Nat := ∅
  /-- The oldest start first. -/
  order : List Nat := []
  onNode : GoMap Nat Nat := ∅

open Engine

namespace Engine
variable (cfg : Config) (e : Engine)

def idOf (r : Nat) : String := e.heap[r]?.elim "" (·.view.id)
def isOver (r : Nat) : Bool := e.heap[r]?.any (·.isOver)
def endSeq (r : Nat) : Nat := e.heap[r]?.elim 0 (·.endSeq)

def past (now : Int) (r : Nat) : Bool :=
  e.heap[r]?.any fun j => decide (cfg.ageLimit < now - j.finished)

/-- Take jobs out of the list and the map of ids. -/
def forget (rs : List Nat) : Engine :=
  { e with byID := rs.foldl (fun m r => m.erase (e.idOf r)) e.byID
           order := e.order.filter fun r => !rs.contains r }

def prune (now : Int) : Engine :=
  let e := e.forget (e.order.filter fun r => e.isOver r && e.past cfg now r)
  let ended := e.order.filter e.isOver
  if ended.length ≤ cfg.keepCount then e
  else e.forget ((rankBy e.endSeq ended).drop cfg.keepCount)

def begun (spec : Spec) (id : String) (startedAt : Int) : JobRec where
  view :=
    { id := id, kind := spec.kind, steps := plan cfg.keyOf spec.steps, nodeID := spec.nodeID
      target := spec.target, startedAt := startedAt
      install := spec.install.map fun f =>
        { f with name := clip maxName f.name, host := clip (maxName * 4) f.host
                 sshUser := clip maxName f.sshUser } }
  hide := newHider spec.secrets

def add (j : JobRec) : Engine :=
  { e with heap := e.heap ++ [j], byID := e.byID.insert j.view.id e.heap.length
           order := e.order ++ [e.heap.length]
           onNode := if j.view.nodeID = 0 then e.onNode
             else e.onNode.insert j.view.nodeID e.heap.length }

/-- `Start`, with the id `newID` has found. -/
def start (spec : Spec) (id : String) (startedAt now : Int) : Except StartError Engine :=
  if !spec.kind.valid then .error (.notAKind spec.kind)
  else if e.closed then .error .closed
  else
    match (if spec.nodeID = 0 then none else e.onNode[spec.nodeID]?) with
    | some current => .error (.busy spec.nodeID (e.idOf current))
    | none => .ok ((e.add (begun cfg spec id startedAt)).prune cfg now)

def report (r : Nat) (name : String) (c : StepChange) : Option Engine :=
  e.heap[r]?.map fun j => { e with heap := e.heap.set r (j.change cfg.keyOf name c).1 }

def ending (r : Nat) (j : JobRec) (result : Option Failure) (endedAt : Int) : Engine :=
  { e with ended := e.ended + 1, heap := e.heap.set r (j.finish result endedAt (e.ended + 1))
           onNode := if j.view.nodeID ≠ 0 ∧ e.onNode[j.view.nodeID]? = some r then
               e.onNode.erase j.view.nodeID
             else e.onNode }

/-- `finish`, once for each job. -/
def finish (r : Nat) (result : Option Failure) (endedAt now : Int) : Option Engine :=
  match e.heap[r]? with
  | none => none
  | some j => if j.isOver then none else some ((e.ending r j result endedAt).prune cfg now)

def get (id : String) (now : Int) : Engine × Option JobView :=
  let e := e.prune cfg now
  (e, e.byID[id]?.bind fun r => e.heap[r]?.map (·.view))

/-- The newest start first. -/
def list (now : Int) : Engine × List JobView :=
  let e := e.prune cfg now
  (e, e.order.reverse.filterMap fun r => e.heap[r]?.map (·.view))

def running (nodeID : Nat) : Option JobView :=
  e.onNode[nodeID]?.bind fun r => e.heap[r]?.map (·.view)

end Engine

/-- What is done to the engine, and what the clock reads meanwhile. -/
inductive EngineOp where
  | start (spec : Spec) (id : String) (startedAt now : Int)
  | report (r : Nat) (name : String) (c : StepChange)
  /-- The function returns, or panics: `some errInternal`. -/
  | finish (r : Nat) (result : Option Failure) (endedAt now : Int)
  | get (id : String) (now : Int)
  | list (now : Int)
  | subscribe (id : String) (now : Int)
  | close

/-- One operation. An id that a remembered job has is not a new one. -/
def engineStep (cfg : Config) (e : Engine) : EngineOp → Option Engine
  | .start spec id startedAt now =>
    if e.byID[id]?.isSome then none
    else
      match e.start cfg spec id startedAt now with
      | .ok e' => some e'
      | .error _ => some e
  | .report r name c => e.report cfg r name c
  | .finish r result endedAt now => e.finish cfg r result endedAt now
  | .get id now => some (e.get cfg id now).1
  | .list now => some (e.list cfg now).1
  | .subscribe _ now => some (e.prune cfg now)
  | .close => some { e with closed := true }

/-- The clock as the operation's prune reads it; `none` for one that does not prune. -/
def EngineOp.prunesAt (cfg : Config) (e : Engine) : EngineOp → Option Int
  | .start spec id startedAt now =>
    match e.start cfg spec id startedAt now with
    | .ok _ => some now
    | .error _ => none
  | .finish _ _ _ now => some now
  | .get _ now => some now
  | .list now => some now
  | .subscribe _ now => some now
  | .report .. => none
  | .close => none

/-! ## How the collections hang together -/

/-- The node map holds the running jobs with a node, the id map and the list the same jobs, and no
running job is missing. -/
structure Consistent (e : Engine) : Prop where
  nodup : e.order.Nodup
  refs : ∀ r ∈ e.order, r < e.heap.length
  byID : ∀ (id : String) (r : Nat), e.byID[id]? = some r ↔
    r ∈ e.order ∧ ∃ j, e.heap[r]? = some j ∧ j.view.id = id
  onNode : ∀ n r : Nat, e.onNode[n]? = some r ↔
    n ≠ 0 ∧ ∃ j, e.heap[r]? = some j ∧ j.isOver = false ∧ j.view.nodeID = n
  kept : ∀ (r : Nat) (j : JobRec), e.heap[r]? = some j → j.isOver = false → r ∈ e.order
  seqLe : ∀ (r : Nat) (j : JobRec), e.heap[r]? = some j → j.isOver = true → j.endSeq ≤ e.ended
  seqInj : ∀ (r r' : Nat) (j j' : JobRec), e.heap[r]? = some j → e.heap[r']? = some j' →
    j.isOver = true → j'.isOver = true → j.endSeq = j'.endSeq → r = r'
  steps : ∀ j ∈ e.heap, StepsOk j.view.steps

theorem consistent_empty : Consistent {} := by constructor <;> simp

section Forget
variable {e : Engine} {rs : List Nat} {r : Nat} {j : JobRec}

theorem over_eq (h : e.heap[r]? = some j) : e.isOver r = j.isOver := by simp [isOver, h]
theorem idOf_eq (h : e.heap[r]? = some j) : e.idOf r = j.view.id := by simp [idOf, h]
theorem endSeq_eq (h : e.heap[r]? = some j) : e.endSeq r = j.endSeq := by simp [endSeq, h]

theorem getElem?_foldl_erase (m : GoMap String Nat) (f : Nat → String) (id : String) :
    (rs.foldl (fun m r => m.erase (f r)) m)[id]? = if id ∈ rs.map f then none else m[id]? := by
  induction rs generalizing m with
  | nil => simp
  | cons r rs ih =>
    rw [foldl_cons, ih, GoMap.getElem?_erase, map_cons]
    by_cases later : id ∈ rs.map f
    · rw [if_pos later, if_pos (mem_cons_of_mem _ later)]
    by_cases here : id = f r
    · simp [here]
    · simp [later, here]

theorem mem_forget : r ∈ (e.forget rs).order ↔ r ∈ e.order ∧ r ∉ rs := by simp [forget]

theorem Consistent.forget (h : Consistent e) (listed : ∀ r ∈ rs, r ∈ e.order)
    (ended : ∀ r ∈ rs, e.isOver r = true) : Consistent (e.forget rs) := by
  refine ⟨h.nodup.filter _, ?_, ?_, h.onNode, ?_, h.seqLe, h.seqInj, h.steps⟩
  · intro r hr
    exact h.refs r (mem_forget.mp hr).1
  · intro id r
    have found : (e.forget rs).byID[id]? = if id ∈ rs.map e.idOf then none else e.byID[id]? :=
      getElem?_foldl_erase _ _ _
    rw [found, mem_forget]
    constructor
    · intro some
      split at some
      · cases some
      next kept =>
        obtain ⟨mem, j, here, id_⟩ := (h.byID id r).mp some
        refine ⟨⟨mem, ?_⟩, j, here, id_⟩
        intro forgotten
        apply kept
        rw [← id_, ← idOf_eq here]
        exact mem_map_of_mem forgotten
    · rintro ⟨⟨mem, kept⟩, j, here, id_⟩
      have some := (h.byID id r).mpr ⟨mem, j, here, id_⟩
      rw [if_neg, some]
      intro forgotten
      -- a forgotten job with this id would be this one
      obtain ⟨r', hr', same⟩ := mem_map.mp forgotten
      have inOrder := listed r' hr'
      obtain ⟨j', here'⟩ : ∃ j', e.heap[r']? = Option.some j' :=
        ⟨_, getElem?_eq_getElem (h.refs r' inOrder)⟩
      have some' := (h.byID id r').mpr ⟨inOrder, j', here', (idOf_eq here').symm.trans same⟩
      cases some.symm.trans some'
      exact kept hr'
  · intro r j here running
    refine mem_forget.mpr ⟨h.kept r j here running, ?_⟩
    intro forgotten
    have same : e.isOver r = j.isOver := over_eq here
    rw [← same, ended r forgotten] at running
    cases running

end Forget

/-! ## Which finished jobs are left -/

section Prune
variable {cfg : Config} {e : Engine} {now : Int} {r : Nat}

/-- The finished jobs among some that are not past the limit. -/
def Engine.fresh (cfg : Config) (e : Engine) (now : Int) (rs : List Nat) : List Nat :=
  rs.filter fun r => e.isOver r && !e.past cfg now r

/-- The finished jobs that are left after a prune, out of some: at most so many, and those that
fewer than so many ended after. -/
structure Pruned (cfg : Config) (now : Int) (before : List Nat) (e : Engine) : Prop where
  few : (e.order.filter e.isOver).length ≤ cfg.keepCount
  latest : ∀ r, e.isOver r = true → (r ∈ e.order ↔
    r ∈ before ∧ e.past cfg now r = false ∧
      above e.endSeq (e.fresh cfg now before) r < cfg.keepCount)

/-- The jobs past the limit are gone first. -/
def Engine.dropOld (cfg : Config) (now : Int) (e : Engine) : Engine :=
  e.forget (e.order.filter fun r => e.isOver r && e.past cfg now r)

theorem mem_dropOld : r ∈ (e.dropOld cfg now).order ↔
    r ∈ e.order ∧ (e.isOver r = true → e.past cfg now r = false) := by
  unfold dropOld
  rw [mem_forget, mem_filter]
  constructor
  · rintro ⟨mem, kept⟩
    refine ⟨mem, fun ended => ?_⟩
    by_contra old
    exact kept ⟨mem, by simp [ended, Bool.eq_true_of_not_eq_false old]⟩
  · rintro ⟨mem, kept⟩
    refine ⟨mem, ?_⟩
    rintro ⟨-, both⟩
    rw [Bool.and_eq_true] at both
    rw [kept both.1] at both
    cases both.2

theorem filter_dropOld :
    (e.dropOld cfg now).order.filter e.isOver = e.fresh cfg now e.order := by
  unfold dropOld forget fresh
  rw [filter_filter]
  apply filter_congr
  intro r hr
  by_cases ended : e.isOver r = true
  · cases old : e.past cfg now r <;> simp [ended, old, hr]
  · simp [Bool.eq_false_of_not_eq_true ended]

theorem prune_eq : e.prune cfg now =
    if (e.fresh cfg now e.order).length ≤ cfg.keepCount then e.dropOld cfg now
    else (e.dropOld cfg now).forget
      ((rankBy e.endSeq (e.fresh cfg now e.order)).drop cfg.keepCount) := by
  rw [← filter_dropOld]
  rfl

theorem prune_heap : (e.prune cfg now).heap = e.heap := by
  rw [prune_eq]
  split <;> rfl

theorem Consistent.nodup_endSeq (h : Consistent e) :
    ((e.fresh cfg now e.order).map e.endSeq).Nodup := by
  apply List.Nodup.map_on _ (h.nodup.filter _)
  intro r hr r' hr' same
  have ended : ∀ r ∈ e.fresh cfg now e.order, ∃ j, e.heap[r]? = some j ∧ j.isOver = true := by
    intro r hr
    obtain ⟨mem, both⟩ := mem_filter.mp hr
    have here := getElem?_eq_getElem (h.refs r mem)
    refine ⟨_, here, ?_⟩
    rw [← over_eq here]
    exact (Bool.and_eq_true _ _ ▸ both).1
  obtain ⟨j, here, isOver⟩ := ended r hr
  obtain ⟨j', here', isOver'⟩ := ended r' hr'
  rw [endSeq_eq here, endSeq_eq here'] at same
  exact h.seqInj r r' j j' here here' isOver isOver' same

/-- **A prune keeps the running jobs, and of the finished ones within the limit those that fewer
than the number to keep ended after.** -/
theorem mem_prune (h : Consistent e) : r ∈ (e.prune cfg now).order ↔ r ∈ e.order ∧
    (e.isOver r = true → e.past cfg now r = false ∧
      above e.endSeq (e.fresh cfg now e.order) r < cfg.keepCount) := by
  have fresh : ∀ r, r ∈ e.fresh cfg now e.order ↔
      r ∈ e.order ∧ e.isOver r = true ∧ e.past cfg now r = false := by
    intro r
    simp [fresh]
  rw [prune_eq]
  split
  next few =>
    rw [mem_dropOld]
    constructor
    · rintro ⟨mem, kept⟩
      refine ⟨mem, fun ended => ⟨kept ended, ?_⟩⟩
      exact Nat.lt_of_lt_of_le (above_lt_length ((fresh r).mpr ⟨mem, ended, kept ended⟩)) few
    · rintro ⟨mem, kept⟩
      exact ⟨mem, fun ended => (kept ended).1⟩
  · rw [mem_forget, mem_dropOld, mem_drop_rankBy h.nodup_endSeq, fresh]
    constructor
    · rintro ⟨⟨mem, kept⟩, left⟩
      refine ⟨mem, fun ended => ⟨kept ended, ?_⟩⟩
      by_contra many
      exact left ⟨⟨mem, ended, kept ended⟩, Nat.le_of_not_lt many⟩
    · rintro ⟨mem, kept⟩
      refine ⟨⟨mem, fun ended => (kept ended).1⟩, ?_⟩
      rintro ⟨⟨-, ended, -⟩, many⟩
      exact absurd (kept ended).2 (Nat.not_lt_of_le many)

/-- Pruning takes a job out of every collection. -/
theorem Consistent.prune (h : Consistent e) : Consistent (e.prune cfg now) := by
  have dropped : Consistent (e.dropOld cfg now) := by
    apply h.forget
    · intro r hr
      exact (mem_filter.mp hr).1
    · intro r hr
      exact (Bool.and_eq_true _ _ ▸ (mem_filter.mp hr).2).1
  rw [prune_eq]
  split
  · exact dropped
  have out : ∀ r ∈ (rankBy e.endSeq (e.fresh cfg now e.order)).drop cfg.keepCount,
      r ∈ e.order ∧ e.isOver r = true ∧ e.past cfg now r = false := by
    intro r hr
    have mem := mem_rankBy.mp (mem_of_mem_drop hr)
    simpa [fresh] using mem
  apply dropped.forget
  · intro r hr
    exact mem_dropOld.mpr ⟨(out r hr).1, fun _ => (out r hr).2.2⟩
  · intro r hr
    exact (out r hr).2.1

theorem reads_of_heap {e' : Engine} (same : e'.heap = e.heap) : e'.isOver = e.isOver ∧
    e'.past cfg now = e.past cfg now ∧ e'.endSeq = e.endSeq ∧
    e'.fresh cfg now = e.fresh cfg now := by
  have isOver : e'.isOver = e.isOver := by
    funext r
    rw [isOver, same, isOver]
  have past : e'.past cfg now = e.past cfg now := by
    funext r
    rw [past, same, past]
  refine ⟨isOver, past, ?_, ?_⟩
  · funext r
    rw [endSeq, same, endSeq]
  · funext rs
    rw [fresh, isOver, past, fresh]

theorem Consistent.few (h : Consistent e) :
    ((e.prune cfg now).order.filter e.isOver).length ≤ cfg.keepCount := by
  rw [prune_eq]
  split
  next few =>
    rw [filter_dropOld]
    exact few
  · -- each is among the first so many by the time it ended
    have first : ((e.dropOld cfg now).forget ((rankBy e.endSeq (e.fresh cfg now e.order)).drop
        cfg.keepCount)).order.filter e.isOver ⊆
        (rankBy e.endSeq (e.fresh cfg now e.order)).take cfg.keepCount := by
      intro r hr
      obtain ⟨left, ended⟩ := mem_filter.mp hr
      obtain ⟨mem, kept⟩ := mem_forget.mp left
      have fresh : r ∈ rankBy e.endSeq (e.fresh cfg now e.order) := by
        rw [mem_rankBy, ← filter_dropOld]
        exact mem_filter.mpr ⟨mem, ended⟩
      rw [← take_append_drop cfg.keepCount (rankBy _ _), mem_append] at fresh
      exact fresh.resolve_right kept
    have nodup : (((e.dropOld cfg now).forget ((rankBy e.endSeq (e.fresh cfg now e.order)).drop
        cfg.keepCount)).order.filter e.isOver).Nodup :=
      ((h.nodup.filter _).filter _).filter _
    exact (subperm_of_subset nodup first).length_le.trans (length_take_le _ _)

/-- **What a prune leaves is pruned.** -/
theorem Consistent.pruned (h : Consistent e) : Pruned cfg now e.order (e.prune cfg now) := by
  obtain ⟨isOver, past, endSeq, fresh⟩ := @reads_of_heap cfg e now _ prune_heap
  constructor
  · rw [isOver]
    exact h.few
  intro r ended
  rw [isOver] at ended
  rw [past, endSeq, fresh, mem_prune h]
  constructor
  · rintro ⟨mem, kept⟩
    exact ⟨mem, kept ended⟩
  · rintro ⟨mem, kept⟩
    exact ⟨mem, fun _ => kept⟩

end Prune

/-! ## The operations -/

section Operations
variable {cfg : Config} {e : Engine} {r : Nat} {j : JobRec}

theorem getElem?_node {m m' : GoMap Nat Nat} {k : Nat} {v : Option Nat} (off : k = 0 → m' = m)
    (on : k ≠ 0 → ∀ n, m'[n]? = if n = k then v else m[n]?) (n : Nat) :
    m'[n]? = if n ≠ 0 ∧ n = k then v else m[n]? := by
  by_cases zero : k = 0
  · rw [off zero, if_neg]
    rintro ⟨node, rfl⟩
    exact node zero
  rw [on zero]
  by_cases at_k : n = k
  · rw [if_pos at_k, if_pos ⟨at_k ▸ zero, at_k⟩]
  · rw [if_neg at_k, if_neg fun h => at_k h.2]

theorem Consistent.add (h : Consistent e) (newID : e.byID[j.view.id]? = none)
    (free : j.view.nodeID ≠ 0 → e.onNode[j.view.nodeID]? = none) (running : j.isOver = false)
    (steps : StepsOk j.view.steps) : Consistent (e.add j) := by
  have fresh : e.heap.length ∉ e.order := fun mem => Nat.lt_irrefl _ (h.refs _ mem)
  -- a place of the heap is an old one, or the new job's
  have places : ∀ (r : Nat) (k : JobRec), (e.heap ++ [j])[r]? = some k ↔
      e.heap[r]? = some k ∨ (r = e.heap.length ∧ k = j) := by
    intro r k
    rcases Nat.lt_trichotomy r e.heap.length with lt | rfl | gt
    · rw [getElem?_append_left lt]
      simp [Nat.ne_of_lt lt]
    · simp [eq_comm]
    · rw [getElem?_eq_none (by simp; omega), getElem?_eq_none (Nat.le_of_lt gt)]
      simp [Nat.ne_of_gt gt]
  constructor
  · have all := Nodup.concat fresh h.nodup
    rwa [concat_eq_append] at all
  · have length : (e.add j).heap.length = e.heap.length + 1 := by simp [Engine.add]
    refine forall_mem_append.mpr ⟨fun r hr => ?_, forall_mem_singleton.mpr (by omega)⟩
    have := h.refs r hr
    omega
  · intro id r
    have found : (e.add j).byID[id]? =
        if id = j.view.id then some e.heap.length else e.byID[id]? := GoMap.getElem?_insert _ _ _ _
    have listed : r ∈ (e.add j).order ↔ r ∈ e.order ∨ r = e.heap.length := by simp [Engine.add]
    rw [found, listed]
    constructor
    · intro some
      split at some
      next same =>
        cases some
        exact ⟨.inr rfl, j, (places _ _).mpr (.inr ⟨rfl, rfl⟩), same.symm⟩
      · obtain ⟨mem, k, here, id_⟩ := (h.byID id r).mp some
        exact ⟨.inl mem, k, (places _ _).mpr (.inl here), id_⟩
    · rintro ⟨listed, k, here, rfl⟩
      rcases (places _ _).mp here with here | ⟨rfl, rfl⟩
      · obtain ⟨old, _⟩ := List.getElem?_eq_some_iff.mp here
        have mem : r ∈ e.order := listed.resolve_right (Nat.ne_of_lt old)
        have some := (h.byID k.view.id r).mpr ⟨mem, k, here, rfl⟩
        rw [if_neg, some]
        intro same
        rw [same, newID] at some
        cases some
      · rw [if_pos rfl]
  · intro n r
    have read : (e.add j).onNode[n]? =
        if n ≠ 0 ∧ n = j.view.nodeID then some e.heap.length else e.onNode[n]? :=
      getElem?_node (fun none => if_pos none) (fun node n => by
        rw [if_neg node, GoMap.getElem?_insert]) n
    rw [read]
    constructor
    · intro some
      split at some
      next new =>
        cases some
        exact ⟨new.1, j, (places _ _).mpr (.inr ⟨rfl, rfl⟩), running, new.2.symm⟩
      · obtain ⟨node, k, here, rest⟩ := (h.onNode n r).mp some
        exact ⟨node, k, (places _ _).mpr (.inl here), rest⟩
    · rintro ⟨node, k, here, running', rfl⟩
      rcases (places _ _).mp here with here | ⟨rfl, rfl⟩
      · have some := (h.onNode _ r).mpr ⟨node, k, here, running', rfl⟩
        rw [if_neg, some]
        rintro ⟨-, same⟩
        rw [same, free (same ▸ node)] at some
        cases some
      · rw [if_pos ⟨node, rfl⟩]
  · intro r k here running'
    rcases (places _ _).mp here with here | ⟨rfl, rfl⟩
    · exact mem_append_left _ (h.kept r k here running')
    · exact mem_append_right _ (mem_singleton_self _)
  · intro r k here ended
    rcases (places _ _).mp here with here | ⟨rfl, rfl⟩
    · exact h.seqLe r k here ended
    · cases running.symm.trans ended
  · intro r r' k k' here here' ended ended' same
    rcases (places _ _).mp here with here | ⟨rfl, rfl⟩
    · rcases (places _ _).mp here' with here' | ⟨rfl, rfl⟩
      · exact h.seqInj r r' k k' here here' ended ended' same
      · cases running.symm.trans ended'
    · cases running.symm.trans ended
  · exact forall_mem_append.mpr ⟨h.steps, forall_mem_singleton.mpr steps⟩

def JobRec.facts (j : JobRec) : String × Nat × Bool × Nat :=
  (j.view.id, j.view.nodeID, j.isOver, j.endSeq)

theorem Consistent.of_facts {heap : List JobRec} (h : Consistent e)
    (same : heap.map JobRec.facts = e.heap.map JobRec.facts)
    (steps : ∀ j ∈ heap, StepsOk j.view.steps) : Consistent { e with heap := heap } := by
  have length : heap.length = e.heap.length := by simpa using congrArg List.length same
  have places : ∀ q : Nat, heap[q]?.map JobRec.facts = e.heap[q]?.map JobRec.facts := by
    intro q
    rw [← getElem?_map, same, getElem?_map]
  -- what is said of a job's facts is said of either heap
  have reads (P : String × Nat × Bool × Nat → Prop) (q : Nat) :
      (∃ k, heap[q]? = some k ∧ P k.facts) ↔ ∃ k, e.heap[q]? = some k ∧ P k.facts := by
    have either (l : List JobRec) : (∃ k, l[q]? = some k ∧ P k.facts) ↔
        ∃ x, l[q]?.map JobRec.facts = some x ∧ P x := by simp
    rw [either, either, places]
  constructor
  · exact h.nodup
  · intro q hq
    exact length ▸ h.refs q hq
  · intro id q
    rw [h.byID id q]
    exact and_congr_right fun _ => (reads (·.1 = id) q).symm
  · intro n q
    rw [h.onNode n q]
    exact and_congr_right fun _ => (reads (fun x => x.2.2.1 = false ∧ x.2.1 = n) q).symm
  · intro q k here running
    obtain ⟨k', here', running'⟩ := (reads (·.2.2.1 = false) q).mp ⟨k, here, running⟩
    exact h.kept q k' here' running'
  · intro q k here ended
    obtain ⟨k', here', ended', seq⟩ :=
      (reads (fun x => x.2.2.1 = true ∧ x.2.2.2 = k.endSeq) q).mp ⟨k, here, ended, rfl⟩
    exact seq ▸ h.seqLe q k' here' ended'
  · intro q q' k l here here' ended ended' seq
    obtain ⟨k', hereK, overK, seqK⟩ :=
      (reads (fun x => x.2.2.1 = true ∧ x.2.2.2 = k.endSeq) q).mp ⟨k, here, ended, rfl⟩
    obtain ⟨l', hereL, overL, seqL⟩ :=
      (reads (fun x => x.2.2.1 = true ∧ x.2.2.2 = k.endSeq) q').mp ⟨l, here', ended', seq.symm⟩
    exact h.seqInj q q' k' l' hereK hereL overK overL (seqK.trans seqL.symm)
  · exact steps

variable {e' : Engine} {op : EngineOp}

theorem Consistent.report {name : String} {c : StepChange} (h : Consistent e)
    (reported : e.report cfg r name c = some e') : Consistent e' := by
  obtain ⟨j, here, rfl⟩ := Option.map_eq_some_iff.mp reported
  obtain ⟨id, nodeID, state, _, endSeq⟩ := @change_kept cfg.keyOf name j c
  have facts : (j.change cfg.keyOf name c).1.facts = j.facts := by
    simp [JobRec.facts, JobRec.isOver, id, nodeID, state, endSeq]
  apply h.of_facts
  · apply ext_getElem?
    intro q
    rw [getElem?_map, getElem?_map, getElem?_set]
    by_cases at_r : r = q
    · obtain ⟨lt, _⟩ := List.getElem?_eq_some_iff.mp here
      rw [if_pos at_r, ← at_r, if_pos lt, here]
      simp [facts]
    · rw [if_neg at_r]
  · intro k hk
    rcases mem_or_eq_of_mem_set hk with hk | rfl
    · exact h.steps k hk
    · exact (h.steps j (mem_of_getElem? here)).change c

theorem Consistent.ending (h : Consistent e) (here : e.heap[r]? = some j)
    (running : j.isOver = false)
    (result : Option Failure) (endedAt : Int) : Consistent (e.ending r j result endedAt) := by
  obtain ⟨lt, _⟩ := List.getElem?_eq_some_iff.mp here
  obtain ⟨id, nodeID, isOver⟩ := @finish_kept j result endedAt (e.ended + 1)
  -- the place of the job, and the others
  have places : ∀ (q : Nat) (k : JobRec), (e.ending r j result endedAt).heap[q]? = some k ↔
      (q = r ∧ k = j.finish result endedAt (e.ended + 1)) ∨ (q ≠ r ∧ e.heap[q]? = some k) := by
    intro q k
    have read : (e.ending r j result endedAt).heap[q]? =
        if r = q then some (j.finish result endedAt (e.ended + 1)) else e.heap[q]? := by
      change (e.heap.set r _)[q]? = _
      rw [getElem?_set, if_pos lt]
    rw [read]
    by_cases at_r : q = r
    · simp [at_r, eq_comm]
    · simp [at_r, Ne.symm at_r]
  have still : ∀ (q : Nat) (k : JobRec), (e.ending r j result endedAt).heap[q]? = some k →
      k.isOver = false → q ≠ r ∧ e.heap[q]? = some k := by
    intro q k hk running'
    rcases (places q k).mp hk with ⟨-, rfl⟩ | other
    · cases isOver.symm.trans running'
    · exact other
  constructor
  · exact h.nodup
  · intro q hq
    have length : (e.ending r j result endedAt).heap.length = e.heap.length := length_set
    exact length ▸ h.refs q hq
  · intro id' q
    change e.byID[id']? = some q ↔ _
    rw [h.byID id' q]
    constructor
    · rintro ⟨mem, k, hk, same⟩
      by_cases at_r : q = r
      · obtain rfl : j = k := Option.some.inj (here.symm.trans (at_r ▸ hk))
        exact ⟨mem, _, (places _ _).mpr (.inl ⟨at_r, rfl⟩), id.trans same⟩
      · exact ⟨mem, k, (places _ _).mpr (.inr ⟨at_r, hk⟩), same⟩
    · rintro ⟨mem, k, hk, same⟩
      rcases (places q k).mp hk with ⟨rfl, rfl⟩ | ⟨_, hk⟩
      · exact ⟨mem, j, here, id.symm.trans same⟩
      · exact ⟨mem, k, hk, same⟩
  · intro n q
    -- a job with a node is the one its node's entry holds
    have held : j.view.nodeID ≠ 0 → e.onNode[j.view.nodeID]? = some r := fun node =>
      (h.onNode _ r).mpr ⟨node, j, here, running, rfl⟩
    have read : (e.ending r j result endedAt).onNode[n]? =
        if n ≠ 0 ∧ n = j.view.nodeID then none else e.onNode[n]? :=
      getElem?_node (fun none => if_neg fun h => h.1 none) (fun node n => by
        rw [if_pos ⟨node, held node⟩, GoMap.getElem?_erase]) n
    rw [read]
    constructor
    · intro some
      split at some
      · cases some
      next other =>
        obtain ⟨node, k, hk, running', nodeK⟩ := (h.onNode n q).mp some
        refine ⟨node, k, (places _ _).mpr (.inr ⟨?_, hk⟩), running', nodeK⟩
        rintro rfl
        obtain rfl : j = k := Option.some.inj (here.symm.trans hk)
        exact other ⟨node, nodeK.symm⟩
    · rintro ⟨node, k, hk, running', rfl⟩
      obtain ⟨apart, hk⟩ := still q k hk running'
      have some := (h.onNode _ q).mpr ⟨node, k, hk, running', rfl⟩
      rw [if_neg, some]
      rintro ⟨_, same⟩
      rw [same, held (same ▸ node)] at some
      exact apart (Option.some.inj some).symm
  · intro q k hk running'
    obtain ⟨_, hk⟩ := still q k hk running'
    exact h.kept q k hk running'
  · intro q k hk ended
    rcases (places q k).mp hk with ⟨_, rfl⟩ | ⟨_, hk⟩
    · exact Nat.le_refl _
    · exact Nat.le_succ_of_le (h.seqLe q k hk ended)
  · intro q q' k k' hk hk' ended ended' same
    rcases (places q k).mp hk with ⟨at_r, rfl⟩ | ⟨_, old⟩
    · rcases (places q' k').mp hk' with ⟨at_r', _⟩ | ⟨_, old'⟩
      · exact at_r.trans at_r'.symm
      · have le := h.seqLe q' k' old' ended'
        rw [← same] at le
        exact absurd le (Nat.not_succ_le_self _)
    · rcases (places q' k').mp hk' with ⟨_, rfl⟩ | ⟨_, old'⟩
      · have le := h.seqLe q k old ended
        rw [same] at le
        exact absurd le (Nat.not_succ_le_self _)
      · exact h.seqInj q q' k k' old old' ended ended' same
  · intro k hk
    rcases mem_or_eq_of_mem_set hk with hk | rfl
    · exact h.steps k hk
    · exact (h.steps j (mem_of_getElem? here)).finish result endedAt _

theorem Consistent.start {spec : Spec} {id : String} {startedAt now : Int}
    (h : Consistent e) (newID : e.byID[id]? = none)
    (started : e.start cfg spec id startedAt now = .ok e') :
    e' = (e.add (Engine.begun cfg spec id startedAt)).prune cfg now ∧
      Consistent (e.add (Engine.begun cfg spec id startedAt)) := by
  unfold Engine.start at started
  split at started
  · cases started
  split at started
  · cases started
  split at started
  · cases started
  next free =>
    cases started
    refine ⟨rfl, h.add newID ?_ rfl (stepsOk_plan _)⟩
    intro node
    exact (if_neg node).symm.trans free

theorem before_prune {now : Int} (h : Consistent e)
    (step : engineStep cfg e op = some e') (prunes : op.prunesAt cfg e = some now) :
    ∃ m, Consistent m ∧ e' = m.prune cfg now ∧
      m.order.filter m.isOver = e.order.filter m.isOver := by
  cases op with
  | start spec id startedAt now' =>
    simp only [engineStep] at step
    split at step
    · cases step
    next newID =>
      simp only [EngineOp.prunesAt] at prunes
      split at prunes
      next e'' started =>
        cases prunes
        rw [started] at step
        cases step
        obtain ⟨rfl, added⟩ := h.start (by simpa using newID) started
        refine ⟨_, added, rfl, ?_⟩
        -- the new job is running
        have new : (e.add (begun cfg spec id startedAt)).heap[e.heap.length]? =
            some (begun cfg spec id startedAt) := by simp [add]
        have running : (e.add (begun cfg spec id startedAt)).isOver e.heap.length = false :=
          over_eq new
        have order : (e.add (begun cfg spec id startedAt)).order =
            e.order ++ [e.heap.length] := rfl
        rw [order, filter_append, filter_singleton, running]
        simp
      · cases prunes
  | report r name c => cases prunes
  | finish r result endedAt now' =>
    cases prunes
    simp only [engineStep, finish] at step
    split at step
    · cases step
    next j here =>
      obtain ⟨running, rfl⟩ := Runs.of_unless step
      exact ⟨_, h.ending here (Bool.eq_false_of_not_eq_true running) result endedAt, rfl, rfl⟩
  | get id now' | list now' | subscribe id now' =>
    cases prunes
    cases step
    exact ⟨e, h, rfl, rfl⟩
  | close => cases prunes

/-- One operation keeps the collections together. -/
theorem consistent_step (e : Engine) (op : EngineOp) (e' : Engine) (h : Consistent e)
    (step : engineStep cfg e op = some e') : Consistent e' := by
  cases prunes : op.prunesAt cfg e with
  | some now =>
    obtain ⟨m, consistent, rfl, _⟩ := before_prune h step prunes
    exact consistent.prune
  | none =>
    cases op with
    | start spec id startedAt now =>
      simp only [engineStep] at step
      split at step
      · cases step
      simp only [EngineOp.prunesAt] at prunes
      split at prunes
      · cases prunes
      next refused =>
        rw [refused] at step
        cases step
        exact h
    | report r name c => exact h.report step
    | close =>
      cases step
      exact { h with }
    | finish | get | list | subscribe => cases prunes

/-- An operation that prunes leaves the engine pruned. -/
theorem pruned_step {now : Int} (h : Consistent e)
    (step : engineStep cfg e op = some e') (prunes : op.prunesAt cfg e = some now) :
    Pruned cfg now e.order e' := by
  obtain ⟨m, consistent, rfl, same⟩ := before_prune h step prunes
  have pruned := @Consistent.pruned cfg m now consistent
  obtain ⟨isOver, past, endSeq, fresh⟩ := @reads_of_heap cfg m now _ prune_heap
  -- only finished jobs are compared, and of those the two lists have the same
  have listed : ∀ r, m.isOver r = true → (r ∈ m.order ↔ r ∈ e.order) := by
    intro r ended
    have mem : r ∈ m.order.filter m.isOver ↔ r ∈ e.order.filter m.isOver := by rw [same]
    simpa [ended] using mem
  have compared : m.fresh cfg now m.order = m.fresh cfg now e.order := by
    have split : ∀ rs, m.fresh cfg now rs =
        (rs.filter m.isOver).filter fun r => !m.past cfg now r := by
      intro rs
      rw [Engine.fresh, filter_filter]
      exact filter_congr fun r _ => Bool.and_comm _ _
    rw [split, split, same]
  refine ⟨pruned.few, ?_⟩
  intro r ended
  rw [pruned.latest r ended, fresh, compared, listed r (isOver ▸ ended)]

end Operations

/-- **The engine's collections agree in every state it can reach, and each operation that prunes
leaves the finished jobs that ended last**: at most the number to keep, each within the age limit,
and none with so many after it. -/
theorem engine_consistent (cfg : Config) (ops : List EngineOp) (e : Engine)
    (h : Runs.run (engineStep cfg) {} ops = some e) :
    Consistent e ∧ ∀ op e', engineStep cfg e op = some e' → ∀ now, op.prunesAt cfg e = some now →
      Pruned cfg now e.order e' := by
  have consistent : Consistent e := Runs.run_inv consistent_step consistent_empty h
  exact ⟨consistent, fun op e' step now prunes => pruned_step consistent step prunes⟩

/-- Two jobs on one node, one after the other, and one to be kept. -/
def twoJobs : List EngineOp :=
  [.start { kind := .install, nodeID := 7, steps := ["copy", "run"] } "01" 0 0,
    .report 0 "copy" .begin, .finish 0 none 5 5,
    .start { kind := .remove, nodeID := 7 } "02" 6 6, .finish 1 (some errInternal) 7 7]

theorem engine_consistent_twoJobs :
    ∃ e, Runs.run (engineStep { keep := 1 }) {} twoJobs = some e ∧ e.order = [1] ∧
      Consistent e ∧ ∀ e', engineStep { keep := 1 } e (.list 8) = some e' →
        Pruned { keep := 1 } 8 [1] e' := by
  have outcome : (Runs.run (engineStep { keep := 1 }) {} twoJobs).map (·.order) = some [1] := by
    decide
  obtain ⟨e, reached, order⟩ := Option.map_eq_some_iff.mp outcome
  obtain ⟨consistent, pruned⟩ := engine_consistent { keep := 1 } twoJobs e reached
  refine ⟨e, reached, order, consistent, ?_⟩
  intro e' step
  rw [← order]
  exact pruned (.list 8) e' step 8 rfl

end NasnetPanel.Jobs
