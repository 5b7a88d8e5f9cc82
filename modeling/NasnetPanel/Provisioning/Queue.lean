import NasnetPanel.Provisioning.Worker

/-!
# Provisioning.Queue — which tasks the worker comes back to

A task that is neither completed nor dead is worth something only while `FetchPending` selects it.
`Kept` says so of a row. The worker takes a row out of reach when it marks it as processing, and
puts it back with the outcome; nothing else does, not even a restart.

`comes_back` is the law over runs: as long as the process does not stop inside a task and the write
of each outcome succeeds, every task is completed, dead, or selected again from its retry time on,
the one the worker is carrying out at the moment apart. `stuck_in_processing` is what a stop inside
a task leaves.
-/

namespace NasnetPanel.Provisioning
open CrashProg CrashProg.Prog List

/-! ## What a fetch returns -/

instance (tie : Nat → Nat) : Std.Total (retryOrder tie) where
  total a b := by
    unfold retryOrder
    omega

instance (tie : Nat → Nat) : IsTrans ProvisioningTask (retryOrder tie) where
  trans a b c := by
    unfold retryOrder
    omega

variable {r t : ProvisioningTask} {rows : List ProvisioningTask} {w : World} {id : Nat} {c : Call}

theorem mem_fetchPending_or_full {now : Int}
    (tie : Nat → Nat) (limit : Nat) (mem : r ∈ rows) (isDue : due now r = true) :
    r ∈ fetchPending rows now tie limit ∨
      ((fetchPending rows now tie limit).length = limit ∧
        ∀ x ∈ fetchPending rows now tie limit, x.nextRetryAt ≤ r.nextRetryAt) := by
  unfold fetchPending
  have here : r ∈ (rows.filter (due now)).insertionSort (retryOrder tie) :=
    (mem_insertionSort _).mpr (mem_filter.mpr ⟨mem, isDue⟩)
  have sorted := pairwise_insertionSort (retryOrder tie) (rows.filter (due now))
  generalize (rows.filter (due now)).insertionSort (retryOrder tie) = l at here sorted
  rw [← take_append_drop limit l] at here sorted
  rcases mem_append.mp here with taken | left
  · exact .inl taken
  refine .inr ⟨?_, fun x hx => ?_⟩
  · have nonempty := length_pos_of_mem left
    rw [length_drop] at nonempty
    rw [length_take]
    omega
  · have before := (pairwise_append.mp sorted).2.2 x hx r left
    unfold retryOrder at before
    omega

/-- The row is one every later fetch selects, from its retry time on. -/
def ComesBack (rows : List ProvisioningTask) (r : ProvisioningTask) : Prop :=
  ∀ now tie limit, r.nextRetryAt ≤ now →
    r ∈ fetchPending rows now tie limit ∨
      ((fetchPending rows now tie limit).length = limit ∧
        ∀ x ∈ fetchPending rows now tie limit, x.nextRetryAt ≤ r.nextRetryAt)

/-! ## Kept rows -/

/-- Completed, dead, or within `FetchPending`'s reach. -/
def Kept (r : ProvisioningTask) : Prop :=
  r.status = .completed ∨ r.status = .dead ∨
    ((r.status = .pending ∨ r.status = .failed) ∧ r.deleted = false)

theorem Kept.comesBack (mem : r ∈ rows)
    (kept : Kept r) : r.status = .completed ∨ r.status = .dead ∨ ComesBack rows r := by
  rcases kept with done | dead | ⟨open', reach⟩
  · exact .inl done
  · exact .inr (.inl dead)
  · refine .inr (.inr fun now tie limit late => ?_)
    exact mem_fetchPending_or_full tie limit mem (by simp [due, open', late, reach])

def KeptBut (id : Nat) (rows : List ProvisioningTask) : Prop :=
  ∀ r ∈ rows, Kept r ∨ (r.id = id ∧ r.deleted = false)

def AllKept (rows : List ProvisioningTask) : Prop := ∀ r ∈ rows, Kept r

/-! ## What the other goroutines leave alone -/

section
variable {P : ProvisioningTask → Prop}
  (fresh : ∀ r : ProvisioningTask, r.status = .pending → r.deleted = false → P r)
include fresh

theorem forall_enqueue {now : Int} {t : ProvisioningTask}
    (pending : t.status = .pending) (reach : t.deleted = false) (h : ∀ r ∈ rows, P r) :
    ∀ r ∈ enqueue rows now t, P r :=
  forall_mem_append.mpr ⟨h, forall_mem_singleton.mpr (fresh _ pending reach)⟩

variable (cancelled : ∀ r, P r → P (setStatus .dead r))
  (cleaned : ∀ r : ProvisioningTask, r.status = .completed ∨ r.status = .dead →
    P { r with deleted := true })
include cancelled cleaned

theorem forall_outside (h : ∀ r ∈ rows, P r) (o : Outside) : ∀ r ∈ o.apply rows, P r := by
  cases o with
  | enqueueAdd now acc =>
    show ∀ r ∈ enqueueAddUser rows now acc, P r
    unfold enqueueAddUser
    split
    · exact h
    · exact forall_enqueue fresh rfl rfl h
  | enqueueRemove now acc =>
    show ∀ r ∈ enqueueRemoveUser rows now acc, P r
    unfold enqueueRemoveUser
    split
    · exact h
    · exact forall_enqueue fresh rfl rfl h
  | cancelNode nodeID =>
    refine forall_mem_map.mpr fun s hs => ?_
    split
    · exact cancelled s (h s hs)
    · exact h s hs
  | cleanup cutoff =>
    refine forall_mem_map.mpr fun s hs => ?_
    split
    case isTrue done => exact cleaned s done.1
    case isFalse => exact h s hs

theorem forall_after {w : World} (h : ∀ r ∈ w.rows, P r) (ans : Answer) :
    ∀ r ∈ (w.after ans).rows, P r := by
  exact foldlRecOn (motive := (∀ r ∈ ·, P r)) _ _ h fun _ h o _ =>
    forall_outside fresh cancelled cleaned h o

end

theorem kept_fresh (r : ProvisioningTask) (pending : r.status = .pending)
    (reach : r.deleted = false) : Kept r := .inr (.inr ⟨.inl pending, reach⟩)

theorem kept_dead (r : ProvisioningTask) : Kept (setStatus .dead r) := .inr (.inl rfl)

theorem kept_cleaned (r : ProvisioningTask) (done : r.status = .completed ∨ r.status = .dead) :
    Kept { r with deleted := true } := by
  rcases done with done | dead
  · exact .inl done
  · exact .inr (.inl dead)

theorem AllKept.after (h : AllKept w.rows) (ans : Answer) : AllKept (w.after ans).rows :=
  forall_after kept_fresh (fun r _ => kept_dead r) kept_cleaned h ans

theorem KeptBut.after (h : KeptBut id w.rows) (ans : Answer) : KeptBut id (w.after ans).rows :=
  forall_after (fun r pending reach => .inl (kept_fresh r pending reach))
    (fun r _ => .inl (kept_dead r)) (fun r done => .inl (kept_cleaned r done)) h ans

/-! ## The worker's own writes -/

theorem keptBut_processing (h : AllKept rows) (id : Nat) :
    KeptBut id (updateRow id (setStatus .processing) rows) := by
  refine forall_mem_map.mpr fun s hs => ?_
  unfold onRow
  split
  case isTrue here => exact .inr here
  case isFalse => exact .inl (h s hs)

theorem allKept_outcome {f : ProvisioningTask → ProvisioningTask} (h : KeptBut id rows)
    (outcome : ∀ r, r.deleted = false → Kept (f r)) : AllKept (updateRow id f rows) := by
  refine forall_mem_map.mpr fun s hs => ?_
  unfold onRow
  split
  case isTrue here => exact outcome s here.2
  case isFalse other => exact (h s hs).resolve_right other

theorem kept_failRow (nextRetry : Int) (isDead : Bool) (r : ProvisioningTask)
    (reach : r.deleted = false) : Kept (failRow nextRetry isDead r) := by
  cases isDead with
  | true => exact .inr (.inl rfl)
  | false => exact .inr (.inr ⟨.inr rfl, reach⟩)

/-! ## Programs -/

def lastStarted (log : List Event) : Option Nat :=
  (log.filterMap fun
    | .started id _ => some id
    | .completed _ _ => none).getLast?

/-- Calls of the worker outside a task: a stop before one of them leaves no task half done. -/
def OutsideTask : Call → Prop
  | .fetchPending _ | .markProcessing _ | .tick => True
  | _ => False

def OutcomeWritten : Call → Answer → Prop
  | .markSuccess _, ans => ans.ok = true
  | .markFailed _ _ _, ans => ans.ok = true
  | _, _ => True

def UnderWay (w : World) : Prop := ∃ id, lastStarted w.log = some id ∧ KeptBut id w.rows

/-- What holds before each call. -/
def AtCall (c : Call) (w : World) : Prop :=
  (OutsideTask c → AllKept w.rows) ∧ (AllKept w.rows ∨ UnderWay w)

/-- The calls step 2 of `processTask` makes for a user: its node and the node's agent. -/
def NodeCall (u : User) : Call → Prop
  | .getNode n | .pushConfigViaAgent n => n = u.nodeID
  | .addUserViaAgent v _ | .removeUserViaAgent v => v = u
  | _ => False

section
variable (t)

theorem only_addAgain : Only (NodeCall t.user) (addAgain t) := by
  refine ⟨rfl, fun r => ?_⟩
  rcases r with e | _
  · cases e <;> trivial
  · trivial

theorem only_reAddUser : Only (NodeCall t.user) (reAddUser t) := by
  refine ⟨rfl, fun removed => ?_⟩
  rcases removed with e | _
  · cases e with
    | notFound => exact only_addAgain t
    | _ => trivial
  · exact only_addAgain t

theorem only_push : Only (NodeCall t.user) (do
    return ofAgent (← ask (.pushConfigViaAgent t.user.nodeID)) :
      Program (Except TaskError Unit)) :=
  ⟨rfl, fun _ => trivial⟩

theorem only_addUserToXray : Only (NodeCall t.user) (addUserToXray t) := by
  unfold addUserToXray
  split
  · trivial
  split
  · trivial
  refine ⟨rfl, fun node => ?_⟩
  cases node with
  | notFound => trivial
  | failed => trivial
  | found isActive =>
    cases isActive with
    | false => trivial
    | true =>
      refine ⟨rfl, fun added => ?_⟩
      rcases added with e | _
      · cases e with
        | unsupportedProtocol => exact only_push t
        | alreadyExists => exact only_reAddUser t
        | _ => trivial
      · trivial

theorem only_removeUserFromXray : Only (NodeCall t.user) (removeUserFromXray t) := by
  unfold removeUserFromXray
  split
  · trivial
  split
  · trivial
  refine ⟨rfl, fun node => ?_⟩
  cases node with
  | notFound => trivial
  | failed => trivial
  | found isActive =>
    refine ⟨rfl, fun removed => ?_⟩
    rcases removed with e | _
    · cases e with
      | unsupportedProtocol => exact only_push t
      | _ => trivial
    · trivial

/-- Carrying out a task goes to the node and its agent, never to the queue. -/
theorem only_execute : Only (NodeCall t.user) (execute t) := by
  unfold execute
  cases t.type with
  | addUser => exact only_addUserToXray t
  | removeUser => exact only_removeUserFromXray t
  | other name => trivial

end

theorem not_outsideTask {u : User} (node : NodeCall u c) : ¬ OutsideTask c := by
  intro out
  cases c with
  | fetchPending _ => exact node
  | markProcessing _ => exact node
  | tick => exact node
  | _ => exact out

theorem rows_nodeCall {u : User} (node : NodeCall u c) (ans : Answer) (w : World) :
    (exec c ans w).2.rows = (w.after ans).rows ∧ (exec c ans w).2.log = w.log := by
  cases c with
  | getNode _ => exact ⟨rfl, rfl⟩
  | addUserViaAgent _ _ => exact ⟨rfl, rfl⟩
  | removeUserViaAgent _ => exact ⟨rfl, rfl⟩
  | pushConfigViaAgent _ => exact ⟨rfl, rfl⟩
  | _ => exact node.elim

def Carrying (id : Nat) (w : World) : Prop := lastStarted w.log = some id ∧ KeptBut id w.rows

theorem Carrying.atCall (h : Carrying id w) (inside : ¬ OutsideTask c) : AtCall c w :=
  ⟨fun out => absurd out inside, .inr ⟨id, h⟩⟩

theorem Carrying.after (h : Carrying id w) (ans : Answer) :
    Carrying id (w.after ans) := ⟨h.1, h.2.after ans⟩

/-- While a task is carried out only its own row is not kept. -/
theorem safe_execute (h : Carrying id w) :
    Safe exec AtCall OutcomeWritten (fun _ => Carrying id) (execute t) w := by
  refine safe_of_only ?_ (only_execute t) h
  intro c w node carrying
  refine ⟨carrying.atCall ?_, fun ans _ => ?_⟩
  · exact not_outsideTask node
  obtain ⟨rows, log⟩ := rows_nodeCall node ans w
  unfold Carrying
  rw [rows, log]
  exact carrying.after ans

/-- The invariant between two programs. -/
def Resting (w : World) : Prop := AllKept w.rows

theorem Resting.atCall (h : Resting w) (c : Call) : AtCall c w :=
  ⟨fun _ => h, .inl h⟩

/-- A failure that is written leaves every row kept. -/
theorem safe_handleFailure (cfg : Config) (h : Carrying t.id w) :
    Safe exec AtCall OutcomeWritten (fun _ => Resting) (handleFailure cfg t) w := by
  refine ⟨h.atCall id, fun clock _ => ?_⟩
  have waited : Carrying t.id (w.after clock) := h.after clock
  refine ⟨waited.atCall id, fun ans ok => ?_⟩
  have written : ans.ok = true := ok
  simp only [exec, World.write, written, if_true]
  exact allKept_outcome (waited.after ans).2 (kept_failRow _ _)

/-- One task leaves every row kept, if its outcome is written. -/
theorem safe_processTask (cfg : Config) (h : Resting w) :
    Safe exec AtCall OutcomeWritten (fun _ => Resting) (processTask cfg t) w := by
  refine ⟨h.atCall _, fun ans _ => ?_⟩
  have kept : AllKept (w.after ans).rows := AllKept.after h ans
  cases marked : ans.ok with
  | false =>
    simp only [exec, World.write, marked]
    exact kept
  | true =>
    simp only [exec, World.write, marked, if_true]
    have taken : Carrying t.id
        { w.after ans with
          rows := updateRow t.id (setStatus .processing) (w.after ans).rows
          log := (w.after ans).log ++ [.started t.id t.user] } :=
      ⟨by simp [lastStarted], keptBut_processing kept t.id⟩
    refine (safe_bind (p := execute t)).mpr (safe_mono ?_ (safe_execute taken))
    intro result w carrying
    cases result with
    | error e => exact safe_handleFailure cfg carrying
    | ok _ =>
      refine ⟨carrying.atCall id, fun ans ok => ?_⟩
      have written : ans.ok = true := ok
      simp only [exec, World.write, written, if_true]
      exact allKept_outcome (carrying.after ans).2 fun r _ => .inl rfl

/-- A sweep does, by induction on its tasks. -/
theorem safe_processAll (cfg : Config) (ts : List ProvisioningTask) (h : Resting w) :
    Safe exec AtCall OutcomeWritten (fun _ => Resting) (processAll cfg ts) w := by
  induction ts generalizing w with
  | nil => exact h
  | cons t ts ih => exact safe_bind.mpr (safe_mono (fun _ _ => ih) (safe_processTask cfg h))

/-- Whatever program starts with every row kept ends with every row kept. -/
theorem safe_program (cfg : Config) (e : Entry) (w : World) (h : Resting w) :
    Safe exec AtCall OutcomeWritten (fun _ => Resting) (e.program cfg) w := by
  cases e with
  | wait => exact ⟨h.atCall _, fun ans _ => AllKept.after h ans⟩
  | processBatch =>
    refine ⟨h.atCall _, fun ans _ => ?_⟩
    have kept : Resting (w.after ans) := AllKept.after h ans
    cases ok : ans.ok with
    | false =>
      simp only [exec, ok]
      exact kept
    | true =>
      simp only [exec, ok, if_true]
      exact safe_processAll cfg _ kept

/-! ## Over runs -/

/-- The process stops only outside tasks, and each outcome is written down. -/
def Careful : System Call Reply World → Label Entry Answer → Prop :=
  System.Guarded OutsideTask OutcomeWritten

def InTask (s : System Call Reply World) : Prop :=
  ∃ c k, s.running = some (.call c k) ∧ ¬ OutsideTask c

/-- **No task is lost in a run without a stop inside a task and with every outcome written**: each
task is completed, dead, or selected by every fetch from its retry time on, but for the task the
worker is carrying out at that moment. -/
theorem comes_back (cfg : Config) {ls : List (Label Entry Answer)}
    {t : System Call Reply World} (careful : Runs.Along (step cfg) Careful boot ls)
    (h : Runs.run (step cfg) boot ls = some t) :
    ∀ r ∈ t.world.rows, r.status = .completed ∨ r.status = .dead ∨ ComesBack t.world.rows r ∨
      (InTask t ∧ lastStarted t.world.log = some r.id) := by
  have start : Resting World.init := fun r hr => absurd hr (not_mem_nil)
  have settled := System.settled (safe_program cfg)
    (fun c w node stop => node.1 stop) start careful h
  intro r hr
  suffices Kept r ∨ (InTask t ∧ lastStarted t.world.log = some r.id) by
    rcases this with kept | inTask
    · rcases kept.comesBack hr with done | dead | back
      · exact .inl done
      · exact .inr (.inl dead)
      · exact .inr (.inr (.inl back))
    · exact .inr (.inr (.inr inTask))
  obtain ⟨w, running⟩ := t
  cases running with
  | none => exact .inl (settled r hr)
  | some p =>
    cases p with
    | ret _ => exact .inl (settled r hr)
    | call c k =>
      by_cases out : OutsideTask c
      · exact .inl (settled.1.1 out r hr)
      rcases settled.1.2 with kept | ⟨id, last, kept⟩
      · exact .inl (kept r hr)
      rcases kept r hr with here | ⟨rfl, _⟩
      · exact .inl here
      · exact .inr ⟨⟨c, k, rfl, out⟩, last⟩

/-- `Careful`, for runs in which the process does not stop. -/
def carefulCheck (s : System Call Reply World) : Label Entry Answer → Bool
  | .start _ => true
  | .crash => false
  | .advance ans =>
    match s.running with
    | some (.call (.markSuccess _) _) => ans.ok
    | some (.call (.markFailed _ _ _) _) => ans.ok
    | _ => true

theorem careful_of_check {s : System Call Reply World} {l : Label Entry Answer}
    (h : carefulCheck s l = true) : Careful s l := by
  cases l with
  | start e => trivial
  | crash => cases h
  | advance ans =>
    intro c k running
    rw [carefulCheck, running] at h
    cases c with
    | markSuccess t => exact h
    | markFailed t next dead => exact h
    | _ => trivial

def alice : Account := ⟨some ⟨1, "in-1", "vless"⟩, "alice@panel", "u1", "", ""⟩

/-- An add is enqueued and taken up, and the node cannot be reached. -/
def unreachableOnce : List (Label Entry Answer) :=
  [.start .wait, .advance { outside := [.enqueueAdd 0 alice] }, .advance {},
    .start .processBatch, .advance {}, .advance {}, .advance {},
    .advance { agent := .failed false }, .advance {}, .advance {}, .advance {}]

theorem comes_back_unreachableOnce :
    ∃ t, Runs.run (step {}) boot unreachableOnce = some t ∧ t.world.rows ≠ [] ∧
      ∀ r ∈ t.world.rows, r.status = .completed ∨ r.status = .dead ∨
        ComesBack t.world.rows r ∨ (InTask t ∧ lastStarted t.world.log = some r.id) := by
  have checked : Runs.checkAlong (step {}) carefulCheck boot unreachableOnce = true := rfl
  have careful : Runs.Along (step {}) Careful boot unreachableOnce :=
    (Runs.along_of_check checked).mono fun _ _ => careful_of_check
  exact ⟨_, rfl, cons_ne_nil _ _, comes_back {} careful rfl⟩

theorem not_mem_fetchPending (taken : r.status = .processing) (now : Int) (tie : Nat → Nat)
    (limit : Nat) :
    r ∉ fetchPending rows now tie limit := by
  intro mem
  have sorted := (mem_insertionSort _).mp (mem_of_mem_take mem)
  have isDue := (mem_filter.mp sorted).2
  simp [due, taken] at isDue

/-- An add is enqueued and marked as processing, and the process stops. -/
def stopInTask : List (Label Entry Answer) :=
  [.start .wait, .advance { outside := [.enqueueAdd 0 alice] }, .advance {},
    .start .processBatch, .advance {}, .advance {}, .crash]

/-- **A stop inside a task loses it**: the row is neither completed nor dead, and no fetch selects
it, whatever the time. -/
theorem stuck_in_processing :
    ∃ t, Runs.run (step {}) boot stopInTask = some t ∧ ¬ InTask t ∧
      ∃ r ∈ t.world.rows, r.status = .processing ∧
        ∀ now tie limit, r ∉ fetchPending t.world.rows now tie limit := by
  refine ⟨_, rfl, ?_, _, mem_singleton.mpr rfl, rfl, not_mem_fetchPending rfl⟩
  rintro ⟨c, k, running, _⟩
  cases running

end NasnetPanel.Provisioning
