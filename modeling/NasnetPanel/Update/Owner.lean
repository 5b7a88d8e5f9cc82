import NasnetPanel.Update.Files

/-!
# Update.Owner — who writes the job file

The parties to one job over the shared job file and the update lock (`job.go`, `runner.go`,
`boot.go`, `store.go`): the panel's own steps, the runner unit with its heartbeat, and any number of
watchers, which a boot, a tick or a command line starts. Each is a small state machine whose steps
are the reads and writes of the file, the lock calls, and the put-backs and removals of the staging
folder. Any party may be ahead or behind, and any may die; the kernel then drops its lock.

A watcher acts on the job it read before it took the lock. `one_owner` holds for runs in which such
a read is still good; `result_overwritten` has a run without that.

What the runner does between its saves is `Update.Runner`. The next job, and writes that fail, are
not modelled.
-/

namespace NasnetPanel.Update.Owner
open Runs

/-! ## The parties -/

/-- The job as far as the parties look at it. -/
structure Rec where
  phase : Phase
  result : Option Result := none
  recorded : Bool := false
deriving DecidableEq, Repr

def Rec.finished (r : Rec) : Bool := r.phase = .done

def Rec.finish (r : Rec) (result : Result) : Rec :=
  { r with phase := .done, result := some result }

inductive Party where
  | panel | runner | watcher (i : Nat)
deriving DecidableEq, Repr

/-- `runPanelSteps`, or the rest of `Rollback` once it saved the job. -/
inductive Panel where
  /-- At the steps before the handover. -/
  | steps (job : Rec)
  /-- The failure is saved and the lock still held. -/
  | failed
  /-- The job is the runner's and the lock still held. -/
  | handed (job : Rec)
  | starting (job : Rec)
  /-- The start of an update's runner reported an error. -/
  | refused (job : Rec)
  | relocked (job : Rec)
  /-- The start of a rollback's runner reported an error. -/
  | unlocked (job : Rec)
  | closing
  | record
  | recording (cur : Rec)
  | gone
deriving DecidableEq, Repr

/-- `RunJob`. -/
inductive Runner where
  | none
  | waiting
  | locked
  | working (job : Rec)
  /-- The job is finished and the lock still held. -/
  | done (job : Rec)
  /-- The lock is free, a beat of the heart may be under way. -/
  | unlocked (job : Rec)
  | gone
deriving DecidableEq, Repr

/-- `watchRunner`. -/
inductive Watcher where
  | gone
  | watching
  /-- It has read the job. -/
  | seen (job : Rec)
  /-- It has the lock: `interrupted`. -/
  | settling (job : Rec)
  | settled
  | record (held : Bool)
  | recording (held : Bool) (cur : Rec)
  /-- The lock is to be given back. -/
  | closing
deriving DecidableEq, Repr

open Watcher

structure World where
  kind : JobKind
  file : Rec
  lock : Option Party
  panel : Panel
  runner : Runner := .none
  watchers : Nat → Watcher := fun _ => .gone

/-! ## Steps -/

inductive Act where
  | load
  /-- The job as the party has it. -/
  | save
  | finish (result : Result)
  | handOver
  /-- Whether the runner runs, and whether an error is reported. -/
  | startRunner (ran reported : Bool)
  /-- `TryLock`, free or not. -/
  | lock | busy
  | unlock
  | putBack
  | cleanup
  /-- `record` saves what it loaded. -/
  | record
  /-- The next round, or the end. -/
  | wait
deriving DecidableEq, Repr

/-- Where a start that reports an error leaves the panel. -/
def startFailed : JobKind → Rec → Panel
  | .update, job => .refused job
  | .rollback, job => .unlocked job

namespace World

def panelStep (w : World) (act : Act) : Option World :=
  match w.panel, act with
  | .steps job, .save => some { w with file := job }
  | .steps job, .finish .failed => some { w with file := job.finish .failed, panel := .failed }
  | .steps job, .handOver =>
    some { w with
      file := { job with phase := .runner }, panel := .handed { job with phase := .runner } }
  | .failed, .unlock => some { w with lock := none, panel := .closing }
  | .handed job, .unlock => some { w with lock := none, panel := .starting job }
  | .starting job, .startRunner ran reported =>
    some { w with
      runner := if ran then .waiting else w.runner
      panel := if reported then startFailed w.kind job else .gone }
  | .refused job, .lock =>
    if w.lock = none then some { w with lock := some .panel, panel := .relocked job } else none
  | .refused _, .busy => if w.lock = none then none else some { w with panel := .closing }
  | .relocked job, .save => some { w with file := job }
  | .relocked job, .finish .failed => some { w with file := job.finish .failed, panel := .failed }
  | .unlocked job, .save => some { w with file := job }
  | .unlocked job, .finish .failed => some { w with file := job.finish .failed, panel := .record }
  | .closing, .cleanup => some { w with panel := .record }
  | .record, .load => some { w with panel := .recording w.file }
  | .record, .wait => some { w with panel := .gone }
  | .recording cur, .record => some { w with file := { cur with recorded := true }, panel := .gone }
  | _, _ => none

def runnerStep (w : World) (act : Act) : Option World :=
  match w.runner, act with
  | .waiting, .lock =>
    if w.lock = none then some { w with lock := some .runner, runner := .locked } else none
  | .waiting, .wait => some { w with runner := .gone }
  | .locked, .load =>
    if w.file.phase = .runner then some { w with runner := .working w.file }
    else some { w with lock := none, runner := .gone }
  | .locked, .wait => some { w with lock := none, runner := .gone }
  | .working job, .save => some { w with file := job }
  | .working _, .putBack | .working _, .cleanup => some w
  | .working job, .finish result =>
    some { w with file := job.finish result, runner := .done (job.finish result) }
  | .done job, .save => some { w with file := job }
  | .done _, .cleanup => some w
  | .done job, .unlock => some { w with lock := none, runner := .unlocked job }
  | .unlocked job, .save => some { w with file := job }
  | .unlocked _, .wait => some { w with runner := .gone }
  | _, _ => none

def setWatcher (w : World) (i : Nat) (s : Watcher) : World :=
  { w with watchers := fun k => if k = i then s else w.watchers k }

def watcherStep (w : World) (i : Nat) (act : Act) : Option World :=
  match w.watchers i, act with
  | .watching, .load =>
    some (w.setWatcher i (if w.file.finished then .record false else .seen w.file))
  | .watching, .wait => some (w.setWatcher i .gone)
  | .seen _, .wait => some (w.setWatcher i .watching)
  | .seen job, .lock =>
    if w.lock = none then some { w.setWatcher i (.settling job) with lock := some (.watcher i) }
    else none
  | .settling _, .putBack => some w
  | .settling job, .finish result =>
    some { w.setWatcher i .settled with file := job.finish result }
  | .settled, .cleanup => some (w.setWatcher i (.record true))
  | .record held, .load => some (w.setWatcher i (.recording held w.file))
  | .record held, .wait => some (w.setWatcher i (if held then .closing else .gone))
  | .recording held cur, .record =>
    some { w.setWatcher i (if held then .closing else .gone) with
      file := { cur with recorded := true } }
  | .closing, .unlock => some { w.setWatcher i .watching with lock := none }
  | _, _ => none

def freed (w : World) (p : Party) : Option Party := if w.lock = some p then none else w.lock

def die (w : World) : Party → Option World
  | .panel => some { w with panel := .gone, lock := w.freed .panel }
  | .runner =>
    if w.runner = .none then none
    else some { w with runner := .gone, lock := w.freed .runner }
  | .watcher i => some { w.setWatcher i .gone with lock := w.freed (.watcher i) }

end World

inductive Label where
  | panel (act : Act)
  | runner (act : Act)
  | watcher (i : Nat) (act : Act)
  /-- A process starts to watch: `Resume` at boot, the tick, `Rollback`, a command line. -/
  | watch (i : Nat)
  | die (p : Party)
deriving DecidableEq, Repr

def step (w : World) : Label → Option World
  | .panel act => w.panelStep act
  | .runner act => w.runnerStep act
  | .watcher i act => w.watcherStep i act
  | .watch i => if w.watchers i = .gone then some (w.setWatcher i .watching) else none
  | .die p => w.die p

/-- The job file right after it was made: under the lock, with an update's steps before the runner
or a rollback's handover ahead. -/
def begin : JobKind → World
  | .update => { kind := .update, file := ⟨.panel, none, false⟩, lock := some .panel,
                 panel := .steps ⟨.panel, none, false⟩ }
  | .rollback => { kind := .rollback, file := ⟨.runner, none, false⟩, lock := some .panel,
                   panel := .handed ⟨.runner, none, false⟩ }

/-- Whoever takes the lock to end a job finds it unfinished in the file. A start that reports an
error has started nothing, finds the lock free afterwards, and is an update's. -/
def orderly (w : World) : Label → Bool
  | .watcher _ .lock | .panel .lock => !w.file.finished
  | .panel .busy => false
  | .panel (.startRunner ran reported) => !reported || !ran && w.kind = .update
  | _ => true

/-- Somebody who is not the runner puts files back or removes the staging folder. -/
def Label.touches : Label → Bool
  | .panel .cleanup | .watcher _ .putBack | .watcher _ .cleanup => true
  | _ => false

/-! ## The invariant -/

def Grows (a b : Rec) : Prop := a.finished = true → b.finished = true ∧ b.result = a.result

theorem Grows.refl (a : Rec) : Grows a a := fun h => ⟨h, rfl⟩

theorem Grows.trans {a b c : Rec} (h : Grows a b) (h' : Grows b c) : Grows a c := fun done =>
  ⟨(h' (h done).1).1, (h' (h done).1).2.trans (h done).2⟩

def Same (a b : Rec) : Prop := a.finished = true ∧ b.finished = true ∧ a.result = b.result

theorem Same.grows {a b c : Rec} (h : Same a b) (grows : Grows b c) : Same a c :=
  ⟨h.1, (grows h.2.1).1, h.2.2.trans (grows h.2.1).2.symm⟩

namespace Panel

def holds : Panel → Bool
  | .steps _ | .failed | .handed _ | .relocked _ => true
  | _ => false

def Ok (file : Rec) : Panel → Prop
  | .steps job | .relocked job => job.finished = false ∧ file.finished = false
  | .handed job | .starting job | .refused job => job.finished = false
  | .failed | .closing | .record => file.finished = true
  | .recording cur => Same cur file
  | .unlocked _ => False
  | .gone => True

theorem Ok.write {file file' : Rec} {s : Panel} (h : s.Ok file) (grows : Grows file file')
    (free : s.holds = false ∨ file.finished = true) : s.Ok file' := by
  cases s with
  | steps job | relocked job =>
    rcases free with free | done
    · cases free
    · cases h.2.symm.trans done
  | failed | closing | record => exact (grows h).1
  | recording cur => exact Same.grows h grows
  | handed | starting | refused | unlocked | gone => exact h

end Panel

namespace Runner

def holds : Runner → Bool
  | .locked | .working _ | .done _ => true
  | _ => false

def Ok (file : Rec) : Runner → Prop
  | .working job => job.finished = false ∧ file.finished = false
  | .done job | .unlocked job => Same job file
  | _ => True

theorem Ok.write {file file' : Rec} {s : Runner} (h : s.Ok file) (grows : Grows file file')
    (free : s.holds = false ∨ file.finished = true) : s.Ok file' := by
  cases s with
  | working job =>
    rcases free with free | done
    · cases free
    · cases h.2.symm.trans done
  | done job | unlocked job => exact Same.grows h grows
  | none | waiting | locked | gone => trivial

end Runner

namespace Watcher

def holds : Watcher → Bool
  | .settling _ | .settled | .record true | .recording true _ | .closing => true
  | _ => false

def Ok (file : Rec) : Watcher → Prop
  | .settling _ => file.finished = false
  | .settled | .record _ => file.finished = true
  | .recording _ cur => Same cur file
  | _ => True

theorem Ok.write {file file' : Rec} {s : Watcher} (h : s.Ok file) (grows : Grows file file')
    (free : s.holds = false ∨ file.finished = true) : s.Ok file' := by
  cases s with
  | settling job =>
    rcases free with free | done
    · cases free
    · cases Eq.trans (Eq.symm h) done
  | settled | record held => exact (grows h).1
  | recording held cur => exact Same.grows h grows
  | gone | watching | seen | closing => trivial

end Watcher

structure Inv (w : World) : Prop where
  panel : w.panel.Ok w.file
  runner : w.runner.Ok w.file
  watchers : ∀ i, (w.watchers i).Ok w.file
  panelLock : w.panel.holds = true ↔ w.lock = some .panel
  runnerLock : w.runner.holds = true ↔ w.lock = some .runner
  watcherLock : ∀ i, (w.watchers i).holds = true ↔ w.lock = some (.watcher i)
  /-- As long as the panel is at it there is no runner. -/
  unstarted : w.panel ≠ .gone → w.runner = .none

namespace Inv
variable {w : World} {p : Party} {lock : Option Party} {s s' : Panel} {t : World} {act : Act}

theorem free_of_other {q : Party} {holds : Bool} (mine : holds = true ↔ w.lock = some q)
    (lock : w.lock = some p) (other : p ≠ q) : holds = false := by
  rw [Bool.eq_false_iff]
  intro held
  cases lock.symm.trans (mine.mp held)
  exact other rfl

/-- The lock is taken, given back or left alone. -/
def Turns (p : Party) (lock lock' : Option Party) : Prop :=
  lock' = lock ∨ lock = none ∧ lock' = some p ∨ lock = some p ∧ lock' = none

theorem Turns.other {q : Party} {lock' : Option Party} (h : Turns p lock lock')
    (ne : q ≠ p) : lock' = some q ↔ lock = some q := by
  rcases h with rfl | ⟨rfl, rfl⟩ | ⟨rfl, rfl⟩
  · rfl
  · simpa using ne.symm
  · simpa using ne.symm

/-- A write: by the holder of the lock, or one that repeats the result there is. -/
def Writes (w : World) (p : Party) (file : Rec) : Prop :=
  Grows w.file file ∧ (file = w.file ∨ w.lock = some p ∨ w.file.finished = true)

theorem Writes.none (w : World) (p : Party) : Writes w p w.file := ⟨.refl _, .inl rfl⟩

variable {file : Rec}

theorem Writes.holder (lock : w.lock = some p)
    (unfinished : w.file.finished = false) : Writes w p file :=
  ⟨fun done => absurd done (by simp [unfinished]), .inr (.inl lock)⟩

theorem Writes.same (same : Same file w.file) : Writes w p file :=
  ⟨fun _ => ⟨same.1, same.2.2⟩, .inr (.inr same.2.1)⟩

theorem Writes.ok {q : Party} {P : Rec → Prop} {holds : Bool} (writes : Writes w p file)
    (mine : holds = true ↔ w.lock = some q) (other : p ≠ q) (ok : P w.file)
    (write : Grows w.file file → holds = false ∨ w.file.finished = true → P file) : P file := by
  rcases writes.2 with rfl | lock | done
  · exact ok
  · exact write writes.1 (.inl (free_of_other mine lock other))
  · exact write writes.1 (.inr done)

section
variable (h : Inv w)
include h

theorem panel_write (other : p ≠ .panel) (writes : Writes w p file) : w.panel.Ok file :=
  writes.ok (P := (Panel.Ok · _)) h.panelLock other h.panel h.panel.write

theorem runner_write (other : p ≠ .runner) (writes : Writes w p file) : w.runner.Ok file :=
  writes.ok (P := (Runner.Ok · _)) h.runnerLock other h.runner h.runner.write

theorem watcher_write {i : Nat} (other : p ≠ .watcher i)
    (writes : Writes w p file) : (w.watchers i).Ok file :=
  writes.ok (P := (Watcher.Ok · _)) (h.watcherLock i) other (h.watchers i) (h.watchers i).write

theorem panel_at (here : w.panel = s) : s.Ok w.file ∧ (s.holds = true ↔ w.lock = some .panel) := by
  subst here
  exact ⟨h.panel, h.panelLock⟩

theorem runner_at {s : Runner} (here : w.runner = s) :
    s.Ok w.file ∧ (s.holds = true ↔ w.lock = some .runner) := by
  subst here
  exact ⟨h.runner, h.runnerLock⟩

theorem watcher_at {i : Nat} {s : Watcher} (here : w.watchers i = s) :
    s.Ok w.file ∧ (s.holds = true ↔ w.lock = some (.watcher i)) := by
  subst here
  exact ⟨h.watchers i, h.watcherLock i⟩

/-! ### The panel -/

theorem fromPanel (there : s ≠ .gone → w.panel ≠ .gone)
    (writes : Writes w .panel file) (turns : Turns .panel w.lock lock) (ok : s.Ok file)
    (holds : s.holds = true ↔ lock = some .panel) :
    Inv { w with panel := s, file := file, lock := lock } ∧ Grows w.file file :=
  ⟨{
    panel := ok
    runner := h.runner_write (by simp) writes
    watchers i := h.watcher_write (by simp) writes
    panelLock := holds
    runnerLock := h.runnerLock.trans (turns.other (by simp)).symm
    watcherLock i := (h.watcherLock i).trans (turns.other (by simp)).symm
    unstarted left := h.unstarted (there left) }, writes.1⟩

theorem panelStays (here : w.panel = s) (ok : s'.Ok w.file)
    (holds : s'.holds = s.holds) (there : s ≠ .gone) :
    Inv { w with panel := s' } ∧ Grows w.file w.file :=
  h.fromPanel (fun _ => here ▸ there) (.none w _) (.inl rfl) ok (holds ▸ (h.panel_at here).2)

theorem panelSaves (here : w.panel = s)
    (ok : s'.Ok file) (unfinished : w.file.finished = false) (holds : s.holds = true)
    (holds' : s'.holds = true) : Inv { w with panel := s', file := file } ∧ Grows w.file file := by
  have lock : w.lock = some .panel := (h.panel_at here).2.mp holds
  refine h.fromPanel (fun _ gone => ?_) (.holder lock unfinished) (.inl rfl) ok
    (by simp [holds', lock])
  rw [← here, gone] at holds
  cases holds

theorem panelUnlocks (here : w.panel = s) (ok : s'.Ok w.file)
    (holds : s.holds = true) (holds' : s'.holds = false) :
    Inv { w with panel := s', lock := none } ∧ Grows w.file w.file := by
  have lock : w.lock = some .panel := (h.panel_at here).2.mp holds
  refine h.fromPanel (fun _ gone => ?_) (.none w _) (.inr (.inr ⟨lock, rfl⟩)) ok (by simp [holds'])
  rw [← here, gone] at holds
  cases holds

theorem startRunner {job : Rec} {ran reported : Bool}
    (here : w.panel = .starting job) (orderly : reported = true → ran = false ∧ w.kind = .update) :
    Inv { w with
      runner := if ran then .waiting else w.runner
      panel := if reported then startFailed w.kind job else .gone } := by
  obtain ⟨mine, lock⟩ := h.panel_at here
  have none : w.runner = .none := h.unstarted (by simp [here])
  have free := (h.runner_at none).2
  cases reported with
  | true =>
    obtain ⟨rfl, kind⟩ := orderly rfl
    have refused : startFailed w.kind job = .refused job := by rw [kind]; rfl
    rw [if_pos rfl, refused]
    obtain ⟨inv, -⟩ : Inv { w with panel := .refused job } ∧ Grows w.file w.file :=
      h.panelStays here mine rfl (by simp)
    exact inv
  | false =>
    obtain ⟨ended, -⟩ : Inv { w with panel := .gone } ∧ Grows w.file w.file :=
      h.panelStays here trivial rfl (by simp)
    cases ran with
    | false => exact ended
    | true => exact { ended with runner := trivial, runnerLock := free, unstarted := by simp }

theorem panelStep (ordered : orderly w (.panel act) = true)
    (ht : w.panelStep act = some t) : Inv t ∧ Grows w.file t.file := by
  unfold World.panelStep at ht
  split at ht
  -- the steps before the handover
  next job here =>
    cases ht
    obtain ⟨⟨mine, unfinished⟩, lock⟩ := h.panel_at here
    have ok : w.panel.Ok job := by
      rw [here]
      exact ⟨mine, mine⟩
    exact h.panelSaves here ok unfinished rfl (h.panelLock.mpr (lock.mp rfl))
  next job here =>
    cases ht
    exact h.panelSaves here rfl (h.panel_at here).1.2 rfl rfl
  next job here =>
    cases ht
    exact h.panelSaves here rfl (h.panel_at here).1.2 rfl rfl
  next here =>
    cases ht
    exact h.panelUnlocks here (h.panel_at here).1 rfl rfl
  next job here =>
    cases ht
    exact h.panelUnlocks here (h.panel_at here).1 rfl rfl
  -- the start
  next job ran reported here =>
    cases ht
    refine ⟨h.startRunner here fun failed => ?_, .refl _⟩
    simpa [orderly, failed] using ordered
  next job here =>
    obtain ⟨free, rfl⟩ := of_guard ht
    have unfinished : w.file.finished = false := by simpa [orderly] using ordered
    exact h.fromPanel (by simp [here]) (.none w _) (.inr (.inl ⟨free, rfl⟩))
      ⟨(h.panel_at here).1, unfinished⟩ (by simp [Panel.holds])
  · cases ordered
  next job here =>
    cases ht
    obtain ⟨⟨mine, unfinished⟩, lock⟩ := h.panel_at here
    have ok : w.panel.Ok job := by
      rw [here]
      exact ⟨mine, mine⟩
    exact h.panelSaves here ok unfinished rfl (h.panelLock.mpr (lock.mp rfl))
  next job here =>
    cases ht
    exact h.panelSaves here rfl (h.panel_at here).1.2 rfl rfl
  next here => exact (h.panel_at here).1.elim
  next here => exact (h.panel_at here).1.elim
  -- the end
  next here =>
    cases ht
    exact h.panelStays here (h.panel_at here).1 rfl (by simp)
  next here =>
    cases ht
    have done := (h.panel_at here).1
    exact h.panelStays here ⟨done, done, rfl⟩ rfl (by simp)
  next here =>
    cases ht
    exact h.panelStays here trivial rfl (by simp)
  next cur here =>
    cases ht
    obtain ⟨same, lock⟩ := h.panel_at here
    exact h.fromPanel (by simp) (.same same) (.inl rfl) trivial lock
  · cases ht

/-! ### The runner -/

variable {s s' : Runner}

theorem fromRunner (there : w.runner ≠ .none)
    (writes : Writes w .runner file) (turns : Turns .runner w.lock lock) (ok : s.Ok file)
    (holds : s.holds = true ↔ lock = some .runner) :
    Inv { w with runner := s, file := file, lock := lock } ∧ Grows w.file file :=
  ⟨{
    panel := h.panel_write (by simp) writes
    runner := ok
    watchers i := h.watcher_write (by simp) writes
    panelLock := h.panelLock.trans (turns.other (by simp)).symm
    runnerLock := holds
    watcherLock i := (h.watcherLock i).trans (turns.other (by simp)).symm
    unstarted left := absurd (h.unstarted left) there }, writes.1⟩

theorem runnerStays (here : w.runner = s) (ok : s'.Ok w.file)
    (holds : s'.holds = s.holds) (there : s ≠ .none) :
    Inv { w with runner := s' } ∧ Grows w.file w.file :=
  h.fromRunner (here ▸ there) (.none w _) (.inl rfl) ok (holds ▸ (h.runner_at here).2)

theorem runnerUnlocks (here : w.runner = s) (ok : s'.Ok w.file)
    (holds : s.holds = true) (holds' : s'.holds = false) :
    Inv { w with runner := s', lock := none } ∧ Grows w.file w.file := by
  have lock : w.lock = some .runner := (h.runner_at here).2.mp holds
  refine h.fromRunner (fun none => ?_) (.none w _) (.inr (.inr ⟨lock, rfl⟩)) ok (by simp [holds'])
  rw [← here, none] at holds
  cases holds

theorem runnerRepeats {job : Rec} (here : w.runner = s)
    (same : Same job w.file) (ok : s.Ok job) (there : s ≠ .none) :
    Inv { w with file := job } ∧ Grows w.file job := by
  have moved := h.fromRunner (here ▸ there) (.same same) (.inl rfl) ok (h.runner_at here).2
  rwa [← here] at moved

/-- A step of the runner keeps the invariant and a finished job's result. -/
theorem runnerStep (ht : w.runnerStep act = some t) : Inv t ∧ Grows w.file t.file := by
  unfold World.runnerStep at ht
  split at ht
  next here =>
    obtain ⟨free, rfl⟩ := of_guard ht
    exact h.fromRunner (by simp [here]) (.none w _) (.inr (.inl ⟨free, rfl⟩)) trivial
      (by simp [Runner.holds])
  next here =>
    cases ht
    exact h.runnerStays here trivial rfl (by simp)
  next here =>
    split at ht
    next phase =>
      cases ht
      have unfinished : w.file.finished = false := by simp [Rec.finished, phase]
      exact h.runnerStays here ⟨unfinished, unfinished⟩ rfl (by simp)
    · cases ht
      exact h.runnerUnlocks here trivial rfl rfl
  next here =>
    cases ht
    exact h.runnerUnlocks here trivial rfl rfl
  next job here =>
    cases ht
    obtain ⟨⟨mine, unfinished⟩, lock⟩ := h.runner_at here
    have ok : (Runner.working job).Ok job := ⟨mine, mine⟩
    have moved :=
      h.fromRunner (by simp [here]) (.holder (lock.mp rfl) unfinished) (.inl rfl) ok lock
    rwa [← here] at moved
  · cases ht
    exact ⟨h, .refl _⟩
  · cases ht
    exact ⟨h, .refl _⟩
  next job result here =>
    cases ht
    obtain ⟨⟨-, unfinished⟩, lock⟩ := h.runner_at here
    exact h.fromRunner (by simp [here]) (.holder (lock.mp rfl) unfinished) (.inl rfl)
      ⟨rfl, rfl, rfl⟩ lock
  next job here =>
    cases ht
    have same := (h.runner_at here).1
    exact h.runnerRepeats here same ⟨same.1, same.1, rfl⟩ (by simp)
  · cases ht
    exact ⟨h, .refl _⟩
  next job here =>
    cases ht
    exact h.runnerUnlocks here (h.runner_at here).1 rfl rfl
  next job here =>
    cases ht
    have same := (h.runner_at here).1
    exact h.runnerRepeats here same ⟨same.1, same.1, rfl⟩ (by simp)
  next here =>
    cases ht
    exact h.runnerStays here trivial rfl (by simp)
  · cases ht

end

/-! ### The watchers -/

variable {i : Nat}

theorem fromWatcher (h : Inv w) {s : Watcher}
    (writes : Writes w (.watcher i) file) (turns : Turns (.watcher i) w.lock lock)
    (ok : s.Ok file) (holds : s.holds = true ↔ lock = some (.watcher i)) :
    Inv { w.setWatcher i s with file := file, lock := lock } ∧ Grows w.file file :=
  ⟨{
    panel := h.panel_write (by simp) writes
    runner := h.runner_write (by simp) writes
    watchers k := by
      dsimp only [World.setWatcher]
      split
      · exact ok
      next other => exact h.watcher_write (by simpa using Ne.symm other) writes
    panelLock := h.panelLock.trans (turns.other (by simp)).symm
    runnerLock := h.runnerLock.trans (turns.other (by simp)).symm
    watcherLock k := by
      dsimp only [World.setWatcher]
      split
      next same =>
        rw [same]
        exact holds
      next other => exact (h.watcherLock k).trans (turns.other (by simpa using other)).symm
    unstarted := h.unstarted }, writes.1⟩

theorem watcherStays (h : Inv w) {s s' : Watcher} (here : w.watchers i = s) (ok : s'.Ok w.file)
    (holds : s'.holds = s.holds) : Inv (w.setWatcher i s') ∧ Grows w.file w.file :=
  h.fromWatcher (.none w _) (.inl rfl) ok (holds ▸ (h.watcher_at here).2)

theorem watcherStep (h : Inv w) (ordered : orderly w (.watcher i act) = true)
    (ht : w.watcherStep i act = some t) : Inv t ∧ Grows w.file t.file := by
  unfold World.watcherStep at ht
  split at ht
  next here =>
    cases ht
    split
    next done => exact h.watcherStays here done rfl
    · exact h.watcherStays here trivial rfl
  next here =>
    cases ht
    exact h.watcherStays here trivial rfl
  next here =>
    cases ht
    exact h.watcherStays here trivial rfl
  next job here =>
    obtain ⟨free, rfl⟩ := of_guard ht
    have unfinished : w.file.finished = false := by simpa [orderly] using ordered
    exact h.fromWatcher (.none w _) (.inr (.inl ⟨free, rfl⟩)) unfinished (by simp [holds])
  · cases ht
    exact ⟨h, .refl _⟩
  next job result here =>
    cases ht
    obtain ⟨unfinished, lock⟩ := h.watcher_at here
    exact h.fromWatcher (.holder (lock.mp rfl) unfinished) (.inl rfl) rfl lock
  next here =>
    cases ht
    exact h.watcherStays here (h.watcher_at here).1 rfl
  next held here =>
    cases ht
    have done := (h.watcher_at here).1
    exact h.watcherStays here ⟨done, done, rfl⟩ (by cases held <;> rfl)
  next held here =>
    cases ht
    cases held <;> exact h.watcherStays here trivial rfl
  next held cur here =>
    cases ht
    obtain ⟨same, lock⟩ := h.watcher_at here
    cases held <;> exact h.fromWatcher (.same same) (.inl rfl) trivial lock
  next here =>
    cases ht
    have lock := (h.watcher_at here).2.mp rfl
    exact h.fromWatcher (.none w _) (.inr (.inr ⟨lock, rfl⟩)) trivial (by simp [holds])
  · cases ht

/-! ### Deaths and whole runs -/

theorem freed_turns (w : World) (p : Party) : Turns p w.lock (w.freed p) := by
  unfold World.freed
  split
  next held => exact .inr (.inr ⟨held, rfl⟩)
  · exact .inl rfl

theorem freed_ne (w : World) (p : Party) : w.freed p ≠ some p := by
  unfold World.freed
  split
  · simp
  next other => exact other

theorem die (h : Inv w) (ht : w.die p = some t) : Inv t ∧ Grows w.file t.file := by
  cases p with
  | panel =>
    cases ht
    exact h.fromPanel (by simp) (.none w _) (freed_turns ..) trivial
      (by simp [Panel.holds, freed_ne])
  | runner =>
    obtain ⟨there, rfl⟩ := of_unless ht
    exact h.fromRunner there (.none w _) (freed_turns ..) trivial (by simp [Runner.holds, freed_ne])
  | watcher i =>
    cases ht
    exact h.fromWatcher (.none w _) (freed_turns ..) trivial (by simp [holds, freed_ne])

/-- So does every step in order. -/
theorem step (h : Inv w) {l : Label} (ordered : orderly w l = true)
    (ht : step w l = some t) : Inv t ∧ Grows w.file t.file := by
  cases l with
  | panel act => exact h.panelStep ordered ht
  | runner act => exact h.runnerStep ht
  | watcher i act => exact h.watcherStep ordered ht
  | die p => exact h.die ht
  | watch i =>
    obtain ⟨here, rfl⟩ := of_guard ht
    exact h.watcherStays here trivial rfl

theorem begin (kind : JobKind) : Inv (begin kind) := by
  cases kind with
  | update =>
    exact ⟨⟨rfl, rfl⟩, trivial, fun _ => trivial, by simp [Owner.begin, Panel.holds],
      by simp [Owner.begin, Runner.holds], by simp [Owner.begin, holds], fun _ => rfl⟩
  | rollback =>
    exact ⟨rfl, trivial, fun _ => trivial, by simp [Owner.begin, Panel.holds],
      by simp [Owner.begin, Runner.holds], by simp [Owner.begin, holds], fun _ => rfl⟩

theorem touches (h : Inv w) {l : Label} (ht : Owner.step w l = some t)
    (touches : l.touches = true) : w.lock ≠ some .runner := by
  intro lock
  have running := h.runnerLock.mpr lock
  cases l with
  | panel act =>
    cases act with
    | cleanup =>
      have here : w.panel ≠ .gone := by
        intro gone
        simp [Owner.step, World.panelStep, gone] at ht
      rw [h.unstarted here] at running
      cases running
    | _ => cases touches
  | watcher i act =>
    have free := free_of_other (h.watcherLock i) lock (by simp)
    cases act with
    | putBack | cleanup =>
      dsimp only [Owner.step, World.watcherStep] at ht
      split at ht <;> simp_all [holds]
    | _ => cases touches
  | _ => cases touches

end Inv

/-- **A job has one owner at a time.** In every orderly run of the parties, whoever dies, a result
the file has once stays, and nobody but the runner puts files back or removes the staging folder
while a runner holds the lock. -/
theorem one_owner (kind : JobKind) {ls ls' : List Label} {w t : World}
    (along : Runs.Along step (fun w l => orderly w l = true) (begin kind) (ls ++ ls'))
    (before : Runs.run step (begin kind) ls = some w) (after : Runs.run step w ls' = some t) :
    (w.file.finished = true → t.file.finished = true ∧ t.file.result = w.file.result) ∧
      ∀ l u, step t l = some u → l.touches = true → t.lock ≠ some .runner := by
  obtain ⟨first, rest⟩ := along_append.mp along
  have inv : Inv w := run_inv_along (fun _ _ _ h ordered ht => (h.step ordered ht).1)
    (Inv.begin kind) first before
  have kept : ∀ s l s', Inv s ∧ Grows w.file s.file → orderly s l = true → step s l = some s' →
      Inv s' ∧ Grows w.file s'.file := fun _ _ _ h ordered ht =>
    ⟨(h.1.step ordered ht).1, h.2.trans (h.1.step ordered ht).2⟩
  obtain ⟨inv, grows⟩ := run_inv_along kept ⟨inv, .refl _⟩ (rest w before) after
  exact ⟨grows, fun _ _ ht touches => inv.touches ht touches⟩

/-- An update up to the point where its runner works and a watcher has read the job. -/
def underWay : List Label :=
  [.panel .handOver, .panel .unlock, .panel (.startRunner true false), .runner .lock,
    .runner .load, .watch 0, .watcher 0 .load]

def rolledBack : List Label :=
  underWay ++
    [Label.runner .putBack, .runner .cleanup, .runner (.finish .rolledBack), .runner .unlock]

/-- The watcher looks again, and the result stays. -/
theorem one_owner_rolledBack : ∃ w t, Runs.run step (begin .update) rolledBack = some w ∧
    Runs.run step w [.watcher 0 .wait, .watcher 0 .load, .watcher 0 .load, .watcher 0 .record] =
      some t ∧
    w.file.finished = true ∧ t.file.finished = true ∧ t.file.result = w.file.result := by
  have ran : (runChecked step orderly (begin .update) (rolledBack ++
      [.watcher 0 .wait, .watcher 0 .load, .watcher 0 .load, .watcher 0 .record])).isSome = true ∧
      ((run step (begin .update) rolledBack).map (·.file.finished)) = some true := by
    decide
  obtain ⟨t, checked⟩ := Option.isSome_iff_exists.mp ran.1
  obtain ⟨whole, along⟩ := of_runChecked checked
  obtain ⟨w, before, after⟩ := run_append.mp whole
  obtain ⟨w', same, finished⟩ := Option.map_eq_some_iff.mp ran.2
  cases before.symm.trans same
  exact ⟨w, t, before, after, finished, (one_owner .update along before after).1 finished⟩

/-- The watcher goes on with the job it read before: it settles what was settled, and the result is
another. -/
theorem result_overwritten :
    (Runs.run step (begin .update) rolledBack).map (fun w => (w.file.phase, w.file.result)) =
      some (.done, some .rolledBack) ∧
    (Runs.run step (begin .update) (rolledBack ++
      [.watcher 0 .lock, .watcher 0 (.finish .failed)])).map
      (fun w => (w.file.phase, w.file.result)) = some (.done, some .failed) := by
  decide

/-- A start reports an error though the runner runs: the panel removes the staging folder under the
runner that holds the lock. -/
example :
    (Runs.run step (begin .update) [.panel .handOver, .panel .unlock,
      .panel (.startRunner true true), .runner .lock, .runner .load, .panel .busy]).map
      (fun w => (w.lock, (step w (.panel .cleanup)).isSome)) = some (some .runner, true) := by
  decide

end NasnetPanel.Update.Owner
