import NasnetPanel.Network.Deadman

/-!
# Network.DeadmanBudget — how long the timer keeps trying

After a plan's deadline the timer restores its snapshot every ten seconds. A restore or a reload
that fails counts an attempt in the marker and removes the marker with the last one, after which
the next apply is accepted.

A snapshot that cannot be loaded is not counted: `rollbackPlan` returns before `restoreFailed`. Nor
is an attempt whose record cannot be written. So the bound holds exactly where the snapshot file
loads and the marker file works (`retries_bounded_iff`), and without a snapshot the marker stays for
ever and every apply is refused (`missing_snapshot_never_gives_up`).
-/

namespace NasnetPanel.Deadman
open CrashProg

variable {Net : Type}

/-! ## Timer runs -/

/-- Which calls on the dead-man's own files may fail. -/
structure FileFaults where
  readMarker : Bool := false
  writeMarker : Bool := false
  deleteMarker : Bool := false
  loadSnapshot : Bool := false

/-- What the timer meets once the deadline has passed. The restore, the reload and the records may
fail in any way, the marker and the snapshot file as `may` says. That a snapshot is missing or
garbled is a state of its file. -/
def AfterDeadline (may : FileFaults) (deadline : Int) : Call Net → Answer Net → Prop
  | .readMarker, ans => ans.fault = none ∨ may.readMarker = true
  | .writeMarker _, ans => ans.fault = none ∨ may.writeMarker = true
  | .deleteMarker _, ans => ans.fault = none ∨ may.deleteMarker = true
  | .loadSnapshot _, ans => ans.fault = none ∨ may.loadSnapshot = true
  | .now, ans => deadline ≤ ans.clock
  | _, _ => True

/-- `n` timer runs that got the lock, one after the other. -/
inductive TimerRuns (a : Applier) (may : FileFaults) (deadline : Int) :
    Nat → World Net → World Net → Prop where
  | none (w : World Net) : TimerRuns a may deadline 0 w w
  | more {n : Nat} {u v w : World Net} {r : Except String Bool}
      (before : TimerRuns a may deadline n u v)
      (ends : Ends exec (AfterDeadline may deadline) (rollbackPlan a true 0) v r w) :
      TimerRuns a may deadline (n + 1) u w

/-- The files let every failure be counted: the marker can be read and removed, the snapshot loads,
and an attempt that is not the last can be written. -/
structure Counting (may : FileFaults) (w : World Net) (m : Marker) : Prop where
  reads : may.readMarker = false
  removes : may.deleteMarker = false
  opens : may.loadSnapshot = false
  loads : ∃ snap, (w.snaps m.snapshot).load = .ok snap
  writes : may.writeMarker = true → maxRollbackAttempts ≤ m.attempts + 1

def Faultless (_ : Call Net) (ans : Answer Net) : Prop := ans.fault = none

/-- A new apply is accepted: it can run, and where nothing fails it succeeds. -/
def Accepts (a : Applier) (w : World Net) : Prop :=
  ∀ p t, (∃ r w', Ends exec Faultless (apply a p t) w r w') ∧
    ∀ r w', Ends exec Faultless (apply a p t) w r w' → ∃ record, r = .ok record

/-! ## Apply with nothing armed -/

theorem never {c : Call Net} {e : String} {P : Prop} (fails : CanFail Faultless c e) : P :=
  fails.elim fun _ ok => ok

theorem faultless_runOps {id : Nat} {ops : List Op} {w : World Net} :
    Safe exec (fun _ _ => True) Faultless (fun r _ => r = .ok ()) (runOps id ops) w := by
  induction ops generalizing w with
  | nil => rfl
  | cons op rest ih => exact safe_runOp trivial (fun _ _ f => never f) fun _ => ih

theorem faultless_apply {a : Applier} {p : Plan} {t : Bool} {w : World Net}
    (disarmed : w.marker = none) :
    Safe exec (fun _ _ => True) Faultless (fun r _ => ∃ record, r = .ok record)
      (apply a p t) w := by
  refine safe_readMarker trivial (fun _ f => never f) ?_
  rw [disarmed]
  refine safe_createRecord trivial (fun _ f => never f) ?_
  refine safe_capture trivial (fun _ f => never f) ?_
  refine safe_saveSnapshot trivial (fun _ f => never f) ?_
  refine safe_now trivial fun ans _ => ?_
  refine safe_writeMarker trivial (fun _ f => never f) ?_
  refine safe_bind.mpr (safe_mono (fun r w' ran => ?_) faultless_runOps)
  subst ran
  refine safe_reloadIf trivial (fun _ _ f => never f) fun net => ?_
  refine safe_now trivial fun ans _ => ?_
  refine safe_writeMarker trivial (fun _ f => never f) ?_
  exact safe_setPhase trivial (fun _ f => never f) ⟨_, rfl⟩

theorem accepts_of_disarmed {a : Applier} {w : World Net} (disarmed : w.marker = none) :
    Accepts a w := by
  have answered : ∀ c : Call Net, ∃ ans, Faultless c ans := fun _ => ⟨⟨none, 0, w.net⟩, rfl⟩
  exact fun p t => ⟨ends_total exec answered _ _,
    fun r w' ends => post_of_ends (faultless_apply disarmed) ends⟩

/-! ## A timer run that counts -/

/-- After `n` runs: disarmed, or armed over the same snapshot with `n` attempts counted, and fewer
than the budget once one was. -/
def Counted (m : Marker) (snaps : String → SnapFile Net) (n : Nat) (w : World Net) : Prop :=
  w.marker = none ∨
    ∃ k, w.marker = some k ∧ k.deadlineUnix = m.deadlineUnix ∧ k.snapshot = m.snapshot ∧
      w.snaps = snaps ∧ m.attempts ≤ k.attempts ∧ n ≤ k.attempts ∧
      (0 < n → k.attempts < maxRollbackAttempts)

variable {may : FileFaults} {a : Applier} {m k : Marker} {w : World Net}

theorem CanFail.never {c : Call Net} {e : String} {P : Prop} {deadline : Int} {b : Bool}
    (fails : CanFail (AfterDeadline may deadline) c e) (off : b = false)
    (only : ∀ ans : Answer Net, AfterDeadline may deadline c ans → ans.fault = none ∨ b = true) :
    P :=
  fails.elim fun ans ok => (only ans ok).resolve_right (by simp [off])

section Counts
variable {snaps : String → SnapFile Net} {n : Nat} {snap : Snapshot Net}

/-- From here on, a timer run after the deadline ends with the next attempt counted. -/
abbrev Counts {α : Type} (may : FileFaults) (m : Marker) (snaps : String → SnapFile Net) (n : Nat)
    (p : Eff Net α) (w : World Net) : Prop :=
  Safe exec (fun _ _ => True) (AfterDeadline may m.deadlineUnix)
    (fun _ => Counted m snaps (n + 1)) p w

theorem counts_restoreFailed {cause : String} (removes : may.deleteMarker = false)
    (writes : may.writeMarker = true → maxRollbackAttempts ≤ m.attempts + 1)
    (deadline : k.deadlineUnix = m.deadlineUnix) (path : k.snapshot = m.snapshot)
    (same : w.snaps = snaps) (since : m.attempts ≤ k.attempts) (counted : n ≤ k.attempts) :
    Counts may m snaps n (restoreFailed k cause) w := by
  rw [restoreFailed]
  split
  next left =>
    have off : may.writeMarker = false := by
      refine Bool.eq_false_iff.mpr fun on => ?_
      exact absurd left (Nat.not_lt.mpr (Nat.le_trans (writes on) (Nat.succ_le_succ since)))
    refine safe_writeMarker trivial (fun _ fails => fails.never off fun _ ok => ok) ?_
    exact .inr ⟨_, rfl, deadline, path, same, Nat.le_succ_of_le since, Nat.succ_le_succ counted,
      fun _ => left⟩
  · refine safe_deleteMarker trivial (fun _ fails => fails.never removes fun _ ok => ok) ?_
    exact safe_setPhase trivial (fun _ _ => .inl rfl) (.inl rfl)

theorem counts_recordRollback (removes : may.deleteMarker = false) :
    Counts may m snaps n (recordRollback k) w := by
  refine safe_deleteMarker trivial (fun _ fails => fails.never removes fun _ ok => ok) ?_
  refine safe_setPhase trivial (fun _ _ => .inl rfl) ?_
  exact safe_onRollback trivial (.inl rfl)

/-- **A timer run counts.** Where the files let it, every way the rest can fail counts an attempt,
and the last one disarms. -/
theorem counts_rollbackPlan {u : World Net} (files : Counting may u m)
    (h : Counted m u.snaps n w) : Counts may m u.snaps n (rollbackPlan a true 0) w := by
  obtain ⟨reads, removes, opens, ⟨snap, loads⟩, writes⟩ := files
  rcases h with disarmed | ⟨k, armed, deadline, path, kept, since, counted, -⟩
  · refine safe_readMarker trivial (fun _ fails => fails.never reads fun _ ok => ok) ?_
    rw [disarmed]
    exact .inl disarmed
  refine safe_readMarker trivial (fun _ fails => fails.never reads fun _ ok => ok) ?_
  rw [armed]
  refine safe_now trivial fun ans late => ?_
  have expired : k.expired ans.clock = true := by
    rw [Marker.expired, deadline]
    exact decide_eq_true late
  rw [if_pos expired]
  refine safe_loadSnapshot trivial (fun _ fails => fails.never opens fun _ ok => ok) ?_
  rw [kept, path, loads]
  have failed : ∀ {v : World Net} {cause : String}, v.snaps = u.snaps →
      Counts may m u.snaps n (restoreFailed k cause) v :=
    fun kept => counts_restoreFailed removes writes deadline path kept since counted
  refine safe_restore trivial (fun e net => ?_) ?_
  · exact failed kept
  · exact safe_reloadIf trivial (fun _ _ _ => failed kept) fun _ => counts_recordRollback removes

/-- Any number of timer runs, each counted. -/
theorem counted_of_timerRuns {w' : World Net} (hm : w.marker = some m) (files : Counting may w m)
    (runs : TimerRuns a may m.deadlineUnix n w w') : Counted m w.snaps n w' := by
  induction runs with
  | none =>
    exact .inr ⟨m, hm, rfl, rfl, rfl, Nat.le_refl _, Nat.zero_le _,
      fun h => absurd h (Nat.lt_irrefl 0)⟩
  | @more n u v w r before ends ih =>
    have counts : Counts may m u.snaps n (rollbackPlan a true 0) v :=
      counts_rollbackPlan files (ih hm files)
    exact (post_of_ends counts ends :)

end Counts

/-! ## A timer run that does not -/

/-- Armed as before, over the same snapshots. -/
def Stuck (m : Marker) (snaps : String → SnapFile Net) (w : World Net) : Prop :=
  w.marker = some m ∧ w.snaps = snaps

/-- A timer run may leave the marker and the snapshots as they were. -/
def MayStick (a : Applier) (may : FileFaults) (m : Marker) (snaps : String → SnapFile Net) : Prop :=
  ∀ w, Stuck m snaps w → ∃ r w', Stuck m snaps w' ∧
    Ends exec (AfterDeadline may m.deadlineUnix) (rollbackPlan a true 0) w r w'

section Stuck
variable {snaps : String → SnapFile Net} {r : Except String Bool} {w' : World Net}

/-- The rule of a call that finds the marker. -/
theorem ends_readMarker {t : Int} {k : Except String (Option Marker) → Eff Net (Except String Bool)}
    (armed : w.marker = some m) (rest : Ends exec (AfterDeadline may t) (k (.ok (some m))) w r w') :
    Ends exec (AfterDeadline may t) (readMarker >>= k) w r w' := by
  refine ⟨⟨none, 0, w.net⟩, .inl rfl, ?_⟩
  change Ends exec _ (k (.ok w.marker)) w r w'
  rw [armed]
  exact rest

/-- The rule of a call that reads the snapshot file as it is. -/
theorem ends_loadSnapshot {t : Int} {path : String} {loaded : Except String (Snapshot Net)}
    {k : Except String (Snapshot Net) → Eff Net (Except String Bool)}
    (loads : (w.snaps path).load = loaded)
    (rest : Ends exec (AfterDeadline may t) (k loaded) w r w') :
    Ends exec (AfterDeadline may t) (loadSnapshot path >>= k) w r w' := by
  refine ⟨⟨none, 0, w.net⟩, .inl rfl, ?_⟩
  change Ends exec _ (k (w.snaps path).load) w r w'
  rw [loads]
  exact rest

/-- The run reads the marker and the clock, and goes on to restore. -/
theorem ends_timerRun (armed : w.marker = some m)
    (restores : Ends exec (AfterDeadline may m.deadlineUnix) (restoreMarked a m) w r w') :
    Ends exec (AfterDeadline may m.deadlineUnix) (rollbackPlan a true 0) w r w' := by
  refine ends_readMarker armed ⟨⟨none, m.deadlineUnix, w.net⟩, Int.le_refl _, ?_⟩
  have expired : m.expired m.deadlineUnix = true := decide_eq_true (Int.le_refl _)
  change Ends exec _ (if m.expired m.deadlineUnix then restoreMarked a m else _) w r w'
  rw [if_pos expired]
  exact restores

theorem mayStick_of_unreadable (fails : may.readMarker = true) : MayStick a may m snaps :=
  fun w stuck => ⟨_, w, stuck, ⟨some "", 0, w.net⟩, .inr fails, rfl, rfl⟩

theorem mayStick_of_unopened (fails : may.loadSnapshot = true) : MayStick a may m snaps :=
  fun w stuck => ⟨_, w, stuck, ends_timerRun stuck.1 ⟨⟨some "", 0, w.net⟩, .inr fails, rfl, rfl⟩⟩

theorem mayStick_of_unloadable {e : String} (fails : (snaps m.snapshot).load = .error e) :
    MayStick a may m snaps := by
  rintro w ⟨armed, same⟩
  refine ⟨.error ("load snapshot " ++ m.snapshot ++ ": " ++ e), w, ⟨armed, same⟩, ?_⟩
  rw [← same] at fails
  exact ends_timerRun armed (ends_loadSnapshot fails ⟨rfl, rfl⟩)

/-- The restore fails, and so does the record of the attempt. -/
theorem mayStick_of_unwritten {snap : Snapshot Net} (loads : (snaps m.snapshot).load = .ok snap)
    (fails : may.writeMarker = true) (left : m.attempts + 1 < maxRollbackAttempts) :
    MayStick a may m snaps := by
  rintro w ⟨armed, same⟩
  rw [← same] at loads
  refine ⟨.error "restore:  (recording the attempt also failed: )",
    w.putBackFailed m.planID w.net, ⟨armed, same⟩, ends_timerRun armed
    (ends_loadSnapshot loads ⟨⟨some "", 0, w.net⟩, trivial, ?_⟩)⟩
  change Ends exec _ (restoreFailed m "") (w.putBackFailed m.planID w.net) _ _
  rw [restoreFailed, if_pos left]
  exact ⟨⟨some "", 0, w.net⟩, .inr fails, rfl, rfl⟩

/-- The restore succeeds, and the marker stays. -/
theorem mayStick_of_unremoved {snap : Snapshot Net} (loads : (snaps m.snapshot).load = .ok snap)
    (fails : may.deleteMarker = true) : MayStick a may m snaps := by
  rintro w ⟨armed, same⟩
  rw [← same] at loads
  have removal : ∀ v : World Net, Ends exec (AfterDeadline may m.deadlineUnix) (recordRollback m) v
      (.error "") v := fun v => ⟨⟨some "", 0, w.net⟩, .inr fails, rfl, rfl⟩
  refine ⟨.error "", (w.putBack m.planID snap).reloaded snap.net, ⟨armed, same⟩,
    ends_timerRun armed (ends_loadSnapshot loads ⟨⟨none, 0, w.net⟩, trivial, ?_⟩)⟩
  change Ends exec _ (finishRollback a m) (w.putBack m.planID snap) _ _
  rw [finishRollback, reloadIf]
  split
  · exact ⟨⟨none, 0, snap.net⟩, trivial, removal _⟩
  · exact removal _

/-- What sticks once sticks for ever. -/
theorem timerRuns_of_mayStick (sticks : MayStick a may m w.snaps) (hm : w.marker = some m)
    (n : Nat) :
    ∃ w', TimerRuns a may m.deadlineUnix n w w' ∧ Stuck m w.snaps w' := by
  induction n with
  | zero => exact ⟨w, .none w, hm, rfl⟩
  | succ n ih =>
    obtain ⟨v, runs, stuck⟩ := ih
    obtain ⟨r, w', still, ends⟩ := sticks v stuck
    exact ⟨w', .more runs ends, still⟩

/-- Where the files do not let a failure be counted, a timer run may stick. -/
theorem mayStick_of_not_counting (broken : ¬ Counting may w m) : MayStick a may m w.snaps := by
  by_contra moves
  refine broken ⟨?_, ?_, ?_, ?_, ?_⟩
  · exact Bool.eq_false_iff.mpr fun fails => moves (mayStick_of_unreadable fails)
  all_goals cases loads : (w.snaps m.snapshot).load with
    | error e => exact absurd (mayStick_of_unloadable loads) moves
    | ok snap => ?_
  · exact Bool.eq_false_iff.mpr fun fails => moves (mayStick_of_unremoved loads fails)
  · exact Bool.eq_false_iff.mpr fun fails => moves (mayStick_of_unopened fails)
  · exact ⟨snap, rfl⟩
  · exact fun fails => Nat.not_lt.mp fun left => moves (mayStick_of_unwritten loads fails left)

end Stuck

/-! ## All timer runs -/

/-- **The retries are bounded exactly where the files let every failure be counted.** From any
armed world, after the deadline: `maxRollbackAttempts` timer runs that got the lock remove the
marker, and a new apply is then accepted, whatever fails in between, if and only if the marker can
be read and removed, the snapshot loads, and an attempt that is not the last can be written. -/
theorem retries_bounded_iff (a : Applier) (may : FileFaults) (w : World Net) (m : Marker)
    (hm : w.marker = some m) :
    (∀ n w', TimerRuns a may m.deadlineUnix n w w' →
      (maxRollbackAttempts ≤ n → w'.marker = none) ∧ (w'.marker = none → Accepts a w')) ↔
    Counting may w m := by
  constructor
  · intro bounded
    by_contra broken
    obtain ⟨w', runs, stuck, -⟩ :=
      timerRuns_of_mayStick (mayStick_of_not_counting (a := a) broken) hm maxRollbackAttempts
    cases stuck.symm.trans ((bounded _ _ runs).1 (Nat.le_refl _))
  · intro files n w' runs
    refine ⟨fun spent => ?_, accepts_of_disarmed⟩
    rcases counted_of_timerRuns hm files runs with disarmed | ⟨k, -, -, -, -, -, counted, under⟩
    · exact disarmed
    have budget : k.attempts < maxRollbackAttempts :=
      under (Nat.lt_of_lt_of_le (by decide) spent)
    exact absurd (Nat.le_trans spent counted) (Nat.not_le_of_lt budget)

/-- Plan 1, armed until second 90. -/
def armedOnce : Marker :=
  { requestID := "r1", planID := 1, snapshot := "/var/lib/nasnet/snap-1.json", deadlineUnix := 90 }

def armedOver (file : SnapFile Nat) : World Nat :=
  { World.init 5 with marker := some armedOnce, snaps := fun _ => file }

/-- With a whole snapshot the third timer run has removed the marker. -/
theorem retries_bounded_whole :
    (armedOver (.whole ⟨1, 5⟩)).marker = some armedOnce ∧
      ∀ w', TimerRuns ⟨"/var/lib/nasnet", true⟩ {} 90 3 (armedOver (.whole ⟨1, 5⟩)) w' →
        w'.marker = none := by
  refine ⟨rfl, fun w' runs => ?_⟩
  have bounded := (retries_bounded_iff ⟨"/var/lib/nasnet", true⟩ {} (armedOver (.whole ⟨1, 5⟩))
    armedOnce rfl).mpr ⟨rfl, rfl, rfl, ⟨_, rfl⟩, fun on => absurd on Bool.false_ne_true⟩
  exact (bounded 3 w' runs).1 (Nat.le_refl _)

/-- **Without its snapshot file a plan stays armed for ever.** However often the timer runs, with
the marker file working, the marker is there, and an apply with nothing failing is refused. -/
theorem missing_snapshot_never_gives_up :
    (armedOver .missing).marker = some armedOnce ∧
      (∀ n, ∃ w', TimerRuns ⟨"/var/lib/nasnet", true⟩ {} 90 n (armedOver .missing) w' ∧
        w'.marker = some armedOnce) ∧
      ¬ Accepts ⟨"/var/lib/nasnet", true⟩ (armedOver .missing) := by
  refine ⟨rfl, fun n => ?_, fun accepts => ?_⟩
  · have sticks : MayStick ⟨"/var/lib/nasnet", true⟩ {} armedOnce (armedOver .missing).snaps :=
      mayStick_of_unloadable rfl
    obtain ⟨w', runs, stuck, -⟩ := timerRuns_of_mayStick sticks rfl n
    exact ⟨w', runs, stuck⟩
  have refused := (accepts ⟨"r2", []⟩ false).2 _ _ ⟨⟨none, 0, 5⟩, rfl, rfl, rfl⟩
  obtain ⟨record, same⟩ := refused
  cases same

end NasnetPanel.Deadman
