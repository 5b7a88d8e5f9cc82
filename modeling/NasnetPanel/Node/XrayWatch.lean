import Mathlib.Data.List.Induction

/-!
# Node.XrayWatch — what the heartbeat makes of Xray's reports

`handleXrayStatus` of `node/usecase/heartbeat.go` counts Xray's crashes in a session and announces
stops and recoveries. A report brings the time, the settings then in force, and what the database
says of a stop by hand, `none` where it could not be read. Log lines, the settings' cache and what
auto-disable writes to the database are left out.

`lastStableTime` is when Xray was first reported running again, and a stop does not clear it. The
count is reset before the transition is looked at. So a stop that is still on when the stability
period has passed since then resets the count with the report that ends it, and is never announced
as over (`reset_by_a_stop`). **`crash_tracking_faithful`** is what holds at every other report.
-/

namespace NasnetPanel.Node

/-- `xrayMonitorSettings`, with its defaults; times are in seconds. -/
structure XrayMonitorSettings where
  crashLoopThreshold : Int := 3
  crashLoopCooldown : Int := 300
  autoDisableEnabled : Bool := false
  autoDisableMaxFails : Int := 10
  stabilityPeriod : Int := 300

inductive XrayEventType
  | down
  | crashLoop
  | up
deriving DecidableEq

structure XrayEvent where
  type : XrayEventType
  crashCount : Nat
  message : String := ""
deriving DecidableEq

/-- The crash tracking of a `heartbeatSession`; a zero time is `none`. -/
structure Session where
  lastXrayRunning : Option Bool := none
  crashCount : Nat := 0
  lastCrashTime : Option Int := none
  crashLoopNotified : Bool := false
  lastCrashLoopNotifyTime : Option Int := none
  lastStableTime : Option Int := none

structure Report where
  now : Int
  xrayRunning : Bool
  settings : XrayMonitorSettings := {}
  xrayStopped : Option Bool := some false

namespace Session

def handleXrayCrash (s : Session) (r : Report) : Session × List XrayEvent :=
  -- A stop by hand is no crash, and where the database did not say, nothing is announced.
  if r.xrayStopped ≠ some false then (s, []) else
  let s := { s with
    crashCount := s.crashCount + 1
    lastCrashTime := some r.now }
  if r.settings.autoDisableEnabled ∧ r.settings.autoDisableMaxFails ≤ s.crashCount then
    (s, [⟨.crashLoop, s.crashCount, "Xray auto-disabled after " ++ toString s.crashCount ++
      " consecutive failures. Manual intervention required."⟩])
  else if s.crashCount ≤ r.settings.crashLoopThreshold then (s, [⟨.down, s.crashCount, ""⟩])
  else if !s.crashLoopNotified then
    ({ s with
      crashLoopNotified := true
      lastCrashLoopNotifyTime := some r.now }, [⟨.crashLoop, s.crashCount, ""⟩])
  else if s.lastCrashLoopNotifyTime.any (r.settings.crashLoopCooldown ≤ r.now - ·) then
    ({ s with lastCrashLoopNotifyTime := some r.now }, [⟨.crashLoop, s.crashCount, ""⟩])
  else (s, [])

def handleXrayRecovery (s : Session) (r : Report) : Session × List XrayEvent :=
  ({ s with
    crashLoopNotified := false
    lastStableTime := some r.now }, if 0 < s.crashCount then [⟨.up, s.crashCount, ""⟩] else [])

/-- The test of the stability reset. -/
def stable (s : Session) (r : Report) : Bool :=
  r.xrayRunning && s.lastStableTime.any (r.settings.stabilityPeriod ≤ r.now - ·)

def handleXrayStatus (s : Session) (r : Report) : Session × List XrayEvent :=
  match s.lastXrayRunning with
  | none => ({ s with
      lastXrayRunning := some r.xrayRunning
      lastStableTime := if r.xrayRunning then some r.now else s.lastStableTime }, [])
  | some prev =>
    let s := { s with
      crashCount := if s.stable r then 0 else s.crashCount
      lastXrayRunning := some r.xrayRunning }
    if prev = r.xrayRunning then (s, [])
    else if prev then s.handleXrayCrash r
    else s.handleXrayRecovery r

def after (s : Session) (rs : List Report) : Session :=
  rs.foldl (fun s r => (s.handleXrayStatus r).1) s

def events (s : Session) : List Report → List XrayEvent
  | [] => []
  | r :: rs => (s.handleXrayStatus r).2 ++ events (s.handleXrayStatus r).1 rs

variable {s : Session} {r : Report} {rs : List Report}

theorem after_append (s : Session) (qs rs : List Report) :
    s.after (qs ++ rs) = (s.after qs).after rs :=
  List.foldl_append

theorem lastXrayRunning_handle :
    (s.handleXrayStatus r).1.lastXrayRunning = some r.xrayRunning := by
  unfold handleXrayStatus handleXrayCrash handleXrayRecovery
  grind

theorem lastStableTime_handle (on : r.xrayRunning) : (s.handleXrayStatus r).1.lastStableTime =
    if s.lastXrayRunning = some true then s.lastStableTime else some r.now := by
  unfold handleXrayStatus handleXrayRecovery
  grind

theorem counted_of_announced (off : r.xrayRunning = false)
    (announced : (s.handleXrayStatus r).2 ≠ []) : 0 < (s.handleXrayStatus r).1.crashCount := by
  unfold handleXrayStatus handleXrayCrash at *
  grind

theorem stable_of_fewer (fewer : (s.handleXrayStatus r).1.crashCount < s.crashCount) :
    s.stable r ∧ s.lastXrayRunning ≠ none := by
  unfold handleXrayStatus handleXrayCrash handleXrayRecovery at fewer
  grind

theorem up_of_down (down : s.lastXrayRunning = some false) (on : r.xrayRunning)
    (counted : 0 < s.crashCount) (short : s.stable r = false) :
    (s.handleXrayStatus r).2 = [⟨.up, s.crashCount, ""⟩] := by
  simp [handleXrayStatus, down, on, short, handleXrayRecovery, counted]

theorem still_down (down : s.lastXrayRunning = some false) (off : ∀ q ∈ rs, q.xrayRunning = false)
    (r : Report) : s.after rs = s ∧ s.events (rs ++ [r]) = (s.handleXrayStatus r).2 := by
  induction rs with
  | nil => simp [after, events]
  | cons q rs ih =>
    have same : s.handleXrayStatus q = (s, []) := by
      obtain ⟨_, _, _, _, _, _⟩ := s
      cases down
      simp [handleXrayStatus, stable, off]
    rw [List.cons_append, events, after, List.foldl_cons, same]
    exact ih fun p hp => off p (List.mem_cons_of_mem _ hp)

/-- While Xray runs, `lastStableTime` is when the running reports since the last stop began. -/
theorem stretch (hs : List Report) (up : (after {} hs).lastXrayRunning = some true) :
    ∃ before first run, hs = before ++ first :: run ∧ (∀ q ∈ first :: run, q.xrayRunning) ∧
      (after {} hs).lastStableTime = some first.now := by
  induction hs using List.reverseRecOn with
  | nil => cases up
  | append_singleton hs r ih =>
    rw [after_append] at up ⊢
    have on := Option.some.inj (lastXrayRunning_handle.symm.trans up)
    by_cases was : (after {} hs).lastXrayRunning = some true
    · obtain ⟨before, first, run, rfl, all, start⟩ := ih was
      refine ⟨before, first, run ++ [r], by simp, ?_, ?_⟩
      · simpa [or_imp, forall_and, on] using all
      · exact (lastStableTime_handle on).trans ((if_pos was).trans start)
    · refine ⟨hs, r, [], rfl, by simpa using on, ?_⟩
      exact (lastStableTime_handle on).trans (if_neg was)

/-- **Crash tracking**, at a report that does not end a stop the stability period after
`lastStableTime`. The count goes down only where Xray has been reported running without a break for
that long; the first report that Xray runs after an announced stop announces it, and nothing else
was announced since. -/
theorem crash_tracking_faithful (hs : List Report) (r : Report)
    (brisk : (after {} hs).lastXrayRunning = some false → (after {} hs).stable r = false) :
    (((after {} hs).handleXrayStatus r).1.crashCount < (after {} hs).crashCount →
      ∃ before first run, hs = before ++ first :: run ∧
        (∀ q ∈ first :: run ++ [r], q.xrayRunning) ∧
        r.settings.stabilityPeriod ≤ r.now - first.now) ∧
    ∀ before stop between, hs = before ++ stop :: between → stop.xrayRunning = false →
      (∀ q ∈ between, q.xrayRunning = false) → r.xrayRunning →
      ((after {} before).handleXrayStatus stop).2 ≠ [] →
      ∃ n, 0 < n ∧ events (after {} (before ++ [stop])) (between ++ [r]) = [⟨.up, n, ""⟩] := by
  constructor
  · intro fewer
    obtain ⟨long, known⟩ := stable_of_fewer fewer
    have up : (after {} hs).lastXrayRunning = some true := by
      cases was : (after {} hs).lastXrayRunning with
      | none => exact absurd was known
      | some prev =>
        cases prev with
        | true => rfl
        | false => cases long.symm.trans (brisk was)
    obtain ⟨before, first, run, split, all, start⟩ := stretch hs up
    rw [stable, start, Option.any_some, Bool.and_eq_true, decide_eq_true_iff] at long
    exact ⟨before, first, run, split, by simpa [or_imp, forall_and, long.1] using all, long.2⟩
  · rintro before stop between rfl off quiet on announced
    have counted := counted_of_announced off announced
    have down := off ▸ lastXrayRunning_handle (s := after {} before)
    obtain ⟨same, since⟩ := still_down down quiet r
    rw [after_append, show after _ (stop :: between) = _ from same] at brisk
    refine ⟨_, counted, ?_⟩
    rw [after_append]
    exact since.trans (up_of_down down on counted (brisk down))

def seen (now : Int) (xrayRunning : Bool) : Report := { now := now, xrayRunning := xrayRunning }

/-- Xray runs at 0, is down at 200 and runs again at 250. -/
theorem crash_tracking_brisk : ∃ n, 0 < n ∧
    events (after {} [seen 0 true, seen 200 false]) [seen 250 true] = [⟨.up, n, ""⟩] :=
  (crash_tracking_faithful [seen 0 true, seen 200 false] (seen 250 true) (by decide)).2
    [seen 0 true] _ [] rfl rfl (by simp) rfl (by decide)

/-- **A stop that outlasts the stability period.** Xray runs at 0 and is down at 200, which is
announced and counted. The report at 400 that it runs resets the count and announces nothing. -/
theorem reset_by_a_stop :
    let s := after {} [seen 0 true, seen 200 false]
    events {} [seen 0 true, seen 200 false] = [⟨.down, 1, ""⟩] ∧ s.crashCount = 1 ∧
      (s.handleXrayStatus (seen 400 true)).1.crashCount = 0 ∧
      (s.handleXrayStatus (seen 400 true)).2 = [] := by
  decide

end Session

end NasnetPanel.Node
