import NasnetPanel.Update.Files

/-!
# Update.Runner — a job's second half, and the panel that settles it

`update/usecase/runner.go` and `boot.go`. The runner unit carries out an update (`runUpdate`) or a
rollback (`runRollback`) from the point the panel hands over: it saves the live files, swaps them,
restarts the panel, and puts the old ones back if the new version does not come up. A panel that
finds the runner gone settles the job by the version it runs itself (`interrupted`).

Both are programs over the calls of `Update.Files`. They hold the update lock, so one runs at a
time; either may stop between any two calls, and only the disk stays. The runner's unit is started
once for a job. The heartbeat, the log and the history are not modelled here.
-/

namespace NasnetPanel.Update
open CrashProg CrashProg.Prog

/-! ## Progress -/

namespace Job

def setStep (job : Job) (id : StepID) (status : StepStatus) (detail : String) : Job :=
  { job with
    steps := job.steps.map fun s =>
      if s.id = id then { s with status := status, detail := detail } else s }

def finish (job : Job) (result : Result) (reason : String) : Job :=
  { job with phase := .done, result := some result, error := reason }

def addStep (job : Job) (s : Step) : Job := { job with steps := job.steps ++ [s] }

end Job

/-- `save`: the job as it is now. An error is only logged. -/
def saveJob (job : Job) : Program Job := do
  let _ ← ask (.save job)
  return job

/-- `set`. -/
def mark (job : Job) (id : StepID) (status : StepStatus) (detail : String) : Program Job :=
  saveJob (job.setStep id status detail)

def finish (job : Job) (result : Result) (reason : String) : Program Job :=
  saveJob (job.finish result reason)

def fail (job : Job) (id : StepID) (err : String) : Program Job := do
  let job ← mark job id .failed err
  finish job .failed err

def cleanup : Program PUnit := do
  ask .cleanup
  return ⟨⟩

/-! ## The update -/

/-- A failure before anything changed. -/
def giveUp (job : Job) (id : StepID) (err : String) : Program PUnit := do
  let _ ← fail job id err
  cleanup

/-- A failure once files may have changed: they are put back, whatever comes of it. -/
def undo (job : Job) (set : FileSet) (id : StepID) (err : String) : Program PUnit := do
  let _ ← putBack set
  dropPrev
  giveUp job id err

/-- The release's script rewrites the system files. -/
def updateSystem : Program (Res Unit) := do
  ask .scripting
  ask .script

/-- A restart, and a trial of the version that is back. -/
def comesUp (job : Job) (want : String) (legacyOK : Bool) : Program (Option String) := do
  match ← ask .restart with
  | .error e => return some e
  | .ok _ =>
    let base ← ask .starts
    match ← ask (.trial want job.xrayRan legacyOK base) with
    | .error e => return some e
    | .ok _ => return none

def bringBack (job : Job) (set : FileSet) (want : String) (legacyOK : Bool) :
    Program (Option String) := do
  match ← putBack set with
  | some e => return some e
  | none => comesUp job want legacyOK

def reverted (job : Job) (cause : String) : Option String → Program PUnit
  | some e => do
    let job ← mark job .revert .failed e
    let _ ← finish job .failed (job.toVersion ++ " failed (" ++ cause ++ "), and " ++
      job.fromVersion ++ " didn't come back either (" ++ e ++ "). Check the server.")
    return ⟨⟩
  | none => do
    let job ← mark job .revert .done ""
    let _ ← finish job .rolledBack (job.toVersion ++ " didn't pass its health check (" ++ cause ++
      "), so " ++ job.fromVersion ++ " is running again. The pre-update backup is in Backups.")
    return ⟨⟩

/-- The old version is put back after a failed trial. -/
def revert (job : Job) (set : FileSet) (cause : String) : Program PUnit := do
  let job ← saveJob (job.addStep
    ⟨.revert, "Putting " ++ job.fromVersion ++ " back", .running, ""⟩)
  let err ← bringBack job set job.fromVersion true
  dropPrev
  cleanup
  reverted job cause err

/-- Steps 9 and 10: the restart and the trial boot. -/
def tryNew (job : Job) (set : FileSet) : Program PUnit := do
  let job ← mark job .restart .running "Waiting for the panel to come back…"
  match ← ask .restart with
  | .error e =>
    let job ← mark job .restart .failed e
    revert job set e
  | .ok _ =>
    let base ← ask .starts
    let job ← mark job .restart .done ""
    let job ← mark job .health .running ""
    match ← ask (.trial job.toVersion job.xrayRan false base) with
    | .error e =>
      let job ← mark job .health .failed e
      revert job set e
    | .ok _ =>
      let job ← mark job .health .done ""
      let _ ← finish job .ok ""
      cleanup

/-- One copy of step 8, the binary's to a path of its own. -/
def FileSet.saveLive (s : FileSet) (live : String) : Program (FileSet × Option String) :=
  if live = binary then s.saveAt live .prevBinary else s.save .files [live]

def savePlan : List (String × Path) → FileSet → Program (FileSet × Option String)
  | [], s => return (s, none)
  | p :: plan, s => do
    let (s, err) ← s.saveLive p.1
    match err with
    | some e => return (s, some e)
    | none => savePlan plan s

def installAll : List (String × Path) → Program (Option String)
  | [] => return none
  | p :: plan => do
    match ← installFile p.2 p.1 with
    | some e => return some e
    | none => installAll plan

/-- Step 8: every file of the plan is saved, the set is written, and the files are swapped. -/
def swap (job : Job) (set : FileSet) : Program PUnit := do
  let job ← mark job .swap .running ""
  match ← ask (.installPlan job.toVersion) with
  | .error e => undo job set .swap e
  | .ok plan =>
    let (set, err) ← savePlan plan set
    match err with
    | some e => undo job set .swap e
    | none =>
      match ← ask (.writeSet .set set) with
      | .error e => undo job set .swap e
      | .ok _ =>
        match ← installAll plan with
        | some e => undo job set .swap e
        | none =>
          let job ← mark job .swap .done ""
          tryNew job set

/-- Step 7: the system files are saved before the release's script rewrites them. -/
def runUpdate (job : Job) : Program PUnit := do
  removeAll .prev
  removeAll .prevBinary
  let job ← mark job .system .running ""
  let (set, err) ← FileSet.save ⟨job.fromVersion, job.toVersion, []⟩ .system systemFiles
  match err with
  | some e => giveUp job .system e
  | none =>
    match ← ask (.writeSet .set set) with
    | .error e => giveUp job .system e
    | .ok _ =>
      match ← updateSystem with
      | .error e => undo job set .system e
      | .ok _ =>
        let job ← mark job .system .done ""
        swap job set

/-! ## The rollback -/

def wentForward (job : Job) (cause : String) : Option String → Program PUnit
  | some e => do
    let job ← mark job .revert .failed e
    let _ ← finish job .failed (job.toVersion ++ " didn't come up (" ++ cause ++ "), and " ++
      job.fromVersion ++ " didn't come back either (" ++ e ++ "). Check the server.")
    return ⟨⟩
  | none => do
    let job ← mark job .revert .done ""
    let _ ← finish job .failed (job.toVersion ++ " didn't come up (" ++ cause ++ "), so " ++
      job.fromVersion ++ " is running again.")
    return ⟨⟩

/-- The old version will not come up: the files go forward again. -/
def goForward (job : Job) (fwd : FileSet) (cause : String) : Program PUnit := do
  let job ← mark job .health .failed cause
  let job ← saveJob (job.addStep ⟨.revert, "Going back to " ++ job.fromVersion, .running, ""⟩)
  let err ← bringBack job fwd job.fromVersion false
  removeAll .forwardFolder
  removeAll .forwardFile
  wentForward job cause err

/-- The restart and the trial of the version rolled back to. -/
def tryOld (job : Job) (fwd : FileSet) : Program PUnit := do
  let job ← mark job .restart .running "Waiting for the panel to come back…"
  let restarted ← ask .restart
  let base ← ask .starts
  match restarted with
  | .error e => goForward job fwd e
  | .ok _ =>
    let job ← mark job .restart .done ""
    let job ← mark job .health .running ""
    match ← ask (.trial job.toVersion job.xrayRan true base) with
    | .error e => goForward job fwd e
    | .ok _ =>
      let job ← mark job .health .done ""
      dropPrev
      let _ ← finish job .ok ""
      return ⟨⟩

/-- The copies a rollback may have to go forward to. -/
def saveForward : List SavedFile → FileSet → Program (FileSet × Option String)
  | [], s => return (s, none)
  | f :: fs, s => do
    let (s, err) ← s.save .forward [f.live]
    match err with
    | some e => return (s, some e)
    | none => saveForward fs s

def runRollback (job : Job) : Program PUnit := do
  match ← ask (.readSet .set) with
  | .error _ =>
    let _ ← fail job .swap ("the saved files of " ++ job.toVersion ++ " are gone")
    return ⟨⟩
  | .ok set =>
    let job ← mark job .swap .running ""
    let (fwd, err) ← saveForward set.files ⟨job.fromVersion, job.toVersion, []⟩
    match err with
    | some e =>
      let _ ← fail job .swap e
      return ⟨⟩
    | none =>
      match ← ask (.writeSet .forward fwd) with
      | .error e =>
        let _ ← fail job .swap e
        return ⟨⟩
      | .ok _ =>
        match ← putBack set with
        | some e =>
          let _ ← putBack fwd
          let _ ← fail job .swap e
          return ⟨⟩
        | none =>
          let job ← mark job .swap .done ""
          tryOld job fwd

/-! ## The runner and the panel that settles -/

/-- `RunJob`, once it has the lock. -/
def runJob (id : String) : Program PUnit := do
  match ← ask .load with
  | .ok (some job) =>
    if job.id = id ∧ job.phase = .runner then
      match job.kind with
      | .rollback => runRollback job
      | .update => runUpdate job
    else return ⟨⟩
  | _ => return ⟨⟩

/-- What runs now decides how a job went whose runner died. -/
def interrupted (version : String) (job : Job) : Program PUnit := do
  if job.phase = .panel then
    let _ ← finish job .failed "The update stopped before anything changed."
    cleanup
  else if version = job.toVersion then
    let _ ← finish job .ok ""
    cleanup
  else
    match job.kind with
    | .update =>
      match ← ask (.readSet .set) with
      | .error _ =>
        let _ ← finish job .failed "The update stopped before anything changed."
        cleanup
      | .ok set =>
        if set.replacedBy ≠ job.toVersion then
          let _ ← finish job .failed "The update stopped before anything changed."
          cleanup
        else
          match ← putBack set with
          | some e =>
            let _ ← finish job .failed
              ("The update stopped halfway and some files couldn't be put back: " ++ e)
            cleanup
          | none =>
            dropPrev
            let _ ← finish job .rolledBack
              ("The update stopped halfway, so " ++ job.fromVersion ++ "'s files were put back.")
            cleanup
    | .rollback =>
      match ← ask (.readSet .forward) with
      | .error _ =>
        let _ ← finish job .failed
          ("The rollback stopped halfway; " ++ job.fromVersion ++ " is still running.")
        cleanup
      | .ok fwd =>
        let _ ← putBack fwd
        let _ ← finish job .failed
          ("The rollback stopped halfway; " ++ job.fromVersion ++ " is still running.")
        cleanup

/-- `watchRunner` in a panel of that version, once the runner is gone. -/
def watchRunner (version : String) : Program PUnit := do
  match ← ask .load with
  | .ok (some job) => if job.finished then return ⟨⟩ else interrupted version job
  | _ => return ⟨⟩

/-- A panel boots, runs the binary that is in place, and settles the job. -/
def settle : Program PUnit := do
  let version ← ask .boot
  watchRunner version

/-- A step after the handover: the runner or the settling panel makes its next call, either stops,
or a panel boots where nobody holds the lock. -/
def step : System Call Reply Disk → Label Unit Answer → Option (System Call Reply Disk) :=
  System.step exec fun _ => settle

def handedOver (d : Disk) (id : String) : System Call Reply Disk := ⟨d, some (runJob id)⟩

end NasnetPanel.Update
