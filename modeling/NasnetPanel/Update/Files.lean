import NasnetPanel.Lib.CrashProg

/-!
# Update.Files — the files an update swaps, and the calls that swap them

The disk under `update/usecase`: the live files, the copies saved before they changed
(`swap.go`), the staged release, the two saved sets and the job file. What the updater asks of it
and of the host is a `Call`, one rename, removal or save each, so that a program over these calls
may stop between any two of them.

A call may fail with a text. A folder is removed file by file: a removal is two calls, and what the
first got to is left open, so a stop between them finds any part of it gone. The release's script
rewrites the system files the same way.

The version a panel binary says it is belongs to its bytes. Modes, the temporary files of a copy and
the times in a saved set are not modelled.
-/

namespace NasnetPanel.Update
open CrashProg CrashProg.Prog

/-! ## Jobs -/

inductive JobKind where
  | update | rollback
deriving DecidableEq, Repr

/-- The panel runs the first steps itself, the runner unit the rest. -/
inductive Phase where
  | panel | runner | done
deriving DecidableEq, Repr

inductive Result where
  | ok | failed | rolledBack
deriving DecidableEq, Repr

inductive StepID where
  | guards | download | verify | backup | stage | test | system | swap | restart | health | revert
deriving DecidableEq, Repr

inductive StepStatus where
  | waiting | running | done | failed | skipped
deriving DecidableEq, Repr

structure Step where
  id : StepID
  label : String
  status : StepStatus
  detail : String := ""
deriving DecidableEq, Repr

structure Job where
  id : String
  kind : JobKind
  fromVersion : String
  toVersion : String
  phase : Phase
  result : Option Result := none
  error : String := ""
  steps : List Step := []
  /-- The trial looks at Xray only if it ran before. -/
  xrayRan : Bool := false
deriving DecidableEq, Repr

def Job.finished (j : Job) : Bool := j.phase = .done

/-! ## Paths and saved sets -/

/-- What a file holds. -/
structure Blob where
  /-- What a panel binary answers to `--version`. -/
  version : String := ""
  bytes : String := ""
deriving DecidableEq, Repr

inductive Folder where
  | system | files | forward
deriving DecidableEq, Repr

inductive Path where
  /-- A file in use: under the install root by its path there, a system file by its full path. -/
  | live (p : String)
  /-- `live + ".new"`. -/
  | new (p : String)
  /-- A file of the unpacked release. -/
  | staged (rel : String)
  /-- `prev/<folder>/<n>-<base>`. -/
  | saved (dir : Folder) (n : Nat) (base : String)
  /-- `bin/nasnet-panel.prev`. -/
  | prevBinary
deriving DecidableEq, Repr

def Path.isCopy : Path → Bool
  | .saved _ _ _ | .prevBinary => true
  | _ => false

def base (p : String) : String := String.ofList (p.toList.reverse.takeWhile (· ≠ '/')).reverse

def binary : String := "bin/nasnet-panel"

def systemFiles : List String :=
  ["/etc/systemd/system/nasnet-panel.service",
   "/etc/systemd/system/nasnet-netrollback.service",
   "/etc/systemd/system/nasnet-netrollback.timer",
   "/usr/local/bin/nasnet"]

/-- A live file and its copy; `none` is a file that was not there, which putting back removes. -/
structure SavedFile where
  live : String
  saved : Option Path
deriving DecidableEq, Repr

structure FileSet where
  version : String
  replacedBy : String
  files : List SavedFile
deriving DecidableEq, Repr

/-- `prev/set.json` and `prev/forward.json`. -/
inductive SetFile where
  | set | forward
deriving DecidableEq, Repr

/-! ## The disk -/

structure Disk where
  files : Path → Option Blob := fun _ => none
  /-- The job's staging folder. -/
  staging : Option (List (String × Blob)) := none
  set : Option FileSet := none
  forward : Option FileSet := none
  job : Option Job := none
  /-- The panel has booted and settles the job. Not in the source. -/
  settling : Bool := false
  /-- The runner could not put a file back. Not in the source. -/
  lost : Bool := false

namespace Disk

def read (d : Disk) : Path → Option Blob
  | .staged rel => d.staging.bind (·.lookup rel)
  | p => d.files p

def live (d : Disk) (p : String) : Option Blob := d.files (.live p)

def write (d : Disk) (p : Path) (b : Option Blob) : Disk :=
  { d with files := Function.update d.files p b }

def setFile (d : Disk) : SetFile → Option FileSet
  | .set => d.set
  | .forward => d.forward

def running (d : Disk) : String := (d.live binary).elim "" (·.version)

/-- The regular files of `bin/agent` in the staged release. -/
def stagedAgents (staging : List (String × Blob)) : List String :=
  staging.filterMap fun f =>
    match List.isPrefixOf? "bin/agent/".toList f.1.toList with
    | some name => if '/' ∈ name then none else some f.1
    | none => none

/-- Each live file with its staged copy. The panel binary goes last, and the files only an offline
install has are swapped only there. -/
def plan (d : Disk) (staging : List (String × Blob)) : List (String × Path) :=
  ((stagedAgents staging ++ ["nasnet-tool.sh"] ++
    ["bin/nasnet-tool", ".bundle-manifest"].filter (fun rel =>
      (d.live rel).isSome && (staging.lookup rel).isSome)) ++ [".version", binary]).map
    fun rel => (rel, .staged rel)

/-- `.version` as the update writes it. -/
def stageVersion (version : String) (staging : List (String × Blob)) : List (String × Blob) :=
  (".version", { bytes := version ++ "\n" }) :: staging.filter (·.1 ≠ ".version")

end Disk

/-! ## The health of a panel on trial -/

structure Health where
  version : String
  db : Bool
  xray : Bool
  /-- A version from before `/health/update`: only `/health` answered. -/
  legacy : Bool := false
deriving DecidableEq, Repr

/-- One round of a trial. -/
structure Probe where
  health : Option Health
  /-- How often the unit started, where that can be told. -/
  starts : Option Nat := none
  late : Bool := false
  cancelled : Bool := false
deriving DecidableEq, Repr

def maxStarts : Nat := 3

def Health.reason (want : String) (xrayRan legacyOK : Bool) : Option Health → Option String
  | none => some "the panel didn't answer"
  | some h =>
    if h.legacy && legacyOK then none
    else if h.legacy || h.version ≠ want then some ("the panel still runs " ++ h.version)
    else if !h.db then some "the database wasn't reachable"
    else if xrayRan && !h.xray then some "Xray didn't start"
    else none

/-- `trial`, over the rounds it gets to make. -/
def trial (want : String) (xrayRan legacyOK : Bool) (base : Nat) : List Probe → Except String Unit
  | [] => .error "context canceled"
  | p :: ps =>
    match Health.reason want xrayRan legacyOK p.health with
    | none => .ok ()
    | some reason =>
      if p.starts.any fun n => base + maxStarts ≤ n then
        .error ("it crashed " ++ toString (p.starts.getD 0 - base) ++ " times")
      else if p.late then .error (reason ++ " within 2 minutes")
      else if p.cancelled then .error "context canceled"
      else trial want xrayRan legacyOK base ps

/-! ## Calls -/

/-- What is removed. -/
inductive Wipe where
  | prev | prevBinary | forwardFolder | forwardFile
deriving DecidableEq, Repr

def Wipe.covers : Wipe → Path → Bool
  | .prev, .saved _ _ _ => true
  | .forwardFolder, .saved .forward _ _ => true
  | .prevBinary, .prevBinary => true
  | _, _ => false

def Wipe.coversSet : Wipe → SetFile → Bool
  | .prev, _ => true
  | .forwardFile, .forward => true
  | _, _ => false

inductive Call where
  | load
  | save (job : Job)
  /-- The panel boots: which version runs. -/
  | boot
  | stat (p : String)
  | mkdirAll
  | copy (src dst : Path)
  /-- `live + ".new"`, which was copied from `src`, takes the live file's place. -/
  | rename (src : Path) (p : String)
  /-- `live + ".new"` is dropped. -/
  | discard (p : String)
  | remove (p : String)
  /-- A removal under way. -/
  | wiping (what : Wipe)
  | wipe (what : Wipe)
  | readSet (which : SetFile)
  | writeSet (which : SetFile) (s : FileSet)
  | installPlan (version : String)
  /-- The script under way. -/
  | scripting
  | script
  | daemonReload
  | restart
  | starts
  | trial (want : String) (xrayRan legacyOK : Bool) (base : Nat)
  | cleanup
deriving DecidableEq, Repr

abbrev Res := Except String

@[reducible] def Reply : Call → Type
  | .load => Res (Option Job)
  | .boot => String
  | .stat _ => Res Bool
  | .readSet _ => Res FileSet
  | .installPlan _ => Res (List (String × Path))
  | .starts => Nat
  | .discard _ | .wiping _ | .wipe _ | .scripting | .cleanup => Unit
  | _ => Res Unit

/-- What a call leaves open: whether it fails, and how far it gets. -/
structure Answer where
  fault : Option String := none
  /-- What a removal got to. -/
  gone : Path → Bool := fun _ => false
  goneSet : SetFile → Bool := fun _ => false
  /-- What the script wrote. -/
  wrote : String → Option (Option Blob) := fun _ => none
  starts : Option Nat := none
  probes : List Probe := []

namespace Disk

def without (d : Disk) (what : Wipe) (gone : Path → Bool) (goneSet : SetFile → Bool) : Disk :=
  { d with
    files := fun p => if what.covers p && gone p then none else d.files p
    set := if what.coversSet .set && goneSet .set then none else d.set
    forward := if what.coversSet .forward && goneSet .forward then none else d.forward }

def scripted (d : Disk) (wrote : String → Option (Option Blob)) : Disk :=
  { d with
    files := fun p =>
      match p with
      | .live f => if f ∈ systemFiles then (wrote f).getD (d.live f) else d.live f
      | p => d.files p }

/-- A call failed; it was one that puts a file back if `restores`. -/
def failed (d : Disk) (restores : Bool) : Disk :=
  if restores && !d.settling then { d with lost := true } else d

end Disk

def attempt (failed : Disk) (fault : Option String) (after : Disk) : Res Unit × Disk :=
  match fault with
  | some e => (.error e, failed)
  | none => (.ok (), after)

def exec : (c : Call) → Answer → Disk → Reply c × Disk
  | .load, ans, d => (ans.fault.elim (.ok d.job) .error, d)
  | .save job, ans, d => attempt d ans.fault { d with job := some job }
  | .boot, _, d => (d.running, { d with settling := true })
  | .stat p, ans, d => (ans.fault.elim (.ok (d.live p).isSome) .error, d)
  | .mkdirAll, ans, d => attempt d ans.fault d
  | .copy src dst, ans, d =>
    match d.read src with
    | none => (.error "no such file or directory", d.failed src.isCopy)
    | some b => attempt (d.failed src.isCopy) ans.fault (d.write dst (some b))
  | .rename src p, ans, d =>
    attempt (d.failed src.isCopy) ans.fault
      ((d.write (.live p) (d.files (.new p))).write (.new p) none)
  | .discard p, ans, d => ((), ans.fault.elim (d.write (.new p) none) fun _ => d)
  | .remove p, ans, d => attempt (d.failed true) ans.fault (d.write (.live p) none)
  | .wiping what, ans, d => ((), d.without what ans.gone ans.goneSet)
  | .wipe what, ans, d =>
    ((), match ans.fault with
      | some _ => d.without what ans.gone ans.goneSet
      | none => d.without what (fun _ => true) fun _ => true)
  | .readSet which, ans, d =>
    (match ans.fault, d.setFile which with
      | some e, _ => .error e
      | none, none => .error "no such file or directory"
      | none, some s => .ok s, d)
  | .writeSet .set s, ans, d => attempt d ans.fault { d with set := some s }
  | .writeSet .forward s, ans, d => attempt d ans.fault { d with forward := some s }
  | .installPlan version, ans, d =>
    match ans.fault, d.staging with
    | some e, _ => (.error e, d)
    | none, none => (.error "no such file or directory", d)
    | none, some staging =>
      (.ok (d.plan staging), { d with staging := some (Disk.stageVersion version staging) })
  | .scripting, ans, d => ((), d.scripted ans.wrote)
  | .script, ans, d =>
    (ans.fault.elim (.ok ()) .error, d.scripted ans.wrote)
  | .daemonReload, ans, d => attempt d ans.fault d
  | .restart, ans, d => attempt d ans.fault d
  | .starts, ans, d => (ans.starts.getD 0, d)
  | .trial want xrayRan legacyOK base, ans, d => (trial want xrayRan legacyOK base ans.probes, d)
  | .cleanup, _, d => ((), { d with staging := none })

abbrev Program := Prog Call Reply

abbrev ask (c : Call) : Program (Reply c) := perform c

/-! ## Saving, installing and putting back -/

namespace FileSet

def add (s : FileSet) (f : SavedFile) : FileSet := { s with files := s.files ++ [f] }

/-- The loop of `save`. What was saved before an error stays in the set. -/
def saveAll (dir : Folder) : List String → FileSet → Program (FileSet × Option String)
  | [], s => return (s, none)
  | live :: lives, s => do
    match ← ask (.stat live) with
    | .error e => return (s, some e)
    | .ok false => saveAll dir lives (s.add ⟨live, none⟩)
    | .ok true =>
      let saved := Path.saved dir s.files.length (base live)
      match ← ask (.copy (.live live) saved) with
      | .error e => return (s, some ("save " ++ live ++ ": " ++ e))
      | .ok _ => saveAll dir lives (s.add ⟨live, some saved⟩)

def save (s : FileSet) (dir : Folder) (lives : List String) :
    Program (FileSet × Option String) := do
  match ← ask .mkdirAll with
  | .error e => return (s, some e)
  | .ok _ => saveAll dir lives s

/-- Any error of the look at the file counts as a file that is not there. -/
def saveAt (s : FileSet) (live : String) (saved : Path) : Program (FileSet × Option String) := do
  match ← ask (.stat live) with
  | .ok true =>
    match ← ask (.copy (.live live) saved) with
    | .error e => return (s, some ("save " ++ live ++ ": " ++ e))
    | .ok _ => return (s.add ⟨live, some saved⟩, none)
  | _ => return (s.add ⟨live, none⟩, none)

end FileSet

/-- The new file takes the live one's place in one rename. -/
def installFile (src : Path) (live : String) : Program (Option String) := do
  match ← ask (.copy src (.new live)) with
  | .error e =>
    ask (.discard live)
    return some e
  | .ok _ =>
    match ← ask (.rename src live) with
    | .error e => return some e
    | .ok _ => return none

def SavedFile.putBack (f : SavedFile) : Program (Option String) :=
  match f.saved with
  | some saved => installFile saved f.live
  | none => do
    match ← ask (.remove f.live) with
    | .error e => return some e
    | .ok _ => return none

/-- The loop of `putBack`, which carries on past errors. -/
def putBackAll : List SavedFile → Program (List String)
  | [] => return []
  | f :: fs => do
    let err ← f.putBack
    let errs ← putBackAll fs
    return match err with
      | some e => (f.live ++ ": " ++ e) :: errs
      | none => errs

def join (errs : List String) : Option String :=
  if errs = [] then none else some (String.intercalate "\n" errs)

/-- Every file of the set, the last first, and systemd reads its units again. -/
def putBack (s : FileSet) : Program (Option String) := do
  let errs ← putBackAll s.files.reverse
  match ← ask .daemonReload with
  | .error e => return join (errs ++ [e])
  | .ok _ => return join errs

/-- `os.RemoveAll`, its error not looked at. -/
def removeAll (what : Wipe) : Program PUnit := do
  ask (.wiping what)
  ask (.wipe what)
  return ⟨⟩

def dropPrev : Program PUnit := do
  removeAll .prev
  removeAll .prevBinary

end NasnetPanel.Update
