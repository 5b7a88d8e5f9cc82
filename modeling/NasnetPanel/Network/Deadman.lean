import NasnetPanel.Lib.CrashProg

/-!
# Network.Deadman — snapshot, apply, arm, confirm or revert

The two-phase commit of `system/deadman.go`. A change is snapshotted, armed by a marker file, then
applied; it is confirmed within `confirmWindow`, or a timer restores the snapshot. `apply`,
`confirm` and `rollbackPlan` are the source's functions as programs over atomic calls: marker file,
snapshot files, apply records, the network and the clock. A call may fail, and the process may stop
between any two of them; the network lock admits one program at a time, and the kernel releases it
when the process dies.

Each write of the marker and of a snapshot is the source's write-then-rename, so it leaves the old
or the new file; a failed write, removal or record update changes nothing. An operation, a reload
or a failed restore may leave the network in any state.

The world carries a log of what happened. It is not in the source: it records when a plan's
operations ran, which the results are about.
-/

namespace NasnetPanel.Deadman
open CrashProg CrashProg.Prog

/-! ## What is on disk -/

/-- Seconds an applied change has to be confirmed. -/
def confirmWindow : Int := 90

def maxRollbackAttempts : Nat := 3

def snapshotVersion : Int := 1

/-- The arm state. -/
structure Marker where
  requestID : String
  planID : Nat
  snapshot : String
  deadlineUnix : Int
  attempts : Nat := 0
deriving DecidableEq, Repr

def Marker.expired (m : Marker) (now : Int) : Bool := m.deadlineUnix ≤ now

/-- Everything needed to put the box back as it was: `Net` is what capture and restore cover. -/
structure Snapshot (Net : Type) where
  version : Int
  net : Net
deriving DecidableEq

/-- A snapshot file: not there, not readable, not a snapshot's text, or a whole snapshot. -/
inductive SnapFile (Net : Type) where
  | missing
  | unreadable
  | garbled
  | whole (snap : Snapshot Net)
deriving DecidableEq

inductive Phase where
  | planned | applied | confirmed | rolledBack | failed
deriving DecidableEq, Repr

structure ApplyRecord where
  requestID : String
  phase : Phase
  ops : List String
  performedTakeover : Bool
  error : String := ""
deriving DecidableEq, Repr

/-- What happened, oldest first. An operation is logged with the network it started from. -/
inductive Event (Net : Type) where
  | opRan (plan : Nat) (before : Net)
  | restored (plan : Nat)
  | restoreFailed (plan : Nat)
  | phaseSet (plan : Nat) (phase : Phase)
  | gaveUp (plan : Nat)

structure World (Net : Type) where
  marker : Option Marker
  snaps : String → SnapFile Net
  records : Nat → Option ApplyRecord
  nextID : Nat
  net : Net
  log : List (Event Net)

def World.init {Net : Type} (net : Net) : World Net :=
  { marker := none, snaps := fun _ => .missing, records := fun _ => none, nextID := 1, net := net
    log := [] }

/-! ## Calls -/

/-- Which of the source's call sites removes the marker. -/
inductive Disarm where
  | confirmed | restored | budgetSpent
deriving DecidableEq, Repr

inductive Call (Net : Type) where
  | readMarker
  | writeMarker (m : Marker)
  | deleteMarker (why : Disarm)
  | createRecord (r : ApplyRecord)
  | setPhase (id : Nat) (phase : Phase) (msg : String)
  | capture
  | saveSnapshot (path : String) (snap : Snapshot Net)
  | loadSnapshot (path : String)
  | restore (plan : Nat) (snap : Snapshot Net)
  | runOp (plan : Nat) (desc : String)
  | reload
  | now
  | onRollback (plan : Nat)

/-- What the source gets back from a call. -/
abbrev Reply {Net : Type} : Call Net → Type
  | .readMarker => Except String (Option Marker)
  | .createRecord _ => Except String Nat
  | .capture => Except String (Snapshot Net)
  | .loadSnapshot _ => Except String (Snapshot Net)
  | .now => Int
  | .onRollback _ => Unit
  | _ => Except String Unit

/-- How the environment answers a call: its error if it fails, the clock, and the network as an
operation, a reload or a failed restore leaves it. -/
structure Answer (Net : Type) where
  fault : Option String := none
  clock : Int := 0
  net : Net

def SnapFile.load {Net : Type} : SnapFile Net → Except String (Snapshot Net)
  | .missing => .error "read snapshot: no such file or directory"
  | .unreadable => .error "read snapshot: input/output error"
  | .garbled => .error "parse snapshot: unexpected end of JSON input"
  | .whole snap =>
    if snap.version ≠ snapshotVersion then
      .error ("snapshot version " ++ toString snap.version ++ ", this build understands " ++
        toString snapshotVersion)
    else .ok snap

/-- `Except`'s success, or the fault. -/
def reply {α : Type} (fault : Option String) (a : α) : Except String α :=
  match fault with
  | some e => .error e
  | none => .ok a

variable {Net : Type}

namespace World

def arm (w : World Net) (m : Marker) : World Net := { w with marker := some m }

/-- The marker removed; giving up is logged for the plan it named. -/
def disarm (w : World Net) (why : Disarm) : World Net :=
  { w with
    marker := none
    log := match why, w.marker with
      | .budgetSpent, some m => w.log ++ [.gaveUp m.planID]
      | _, _ => w.log }

def create (w : World Net) (r : ApplyRecord) : World Net :=
  { w with records := Function.update w.records w.nextID (some r), nextID := w.nextID + 1 }

/-- A record's phase and error updated, where the record is there. -/
def record (w : World Net) (id : Nat) (phase : Phase) (msg : String) : World Net :=
  { w with
    records := Function.update w.records id
      ((w.records id).map fun r => { r with phase := phase, error := msg })
    log := w.log ++ [.phaseSet id phase] }

def save (w : World Net) (path : String) (snap : Snapshot Net) : World Net :=
  { w with snaps := Function.update w.snaps path (.whole snap) }

def putBack (w : World Net) (plan : Nat) (snap : Snapshot Net) : World Net :=
  { w with net := snap.net, log := w.log ++ [.restored plan] }

def putBackFailed (w : World Net) (plan : Nat) (net : Net) : World Net :=
  { w with net := net, log := w.log ++ [.restoreFailed plan] }

def operate (w : World Net) (plan : Nat) (net : Net) : World Net :=
  { w with net := net, log := w.log ++ [.opRan plan w.net] }

def reloaded (w : World Net) (net : Net) : World Net := { w with net := net }

end World

/-- The world after a call that takes effect only when it does not fail. -/
def onSuccess (fault : Option String) (w w' : World Net) : World Net :=
  match fault with
  | some _ => w
  | none => w'

def exec : (c : Call Net) → Answer Net → World Net → Reply c × World Net
  | .readMarker, ans, w => (reply ans.fault w.marker, w)
  | .writeMarker m, ans, w => (reply ans.fault (), onSuccess ans.fault w (w.arm m))
  | .deleteMarker why, ans, w => (reply ans.fault (), onSuccess ans.fault w (w.disarm why))
  | .createRecord r, ans, w => (reply ans.fault w.nextID, onSuccess ans.fault w (w.create r))
  | .setPhase id phase msg, ans, w =>
    (reply ans.fault (), onSuccess ans.fault w (w.record id phase msg))
  | .capture, ans, w => (reply ans.fault ⟨snapshotVersion, w.net⟩, w)
  | .saveSnapshot path snap, ans, w =>
    (reply ans.fault (), onSuccess ans.fault w (w.save path snap))
  | .loadSnapshot path, ans, w =>
    (match ans.fault with
     | some e => .error e
     | none => (w.snaps path).load, w)
  | .restore plan snap, ans, w =>
    (reply ans.fault (), onSuccess ans.fault (w.putBackFailed plan ans.net) (w.putBack plan snap))
  | .runOp plan _, ans, w => (reply ans.fault (), w.operate plan ans.net)
  | .reload, ans, w => (reply ans.fault (), w.reloaded ans.net)
  | .now, ans, w => (ans.clock, w)
  | .onRollback _, _, w => ((), w)

/-! ## The calls as programs -/

/-- A program of the dead-man. -/
abbrev Eff (Net : Type) := Prog (Call Net) (@Reply Net)

def readMarker : Eff Net (Except String (Option Marker)) := perform Call.readMarker
def writeMarker (m : Marker) : Eff Net (Except String Unit) := perform (Call.writeMarker m)
def deleteMarker (why : Disarm) : Eff Net (Except String Unit) := perform (Call.deleteMarker why)
def createRecord (r : ApplyRecord) : Eff Net (Except String Nat) := perform (Call.createRecord r)
def setPhase (id : Nat) (phase : Phase) (msg : String) : Eff Net (Except String Unit) :=
  perform (Call.setPhase id phase msg)
def capture : Eff Net (Except String (Snapshot Net)) := perform Call.capture
def saveSnapshot (path : String) (snap : Snapshot Net) : Eff Net (Except String Unit) :=
  perform (Call.saveSnapshot path snap)
def loadSnapshot (path : String) : Eff Net (Except String (Snapshot Net)) :=
  perform (Call.loadSnapshot path)
def restore (plan : Nat) (snap : Snapshot Net) : Eff Net (Except String Unit) :=
  perform (Call.restore plan snap)
def runOp (plan : Nat) (desc : String) : Eff Net (Except String Unit) :=
  perform (Call.runOp plan desc)
def reload : Eff Net (Except String Unit) := perform Call.reload
def now : Eff Net Int := perform Call.now
def onRollback (plan : Nat) : Eff Net Unit := perform (Call.onRollback plan)

/-! ## The programs -/

/-- One network operation: what it is called. What it does is the environment's answer. -/
structure Op where
  desc : String
deriving DecidableEq, Repr

structure Plan where
  requestID : String
  ops : List Op
deriving DecidableEq, Repr

/-- Where state is kept, and whether networkd is reloaded. -/
structure Applier where
  stateDir : String
  reload : Bool

def snapPath (a : Applier) (id : Nat) : String :=
  a.stateDir ++ "/snap-" ++ toString id ++ ".json"

/-- Restores right after a failure in `apply`, and disarms when that worked. -/
def restoreFailure (id : Nat) (snap : Snapshot Net) (cause : String) :
    Eff Net (Except String ApplyRecord) := do
  let cause ← match ← restore id snap with
    | .error e => pure (cause ++
        " (restore also failed; automatic recovery remains armed: " ++ e ++ ")")
    | .ok () =>
      match ← deleteMarker .restored with
      | .error e => pure (cause ++ " (disarm: " ++ e ++ ")")
      | .ok () => pure cause
  let _ ← setPhase id .failed cause
  return .error cause

/-- The plan's operations in order, up to the first that fails. -/
def runOps (id : Nat) : List Op → Eff Net (Except String Unit)
  | [] => return .ok ()
  | op :: rest => do
    match ← runOp id op.desc with
    | .error e => return .error ("op " ++ op.desc.quote ++ ": " ++ e)
    | .ok () => runOps id rest

def reloadIf (a : Applier) : Eff Net (Except String Unit) :=
  if a.reload then reload else return .ok ()

/-- The end of `apply`: a full window from now, then the record. -/
def finishApply (record : ApplyRecord) (id : Nat) (snap : Snapshot Net) (marker : Marker) :
    Eff Net (Except String ApplyRecord) := do
  let now ← now
  match ← writeMarker { marker with deadlineUnix := now + confirmWindow } with
  | .error e => restoreFailure id snap ("update dead-man: " ++ e)
  | .ok () =>
    match ← setPhase id .applied "" with
    | .error e => return .error ("record applied: " ++ e)
    | .ok () => return .ok { record with phase := .applied }

/-- The armed part of `apply`: operations, reload, then the full window. -/
def applyArmed (a : Applier) (p : Plan) (record : ApplyRecord) (id : Nat) (snap : Snapshot Net)
    (marker : Marker) : Eff Net (Except String ApplyRecord) := do
  match ← runOps id p.ops with
  | .error e => restoreFailure id snap e
  | .ok () =>
    match ← reloadIf a with
    | .error e => restoreFailure id snap ("networkctl reload: " ++ e)
    | .ok () => finishApply record id snap marker

def failPlan (id : Nat) (what e : String) : Eff Net (Except String ApplyRecord) := do
  let _ ← setPhase id .failed e
  return .error (what ++ e)

/-- The record `apply` creates before anything else. -/
def plannedRecord (p : Plan) (performedTakeover : Bool) : ApplyRecord :=
  { requestID := p.requestID, phase := .planned, ops := p.ops.map (·.desc)
    performedTakeover := performedTakeover }

/-- Snapshots, arms, runs the operations in order, reloads. -/
def apply (a : Applier) (p : Plan) (performedTakeover : Bool) :
    Eff Net (Except String ApplyRecord) := do
  match ← readMarker with
  | .error e => return .error ("read dead-man: " ++ e)
  | .ok (some m) =>
    return .error ("plan " ++ toString m.planID ++
      " is still armed; confirm it or let it revert first")
  | .ok none =>
    let record := plannedRecord p performedTakeover
    match ← createRecord record with
    | .error e => return .error ("record plan: " ++ e)
    | .ok id =>
      match ← capture with
      | .error e => failPlan id "snapshot: " e
      | .ok snap =>
        match ← saveSnapshot (snapPath a id) snap with
        | .error e => failPlan id "save snapshot: " e
        | .ok () =>
          -- Armed before the first change.
          let now ← now
          let marker : Marker :=
            { planID := id, requestID := p.requestID, snapshot := snapPath a id
              deadlineUnix := now + confirmWindow }
          match ← writeMarker marker with
          | .error e => failPlan id "arm dead-man: " e
          | .ok () => applyArmed a p record id snap marker

/-- Counts the attempt, and disarms once the budget is spent. -/
def restoreFailed (m : Marker) (cause : String) : Eff Net (Except String Bool) := do
  let m := { m with attempts := m.attempts + 1 }
  if m.attempts < maxRollbackAttempts then
    match ← writeMarker m with
    | .error e => return .error ("restore: " ++ cause ++
        " (recording the attempt also failed: " ++ e ++ ")")
    | .ok () => return .error ("restore: " ++ cause ++ " (attempt " ++ toString m.attempts ++
        " of " ++ toString maxRollbackAttempts ++ ")")
  else
    match ← deleteMarker .budgetSpent with
    | .error e => return .error ("restore: " ++ cause ++ " (disarming also failed: " ++ e ++ ")")
    | .ok () =>
      let msg := "restore failed " ++ toString m.attempts ++ " times, giving up: " ++ cause
      match ← setPhase m.planID .failed msg with
      | .error e => return .error (msg ++ " (recording it also failed: " ++ e ++ ")")
      | .ok () => return .error msg

def confirm (planID : Nat) : Eff Net (Except String Unit) := do
  match ← readMarker with
  | .error e => return .error e
  | .ok none => return .error "nothing to confirm"
  | .ok (some m) =>
    if planID ≠ 0 ∧ m.planID ≠ planID then
      return .error ("marker is for plan " ++ toString m.planID ++ ", not " ++ toString planID)
    else
      let now ← now
      if m.expired now then
        return .error "confirmation window expired; waiting for rollback"
      else
        match ← setPhase m.planID .confirmed "" with
        | .error e => return .error e
        | .ok () => (deleteMarker .confirmed)

/-- The end of a rollback: disarm, record, tell the caller. -/
def recordRollback (m : Marker) : Eff Net (Except String Bool) := do
  match ← deleteMarker .restored with
  | .error e => return .error e
  | .ok () =>
    match ← setPhase m.planID .rolledBack "confirm window expired" with
    | .error e => return .error ("record rollback: " ++ e)
    | .ok () =>
      let _ ← onRollback m.planID
      return .ok true

def finishRollback (a : Applier) (m : Marker) : Eff Net (Except String Bool) := do
  match ← reloadIf a with
  | .error e => restoreFailed m e
  | .ok () => recordRollback m

def restoreMarked (a : Applier) (m : Marker) : Eff Net (Except String Bool) := do
  match ← loadSnapshot m.snapshot with
  | .error e => return .error ("load snapshot " ++ m.snapshot ++ ": " ++ e)
  | .ok snap =>
    match ← restore m.planID snap with
    | .error e => restoreFailed m e
    | .ok () => finishRollback a m

/-- Restores the armed snapshot; `ifExpired` does nothing before the deadline. -/
def rollbackPlan (a : Applier) (ifExpired : Bool) (planID : Nat) :
    Eff Net (Except String Bool) := do
  match ← readMarker with
  | .error e => return .error e
  | .ok none =>
    if planID ≠ 0 then
      return .error ("plan " ++ toString planID ++
        " is no longer pending; refresh to check its result")
    else return .ok false
  | .ok (some m) =>
    if planID ≠ 0 ∧ m.planID ≠ planID then
      return .error ("marker is for plan " ++ toString m.planID ++ ", not " ++ toString planID)
    else if ifExpired then
      let now ← now
      if m.expired now then restoreMarked a m else return .ok false
    else restoreMarked a m

/-! ## The process -/

/-- What takes the lock: an apply, a confirm or a rollback; the timer is the last with `ifExpired`
and no plan. -/
inductive Entry where
  | apply (p : Plan) (performedTakeover : Bool)
  | confirm (planID : Nat)
  | rollback (ifExpired : Bool) (planID : Nat)

def discard {α : Type} (p : Eff Net α) : Eff Net PUnit := do
  let _ ← p
  return ⟨⟩

def entry (a : Applier) : Entry → Eff Net PUnit
  | .apply p t => discard (apply a p t)
  | .confirm id => discard (confirm id)
  | .rollback ifExpired id => discard (rollbackPlan a ifExpired id)

abbrev Sys (Net : Type) := System (Call Net) (@Reply Net) (World Net)

/-- One step of the dead-man's process. -/
abbrev step (a : Applier) : Sys Net → Label Entry (Answer Net) → Option (Sys Net) :=
  System.step exec (entry a)

def Sys.init (net : Net) : Sys Net := ⟨World.init net, none⟩

/-! ## Rules

One rule per call for `Safe`: the condition at the call, then what has to be safe for each way it
can answer. The programs' proofs go through these and never unfold `exec`. -/

section Rules
variable {node : Call Net → World Net → Prop} {allowed : Call Net → Answer Net → Prop}
  {α : Type} {post : α → World Net → Prop} {w : World Net}

/-- An allowed answer to the call is the error `e`. -/
def CanFail (allowed : Call Net → Answer Net → Prop) (c : Call Net) (e : String) : Prop :=
  ∃ ans, allowed c ans ∧ ans.fault = some e

variable {c : Call Net} {path : String} {snap : Snapshot Net}

theorem CanFail.elim {e : String} {P : Prop} (h : CanFail allowed c e)
    (sound : ∀ ans, allowed c ans → ans.fault = none) : P := by
  obtain ⟨ans, ok, failed⟩ := h
  cases (sound ans ok).symm.trans failed

variable (node allowed post) in
/-- After an error of the call the rest is safe, with the world as it was. -/
abbrev Fails {β : Type} (k : Except String β → Eff Net α) (c : Call Net) (w : World Net) : Prop :=
  ∀ e, CanFail allowed c e → Safe exec node allowed post (k (.error e)) w

/-- The rule of a call, split by whether its answer is a fault. -/
private theorem safe_fallible {k : Reply c → Eff Net α} (here : node c w)
    (fails : ∀ e clock net, CanFail allowed c e →
      Safe exec node allowed post (k (exec c ⟨some e, clock, net⟩ w).1)
        (exec c ⟨some e, clock, net⟩ w).2) (done : ∀ clock net, allowed c ⟨none, clock, net⟩ →
      Safe exec node allowed post (k (exec c ⟨none, clock, net⟩ w).1)
        (exec c ⟨none, clock, net⟩ w).2) : Safe exec node allowed post (Prog.call c k) w := by
  refine ⟨here, fun ans ok => ?_⟩
  rcases ans with ⟨_ | e, clock, net⟩
  · exact done clock net ok
  · exact fails e clock net ⟨_, ok, rfl⟩

theorem safe_readMarker {k : Except String (Option Marker) → Eff Net α}
    (here : node .readMarker w)
    (fails : Fails node allowed post k .readMarker w)
    (done : Safe exec node allowed post (k (.ok w.marker)) w) :
    Safe exec node allowed post (readMarker >>= k) w :=
  safe_fallible here (fun e _ _ h => fails e h) fun _ _ _ => done

variable {k : Except String Unit → Eff Net α}

theorem safe_writeMarker {m : Marker} (here : node (.writeMarker m) w)
    (fails : Fails node allowed post k (.writeMarker m) w)
    (done : Safe exec node allowed post (k (.ok ())) (w.arm m)) :
    Safe exec node allowed post (writeMarker m >>= k) w :=
  safe_fallible here (fun e _ _ h => fails e h) fun _ _ _ => done

theorem safe_deleteMarker {why : Disarm} (here : node (.deleteMarker why) w)
    (fails : Fails node allowed post k (.deleteMarker why) w)
    (done : Safe exec node allowed post (k (.ok ())) (w.disarm why)) :
    Safe exec node allowed post (deleteMarker why >>= k) w :=
  safe_fallible here (fun e _ _ h => fails e h) fun _ _ _ => done

theorem safe_createRecord {r : ApplyRecord} {k : Except String Nat → Eff Net α}
    (here : node (.createRecord r) w)
    (fails : Fails node allowed post k (.createRecord r) w)
    (done : Safe exec node allowed post (k (.ok w.nextID)) (w.create r)) :
    Safe exec node allowed post (createRecord r >>= k) w :=
  safe_fallible here (fun e _ _ h => fails e h) fun _ _ _ => done

theorem safe_setPhase {id : Nat} {phase : Phase} {msg : String}
    (here : node (.setPhase id phase msg) w)
    (fails : Fails node allowed post k (.setPhase id phase msg) w)
    (done : Safe exec node allowed post (k (.ok ())) (w.record id phase msg)) :
    Safe exec node allowed post (setPhase id phase msg >>= k) w :=
  safe_fallible here (fun e _ _ h => fails e h) fun _ _ _ => done

theorem safe_capture {k : Except String (Snapshot Net) → Eff Net α} (here : node .capture w)
    (fails : Fails node allowed post k .capture w)
    (done : Safe exec node allowed post (k (.ok ⟨snapshotVersion, w.net⟩)) w) :
    Safe exec node allowed post (capture >>= k) w :=
  safe_fallible here (fun e _ _ h => fails e h) fun _ _ _ => done

theorem safe_saveSnapshot (here : node (.saveSnapshot path snap) w)
    (fails : Fails node allowed post k (.saveSnapshot path snap) w)
    (done : Safe exec node allowed post (k (.ok ())) (w.save path snap)) :
    Safe exec node allowed post (saveSnapshot path snap >>= k) w :=
  safe_fallible here (fun e _ _ h => fails e h) fun _ _ _ => done

theorem safe_loadSnapshot {k : Except String (Snapshot Net) → Eff Net α}
    (here : node (.loadSnapshot path) w) (fails : Fails node allowed post k (.loadSnapshot path) w)
    (done : Safe exec node allowed post (k (w.snaps path).load) w) :
    Safe exec node allowed post (loadSnapshot path >>= k) w :=
  safe_fallible here (fun e _ _ h => fails e h) fun _ _ _ => done

theorem safe_restore {plan : Nat} (here : node (.restore plan snap) w)
    (fails : ∀ e net, Safe exec node allowed post (k (.error e)) (w.putBackFailed plan net))
    (done : Safe exec node allowed post (k (.ok ())) (w.putBack plan snap)) :
    Safe exec node allowed post (restore plan snap >>= k) w :=
  safe_fallible here (fun e _ net _ => fails e net) fun _ _ _ => done

theorem safe_runOp {plan : Nat} {desc : String} (here : node (.runOp plan desc) w)
    (fails : ∀ e net, CanFail allowed (.runOp plan desc) e →
      Safe exec node allowed post (k (.error e)) (w.operate plan net))
    (done : ∀ net, Safe exec node allowed post (k (.ok ())) (w.operate plan net)) :
    Safe exec node allowed post (runOp plan desc >>= k) w :=
  safe_fallible here (fun e _ net h => fails e net h) fun _ net _ => done net

theorem safe_reload (here : node .reload w) (fails : ∀ e net, CanFail allowed .reload e →
      Safe exec node allowed post (k (.error e)) (w.reloaded net))
    (done : ∀ net, Safe exec node allowed post (k (.ok ())) (w.reloaded net)) :
    Safe exec node allowed post (reload >>= k) w :=
  safe_fallible here (fun e _ net h => fails e net h) fun _ net _ => done net

theorem safe_now {k : Int → Eff Net α} (here : node .now w)
    (next : ∀ ans, allowed .now ans → Safe exec node allowed post (k ans.clock) w) :
    Safe exec node allowed post (now >>= k) w := ⟨here, next⟩

theorem safe_onRollback {plan : Nat} {k : Unit → Eff Net α} (here : node (.onRollback plan) w)
    (next : Safe exec node allowed post (k ()) w) :
    Safe exec node allowed post (onRollback plan >>= k) w := ⟨here, fun _ _ => next⟩

/-- The reload where one is set, and nothing where none is. -/
theorem safe_reloadIf {a : Applier} (here : node .reload w)
    (fails : ∀ e net, CanFail allowed .reload e →
      Safe exec node allowed post (k (.error e)) (w.reloaded net))
    (done : ∀ net, Safe exec node allowed post (k (.ok ())) (w.reloaded net)) :
    Safe exec node allowed post (reloadIf a >>= k) w := by
  rw [reloadIf]
  split
  · exact safe_reload here fails done
  · exact done w.net

/-- Forgetting the result of a program that settles the world whatever it returns. -/
theorem safe_discard {p : Eff Net α} {inv : World Net → Prop}
    (h : Safe exec node allowed (fun _ => inv) p w) :
    Safe exec node allowed (fun _ => inv) (discard p) w :=
  safe_bind.mpr h

end Rules

/-! ## One walk through the programs -/

/-- What an invariant has to say of the calls for every program to keep it. `rest` holds between the
programs, `own` while a plan's record may be written, `mine` while the plan is the marker's, `ready`
while its operations run, and `back` once its snapshot is restored. -/
structure Walk (node : Call Net → World Net → Prop) (allowed : Call Net → Answer Net → Prop)
    (rest : World Net → Prop) (own : Nat → World Net → Prop)
    (mine ready back : Marker → World Net → Prop) : Prop where
  here : ∀ {w} c, rest w → node c w
  settles : ∀ {id w}, own id w → rest w
  record : ∀ {id w} phase msg, own id w → phase ≠ .confirmed → rest (w.record id phase msg)
  create : ∀ {w r}, rest w → w.marker = none → r.phase ≠ .confirmed → own w.nextID (w.create r)
  save : ∀ {w r} path snap, rest w → w.marker = none → r.phase ≠ .confirmed →
    own w.nextID ((w.create r).save path snap)
  arm : ∀ {w r m}, rest w → w.marker = none → r.phase ≠ .confirmed → m.planID = w.nextID →
    ready m (((w.create r).save m.snapshot ⟨snapshotVersion, w.net⟩).arm m)
  operate : ∀ {m w} net, ready m w → ready m (w.operate m.planID net)
  ran : ∀ {m w}, ready m w → mine m w ∧ ∀ net, mine m (w.reloaded net)
  armed : ∀ {m w}, rest w → w.marker = some m → mine m w
  owns : ∀ {m w}, mine m w → own m.planID w
  rearm : ∀ {m m' w}, mine m w → m'.planID = m.planID → m'.snapshot = m.snapshot →
    own m.planID (w.arm m')
  giveUp : ∀ {m w}, mine m w → own m.planID (w.disarm .budgetSpent)
  putBackFailed : ∀ {m w} net, mine m w → mine m (w.putBackFailed m.planID net)
  putBack : ∀ {m w} snap, mine m w → back m (w.putBack m.planID snap)
  returned : ∀ {m w}, back m w → mine m w ∧ ∀ net, back m (w.reloaded net)
  disarm : ∀ {m w}, back m w → own m.planID (w.disarm .restored)
  confirmed : ∀ {m w}, rest w → w.marker = some m →
    node (.deleteMarker .confirmed) (w.record m.planID .confirmed "") ∧
      (∀ e, CanFail allowed (.deleteMarker .confirmed) e →
        rest (w.record m.planID .confirmed "")) ∧
      rest ((w.record m.planID .confirmed "").disarm .confirmed)

section Walk
variable {node : Call Net → World Net → Prop} {allowed : Call Net → Answer Net → Prop}
  {rest : World Net → Prop} {own : Nat → World Net → Prop}
  {mine ready back : Marker → World Net → Prop} (walk : Walk node allowed rest own mine ready back)
  {α : Type} {w : World Net} {id : Nat} {m : Marker} {snap : Snapshot Net} {a : Applier}
  {cause : String} {p : Plan}
include walk

/-- Whatever is allowed to fail, and wherever the process stops. -/
abbrev Walk.Keeps (_ : Walk node allowed rest own mine ready back) (p : Eff Net α)
    (w : World Net) : Prop :=
  Safe exec node allowed (fun _ => rest) p w

theorem Walk.keeps_setPhase {phase : Phase} {msg : String} {k : Except String Unit → Eff Net α}
    (h : own id w) (other : phase ≠ .confirmed) (ends : ∀ r, ∃ a, k r = .ret a) :
    walk.Keeps (setPhase id phase msg >>= k) w := by
  refine safe_setPhase (walk.here _ (walk.settles h)) (fun e _ => ?_) ?_
  · obtain ⟨a, ha⟩ := ends (.error e)
    rw [ha]
    exact walk.settles h
  · obtain ⟨a, ha⟩ := ends (.ok ())
    rw [ha]
    exact walk.record phase msg h other

theorem Walk.keeps_failPlan {what e : String} (h : own id w) :
    walk.Keeps (failPlan id what e) w :=
  walk.keeps_setPhase h nofun fun _ => ⟨_, rfl⟩

theorem Walk.keeps_restoreFailure (h : mine m w) :
    walk.Keeps (restoreFailure m.planID snap cause) w := by
  refine safe_restore (walk.here _ (walk.settles (walk.owns h))) (fun e net => ?_) ?_
  · exact walk.keeps_setPhase (walk.owns (walk.putBackFailed net h)) nofun fun _ => ⟨_, rfl⟩
  have back := walk.putBack snap h
  have own := walk.owns (walk.returned back).1
  refine safe_deleteMarker (walk.here _ (walk.settles own)) (fun _ _ => ?_) ?_
  · exact walk.keeps_setPhase own nofun fun _ => ⟨_, rfl⟩
  · exact walk.keeps_setPhase (walk.disarm back) nofun fun _ => ⟨_, rfl⟩

theorem Walk.keeps_runOps {ops : List Op} (h : ready m w) :
    Safe exec node allowed (fun _ => ready m) (runOps m.planID ops) w := by
  induction ops generalizing w with
  | nil => exact h
  | cons op rest ih =>
    exact safe_runOp (walk.here _ (walk.settles (walk.owns (walk.ran h).1)))
      (fun _ net _ => walk.operate net h) fun net => ih (walk.operate net h)

theorem Walk.keeps_finishApply {record : ApplyRecord} (h : mine m w) :
    walk.Keeps (finishApply record m.planID snap m) w := by
  have here := fun c => walk.here c (walk.settles (walk.owns h))
  refine safe_now (here _) fun ans _ => ?_
  refine safe_writeMarker (here _) (fun _ _ => walk.keeps_restoreFailure h) ?_
  refine walk.keeps_setPhase (walk.rearm h rfl rfl) nofun fun r => ?_
  cases r with
  | error e => exact ⟨_, rfl⟩
  | ok _ => exact ⟨_, rfl⟩

theorem Walk.keeps_applyArmed {record : ApplyRecord} (plan : m.planID = id) (h : ready m w) :
    walk.Keeps (applyArmed a p record id snap m) w := by
  subst plan
  refine safe_bind.mpr (safe_mono (fun r w' ran => ?_) (walk.keeps_runOps h))
  obtain ⟨mine, reloaded⟩ := walk.ran ran
  cases r with
  | error e => exact walk.keeps_restoreFailure mine
  | ok _ =>
    exact safe_reloadIf (walk.here _ (walk.settles (walk.owns mine)))
      (fun _ net _ => walk.keeps_restoreFailure (reloaded net))
      fun net => walk.keeps_finishApply (reloaded net)

/-- Applying a plan keeps the invariant, wherever it stops. -/
theorem Walk.keeps_apply {t : Bool} (h : rest w) :
    walk.Keeps (apply a p t) w := by
  refine safe_readMarker (walk.here _ h) (fun _ _ => h) ?_
  cases hm : w.marker with
  | some m => exact h
  | none =>
    refine safe_createRecord (walk.here _ h) (fun _ _ => h) ?_
    have planned : (plannedRecord p t).phase ≠ .confirmed := nofun
    have created := walk.create h hm planned
    have here := fun c => walk.here c (walk.settles created)
    refine safe_capture (here _) (fun _ _ => walk.keeps_failPlan created) ?_
    refine safe_saveSnapshot (here _) (fun _ _ => walk.keeps_failPlan created) ?_
    have saved := fun path snap => walk.save path snap h hm planned
    refine safe_now (walk.here _ (walk.settles (saved _ _))) fun ans _ => ?_
    refine safe_writeMarker (walk.here _ (walk.settles (saved _ _)))
      (fun _ _ => walk.keeps_failPlan (saved _ _)) ?_
    exact walk.keeps_applyArmed rfl (walk.arm h hm planned rfl)

theorem Walk.keeps_restoreFailed (h : mine m w) :
    walk.Keeps (restoreFailed m cause) w := by
  have still := walk.settles (walk.owns h)
  rw [restoreFailed]
  split
  · exact safe_writeMarker (walk.here _ still) (fun _ _ => still)
      (walk.settles (walk.rearm h rfl rfl))
  refine safe_deleteMarker (walk.here _ still) (fun _ _ => still) ?_
  have given := walk.giveUp h
  refine walk.keeps_setPhase given nofun fun r => ?_
  cases r with
  | error e => exact ⟨_, rfl⟩
  | ok _ => exact ⟨_, rfl⟩

/-- So does a confirmation. -/
theorem Walk.keeps_confirm (h : rest w) :
    walk.Keeps (confirm id) w := by
  refine safe_readMarker (walk.here _ h) (fun _ _ => h) ?_
  cases hm : w.marker with
  | none => exact h
  | some m =>
    dsimp only
    split
    · exact h
    refine safe_now (walk.here _ h) fun ans _ => ?_
    split
    · exact h
    · obtain ⟨at_, fails, done⟩ := walk.confirmed h hm
      exact safe_setPhase (walk.here _ h) (fun _ _ => h) (safe_deleteMarker at_ fails done)

theorem Walk.keeps_recordRollback (h : back m w) :
    walk.Keeps (recordRollback m) w := by
  have still := walk.settles (walk.owns (walk.returned h).1)
  refine safe_deleteMarker (walk.here _ still) (fun _ _ => still) ?_
  have disarmed := walk.settles (walk.disarm h)
  refine safe_setPhase (walk.here _ disarmed) (fun _ _ => disarmed) ?_
  have recorded := walk.record .rolledBack "confirm window expired" (walk.disarm h) nofun
  exact safe_onRollback (walk.here _ recorded) recorded

theorem Walk.keeps_restoreMarked (h : mine m w) :
    walk.Keeps (restoreMarked a m) w := by
  have still := walk.settles (walk.owns h)
  refine safe_loadSnapshot (walk.here _ still) (fun _ _ => still) ?_
  cases (w.snaps m.snapshot).load with
  | error e => exact still
  | ok snap =>
    refine safe_restore (walk.here _ still) (fun e net => ?_) ?_
    · exact walk.keeps_restoreFailed (walk.putBackFailed net h)
    obtain ⟨mine, reloaded⟩ := walk.returned (walk.putBack snap h)
    exact safe_reloadIf (walk.here _ (walk.settles (walk.owns mine)))
      (fun _ net _ => walk.keeps_restoreFailed (walk.returned (reloaded net)).1)
      fun net => walk.keeps_recordRollback (reloaded net)

/-- So does a rollback, asked for or expired. -/
theorem Walk.keeps_rollbackPlan {ifExpired : Bool} (h : rest w) :
    walk.Keeps (rollbackPlan a ifExpired id) w := by
  refine safe_readMarker (walk.here _ h) (fun _ _ => h) ?_
  cases hm : w.marker with
  | none =>
    dsimp only
    split
    · exact h
    · exact h
  | some m =>
    have armed := walk.armed h hm
    dsimp only
    split
    · exact h
    split
    · refine safe_now (walk.here _ h) fun ans _ => ?_
      split
      · exact walk.keeps_restoreMarked armed
      · exact h
    · exact walk.keeps_restoreMarked armed

/-- **Every program keeps it.** -/
theorem Walk.keeps_entry (e : Entry) (w : World Net) (h : rest w) :
    walk.Keeps (entry a e) w := by
  cases e with
  | apply p t => exact safe_discard (walk.keeps_apply h)
  | confirm id => exact safe_discard (walk.keeps_confirm h)
  | rollback ifExpired id => exact safe_discard (walk.keeps_rollbackPlan h)

end Walk

end NasnetPanel.Deadman
