import Mathlib.Algebra.Group.Int.Defs
import Mathlib.Data.List.Sort
import NasnetPanel.Lib.CrashProg

/-!
# Provisioning.Worker — the task queue and its worker

`provisioning/worker/worker.go` over `provisioning/repository`. A task adds a user to an inbound of
a node or removes it; the worker fetches what is due, marks one task at a time as processing, goes
to the node's agent, and writes the outcome back. `processTask`, `addUserToXray`,
`removeUserFromXray` and `handleFailure` are the source's functions as programs over atomic calls:
each database statement and each agent call may fail, and the process may stop between any two.

Other goroutines enqueue tasks, cancel a deleted node's tasks and clean up old ones while the worker
runs. What they did since the worker's last call is part of the answer to its next one.

An agent holds the users of each inbound. A call that fails may have taken effect, with its reply
lost. A full config push leaves the users as the answer says: which accounts it carries is decided
elsewhere.

The world carries a log of what was started and what was completed. It is not in the source.
-/

namespace NasnetPanel.Provisioning
open CrashProg CrashProg.Prog

/-! ## Tasks -/

inductive TaskType where
  | addUser
  | removeUser
  | other (name : String)
deriving DecidableEq, Repr

inductive TaskStatus where
  | pending | processing | failed | completed | dead
deriving DecidableEq, Repr

/-- A user of an inbound: who an add or a remove is about. -/
structure User where
  nodeID : Nat
  inboundTag : String
  email : String
deriving DecidableEq, Repr

/-- What an agent keeps for a user. -/
structure Credentials where
  uuid : String
  protocol : String
  flow : String
  encryption : String
deriving DecidableEq, Repr

/-- A row of `provisioning_tasks`. `deleted` is the soft delete. -/
structure ProvisioningTask where
  id : Nat
  type : TaskType
  status : TaskStatus
  user : User
  userUUID : String
  userFlow : String
  userEncryption : String
  protocol : String
  retryCount : Nat
  nextRetryAt : Int
  createdAt : Int
  deleted : Bool
deriving DecidableEq, Repr

def toLower (s : String) : String := String.ofList (s.toList.map Char.toLower)

namespace ProvisioningTask

/-- `strings.EqualFold(task.Protocol, "wireguard")`. -/
def isWireGuard (t : ProvisioningTask) : Bool := toLower t.protocol == "wireguard"

/-- The protocol, flow and encryption as the worker sends them, with its defaults. -/
def credentials (t : ProvisioningTask) : Credentials :=
  let protocol := if toLower t.protocol = "" then "vless" else toLower t.protocol
  let encryption :=
    if t.userEncryption = "" ∧ protocol = "vless" then "none" else t.userEncryption
  ⟨t.userUUID, protocol, t.userFlow, encryption⟩

end ProvisioningTask

/-! ## Enqueueing -/

structure Inbound where
  nodeID : Nat
  tag : String
  protocol : String
deriving DecidableEq, Repr

structure Account where
  inbound : Option Inbound
  email : String
  uuid : String
  flow : String
  encryption : String
deriving DecidableEq, Repr

/-- The row gets the next id, and is due now. -/
def enqueue (rows : List ProvisioningTask) (now : Int) (t : ProvisioningTask) :
    List ProvisioningTask :=
  rows ++ [{ t with id := rows.length + 1, nextRetryAt := now, createdAt := now }]

/-- A task as the service makes it: pending, never tried. -/
def newTask (type : TaskType) (acc : Account) (inb : Inbound) (flow encryption : String) :
    ProvisioningTask :=
  { id := 0, type := type, status := .pending
    user := ⟨inb.nodeID, inb.tag, acc.email⟩
    userUUID := acc.uuid, userFlow := flow, userEncryption := encryption
    protocol := inb.protocol, retryCount := 0, nextRetryAt := 0, createdAt := 0
    deleted := false }

/-- `EnqueueAddUser`; an account without an inbound is refused. -/
def enqueueAddUser (rows : List ProvisioningTask) (now : Int) (acc : Account) :
    List ProvisioningTask :=
  match acc.inbound with
  | none => rows
  | some inb => enqueue rows now (newTask .addUser acc inb acc.flow acc.encryption)

/-- Flow and encryption are left empty. -/
def enqueueRemoveUser (rows : List ProvisioningTask) (now : Int) (acc : Account) :
    List ProvisioningTask :=
  match acc.inbound with
  | none => rows
  | some inb => enqueue rows now (newTask .removeUser acc inb "" "")

/-! ## The repository -/

/-- What `WHERE id = ?` does to a row; a deleted one is out of reach. -/
def onRow (id : Nat) (f : ProvisioningTask → ProvisioningTask) (r : ProvisioningTask) :
    ProvisioningTask :=
  if r.id = id ∧ r.deleted = false then f r else r

def updateRow (id : Nat) (f : ProvisioningTask → ProvisioningTask) (rows : List ProvisioningTask) :
    List ProvisioningTask :=
  rows.map (onRow id f)

/-- The rows `FetchPending` selects: pending or failed, and due. -/
def due (now : Int) (r : ProvisioningTask) : Bool :=
  (r.status = .pending ∨ r.status = .failed) ∧ r.nextRetryAt ≤ now ∧ r.deleted = false

/-- `ORDER BY next_retry_at ASC`, rows with one time in the order the database gives them. -/
def retryOrder (tie : Nat → Nat) (a b : ProvisioningTask) : Prop :=
  a.nextRetryAt < b.nextRetryAt ∨ (a.nextRetryAt = b.nextRetryAt ∧ tie a.id ≤ tie b.id)

instance (tie : Nat → Nat) : DecidableRel (retryOrder tie) := fun _ _ =>
  inferInstanceAs (Decidable (_ ∨ _))

def fetchPending (rows : List ProvisioningTask) (now : Int) (tie : Nat → Nat) (limit : Nat) :
    List ProvisioningTask :=
  ((rows.filter (due now)).insertionSort (retryOrder tie)).take limit

def setStatus (status : TaskStatus) (r : ProvisioningTask) : ProvisioningTask :=
  { r with status := status }

def failRow (nextRetry : Int) (isDead : Bool) (r : ProvisioningTask) : ProvisioningTask :=
  { r with
    status := if isDead then .dead else .failed
    nextRetryAt := nextRetry
    retryCount := r.retryCount + 1 }

def cancelTasksForNode (nodeID : Nat) (rows : List ProvisioningTask) : List ProvisioningTask :=
  rows.map fun r =>
    if r.user.nodeID = nodeID ∧ r.deleted = false ∧
        (r.status = .pending ∨ r.status = .processing ∨ r.status = .failed)
    then setStatus .dead r else r

/-- `CleanupCompletedTasks`, a soft delete. -/
def cleanupCompletedTasks (cutoff : Int) (rows : List ProvisioningTask) : List ProvisioningTask :=
  rows.map fun r =>
    if (r.status = .completed ∨ r.status = .dead) ∧ r.createdAt < cutoff
    then { r with deleted := true } else r

/-! ## Agents -/

/-- What the worker tells an agent's errors apart by: the text it looks for in them. -/
inductive AgentError where
  | unsupportedProtocol | alreadyExists | notFound | other
deriving DecidableEq, Repr

/-- An agent call is served, refused for its protocol, or fails; a failed one may have taken
effect. -/
inductive AgentAnswer where
  | served
  | unsupported
  | failed (tookEffect : Bool)
deriving DecidableEq, Repr

abbrev Users := User → Option Credentials

/-- `AddUser`: an email that is there is not overwritten. -/
def Users.add (users : Users) (u : User) (c : Credentials) : Except AgentError Unit × Users :=
  match users u with
  | some _ => (.error .alreadyExists, users)
  | none => (.ok (), Function.update users u (some c))

def Users.remove (users : Users) (u : User) : Except AgentError Unit × Users :=
  match users u with
  | some _ => (.ok (), Function.update users u none)
  | none => (.error .notFound, users)

def Users.pushed (users : Users) (nodeID : Nat) (sent : Users) : Users :=
  fun u => if u.nodeID = nodeID then sent u else users u

/-- What the worker sees of a call the agent would serve as `served`. -/
def AgentAnswer.apply (ans : AgentAnswer) (users : Users)
    (served : Except AgentError Unit × Users) : Except AgentError Unit × Users :=
  match ans with
  | .served => served
  | .unsupported => (.error .unsupportedProtocol, users)
  | .failed tookEffect => (.error .other, if tookEffect then served.2 else users)

/-- `GetNode`: the node with its in-service flag, no such node, or a failed read. -/
inductive NodeAnswer where
  | found (isActive : Bool)
  | notFound
  | failed
deriving DecidableEq, Repr

/-! ## Calls -/

/-- What other goroutines do between two calls of the worker. -/
inductive Outside where
  | enqueueAdd (now : Int) (acc : Account)
  | enqueueRemove (now : Int) (acc : Account)
  | cancelNode (nodeID : Nat)
  | cleanup (cutoff : Int)
deriving DecidableEq, Repr

/-- What happened: the worker took up a task, or a task was written down as completed. -/
inductive Event where
  | started (id : Nat) (user : User)
  | completed (id : Nat) (user : User)
deriving DecidableEq, Repr

structure World where
  rows : List ProvisioningTask
  users : Users
  log : List Event

def World.init : World := ⟨[], fun _ => none, []⟩

inductive Call where
  | fetchPending (limit : Nat)
  | markProcessing (task : ProvisioningTask)
  | markSuccess (task : ProvisioningTask)
  | markFailed (task : ProvisioningTask) (nextRetry : Int) (isDead : Bool)
  | getNode (nodeID : Nat)
  | addUserViaAgent (user : User) (cred : Credentials)
  | removeUserViaAgent (user : User)
  | pushConfigViaAgent (nodeID : Nat)
  | now
  | tick

/-- What the worker gets back from a call. -/
abbrev Reply : Call → Type
  | .fetchPending _ => Except Unit (List ProvisioningTask)
  | .getNode _ => NodeAnswer
  | .addUserViaAgent _ _ => Except AgentError Unit
  | .removeUserViaAgent _ => Except AgentError Unit
  | .pushConfigViaAgent _ => Except AgentError Unit
  | .now => Int
  | .tick => Unit
  | _ => Except Unit Unit

/-- How the environment answers a call: what the others did before it, whether the statement
succeeds, the clock, the order of equal retry times, the node, the agent, and the users a full push
leaves. -/
structure Answer where
  outside : List Outside := []
  ok : Bool := true
  clock : Int := 0
  tie : Nat → Nat := id
  node : NodeAnswer := .found true
  agent : AgentAnswer := .served
  pushed : Users := fun _ => none

def Outside.apply (rows : List ProvisioningTask) : Outside → List ProvisioningTask
  | .enqueueAdd now acc => enqueueAddUser rows now acc
  | .enqueueRemove now acc => enqueueRemoveUser rows now acc
  | .cancelNode nodeID => cancelTasksForNode nodeID rows
  | .cleanup cutoff => cleanupCompletedTasks cutoff rows

namespace World

def after (w : World) (ans : Answer) : World :=
  { w with rows := ans.outside.foldl Outside.apply w.rows }

def write (w : World) (ok : Bool) (f : List ProvisioningTask → List ProvisioningTask)
    (events : List Event) : Except Unit Unit × World :=
  if ok then (.ok (), { w with rows := f w.rows, log := w.log ++ events }) else (.error (), w)

def onAgent (w : World) (r : Except AgentError Unit × Users) : Except AgentError Unit × World :=
  (r.1, { w with users := r.2 })

end World

def reachable (rows : List ProvisioningTask) (id : Nat) : Bool :=
  rows.any fun r => r.id = id ∧ r.deleted = false

def exec : (c : Call) → Answer → World → Reply c × World
  | .fetchPending limit, ans, w =>
    let w := w.after ans
    (if ans.ok then .ok (fetchPending w.rows ans.clock ans.tie limit) else .error (), w)
  | .markProcessing t, ans, w =>
    (w.after ans).write ans.ok (updateRow t.id (setStatus .processing)) [.started t.id t.user]
  | .markSuccess t, ans, w =>
    let w := w.after ans
    w.write ans.ok (updateRow t.id (setStatus .completed))
      (if reachable w.rows t.id then [.completed t.id t.user] else [])
  | .markFailed t nextRetry isDead, ans, w =>
    (w.after ans).write ans.ok (updateRow t.id (failRow nextRetry isDead)) []
  | .getNode _, ans, w => (ans.node, w.after ans)
  | .addUserViaAgent u c, ans, w =>
    (w.after ans).onAgent (ans.agent.apply w.users (w.users.add u c))
  | .removeUserViaAgent u, ans, w =>
    (w.after ans).onAgent (ans.agent.apply w.users (w.users.remove u))
  | .pushConfigViaAgent nodeID, ans, w =>
    (w.after ans).onAgent (ans.agent.apply w.users (.ok (), w.users.pushed nodeID ans.pushed))
  | .now, ans, w => (ans.clock, w.after ans)
  | .tick, ans, w => ((), w.after ans)

/-! ## The worker -/

abbrev Program := Prog Call Reply

abbrev ask (c : Call) : Program (Reply c) := perform c

/-- `Config`; the base backoff in seconds. -/
structure Config where
  maxRetries : Nat := 10
  baseBackoff : Nat := 10
  batchSize : Nat := 20
deriving DecidableEq, Repr

/-- Why a task was not carried out. -/
inductive TaskError where
  | noNodeID
  | getNode
  | agent (e : AgentError)
  | removeForReAdd (e : AgentError)
  | unknownType (name : String)
deriving DecidableEq, Repr

def ofAgent : Except AgentError Unit → Except TaskError Unit
  | .ok _ => .ok ()
  | .error e => .error (.agent e)

/-- The second `AddUserViaAgent`: a user who is there again after all is taken as added. -/
def addAgain (task : ProvisioningTask) : Program (Except TaskError Unit) := do
  match ← ask (.addUserViaAgent task.user task.credentials) with
  | .error .alreadyExists => return .ok ()
  | r => return ofAgent r

/-- `RemoveUserViaAgent`, then `AddUserViaAgent` again: the current credentials over stale ones. -/
def reAddUser (task : ProvisioningTask) : Program (Except TaskError Unit) := do
  match ← ask (.removeUserViaAgent task.user) with
  | .error .unsupportedProtocol => return .error (.removeForReAdd .unsupportedProtocol)
  | .error .alreadyExists => return .error (.removeForReAdd .alreadyExists)
  | .error .other => return .error (.removeForReAdd .other)
  | .ok _ | .error .notFound => addAgain task

def addUserToXray (task : ProvisioningTask) : Program (Except TaskError Unit) := do
  if task.isWireGuard then return .ok ()
  if task.user.nodeID = 0 then return .error .noNodeID
  match ← ask (.getNode task.user.nodeID) with
  | .notFound => return .ok ()
  | .failed => return .error .getNode
  | .found isActive =>
    if !isActive then return .ok ()
    match ← ask (.addUserViaAgent task.user task.credentials) with
    | .error .unsupportedProtocol =>
      return ofAgent (← ask (.pushConfigViaAgent task.user.nodeID))
    | .error .alreadyExists => reAddUser task
    | r => return ofAgent r

def removeUserFromXray (task : ProvisioningTask) : Program (Except TaskError Unit) := do
  if task.isWireGuard then return .ok ()
  if task.user.nodeID = 0 then return .error .noNodeID
  match ← ask (.getNode task.user.nodeID) with
  | .notFound => return .ok ()
  | .failed => return .error .getNode
  | .found _ =>
    match ← ask (.removeUserViaAgent task.user) with
    | .error .notFound => return .ok ()
    | .error .unsupportedProtocol =>
      return ofAgent (← ask (.pushConfigViaAgent task.user.nodeID))
    | r => return ofAgent r

/-- Step 2 of `processTask`. -/
def execute (task : ProvisioningTask) : Program (Except TaskError Unit) :=
  match task.type with
  | .addUser => addUserToXray task
  | .removeUser => removeUserFromXray task
  | .other name => return .error (.unknownType name)

/-- Retry after `BaseBackoff * 2^retry`; a task that spent its retries is dead. The outcome of the
write is not looked at. -/
def handleFailure (cfg : Config) (task : ProvisioningTask) : Program PUnit := do
  let now ← ask .now
  let nextRetry := now + 2 ^ task.retryCount * cfg.baseBackoff
  let _ ← ask (.markFailed task nextRetry (cfg.maxRetries ≤ task.retryCount))
  return ⟨⟩

def processTask (cfg : Config) (task : ProvisioningTask) : Program PUnit := do
  match ← ask (.markProcessing task) with
  | .error _ => return ⟨⟩
  | .ok _ =>
    match ← execute task with
    | .ok _ =>
      let _ ← ask (.markSuccess task)
      return ⟨⟩
    | .error _ => handleFailure cfg task

def processAll (cfg : Config) : List ProvisioningTask → Program PUnit
  | [] => return ⟨⟩
  | t :: ts => do
    processTask cfg t
    processAll cfg ts

def processBatch (cfg : Config) : Program PUnit := do
  match ← ask (.fetchPending cfg.batchSize) with
  | .error _ => return ⟨⟩
  | .ok tasks => processAll cfg tasks

/-- What the process does next: work through a batch, or wait for the ticker. -/
inductive Entry where
  | processBatch
  | wait
deriving DecidableEq, Repr

def Entry.program (cfg : Config) : Entry → Program PUnit
  | .processBatch => Provisioning.processBatch cfg
  | .wait => ask .tick

/-- One step of the process: a program starts, makes its next call, or the process stops. -/
def step (cfg : Config) : System Call Reply World → Label Entry Answer →
    Option (System Call Reply World) :=
  System.step exec (Entry.program cfg)

/-- The process as it first starts: nothing enqueued, nothing running. -/
def boot : System Call Reply World := ⟨World.init, none⟩

end NasnetPanel.Provisioning
