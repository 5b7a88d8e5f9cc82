import NasnetPanel.Lib.CrashProg

/-!
# RemoteNodes.Store — the state of the remote nodes, in memory and in one file

`remotenodes/store` keeps the state in memory and in `state.json`. `Update` runs an edit on a copy,
checks and encodes it, writes a temporary file, renames it over the old one and only then shows the
new state to readers; `Restore` is an `Update` with an edit of its own; `Open` reads the file.

The edit's copy is a variable of `Update` that the edit may have kept a pointer to: `look` reads it,
and the answer says what a pointer made of it by then. The process may stop before any call on the
disk, or the machine, which then comes back with any version of the file since the directory was
last synced.

A state is modelled by what the store itself reads of it (the caps, the counters, the CA, installs
that run); the rest is a parameter, with `Validate` and the form of the file (`Format`). The copy
`Open` keeps of a file it refuses is not modelled.
-/

namespace NasnetPanel.RemoteNodes.Store
open CrashProg CrashProg.Prog

abbrev Bytes := List UInt8

/-! ## The state -/

structure InstallFailure where
  step : String := ""
  stepKey : String := ""
  error : String := ""
  cleanup : String := ""
  at_ : Option Int := none
deriving DecidableEq, Repr

def unknownFailure : String :=
  "The install did not finish, and the job that ran it is gone, so the hub can't say why."

/-- A node: whether it is being installed, what came of that, and the rest of its record. -/
structure Node (R : Type) where
  installing : Bool
  failure : InstallFailure := {}
  rest : R
deriving DecidableEq, Repr

structure State (R U X : Type) where
  nextNodeID : Nat
  nextSubscriptionID : Nat
  caCert : String
  nodes : List (Node R)
  subscriptions : List U
  rest : X
deriving DecidableEq, Repr

variable {R U X : Type}

def Node.unfinished (n : Node R) : Bool := n.installing && n.failure.error ≠ ""

def Node.settle (n : Node R) : Node R :=
  if n.installing ∧ n.failure.error = "" then { n with failure := { error := unknownFailure } }
  else n

namespace State

def nodeCount (s : State R U X) : Nat := (s.nodes.filter (!·.unfinished)).length

/-- Installs that run become unfinished ones: for a state read from a file. -/
def settleInstalls (s : State R U X) : State R U X := { s with nodes := s.nodes.map (·.settle) }

end State

inductive Error where
  | edit (err : String)
  | invalid
  | nodeLimit
  | subscriptionLimit
  | counterBack
  | droppedCA
  | encode
  | disk
  | notEmpty
  | badSnapshot
  | unread
  | corrupt
deriving DecidableEq, Repr

def maxNodes : Nat := 3

def maxSubscriptions : Nat := 10

/-- What a fresh install starts with. -/
def newState (defaults : X) : State R U X := ⟨1, 1, "", [], [], defaults⟩

/-- `Validate` and the form of the file. Reading undoes writing on valid states, and a valid state
stays so when its running installs are settled. -/
structure Format (R U X : Type) where
  defaults : X
  validate : State R U X → Bool
  encode : State R U X → Option Bytes
  /-- `json.Unmarshal`, after the check of the version. -/
  parse : Bytes → Option (State R U X)
  undoes : ∀ s b, validate s = true → encode s = some b → parse b = some s
  settles : ∀ s, validate s = true → validate s.settleInstalls = true
  fresh : validate (newState defaults) = true

namespace Format

def decode (F : Format R U X) (b : Bytes) : Option (State R U X) :=
  match F.parse b with
  | none => none
  | some s => if F.validate s then some s.settleInstalls else none

def checkEdit (F : Format R U X) (s before : State R U X) : Option Error :=
  if !F.validate s then some .invalid
  else if maxNodes < s.nodeCount ∧ before.nodeCount < s.nodeCount then some .nodeLimit
  else if maxSubscriptions < s.subscriptions.length ∧
      before.subscriptions.length < s.subscriptions.length then some .subscriptionLimit
  else if s.nextNodeID < before.nextNodeID ∨ s.nextSubscriptionID < before.nextSubscriptionID then
    some .counterBack
  else if before.caCert ≠ "" ∧ s.caCert = "" then some .droppedCA
  else none

end Format

/-! ## Memory and disk -/

/-- The fields of a `Store`. -/
structure Mem (R U X : Type) where
  cur : State R U X
  enc : Bytes
  writes : Nat := 0
deriving DecidableEq, Repr

structure World (R U X : Type) where
  /-- The store of the process, if one is open. -/
  mem : Option (Mem R U X) := none
  /-- `state.json`. -/
  file : Option Bytes := none
  temp : Option Bytes := none
  /-- What a power cut may bring the file back to. -/
  versions : List (Option Bytes)
  /-- The directory was not synced after the last rename: the sync failed, or the process died
  before it. Not in the source. -/
  unsynced : Bool := false
deriving DecidableEq, Repr

inductive Call (R U X : Type) where
  /-- The edit's copy, read. -/
  | look (next : State R U X)
  | createTemp
  | chmod
  | write (data : Bytes)
  | sync
  | close
  | removeTemp
  | rename
  | syncDir
  | publish (cur : State R U X) (enc : Bytes)
  | readFile
  | boot (cur : State R U X) (enc : Bytes)

/-- How a call goes. -/
structure Answer (R U X : Type) where
  fails : Bool := false
  /-- How much of a failing write got to the file. -/
  part : Nat := 0
  /-- What a kept pointer has made of the edit's copy. -/
  meddled : Option (State R U X) := none

abbrev Reply : Call R U X → Type
  | .look _ => State R U X
  | .readFile => Option (Option Bytes)
  | _ => Bool

def exec : (c : Call R U X) → Answer R U X → World R U X → Reply c × World R U X
  | .look next, ans, w => (ans.meddled.getD next, w)
  | .createTemp, ans, w => if ans.fails then (false, w) else (true, { w with temp := some [] })
  | .chmod, ans, w => (!ans.fails, w)
  | .write data, ans, w =>
    if ans.fails then (false, { w with temp := w.temp.map (· ++ data.take ans.part) })
    else (true, { w with temp := w.temp.map (· ++ data) })
  | .sync, ans, w => (!ans.fails, w)
  | .close, ans, w => (!ans.fails, w)
  | .removeTemp, ans, w => if ans.fails then (false, w) else (true, { w with temp := none })
  | .rename, ans, w =>
    if ans.fails then (false, w)
    else (true, { w with file := w.temp, temp := none, versions := w.temp :: w.versions })
  | .syncDir, ans, w =>
    if ans.fails then (false, { w with unsynced := true })
    else (true, { w with versions := [w.file], unsynced := false })
  | .publish cur enc, _, w =>
    (true, { w with mem := some ⟨cur, enc, (w.mem.elim 0 (·.writes)) + 1⟩ })
  | .readFile, ans, w => (if ans.fails then none else some w.file, w)
  | .boot cur enc, _, w => (true, { w with mem := some ⟨cur, enc, 0⟩ })

abbrev Program (R U X : Type) := ExceptT Error (Prog (Call R U X) Reply)

abbrev ask (c : Call R U X) : Program R U X (Reply c) := request c

/-! ## Saving -/

/-- The steps of `writeTemp` up to the one that fails. -/
def fillTemp (data : Bytes) : Program R U X Bool := do
  if ← ask .chmod then
    if ← ask (.write data) then ask .sync else pure false
  else pure false

/-- Fills the file and closes it, whatever happens. -/
def writeTemp (data : Bytes) : Program R U X Bool := do
  let filled ← fillTemp data
  let closed ← ask .close
  pure (filled && closed)

/-- A temporary file is dropped and the write has failed. -/
def giveUp : Program R U X Unit := do
  let _ ← ask .removeTemp
  throw .disk

def writeAtomic (data : Bytes) : Program R U X Unit := do
  ensure (← ask .createTemp) .disk
  if ← writeTemp data then
    if ← ask .rename then
      -- A directory that cannot be synced is no error.
      let _ ← ask .syncDir
      pure ()
    else giveUp
  else giveUp

/-! ## Update, Restore, Open -/

abbrev Edit (R U X : Type) := State R U X → Except Error (State R U X)

/-- What follows the checks: the bytes are written where they differ, and the copy is shown. -/
def save (m : Mem R U X) (next : State R U X) (enc : Bytes) : Program R U X Unit :=
  if enc = m.enc then pure ()
  else do
    writeAtomic enc
    let published ← ask (.look next)
    let _ ← ask (.publish published enc)

namespace Format
variable (F : Format R U X)

def update (m : Mem R U X) (fn : Edit R U X) : Program R U X Unit :=
  match fn m.cur with
  | .error e => throw e
  | .ok next => do
    let checked ← ask (.look next)
    match F.checkEdit checked m.cur with
    | some e => throw e
    | none => do
      let encoded ← ask (.look checked)
      match F.encode encoded with
      | none => throw .encode
      | some enc => save m encoded enc

/-- The edit of `Restore`: the counters never go back. -/
def restoring (restored : State R U X) : Edit R U X := fun s =>
  if s.nodes ≠ [] ∨ s.subscriptions ≠ [] then .error .notEmpty
  else .ok { restored with
    nextNodeID := max restored.nextNodeID s.nextNodeID
    nextSubscriptionID := max restored.nextSubscriptionID s.nextSubscriptionID }

def restore (m : Mem R U X) (data : Bytes) : Program R U X Unit :=
  match F.decode data with
  | none => throw .badSnapshot
  | some restored => F.update m (restoring restored)

def boot (s : State R U X) : Program R U X Unit :=
  match F.encode s with
  | none => throw .encode
  | some enc => do
    let _ ← ask (.boot s enc)

/-- `Open`. Temporary files a crash left go first; a file that cannot be used is left alone. -/
def openStore : Program R U X Unit := do
  let _ ← ask .removeTemp
  match ← ask .readFile with
  | none => throw .unread
  | some none => F.boot (newState F.defaults)
  | some (some b) =>
    match F.decode b with
    | none => throw .corrupt
    | some s => F.boot s

end Format

inductive Op (R U X : Type) where
  | update (fn : Edit R U X)
  | restore (data : Bytes)

namespace Op

def program (F : Format R U X) (m : Mem R U X) : Op R U X → Program R U X Unit
  | .update fn => F.update m fn
  | .restore data => F.restore m data

/-- What a call wants of the state. -/
def edit (F : Format R U X) : Op R U X → Edit R U X
  | .update fn => fn
  | .restore data => fun s =>
    match F.decode data with
    | none => .error .badSnapshot
    | some restored => Format.restoring restored s

end Op

/-! ## The process -/

structure System (R U X : Type) where
  world : World R U X
  running : Option (Prog (Call R U X) Reply (Except Error Unit)) := none

inductive Label (R U X : Type) where
  | openStore
  | call (op : Op R U X)
  | advance (ans : Answer R U X)
  /-- The process dies. -/
  | kill
  /-- The machine dies, and comes back with one of the versions of the file. -/
  | powerCut (version : Nat)

/-- Calls run one at a time, under the lock. -/
def step (F : Format R U X) (s : System R U X) : Label R U X → Option (System R U X)
  | .openStore =>
    match s.world.mem, s.running with
    | none, none => some { s with running := some F.openStore.run }
    | _, _ => none
  | .call op =>
    match s.world.mem, s.running with
    | some m, none => some { s with running := some (op.program F m).run }
    | _, _ => none
  | .advance ans =>
    match s.running with
    | none => none
    | some (.ret _) => some { s with running := none }
    | some (.call c k) => some ⟨(exec c ans s.world).2, some (k (exec c ans s.world).1)⟩
  | .kill =>
    some ⟨{ s.world with
      mem := none
      unsynced := s.world.unsynced || s.world.versions ≠ [s.world.file] }, none⟩
  | .powerCut version =>
    s.world.versions[version]?.map fun file =>
      ⟨{ s.world with mem := none, file := file, versions := [file], unsynced := false }, none⟩

def installed (file : Option Bytes) : System R U X := ⟨{ file := file, versions := [file] }, none⟩

end NasnetPanel.RemoteNodes.Store
