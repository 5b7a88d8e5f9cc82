import NasnetPanel.Lib.Runs

/-!
# RemoteNodes.Supervisor — the supervisor of the bridge

`bridgectl.Supervisor` keeps one bridge child running. `Start`, `Update` and `Stop` run one at a
time under the mutex `ctl`; a loop owns the child, waits for it to die, starts it again after a
while, and takes commands in between. Caller and loop meet at an unbuffered channel, and the loop
says that it is over by closing another.

The steps are those of the source: a critical section of the mutex `mu` is one step, and so are a
send that meets its receive, a process that starts, and a case of a `select` that is taken. A child
may die at any time, a launch may fail, and a child may ignore the stop until it is killed and as
long after as it likes. A loop is made by each start and has its own place, whatever the others do.

Times, the wait between two starts and how a child ended are not modelled: the timer of the wait may
fire at once or late. `Status` reads what it reads under `mu` and changes nothing.
-/

namespace NasnetPanel.RemoteNodes.Supervisor

variable {S : Type}

/-! ## The parties -/

inductive Op (S : Type) where
  | start (spec : S)
  | update (spec : S)
  | stop
deriving DecidableEq, Repr

def Op.spec : Op S → Option S
  | .start s => some s
  | .update s => some s
  | .stop => none

def Op.isStop : Op S → Bool
  | .stop => true
  | _ => false

inductive Result where
  | ok
  /-- `ErrRunning`. -/
  | running
  /-- The run ended before the command was taken. -/
  | stopped
  | launchFailed
  /-- `bridgespec.Encode` refuses the spec. -/
  | unencodable
deriving DecidableEq, Repr

/-- Where a call is that holds `ctl`. -/
inductive Held (S : Type) where
  | locked (op : Op S)
  /-- `startLocked`, before it looks at the run. -/
  | checking (op : Op S)
  | starting (op : Op S)
  /-- The process is there, `launch` has yet to record it. -/
  | launched (op : Op S) (child : Nat)
  | registering (op : Op S) (child : Nat)
  /-- In the `select`. -/
  | sending (op : Op S) (run : Nat)
  | awaiting (op : Op S) (run : Nat) (reply : Option Result)
  /-- `Stop`, at its last receive. -/
  | draining (run : Nat)
  | returning (op : Op S) (result : Result)
deriving DecidableEq, Repr

inductive Loop (S : Type) where
  | watching (child : Nat)
  /-- No child, and the state not yet set. -/
  | backing
  | resting
  | waking
  | starting (spec : S)
  | recording (child : Nat)
  /-- `handle` begins. -/
  | taken (op : Op S) (child : Option Nat)
  | stopping (op : Op S) (child : Nat) (killed : Bool)
  | cleared (op : Op S)
  | launching (spec : S)
  | launched (spec : S) (child : Nat)
  | replying (spec : S) (result : Result) (child : Option Nat)
  | finishing
  | closing
  | ended
deriving DecidableEq, Repr

inductive State where
  | stopped | running | backoff
deriving DecidableEq, Repr

structure World (S : Type) where
  /-- The calls that wait for `ctl`. -/
  waiting : List (Op S) := []
  /-- `ctl`, and where its holder is. -/
  ctl : Option (Held S) := none
  run : Option Nat := none
  loops : Nat → Loop S := fun _ => .ended
  runs : Nat := 0
  /-- The processes alive, with the spec each was given. -/
  children : Nat → Option S := fun _ => none
  born : Nat := 0
  /-- `spec` and `frame`, which are set together. -/
  spec : Option S := none
  state : State := .stopped
  pid : Option Nat := none
  launches : Nat := 0
  /-- The calls that returned, the latest first. Not in the source. -/
  log : List (Op S × Result) := []

/-! ## Steps -/

namespace World

def at_ (w : World S) (r : Nat) (l : Loop S) : World S :=
  { w with loops := fun k => if k = r then l else w.loops k }

def spawn (w : World S) (spec : S) : World S :=
  { w with
    children := fun i => if i = w.born then some spec else w.children i
    born := w.born + 1 }

def record (w : World S) (child : Nat) : World S :=
  { w with state := .running, pid := some child, launches := w.launches + 1 }

def noteExit (w : World S) : World S := { w with state := .backoff, pid := none }

/-- The reply of a command goes to the call that sent it, which holds `ctl`. -/
def reply (w : World S) (result : Result) : World S :=
  match w.ctl with
  | some (.awaiting op r none) => { w with ctl := some (.awaiting op r (some result)) }
  | _ => w

end World

inductive Label (S : Type) where
  | call (op : Op S)
  /-- The call that waits at this place takes `ctl`. -/
  | lock (k : Nat)
  /-- The holder of `ctl` goes on; `ok`: a process it starts does start. -/
  | held (ok : Bool)
  /-- The loop takes the command. -/
  | send
  /-- The holder finds the run over instead. -/
  | seeDone
  | loop (r : Nat) (ok : Bool)
  /-- The stop was ignored for too long: the child is killed. -/
  | kill (r : Nat)
  | die (child : Nat)
  | status
deriving DecidableEq, Repr

/-- The first place under `ctl`. -/
def Held.enter : Op S → Held S
  | .start s => .checking (.start s)
  | op => .locked op

/-- `done` is closed. -/
def Loop.isEnded : Loop S → Bool
  | .ended => true
  | _ => false

def heldStep (w : World S) (ok : Bool) : Option (World S) :=
  match w.ctl with
  | some (.locked (.update s)) =>
    some { w with ctl := some (w.run.elim (.checking (.update s)) (.sending (.update s))) }
  | some (.locked .stop) =>
    some { w with ctl := some (w.run.elim (.returning .stop .ok) (.sending .stop)) }
  | some (.checking op) =>
    if w.run.isSome then some { w with ctl := some (.returning op .running) }
    else some { w with spec := op.spec, launches := 0, ctl := some (.starting op) }
  | some (.starting op) =>
    if ok then op.spec.map fun s => { w.spawn s with ctl := some (.launched op w.born) }
    else some { w with ctl := some (.returning op .launchFailed) }
  | some (.launched op c) => some { w.record c with ctl := some (.registering op c) }
  | some (.registering op c) =>
    some { w.at_ w.runs (.watching c) with
      run := some w.runs, runs := w.runs + 1, ctl := some (.returning op .ok) }
  | some (.awaiting .stop r (some _)) => some { w with ctl := some (.draining r) }
  | some (.awaiting op _ (some result)) => some { w with ctl := some (.returning op result) }
  | some (.draining r) =>
    if (w.loops r).isEnded then some { w with ctl := some (.returning .stop .ok) } else none
  | some (.returning op result) => some { w with ctl := none, log := (op, result) :: w.log }
  | _ => none

/-- Where the loop is in a `select`, it takes the command. -/
def sendStep (w : World S) : Option (World S) :=
  match w.ctl with
  | some (.sending op r) =>
    match w.loops r with
    | .watching c => some { w.at_ r (.taken op (some c)) with ctl := some (.awaiting op r none) }
    | .resting => some { w.at_ r (.taken op none) with ctl := some (.awaiting op r none) }
    | _ => none
  | _ => none

def seeDoneStep (w : World S) : Option (World S) :=
  match w.ctl with
  | some (.sending op r) =>
    if (w.loops r).isEnded then
      some { w with ctl := some (if op.isStop then .draining r else .returning op .stopped) }
    else none
  | _ => none

def loopStep (w : World S) (r : Nat) (ok : Bool) : Option (World S) :=
  match w.loops r with
  | .watching c => if (w.children c).isNone then some (w.noteExit.at_ r .backing) else none
  | .backing => some { w.at_ r .resting with state := .backoff }
  | .resting => some (w.at_ r .waking)
  | .waking => w.spec.map fun s => w.at_ r (.starting s)
  | .starting s =>
    if ok then some ((w.spawn s).at_ r (.recording w.born)) else some (w.at_ r .backing)
  | .recording c => some ((w.record c).at_ r (.watching c))
  | .taken op none => some (w.at_ r (.cleared op))
  | .taken op (some c) => some (w.at_ r (.stopping op c false))
  | .stopping op c _ =>
    if (w.children c).isNone then some (w.noteExit.at_ r (.cleared op)) else none
  | .cleared .stop => some ((w.reply .ok).at_ r .finishing)
  | .cleared (.update s) => some { w.at_ r (.launching s) with spec := some s }
  | .cleared (.start _) => none
  | .launching s =>
    if ok then some ((w.spawn s).at_ r (.launched s w.born))
    else some (w.at_ r (.replying s .launchFailed none))
  | .launched s c => some ((w.record c).at_ r (.replying s .ok (some c)))
  | .replying _ result next => some ((w.reply result).at_ r (next.elim .backing .watching))
  | .finishing => some { w.at_ r .closing with run := none, state := .stopped, pid := none }
  | .closing => some (w.at_ r .ended)
  | .ended => none

def killStep (w : World S) (r : Nat) : Option (World S) :=
  match w.loops r with
  | .stopping op c false => some (w.at_ r (.stopping op c true))
  | _ => none

def step (encodes : S → Bool) (w : World S) : Label S → Option (World S)
  | .call op =>
    if op.spec.all encodes then some { w with waiting := w.waiting ++ [op] }
    else some { w with log := (op, .unencodable) :: w.log }
  | .lock k =>
    match w.ctl, w.waiting[k]? with
    | none, some op =>
      some { w with waiting := w.waiting.eraseIdx k, ctl := some (Held.enter op) }
    | _, _ => none
  | .held ok => heldStep w ok
  | .send => sendStep w
  | .seeDone => seeDoneStep w
  | .loop r ok => loopStep w r ok
  | .kill r => killStep w r
  | .die i =>
    if (w.children i).isSome then
      some { w with children := fun k => if k = i then none else w.children k }
    else none
  | .status => some w

end NasnetPanel.RemoteNodes.Supervisor
