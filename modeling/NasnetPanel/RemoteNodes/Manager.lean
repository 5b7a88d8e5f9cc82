import Mathlib.Data.List.Dedup
import Mathlib.Data.List.Sort
import NasnetPanel.Lib.Runs
import NasnetPanel.RemoteNodes.State

/-!
# RemoteNodes.Manager — the calls that change subscriptions, step by step

`manager/subs.go` and `manager/limits.go`: the calls a person makes and the check of the limits. A
change goes into the state first and then to the nodes. The state is changed in one step; a node is
told by a call of its own. What is sent to a node is sent under the node's lock, and the nodes to
lock are taken from an earlier reading of the state.

A call is a list of instructions, each of which is one step that others may come between: taking one
lock, one reading or edit of the state, one call of an agent. `step` lets any thread take its next
step, so a run is an interleaving of calls.

Agents answer and do what they are told. A call that its first checks refuse changes nothing and is
not modelled, nor are the events and the log. The order in which a call releases its locks is the
order they were taken in, reversed.
-/

namespace NasnetPanel.RemoteNodes

/-! ## A node's clients -/

/-- The subscription clients on a node's entry, by subscription, with their ids. -/
abbrev Clients := Nat → Option String

/-- A client that is there already is left alone. -/
def enable (sub : Nat) (uuid : String) (c : Clients) : Clients :=
  if (c sub).isSome then c else Function.update c sub (some uuid)

def disable (sub : Nat) (c : Clients) : Clients := Function.update c sub none

/-- What a node is told. A config replaces every client it has. -/
inductive Act where
  | enable (node sub : Nat) (uuid : String)
  | disable (node sub : Nat)
  | push (node : Nat) (clients : List (Nat × String))
deriving DecidableEq, Repr

def Act.node : Act → Nat
  | .enable node _ _ => node
  | .disable node _ => node
  | .push node _ => node

def Act.apply (c : Clients) : Act → Clients
  | .enable _ sub uuid => RemoteNodes.enable sub uuid c
  | .disable _ sub => RemoteNodes.disable sub c
  | .push _ clients => fun sub => clients.lookup sub

/-! ## Instructions -/

inductive Instr where
  | acquire (node : Nat)
  | release
  | create (nodes : List Nat) (limit : UInt64) (expires : Option Int)
  | setEnabled (sub node : Nat) (enabled : Bool)
  | deleteRead (sub : Nat)
  | delete (sub : Nat)
  | patch (sub : Nat) (p : State.Patch)
  | reset (sub : Nat)
  /-- `afterLimitChange`. -/
  | check (sub : Nat) (was : Option StopReason)
  | syncRead (sub : Nat)
  | syncApply (sub : Nat)
  /-- `enforceLimits`, up to its loop. -/
  | limits
  | stop (sub : Nat) (reason : StopReason)
  | cutOpen
  | beginPush (node : Nat)
deriving DecidableEq, Repr

/-- What a step finds outside the state: whether the store keeps the edit, the bytes moved, the
time, new client ids, the nodes where a stopped subscription is still connected, and whether there
is a connection to push over. -/
structure Input where
  kept : Bool := true
  lifetime : Nat → UInt64 := fun _ => 0
  now : Int := 0
  uuid : Nat → String := fun _ => ""
  due : List Nat := []
  linked : Bool := true

/-- The locks of the nodes, the lowest id first. -/
def sorted (nodes : List Nat) : List Nat := nodes.dedup.insertionSort (· ≤ ·)

def lockNodes (nodes : List Nat) : List Instr := (sorted nodes).map .acquire

/-- What an instruction leads to: the state, what is sent, and what is done next. -/
structure Effect where
  state : State
  acts : List Act := []
  next : List Instr := []

/-- The nodes a subscription is on at are told whether it runs. -/
def syncActs (st : State) (sub : Nat) (running : Bool) : List Act :=
  (st.enablements.filter fun e => e.subscriptionID = sub ∧ e.enabled).map fun e =>
    if running then .enable e.nodeID sub e.clientUUID else .disable e.nodeID sub

def Instr.run (st : State) (inp : Input) : Instr → Effect
  | .acquire _ | .release => { state := st }
  | .create nodes limit expires =>
    match State.update inp.kept (st.create nodes limit expires inp.uuid) with
    | none => { state := st }
    | some t =>
      { state := t, acts := nodes.map fun n => .enable n st.nextSubscriptionID (inp.uuid n) }
  | .setEnabled sub node enabled =>
    match State.update inp.kept (st.setEnabled sub node enabled (inp.uuid node)) with
    | none => { state := st }
    | some t =>
      match t.findEnablement sub node with
      | none => { state := t }
      | some e =>
        -- A stopped subscription's client stays off.
        { state := t
          acts := if enabled then
              if t.isRunning sub then [.enable node sub e.clientUUID] else []
            else [.disable node sub] }
  | .deleteRead sub =>
    if (st.findSubscription sub).isNone then { state := st }
    else { state := st, next := lockNodes (st.nodesOf sub) ++ [.delete sub, .release] }
  | .delete sub =>
    match State.update inp.kept (st.removeSubscription sub) with
    | none => { state := st }
    | some t => { state := t, acts := (st.nodesOf sub).map fun n => .disable n sub }
  | .patch sub p =>
    match State.update inp.kept (st.patch sub p (inp.lifetime sub) inp.now) with
    | none => { state := st }
    | some t => { state := t, next := [.check sub ((st.findSubscription sub).bind (·.stopped))] }
  | .reset sub =>
    match State.update inp.kept (st.reset sub (inp.lifetime sub) inp.now) with
    | none => { state := st }
    | some t => { state := t, next := [.check sub ((st.findSubscription sub).bind (·.stopped))] }
  | .check sub was =>
    match st.findSubscription sub with
    | none => { state := st }
    | some x => { state := st, next := if x.stopped = was then [] else [.syncRead sub] }
  | .syncRead sub =>
    if st.onNodes sub = [] then { state := st }
    else { state := st, next := lockNodes (st.onNodes sub) ++ [.syncApply sub, .release] }
  | .syncApply sub =>
    -- What is wanted is read once the nodes are held.
    match st.findSubscription sub with
    | none => { state := st }
    | some x => { state := st, acts := syncActs st sub x.running }
  | .limits =>
    { state := st
      next := (st.subscriptions.filterMap fun x =>
        if x.running then
          (x.stopReason (trafficUsed x (inp.lifetime x.id)) inp.now).map (Instr.stop x.id)
        else none) ++ [.cutOpen] }
  | .stop sub reason =>
    match State.update inp.kept (some (st.stop sub reason (inp.lifetime sub) inp.now)) with
    | none => { state := st }
    | some t => { state := t, next := if t = st then [] else [.syncRead sub] }
  | .cutOpen =>
    { state := st, next := inp.due.flatMap fun n => [.acquire n, .beginPush n, .release] }
  | .beginPush node =>
    if inp.linked && (st.findNode node).isSome then
      { state := st, acts := [.push node (st.clientsOf node)] }
    else { state := st }

/-! ## Calls and threads -/

inductive Call where
  | createSubscription (nodes : List Nat) (limit : UInt64) (expires : Option Int)
  | setEnabled (sub node : Nat) (enabled : Bool)
  | deleteSubscription (sub : Nat)
  | updateSubscription (sub : Nat) (p : State.Patch)
  | resetUsage (sub : Nat)
  | enforceLimits
deriving DecidableEq, Repr

def Call.code : Call → List Instr
  | .createSubscription nodes limit expires =>
    lockNodes nodes ++ [.create (sorted nodes) limit expires, .release]
  | .setEnabled sub node enabled => [.acquire node, .setEnabled sub node enabled, .release]
  | .deleteSubscription sub => [.deleteRead sub]
  | .updateSubscription sub p => [.patch sub p]
  | .resetUsage sub => [.reset sub]
  | .enforceLimits => [.limits]

/-- A thread: the locks it holds, the last one first, what it has yet to send, and what it does
after that. -/
structure Thread where
  held : List Nat := []
  acts : List Act := []
  code : List Instr := []
deriving DecidableEq, Repr

structure World where
  state : State
  clients : Nat → Clients
  /-- The thread that holds a node's lock. -/
  locks : Nat → Option Nat := fun _ => none
  threads : Nat → Thread := fun _ => {}

inductive Move where
  | start (i : Nat) (call : Call)
  | run (i : Nat) (inp : Input)
  /-- The request goes away while it waits for a lock. -/
  | giveUp (i : Nat)

def World.setThread (w : World) (i : Nat) (t : Thread) : World :=
  { w with threads := Function.update w.threads i t }

/-- What a thread drops when it gives up, which is up to the release of what it holds. -/
def dropped (code : List Instr) : List Instr := code.takeWhile (· ≠ .release)

def step (w : World) : Move → Option World
  | .start i call => if w.threads i = {} then some (w.setThread i { code := call.code }) else none
  | .run i inp =>
    match (w.threads i).acts, (w.threads i).code with
    | a :: acts, _ =>
      some { w.setThread i { w.threads i with acts := acts } with
        clients := Function.update w.clients a.node (a.apply (w.clients a.node)) }
    | [], [] => none
    | [], .acquire n :: code =>
      match w.locks n with
      | some _ => none
      | none =>
        some { w.setThread i { w.threads i with held := n :: (w.threads i).held, code := code } with
          locks := Function.update w.locks n (some i) }
    | [], .release :: code =>
      match (w.threads i).held with
      | [] => some (w.setThread i { w.threads i with code := code })
      | n :: held =>
        some { w.setThread i { w.threads i with held := held } with
          locks := Function.update w.locks n none }
    | [], instr :: code =>
      let e := instr.run w.state inp
      some { w.setThread i { w.threads i with acts := e.acts, code := e.next ++ code } with
        state := e.state }
  | .giveUp i =>
    match (w.threads i).acts, (w.threads i).code with
    | [], .acquire _ :: code =>
      some (w.setThread i { w.threads i with code := code.dropWhile (· ≠ .release) })
    | _, _ => none

end NasnetPanel.RemoteNodes
