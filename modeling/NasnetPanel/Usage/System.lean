import NasnetPanel.Lib.Runs
import NasnetPanel.Usage.Collector

/-!
# Usage.System — the hub, its file, the agents and the acknowledgements between them

Any number of polls at once, one flush at a time, and agents that add to their buckets whenever they
like. Each critical section of the collector is one step, and so are the file write between the two
halves of `write`, an agent's answer, and an acknowledgement leaving the hub. An acknowledgement
that has left may reach its agent later, more than once or never, whatever the hub is told of it.
The hub may stop anywhere and start again on the file.

Not in the source: `log`, everything an agent was given, from which `held` makes the buckets it
would hold had it dropped nothing; and the ledgers, the buckets that went into the hub's totals
(`counted`), into those of a document being written, and into those of the file (`written`).
-/

namespace NasnetPanel.Usage

open Traffic Option

/-! ## Agents -/

/-- An agent's buckets, and everything it was given, newest first. -/
structure Box where
  store : MemoryStore
  log : List (XrayStatsSnapshot × Int)

namespace Box

/-- The buckets the agent would hold, had it dropped nothing. -/
def held (a : Box) : MemoryStore :=
  a.log.foldr (fun e s => s.add e.1 e.2) { a.store with buckets := ∅, baseline := none }

def accumulate (a : Box) (delta : XrayStatsSnapshot) (now : Int) : Box :=
  ⟨a.store.accumulate delta now, (delta, now) :: a.log⟩

def drain (a : Box) (t : Int) : Box := { a with store := a.store.drain t }

end Box

/-! ## The hub -/

/-- Where a poll is: waiting for its turn and the agent, holding the answer, about to acknowledge,
or waiting for that to be answered. -/
inductive PollPhase where
  | waiting
  | answered (buffered : List TrafficBucket)
  | acking (through : Int)
  | acked (through : Int)

structure Poll where
  id : Nat
  ref : Nat
  phase : PollPhase

/-- The poll has its node object's lock. -/
def Poll.holds (p : Poll) : Bool :=
  match p.phase with
  | .waiting => false
  | _ => true

/-- One of the agent's buckets, as it was counted. -/
structure Entry where
  node : Nat
  ts : Int
  b : Bucket

inductive FlushPhase where
  | idle
  | prepared (doc : FileDoc) (marks : GoMap Nat Int) (counted : List Entry)
  | written (marks : GoMap Nat Int)
  | stamped
  | acking (jobs : List Job)
  | acked (job : Job) (jobs : List Job)

structure Hub where
  c : Collector
  polls : GoMap Nat Poll := ∅
  flush : FlushPhase := .idle
  counted : List Entry

structure System where
  agents : Nat → Box
  file : HubFile
  written : List Entry
  hub : Option Hub
  wire : List (Nat × Int)

/-- How a write ends: the new file, or an error with the old one or the new one in place. -/
inductive WriteOutcome where
  | done
  | failedOld
  | failedNew

inductive Action where
  | accumulate (id : Nat) (delta : XrayStatsSnapshot) (now : Int)
  | deliver (id : Nat) (t : Int)
  | poll (tid id : Nat)
  | fetch (tid : Nat)
  | missed (tid : Nat)
  | fold (tid : Nat) (now : Int)
  | sendAck (tid : Nat)
  | ackReply (tid : Nat) (ok : Bool)
  | prepare (now : Int)
  | write (outcome : WriteOutcome)
  | stamp
  | collectJobs
  | sendJob
  | jobReply (ok : Bool)
  | flushEnds
  | forget (id : Nat)
  | forgetSubscription (sub : Nat)
  | crash
  | start (now : Int)

/-- The records an answer adds to the ledger. -/
def freshEntries (n : Node) (id : Nat) (buffered : List TrafficBucket) (now : Int) : List Entry :=
  (freshRecords n.hist.through (records buffered id (now + maxAhead)).1).map fun r =>
    ⟨id, r.ts, r.b⟩

namespace Hub

/-- A poll begins. Node ids start at one, and each poll has a number of its own. -/
def poll (h : Hub) (tid id : Nat) : Option Hub :=
  if 0 < id ∧ h.polls[tid]? = none then
    let (c, ref) := h.c.nodeLocked id
    some { h with c := c, polls := h.polls.insert tid ⟨id, ref, .waiting⟩ }
  else none

def unlocked (h : Hub) (id ref : Nat) : Bool :=
  h.polls.toList.all fun e => !(e.2.holds && e.2.id == id && e.2.ref == ref)

/-- A poll gets its node object's lock, and the agent answers. -/
def fetch (h : Hub) (tid : Nat) (agents : Nat → Box) : Option Hub := do
  let p ← h.polls[tid]?
  match p.phase with
  | .waiting =>
    if h.unlocked p.id p.ref then
      let buffered := (agents p.id).store.getAll
      return { h with polls := h.polls.insert tid { p with phase := .answered buffered } }
    else none
  | _ => none

/-- The agent does not answer, or without its traffic. -/
def missed (h : Hub) (tid : Nat) : Option Hub := do
  let p ← h.polls[tid]?
  match p.phase with
  | .waiting => return { h with polls := h.polls.erase tid }
  | _ => none

/-- The answer is taken in, unless the node was forgotten while its agent was answering. -/
def fold (h : Hub) (tid : Nat) (now : Int) : Option Hub := do
  let p ← h.polls[tid]?
  match p.phase with
  | .answered buffered =>
    match h.c.nodeAt p.id p.ref with
    | none => return { h with polls := h.polls.erase tid }
    | some n =>
      let taken := h.c.foldLocked p.id n buffered now
      return { h with
        c := taken.1
        polls := if 0 < taken.2 then h.polls.insert tid { p with phase := .acking taken.2 }
          else h.polls.erase tid
        counted := h.counted ++ freshEntries n p.id buffered now }
  | _ => none

/-- A poll's acknowledgement leaves the hub. -/
def sendAck (h : Hub) (tid : Nat) : Option (Hub × Nat × Int) := do
  let p ← h.polls[tid]?
  match p.phase with
  | .acking t =>
    return ({ h with polls := h.polls.insert tid { p with phase := .acked t } }, p.id, t)
  | _ => none

/-- What the hub is told of a poll's acknowledgement. -/
def ackReply (h : Hub) (tid : Nat) (ok : Bool) : Option Hub := do
  let p ← h.polls[tid]?
  match p.phase with
  | .acked t =>
    return { h with
      c := if ok then h.c.noteAck p.id p.ref t else h.c
      polls := h.polls.erase tid }
  | _ => none

/-- A flush begins: the first half of the write. -/
def prepare (h : Hub) (now : Int) : Option Hub :=
  match h.flush with
  | .idle =>
    if h.c.noWrite then none
    else
      let (c, doc, marks) := h.c.prepare now
      some { h with c := c, flush := .prepared doc marks h.counted }
  | _ => none

def write (h : Hub) (outcome : WriteOutcome) (file : HubFile) (written : List Entry) :
    Option (Hub × HubFile × List Entry) :=
  match h.flush with
  | .prepared doc marks counted =>
    if doc = h.c.enc then some ({ h with flush := .written marks }, file, written)
    else
      match outcome with
      | .done => some ({ h with c := { h.c with enc := doc }, flush := .written marks }, .whole doc,
          counted)
      | .failedOld => some ({ h with flush := .idle }, file, written)
      | .failedNew => some ({ h with flush := .idle }, .whole doc, counted)
  | _ => none

/-- The second half of the write. -/
def stamp (h : Hub) : Option Hub :=
  match h.flush with
  | .written marks => some { h with c := h.c.stamp marks, flush := .stamped }
  | _ => none

def collectJobs (h : Hub) : Option Hub :=
  match h.flush with
  | .stamped => some { h with flush := .acking h.c.jobs }
  | _ => none

/-- The next of the flush's acknowledgements leaves the hub. -/
def sendJob (h : Hub) : Option (Hub × Nat × Int) :=
  match h.flush with
  | .acking (j :: js) => some ({ h with flush := .acked j js }, j.id, j.through)
  | _ => none

/-- What the hub is told of it. -/
def jobReply (h : Hub) (ok : Bool) : Option Hub :=
  match h.flush with
  | .acked j js =>
    some { h with c := if ok then h.c.noteAck j.id j.ref j.through else h.c, flush := .acking js }
  | _ => none

def flushEnds (h : Hub) : Option Hub :=
  match h.flush with
  | .acking _ => some { h with flush := .idle }
  | _ => none

end Hub

variable {h h' : Hub} {tid : Nat} {s t : System}

theorem Hub.missed_cases (hs : h.missed tid = some h') :
    h' = { h with polls := h.polls.erase tid } := by
  simp only [Hub.missed, bind_eq_bind, bind_eq_some_iff] at hs
  obtain ⟨p, -, hs⟩ := hs
  split at hs
  · cases hs
    rfl
  · cases hs

theorem Hub.poll_cases {id : Nat} (hs : h.poll tid id = some h') :
    0 < id ∧ ∃ n, (h.c.nodes[id]? = some n ∧ h' = { h with
        c := h.c.setNode id { n with src := true }
        polls := h.polls.insert tid ⟨id, n.ref, .waiting⟩ } ∨
      h.c.nodes[id]? = none ∧ n = { ref := h.c.made, src := true } ∧ h' = { h with
        c := { h.c.setNode id n with made := h.c.made + 1 }
        polls := h.polls.insert tid ⟨id, h.c.made, .waiting⟩ }) := by
  rw [Hub.poll] at hs
  split at hs
  next ok =>
    refine ⟨ok.1, ?_⟩
    rw [Collector.nodeLocked] at hs
    cases found : h.c.nodes[id]? with
    | some n =>
      rw [found] at hs
      cases hs
      exact ⟨n, .inl ⟨rfl, rfl⟩⟩
    | none =>
      rw [found] at hs
      cases hs
      exact ⟨_, .inr ⟨rfl, rfl, rfl⟩⟩
  · cases hs

theorem Hub.fetch_cases {agents : Nat → Box} (hs : h.fetch tid agents = some h') :
    ∃ p, h.polls[tid]? = some p ∧ h.unlocked p.id p.ref = true ∧ h' = { h with
      polls := h.polls.insert tid { p with phase := .answered (agents p.id).store.getAll } } := by
  simp only [Hub.fetch, bind_eq_bind, bind_eq_some_iff] at hs
  obtain ⟨p, found, hs⟩ := hs
  split at hs
  · obtain ⟨free, rfl⟩ := Runs.of_guard hs
    exact ⟨p, found, free, rfl⟩
  · cases hs

theorem Hub.sendAck_cases {id : Nat} {t : Int} (hs : h.sendAck tid = some (h', id, t)) :
    ∃ p, h.polls[tid]? = some p ∧ p.phase = .acking t ∧ p.id = id ∧
      h' = { h with polls := h.polls.insert tid { p with phase := .acked t } } := by
  simp only [Hub.sendAck, bind_eq_bind, bind_eq_some_iff] at hs
  obtain ⟨p, found, hs⟩ := hs
  split at hs
  next phase =>
    cases hs
    exact ⟨p, found, phase, rfl, rfl⟩
  · cases hs

theorem Hub.ackReply_cases {ok : Bool} (hs : h.ackReply tid ok = some h') :
    ∃ (p : Poll) (t : Int), h' = { h with
      c := if ok then h.c.noteAck p.id p.ref t else h.c
      polls := h.polls.erase tid } := by
  simp only [Hub.ackReply, bind_eq_bind, bind_eq_some_iff] at hs
  obtain ⟨p, -, hs⟩ := hs
  split at hs
  next t _ =>
    cases hs
    exact ⟨p, t, rfl⟩
  · cases hs

/-- What taking in an answer does: nothing where the node object was replaced, and otherwise the
node takes in the records, and the fresh ones go into the ledger. -/
theorem Hub.fold_cases {now : Int} (hs : h.fold tid now = some h') :
    ∃ p buffered, h.polls[tid]? = some p ∧ p.phase = .answered buffered ∧
      (h.c.nodeAt p.id p.ref = none ∧ h' = { h with polls := h.polls.erase tid } ∨
        ∃ n ack, h.c.nodeAt p.id p.ref = some n ∧
          n.fold (records buffered p.id (now + maxAhead)).1 h.c.noWrite = ack ∧
          h' = { h with
            c := h.c.setNode p.id ack.1
            polls := if 0 < ack.2 then h.polls.insert tid { p with phase := .acking ack.2 }
              else h.polls.erase tid
            counted := h.counted ++ freshEntries n p.id buffered now }) := by
  simp only [Hub.fold, bind_eq_bind, bind_eq_some_iff] at hs
  obtain ⟨p, found, hs⟩ := hs
  split at hs
  next buffered phase =>
    refine ⟨p, buffered, found, phase, ?_⟩
    split at hs
    next none =>
      cases hs
      exact .inl ⟨none, rfl⟩
    next n at_ =>
      cases hs
      exact .inr ⟨n, _, at_, rfl, rfl⟩
  · cases hs

/-! ## Steps -/

namespace System

def setAgent (s : System) (id : Nat) (a : Box) : System :=
  { s with agents := Function.update s.agents id a }

theorem agents_self (s : System) (id : Nat) (a : Box) : (s.setAgent id a).agents id = a := by
  show Function.update s.agents id a id = a
  rw [Function.update_self]

theorem agents_of_ne (s : System) {id k : Nat} (other : k ≠ id) (a : Box) :
    (s.setAgent id a).agents k = s.agents k := by
  show Function.update s.agents id a k = s.agents k
  rw [Function.update_of_ne other]

theorem forall_setAgent (s : System) {id : Nat} {a : Box} {P : Nat → Box → Prop} (self : P id a)
    (others : ∀ k, P k (s.agents k)) (k : Nat) : P k ((s.setAgent id a).agents k) := by
  by_cases same : k = id
  · subst same
    rw [s.agents_self]
    exact self
  · rw [s.agents_of_ne same]
    exact others k

def onHub (s : System) (f : Hub → Option Hub) : Option System := do
  let h ← s.hub
  return { s with hub := some (← f h) }

def sending (s : System) (f : Hub → Option (Hub × Nat × Int)) : Option System := do
  let h ← s.hub
  let (h, id, t) ← f h
  return { s with hub := some h, wire := (id, t) :: s.wire }

theorem onHub_eq {s t : System} {f : Hub → Option Hub} (ht : s.onHub f = some t) :
    ∃ h h', s.hub = some h ∧ f h = some h' ∧ t = { s with hub := some h' } := by
  simp only [onHub, bind_eq_bind, bind_eq_some_iff] at ht
  obtain ⟨h, running, h', hf, ht⟩ := ht
  cases ht
  exact ⟨h, h', running, hf, rfl⟩

theorem sending_eq {s t : System} {f : Hub → Option (Hub × Nat × Int)}
    (ht : s.sending f = some t) :
    ∃ h h' id u, s.hub = some h ∧ f h = some (h', id, u) ∧
      t = { s with hub := some h', wire := (id, u) :: s.wire } := by
  simp only [sending, bind_eq_bind, bind_eq_some_iff] at ht
  obtain ⟨h, running, ⟨h', id, u⟩, hf, ht⟩ := ht
  cases ht
  exact ⟨h, h', id, u, running, hf, rfl⟩

end System

def step (s : System) : Action → Option System
  | .accumulate id delta now => some (s.setAgent id ((s.agents id).accumulate delta now))
  | .deliver id t =>
    if (id, t) ∈ s.wire then some (s.setAgent id ((s.agents id).drain t)) else none
  | .poll tid id => s.onHub fun h => h.poll tid id
  | .fetch tid => s.onHub fun h => h.fetch tid s.agents
  | .missed tid => s.onHub fun h => h.missed tid
  | .fold tid now => s.onHub fun h => h.fold tid now
  | .sendAck tid => s.sending fun h => h.sendAck tid
  | .ackReply tid ok => s.onHub fun h => h.ackReply tid ok
  | .prepare now => s.onHub fun h => h.prepare now
  | .write outcome => do
    let h ← s.hub
    let (h, file, written) ← h.write outcome s.file s.written
    return { s with hub := some h, file := file, written := written }
  | .stamp => s.onHub Hub.stamp
  | .collectJobs => s.onHub Hub.collectJobs
  | .sendJob => s.sending Hub.sendJob
  | .jobReply ok => s.onHub fun h => h.jobReply ok
  | .flushEnds => s.onHub Hub.flushEnds
  | .forget id => s.onHub fun h => some { h with c := h.c.forget id }
  | .forgetSubscription sub => s.onHub fun h => some { h with c := h.c.forgetSubscription sub }
  | .crash => some { s with hub := none }
  | .start now =>
    match s.hub with
    | none =>
      let (c, file) := Collector.openOn s.file now
      some { s with hub := some { c := c, counted := s.written }, file := file }
    | some _ => none

theorem write_eq {outcome : WriteOutcome} (ht : step s (.write outcome) = some t) :
    ∃ h h' file written, s.hub = some h ∧
      h.write outcome s.file s.written = some (h', file, written) ∧
      t = { s with hub := some h', file := file, written := written } := by
  simp only [step, bind_eq_bind, bind_eq_some_iff] at ht
  obtain ⟨h, running, ⟨h', file, written⟩, hw, ht⟩ := ht
  cases ht
  exact ⟨h, h', file, written, running, hw, rfl⟩

theorem start_eq {now : Int} (ht : step s (.start now) = some t) :
    s.hub = none ∧ t = { s with
      hub := some { c := (Collector.openOn s.file now).1, counted := s.written }
      file := (Collector.openOn s.file now).2 } := by
  simp only [step] at ht
  split at ht
  next stopped =>
    cases ht
    exact ⟨stopped, rfl⟩
  · cases ht

/-- What a step does to the agents: one is given something, one drops what it was told to, or they
are left alone. -/
theorem agents_step {a : Action} (ht : step s a = some t) :
    (∃ id delta now, a = .accumulate id delta now ∧
      t = s.setAgent id ((s.agents id).accumulate delta now)) ∨
    (∃ id u, a = .deliver id u ∧ (id, u) ∈ s.wire ∧ t = s.setAgent id ((s.agents id).drain u)) ∨
    t.agents = s.agents := by
  cases a with
  | accumulate id delta now =>
    cases ht
    exact .inl ⟨id, delta, now, rfl, rfl⟩
  | deliver id u =>
    obtain ⟨sent, rfl⟩ := Runs.of_guard ht
    exact .inr (.inl ⟨id, u, rfl, sent, rfl⟩)
  | write outcome =>
    obtain ⟨h, h', file, written, -, -, rfl⟩ := write_eq ht
    exact .inr (.inr rfl)
  | crash =>
    cases ht
    exact .inr (.inr rfl)
  | start now =>
    obtain ⟨-, rfl⟩ := start_eq ht
    exact .inr (.inr rfl)
  | sendAck | sendJob =>
    obtain ⟨h, h', id, u, -, -, rfl⟩ := System.sending_eq ht
    exact .inr (.inr rfl)
  | _ =>
    obtain ⟨h, h', -, -, rfl⟩ := System.onHub_eq ht
    exact .inr (.inr rfl)

/-- Agents with nothing in their buckets, no file and no hub. -/
def System.init (agents : Nat → MemoryStore) : System where
  agents id := ⟨{ agents id with buckets := ∅, baseline := none }, []⟩
  file := .missing
  written := []
  hub := none
  wire := []

/-! ## For small runs -/

def hourly (retention : Int) (_ : Nat) : MemoryStore := ⟨∅, none, 3600, retention⟩

def sent (n : Int64) : XrayStatsSnapshot :=
  { userUplink := (∅ : GoMap String Int64).insert "sub-1@remote-nodes" n }

end NasnetPanel.Usage
