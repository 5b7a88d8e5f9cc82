import NasnetPanel.Jobs.Job
import NasnetPanel.Lib.Runs

/-!
# Jobs.Subscribe — following a job

A subscriber has a channel with room for one value. `publish` runs under the engine's lock: it takes
what the reader has left in a channel and puts the job's state there, for one channel after the
other, and closes them all when the job is over. Readers do not hold the lock, so they may take a
value between any two of its steps; here each of them is a step of its own (`FeedOp`), and the
channels come in any order.

A send to a channel that is full blocks, and one to a closed channel panics, as closing it twice
does; the model has both. `Lock.phase` says where each channel is while a publish goes on, and
`ChanOk` what holds of it there. From that `subscription_protocol` has that neither of the two
happens, that a publish comes to its end (`GoesOn`), and what a reader gets, to the last value.
-/

namespace NasnetPanel.Jobs
open List Option

/-! ## Channels and the lock -/

/-- A subscriber's channel, with what its reader has had from it. -/
structure Chan where
  buf : Option JobView
  closed : Bool := false
  /-- The place of the state at the subscription among the job's states. -/
  since : Nat
  /-- What the reader has taken, the oldest first. -/
  got : List JobView := []
  /-- The reader has seen that the channel is closed. -/
  told : Bool := false
  /-- The subscriber has cancelled before the job ended. -/
  cancelled : Bool := false
deriving DecidableEq, Repr

/-- What was sent and not taken back. -/
def Chan.log (c : Chan) : List JobView := c.got ++ c.buf.toList

/-- Where the holder of the lock is in `publish`. -/
inductive Lock where
  | free
  /-- Channels still to be served. -/
  | serving (todo : List Nat)
  /-- One is emptied and about to be filled. -/
  | sending (ch : Nat) (todo : List Nat)
  /-- Channels still to be closed. -/
  | closing (todo : List Nat)
deriving DecidableEq, Repr

open Lock

/-- What panics in the source. -/
inductive Fault where
  | sendOnClosed
  | closeOfClosed
deriving DecidableEq, Repr

/-- A job and its subscribers. -/
structure Feed where
  job : JobRec
  /-- The job's states so far. -/
  history : List JobView
  /-- Every channel there was; a channel is its place here. -/
  chans : List Chan := []
  /-- `subs`. -/
  subs : List Nat := []
  lock : Lock := .free
  fault : Option Fault := none

open Feed

def Feed.of (j : JobRec) : Feed := { job := j, history := [j.view] }

inductive FeedOp where
  | report (name : String) (c : StepChange)
  | finish (result : Option Failure) (endedAt : Int) (seq : Nat)
  | subscribe
  | cancel (ch : Nat)
  /-- A reader takes a value, or sees the end. -/
  | read (ch : Nat)
  /-- `publish` empties a channel, .. -/
  | drain (ch : Nat)
  /-- .. fills it, .. -/
  | send
  /-- .. closes one, .. -/
  | close (ch : Nat)
  /-- .. and comes to the end of a loop. -/
  | next
deriving DecidableEq, Repr

/-- The steps that `publish` may be about to take: the order of the channels is not fixed. -/
def Lock.due : Lock → FeedOp → Bool
  | .serving todo, .drain ch => ch ∈ todo
  | .serving todo, .next => todo.isEmpty
  | .sending _ _, .send => true
  | .closing todo, .close ch => ch ∈ todo
  | .closing todo, .next => todo.isEmpty
  | _, _ => false

namespace Feed
variable (s : Feed)

/-- The job has a new state, and `publish` begins. -/
def publish (j : JobRec) : Feed :=
  { s with job := j, history := s.history ++ [j.view], lock := .serving s.subs }

def onChan (ch : Nat) (f : Chan → Chan) : Feed := { s with chans := s.chans.modify ch f }

def closeChan (ch : Nat) (cancelled : Bool) : Feed :=
  if s.chans[ch]?.any (·.closed) then { s with fault := some .closeOfClosed }
  else s.onChan ch fun c => { c with closed := true, cancelled := cancelled }

def subscribe : Feed :=
  { s with
    chans := s.chans ++
      [{ buf := some s.job.view, since := s.history.length - 1, closed := s.job.isOver }]
    subs := if s.job.isOver then s.subs else s.subs ++ [s.chans.length] }

def unsubscribe (ch : Nat) : Feed :=
  if ch ∈ s.subs then { s.closeChan ch true with subs := s.subs.erase ch } else s

/-- A receive; `none` where it blocks. -/
def read (ch : Nat) : Option Feed :=
  match s.chans[ch]? with
  | none => none
  | some c =>
    match c.buf with
    | some v => some (s.onChan ch fun c => { c with buf := none, got := c.got ++ [v] })
    | none => if c.closed then some (s.onChan ch fun c => { c with told := true }) else none

/-- A send of the job's state; `none` where it blocks. -/
def send (ch : Nat) (todo : List Nat) : Option Feed :=
  if s.chans[ch]?.any (·.closed) then some { s with fault := some .sendOnClosed }
  else if s.chans[ch]?.any (·.buf.isSome) then none
  else some { s.onChan ch fun c => { c with buf := some s.job.view } with lock := .serving todo }

end Feed

/-- One step. The operations of the engine wait for the lock. -/
def feedStep (keyOf : String → String) (s : Feed) : FeedOp → Option Feed
  | .report name c =>
    match s.lock with
    | .free =>
      let r := s.job.change keyOf name c
      some (if r.2 then s.publish r.1 else { s with job := r.1 })
    | _ => none
  | .finish result endedAt seq =>
    match s.lock with
    | .free => if s.job.isOver then none else some (s.publish (s.job.finish result endedAt seq))
    | _ => none
  | .subscribe =>
    match s.lock with
    | .free => some s.subscribe
    | _ => none
  | .cancel ch =>
    match s.lock with
    | .free => some (s.unsubscribe ch)
    | _ => none
  | .read ch => s.read ch
  | .drain ch =>
    match s.lock with
    | .serving todo =>
      if ch ∈ todo then
        some { s.onChan ch fun c => { c with buf := none } with
          lock := .sending ch (todo.erase ch) }
      else none
    | _ => none
  | .send =>
    match s.lock with
    | .sending ch todo => s.send ch todo
    | _ => none
  | .close ch =>
    match s.lock with
    | .closing todo =>
      if ch ∈ todo then some { s.closeChan ch false with lock := .closing (todo.erase ch) }
      else none
    | _ => none
  | .next =>
    match s.lock with
    | .serving [] => some { s with lock := if s.job.isOver then .closing s.subs else .free }
    | .closing [] => some { s with subs := [], lock := .free }
    | _ => none

/-! ## What the lock says of a channel -/

/-- Where a channel is in the life of its subscription. -/
inductive Phase where
  /-- It does not have the job's last state yet. -/
  | behind
  /-- It has been emptied for it. -/
  | emptied
  | current
  | shut
deriving DecidableEq, Repr

/-- The phase of a channel, by the subscribers and the lock. -/
def Lock.phase (subs : List Nat) (ch : Nat) (lock : Lock) : Phase :=
  if ch ∈ subs then
    match lock with
    | .free => .current
    | .serving todo => if ch ∈ todo then .behind else .current
    | .sending now todo => if ch = now then .emptied else if ch ∈ todo then .behind else .current
    | .closing todo => if ch ∈ todo then .current else .shut
  else .shut

variable {subs : List Nat}

theorem Lock.phase_of_not_mem {ch : Nat} (gone : ch ∉ subs) (lock : Lock) :
    lock.phase subs ch = .shut := by
  simp [phase, gone]

def Phase.Holds (j : JobRec) (states : List JobView) (c : Chan) : Phase → Prop
  | .behind => c.closed = false ∧ c.log.Sublist (states.dropLast.drop c.since)
  | .emptied =>
    c.closed = false ∧ c.log.Sublist (states.dropLast.drop c.since) ∧ c.buf = none
  | .current => c.closed = false ∧ c.log.getLast? = some j.view
  | .shut =>
    c.closed = true ∧ (c.cancelled = false → j.isOver = true ∧ c.log.getLast? = some j.view)

structure ChanOk (j : JobRec) (states : List JobView) (p : Phase) (c : Chan) : Prop where
  since : c.since < states.length
  log : c.log.Sublist (states.drop c.since)
  told : c.told = true → c.closed = true ∧ c.buf = none
  phase : p.Holds j states c

section Chan
variable {j j' : JobRec} {states : List JobView} {p : Phase} {c : Chan}

theorem ChanOk.not_told (h : ChanOk j states p c) (isOpen : c.closed = false) :
    ¬ c.told = true := by
  intro seen
  have closed := (h.told seen).1
  rw [isOpen] at closed
  cases closed

theorem ChanOk.take (h : ChanOk j states p c) {v : JobView} (full : c.buf = some v) :
    ChanOk j states p { c with buf := none, got := c.got ++ [v] } := by
  have log : Chan.log { c with buf := none, got := c.got ++ [v] } = c.log := by
    simp [Chan.log, full]
  refine ⟨h.since, log ▸ h.log, fun seen => ⟨(h.told seen).1, rfl⟩, ?_⟩
  have phase := h.phase
  cases p with
  | emptied => exact ⟨phase.1, log ▸ phase.2.1, rfl⟩
  | _ => exact ⟨phase.1, log ▸ phase.2⟩

theorem ChanOk.see (h : ChanOk j states p c) (empty : c.buf = none) (closed : c.closed = true) :
    ChanOk j states p { c with told := true } :=
  { h with told := fun _ => ⟨closed, empty⟩ }

theorem ChanOk.drain (h : ChanOk j states .behind c) :
    ChanOk j states .emptied { c with buf := none } := by
  have less : (Chan.log { c with buf := none }).Sublist c.log := by simp [Chan.log]
  exact ⟨h.since, less.trans h.log, fun seen => ⟨(h.told seen).1, rfl⟩,
    h.phase.1, less.trans h.phase.2, rfl⟩

/-- Filling an emptied channel: what it has is from before the last state, so the last state comes
after it. -/
theorem ChanOk.fill (h : ChanOk j states .emptied c) (last : states.getLast? = some j.view) :
    ChanOk j states .current { c with buf := some j.view } := by
  obtain ⟨isOpen, before, empty⟩ := h.phase
  have log : Chan.log { c with buf := some j.view } = c.log ++ [j.view] := by simp [Chan.log, empty]
  have whole : states = states.dropLast ++ [j.view] :=
    (dropLast_append_getLast? j.view last).symm
  have early : c.since ≤ states.dropLast.length := by
    rw [length_dropLast]
    exact Nat.le_pred_of_lt h.since
  refine ⟨h.since, ?_, fun seen => absurd seen (h.not_told isOpen), isOpen, ?_⟩
  · rw [log, whole, drop_append_of_le_length early]
    exact before.append (List.Sublist.refl _)
  · rw [log, getLast?_concat]

theorem ChanOk.finish (h : ChanOk j states .current c) (isOver : j.isOver = true) :
    ChanOk j states .shut { c with closed := true, cancelled := false } :=
  ⟨h.since, h.log, fun seen => absurd seen (h.not_told h.phase.1), rfl,
    fun _ => ⟨isOver, h.phase.2⟩⟩

theorem ChanOk.cancel (h : ChanOk j states .current c) :
    ChanOk j states .shut { c with closed := true, cancelled := true } :=
  ⟨h.since, h.log, fun seen => absurd seen (h.not_told h.phase.1), rfl, (fun kept => by cases kept)⟩

theorem ChanOk.grown (h : ChanOk j states p c) (v : JobView) :
    c.since < (states ++ [v]).length ∧ c.log.Sublist ((states ++ [v]).drop c.since) := by
  constructor
  · rw [length_append]
    exact Nat.lt_add_right _ h.since
  · rw [drop_append_of_le_length (Nat.le_of_lt h.since)]
    exact h.log.trans (sublist_append_left _ _)

theorem ChanOk.publish (h : ChanOk j states .current c) :
    ChanOk j' (states ++ [j'.view]) .behind c := by
  obtain ⟨since, log⟩ := h.grown j'.view
  refine ⟨since, log, h.told, h.phase.1, ?_⟩
  rw [dropLast_concat]
  exact h.log

theorem ChanOk.publish_shut (h : ChanOk j states .shut c) (runs : j.isOver = false) :
    ChanOk j' (states ++ [j'.view]) .shut c := by
  obtain ⟨since, log⟩ := h.grown j'.view
  refine ⟨since, log, h.told, h.phase.1, ?_⟩
  intro kept
  have isOver := (h.phase.2 kept).1
  rw [runs] at isOver
  cases isOver

end Chan

/-! ## What holds between any two steps -/

/-- The channels a loop has still to do are subscribers, each once. -/
structure Todo (subs todo : List Nat) : Prop where
  nodup : todo.Nodup
  subset : ∀ ch ∈ todo, ch ∈ subs

/-- The loops, and the job they are for. -/
def Lock.Ok (subs : List Nat) (isOver : Bool) : Lock → Prop
  | .free => isOver = true → subs = []
  | .serving todo => Todo subs todo
  | .sending ch todo => Todo subs (ch :: todo)
  | .closing todo => isOver = true ∧ Todo subs todo

structure FeedInv (s : Feed) : Prop where
  fault : s.fault = none
  last : s.history.getLast? = some s.job.view
  nodup : s.subs.Nodup
  subs : ∀ ch ∈ s.subs, ch < s.chans.length
  lock : s.lock.Ok s.subs s.job.isOver
  chans : ∀ (ch : Nat) (c : Chan), s.chans[ch]? = some c →
    ChanOk s.job s.history (s.lock.phase s.subs ch) c

theorem feedInv_of (j : JobRec) : FeedInv (Feed.of j) where
  fault := rfl
  last := rfl
  nodup := nodup_nil
  subs := by
    intro ch mem
    cases mem
  lock := fun _ => rfl
  chans := by
    intro ch c at_ch
    cases at_ch

section Steps
variable {keyOf : String → String} {s t : Feed} {ch : Nat} {todo : List Nat}

theorem Todo.erase (h : Todo subs todo) : Todo subs (todo.erase ch) :=
  ⟨h.nodup.erase ch, fun q mem => h.subset q (mem_of_mem_erase mem)⟩

variable {f : Chan → Chan}

theorem of_getElem?_modify {l : List Chan} {q : Nat} {c : Chan}
    (h : (l.modify ch f)[q]? = some c) :
    (q = ch ∧ ∃ old, l[q]? = some old ∧ c = f old) ∨ (q ≠ ch ∧ l[q]? = some c) := by
  rw [getElem?_modify] at h
  obtain ⟨old, at_q, changed⟩ := map_eq_some_iff.mp h
  by_cases here : ch = q
  · rw [if_pos here] at changed
    exact .inl ⟨here.symm, old, at_q, changed.symm⟩
  · rw [if_neg here] at changed
    exact .inr ⟨fun same => here same.symm, changed ▸ at_q⟩

section
variable (h : FeedInv s)
include h

/-- An open channel can be sent to and closed. -/
theorem FeedInv.isOpen (here : s.lock.phase s.subs ch ≠ .shut) :
    ¬ s.chans[ch]?.any (·.closed) = true := by
  cases at_ch : s.chans[ch]? with
  | none => simp
  | some c =>
    have phase := (h.chans ch c at_ch).phase
    have isOpen : c.closed = false := by
      cases p : s.lock.phase s.subs ch with
      | shut => exact absurd p here
      | _ =>
        rw [p] at phase
        exact phase.1
    simp [isOpen]

/-- A step that changes one channel and no states: that channel has to be right in its new phase,
and the others have to keep theirs. -/
theorem FeedInv.onChan (subs : List Nat) (lock : Lock)
    (fewer : subs.Sublist s.subs) (lockOk : lock.Ok subs s.job.isOver)
    (here : ∀ c, s.chans[ch]? = some c → ChanOk s.job s.history (s.lock.phase s.subs ch) c →
      ChanOk s.job s.history (lock.phase subs ch) (f c))
    (others : ∀ q, q ≠ ch → lock.phase subs q = s.lock.phase s.subs q) :
    FeedInv { s.onChan ch f with subs := subs, lock := lock } := by
  refine ⟨h.fault, h.last, h.nodup.sublist fewer, ?_, lockOk, ?_⟩
  · intro q mem
    show q < (s.chans.modify ch f).length
    rw [length_modify]
    exact h.subs q (fewer.subset mem)
  · intro q c at_q
    rcases of_getElem?_modify at_q with ⟨rfl, old, at_old, rfl⟩ | ⟨other, at_q⟩
    · exact here old at_old (h.chans q old at_old)
    · rw [others q other]
      exact h.chans q c at_q

/-- **A new state of a running job.** -/
theorem FeedInv.publish (free : s.lock = .free) (runs : s.job.isOver = false)
    (j : JobRec) : FeedInv (s.publish j) where
  fault := h.fault
  last := getLast?_concat
  nodup := h.nodup
  subs := h.subs
  lock := ⟨h.nodup, fun _ mem => mem⟩
  chans := by
    intro ch c at_ch
    have before := h.chans ch c at_ch
    show ChanOk j (s.history ++ [j.view]) (phase s.subs ch (.serving s.subs)) c
    rw [free] at before
    by_cases mem : ch ∈ s.subs
    · simp only [phase, mem, if_true] at before ⊢
      exact before.publish
    · rw [phase_of_not_mem mem] at before ⊢
      exact before.publish_shut runs

/-- The channel of a new subscriber. -/
theorem FeedInv.newest (free : s.lock = .free) :
    ChanOk s.job s.history (s.lock.phase s.subscribe.subs s.chans.length)
      { buf := some s.job.view, since := s.history.length - 1, closed := s.job.isOver } := by
  have fresh : s.chans.length ∉ s.subs := fun mem => Nat.lt_irrefl _ (h.subs _ mem)
  have whole : s.history = s.history.dropLast ++ [s.job.view] :=
    (dropLast_append_getLast? s.job.view h.last).symm
  have one : s.history.drop (s.history.length - 1) = [s.job.view] := by
    rw [← length_dropLast]
    nth_rewrite 2 [whole]
    exact drop_left
  refine ⟨?_, ?_, (fun seen => by cases seen), ?_⟩
  · show s.history.length - 1 < s.history.length
    have length := congrArg List.length whole
    rw [length_append, length_singleton] at length
    omega
  · show [s.job.view].Sublist (s.history.drop (s.history.length - 1))
    rw [one]
  · cases isOver : s.job.isOver with
    | true =>
      have shut : s.lock.phase s.subscribe.subs s.chans.length = .shut :=
        phase_of_not_mem (by simpa [subscribe, isOver] using fresh) s.lock
      rw [shut]
      exact ⟨rfl, fun _ => ⟨isOver, rfl⟩⟩
    | false =>
      have current : s.lock.phase s.subscribe.subs s.chans.length = .current := by
        simp [phase, subscribe, isOver, free]
      rw [current]
      exact ⟨rfl, rfl⟩

/-- A new subscriber begins with the job's state, and has the end at once if the job is over. -/
theorem FeedInv.subscribe (free : s.lock = .free) : FeedInv s.subscribe := by
  have fresh : s.chans.length ∉ s.subs := fun mem => Nat.lt_irrefl _ (h.subs _ mem)
  have keeps : ∀ q, q ≠ s.chans.length → (q ∈ s.subscribe.subs ↔ q ∈ s.subs) := by
    intro q old
    unfold Feed.subscribe
    split
    · rfl
    · simp [old]
  refine ⟨h.fault, h.last, ?_, ?_, ?_, ?_⟩
  · unfold Feed.subscribe
    split
    · exact h.nodup
    · have all := Nodup.concat fresh h.nodup
      rwa [concat_eq_append] at all
  · intro q mem
    show q < (s.chans ++ _).length
    rw [length_append, length_singleton]
    by_cases new : q = s.chans.length
    · omega
    · exact Nat.lt_add_right 1 (h.subs q ((keeps q new).mp mem))
  · show s.lock.Ok s.subscribe.subs s.job.isOver
    have ended := h.lock
    rw [free] at ended ⊢
    intro isOver
    simp [Feed.subscribe, isOver, ended isOver]
  · intro q c at_q
    show ChanOk s.job s.history (s.lock.phase s.subscribe.subs q) c
    by_cases new : q = s.chans.length
    · have made : c =
          { buf := some s.job.view, since := s.history.length - 1, closed := s.job.isOver } := by
        rw [new] at at_q
        simpa [Feed.subscribe] using at_q.symm
      rw [made, new]
      exact h.newest free
    · have old : s.chans[q]? = some c := by
        have bound : q < (s.chans ++ [_]).length := (List.getElem?_eq_some_iff.mp at_q).1
        rw [length_append, length_singleton] at bound
        rw [← getElem?_append_left (by omega)]
        exact at_q
      have same : s.lock.phase s.subscribe.subs q = s.lock.phase s.subs q := by
        simp only [phase, keeps q new]
      rw [same]
      exact h.chans q c old

/-- A subscriber cancels; anyone else changes nothing. -/
theorem FeedInv.unsubscribe (free : s.lock = .free) (ch : Nat) : FeedInv (s.unsubscribe ch) := by
  unfold Feed.unsubscribe
  split
  next mem =>
    have now : s.lock.phase s.subs ch = .current := by simp [phase, free, mem]
    rw [closeChan, if_neg (h.isOpen (by simp [now]))]
    refine h.onChan (s.subs.erase ch) s.lock erase_sublist ?_ ?_ ?_
    · have ended := h.lock
      rw [free] at ended ⊢
      intro isOver
      rw [ended isOver] at mem
      cases mem
    · intro c _ ok
      rw [now] at ok
      rw [phase_of_not_mem (h.nodup.not_mem_erase)]
      exact ok.cancel
    · intro q other
      simp [phase, mem_erase_of_ne other]
  · exact h

/-- A reader takes a value, or sees the end. -/
theorem FeedInv.read (step : s.read ch = some t) : FeedInv t := by
  unfold Feed.read at step
  split at step
  · cases step
  next c at_ch =>
    split at step
    next v full =>
      cases step
      refine h.onChan s.subs s.lock (List.Sublist.refl _) h.lock ?_ fun _ _ => rfl
      intro old at_old ok
      obtain rfl := some_inj.mp (at_ch.symm.trans at_old)
      exact ok.take full
    next empty =>
      obtain ⟨closed, rfl⟩ := Runs.of_guard step
      refine h.onChan s.subs s.lock (List.Sublist.refl _) h.lock ?_ fun _ _ => rfl
      intro old at_old ok
      obtain rfl := some_inj.mp (at_ch.symm.trans at_old)
      exact ok.see empty closed

/-- The loop that serves empties a channel. -/
theorem FeedInv.drain (lock : s.lock = .serving todo) (due : ch ∈ todo) :
    FeedInv { s.onChan ch fun c => { c with buf := none } with
      lock := .sending ch (todo.erase ch) } := by
  have loop : Todo s.subs todo := by
    have ok := h.lock
    rw [lock] at ok
    exact ok
  have mem := loop.subset ch due
  refine h.onChan s.subs (.sending ch (todo.erase ch)) (List.Sublist.refl _) ⟨?_, ?_⟩ ?_ ?_
  · exact nodup_cons.mpr ⟨loop.nodup.not_mem_erase, loop.nodup.erase ch⟩
  · exact forall_mem_cons.mpr ⟨mem, loop.erase.subset⟩
  · intro c _ ok
    rw [lock] at ok
    simp only [phase, mem, due, if_true] at ok
    simp only [phase, mem, if_true]
    exact ok.drain
  · intro q other
    simp [phase, lock, other, mem_erase_of_ne other]

/-- The send finds its channel open and empty, and fills it. -/
theorem FeedInv.send (lock : s.lock = .sending ch todo) :
    s.send ch todo = some { s.onChan ch fun c => { c with buf := some s.job.view } with
        lock := .serving todo } ∧
      FeedInv { s.onChan ch fun c => { c with buf := some s.job.view } with
        lock := .serving todo } := by
  have loop : Todo s.subs (ch :: todo) := by
    have ok := h.lock
    rw [lock] at ok
    exact ok
  have mem := loop.subset ch mem_cons_self
  have served := (nodup_cons.mp loop.nodup).1
  have now : s.lock.phase s.subs ch = .emptied := by simp [phase, lock, mem]
  constructor
  · have empty : ¬ s.chans[ch]?.any (·.buf.isSome) = true := by
      cases at_ch : s.chans[ch]? with
      | none => simp
      | some c =>
        have phase := (h.chans ch c at_ch).phase
        rw [now] at phase
        simp [phase.2.2]
    rw [Feed.send, if_neg (h.isOpen (by simp [now])), if_neg empty]
  · refine h.onChan s.subs (.serving todo) (List.Sublist.refl _) ⟨?_, ?_⟩ ?_ ?_
    · exact (nodup_cons.mp loop.nodup).2
    · exact fun q rest => loop.subset q (mem_cons_of_mem _ rest)
    · intro c _ ok
      rw [now] at ok
      simp only [phase, mem, served, if_true, if_false]
      exact ok.fill h.last
    · intro q other
      simp [phase, lock, other]

/-- The loop that closes, at the end of the job. -/
theorem FeedInv.close (lock : s.lock = .closing todo) (due : ch ∈ todo) :
    FeedInv { s.closeChan ch false with lock := .closing (todo.erase ch) } := by
  obtain ⟨isOver, loop⟩ : s.job.isOver = true ∧ Todo s.subs todo := by
    have ok := h.lock
    rw [lock] at ok
    exact ok
  have mem := loop.subset ch due
  have now : s.lock.phase s.subs ch = .current := by simp [phase, lock, mem, due]
  rw [closeChan, if_neg (h.isOpen (by simp [now]))]
  refine h.onChan s.subs (.closing (todo.erase ch)) (List.Sublist.refl _) ⟨isOver, loop.erase⟩ ?_ ?_
  · intro c _ ok
    rw [now] at ok
    simp only [phase, mem, loop.nodup.not_mem_erase, if_true, if_false]
    exact ok.finish isOver
  · intro q other
    simp [phase, lock, mem_erase_of_ne other]

/-- The lock goes on, and every channel is in the phase it was in. -/
theorem FeedInv.onLock (subs : List Nat) (lock : Lock)
    (fewer : subs.Sublist s.subs) (lockOk : lock.Ok subs s.job.isOver)
    (same : ∀ q, lock.phase subs q = s.lock.phase s.subs q) :
    FeedInv { s with subs := subs, lock := lock } := by
  refine ⟨h.fault, h.last, h.nodup.sublist fewer, ?_, lockOk, ?_⟩
  · exact fun q mem => h.subs q (fewer.subset mem)
  intro q c at_q
  rw [same q]
  exact h.chans q c at_q

theorem FeedInv.served (lock : s.lock = .serving []) :
    FeedInv { s with lock := if s.job.isOver then .closing s.subs else .free } := by
  refine h.onLock s.subs _ (List.Sublist.refl _) ?_ ?_
  · split
    next isOver => exact ⟨isOver, h.nodup, fun _ mem => mem⟩
    next runs => exact fun isOver => absurd isOver runs
  intro q
  rw [lock]
  split
  · by_cases mem : q ∈ s.subs <;> simp [phase, mem]
  · simp [phase]

theorem FeedInv.closed (lock : s.lock = .closing []) :
    FeedInv { s with subs := [], lock := .free } := by
  refine h.onLock [] .free (nil_sublist _) (fun _ => rfl) ?_
  intro q
  rw [lock]
  simp [phase]

/-- **Every step keeps the invariant.** -/
theorem feedInv_step (op : FeedOp) (step : feedStep keyOf s op = some t) : FeedInv t := by
  cases op with
  | report name c =>
    dsimp only [feedStep] at step
    split at step
    next free =>
      cases step
      cases changed : (s.job.change keyOf name c).2 with
      | true =>
        -- a job that is over has no changes
        have runs : s.job.isOver = false := by
          cases isOver : s.job.isOver with
          | false => rfl
          | true =>
            rw [change_of_isOver isOver] at changed
            cases changed
        exact h.publish free runs _
      | false =>
        simp only [change_quiet c changed]
        exact h
    · cases step
  | finish result endedAt seq =>
    dsimp only [feedStep] at step
    split at step
    next free =>
      obtain ⟨runs, rfl⟩ := Runs.of_unless step
      exact h.publish free (Bool.eq_false_iff.mpr runs) _
    · cases step
  | subscribe =>
    dsimp only [feedStep] at step
    split at step
    next free =>
      cases step
      exact h.subscribe free
    · cases step
  | cancel ch =>
    dsimp only [feedStep] at step
    split at step
    next free =>
      cases step
      exact h.unsubscribe free ch
    · cases step
  | read ch => exact h.read step
  | drain ch =>
    dsimp only [feedStep] at step
    split at step
    next todo lock =>
      obtain ⟨due, rfl⟩ := Runs.of_guard step
      exact h.drain lock due
    · cases step
  | send =>
    dsimp only [feedStep] at step
    split at step
    next ch todo lock =>
      rw [(h.send lock).1] at step
      cases step
      exact (h.send lock).2
    · cases step
  | close ch =>
    dsimp only [feedStep] at step
    split at step
    next todo lock =>
      obtain ⟨due, rfl⟩ := Runs.of_guard step
      exact h.close lock due
    · cases step
  | next =>
    dsimp only [feedStep] at step
    split at step
    next lock =>
      cases step
      exact h.served lock
    next lock =>
      cases step
      exact h.closed lock
    · cases step

end

end Steps

/-! ## A publish goes on to its end -/

/-- The steps a publish has left. -/
def Feed.work (s : Feed) : Nat :=
  let closing := if s.job.isOver then s.subs.length + 1 else 0
  match s.lock with
  | .free => 0
  | .serving todo => 2 * todo.length + 1 + closing
  | .sending _ todo => 2 * todo.length + 2 + closing
  | .closing todo => todo.length + 1

/-- Whatever step `publish` comes to can be taken and brings it closer to its end, and nobody else
takes it further away. -/
structure Feed.GoesOn (keyOf : String → String) (s : Feed) : Prop where
  due : s.lock ≠ .free → ∃ op, s.lock.due op = true
  taken : ∀ op, s.lock.due op = true → ∃ t, feedStep keyOf s op = some t ∧ t.work < s.work
  others : s.lock ≠ .free → ∀ op t, feedStep keyOf s op = some t → t.work ≤ s.work

section Publish
variable {keyOf : String → String} {s t : Feed} {ch : Nat}

theorem Lock.exists_due {lock : Lock} (held : lock ≠ .free) : ∃ op, lock.due op = true := by
  cases lock with
  | free => exact absurd rfl held
  | serving todo =>
    cases todo with
    | nil => exact ⟨.next, rfl⟩
    | cons ch rest => exact ⟨.drain ch, by simp [due]⟩
  | sending ch todo => exact ⟨.send, rfl⟩
  | closing todo =>
    cases todo with
    | nil => exact ⟨.next, rfl⟩
    | cons ch rest => exact ⟨.close ch, by simp [due]⟩

/-- Each step of `publish` can be taken, and leaves less to do. -/
theorem FeedInv.taken (h : FeedInv s) (op : FeedOp) (due : s.lock.due op = true) :
    ∃ t, feedStep keyOf s op = some t ∧ t.work < s.work := by
  cases lock : s.lock with
  | free =>
    rw [lock] at due
    cases op <;> cases due
  | serving todo =>
    rw [lock] at due
    cases op with
    | drain ch =>
      have mem : ch ∈ todo := by simpa [Lock.due] using due
      refine ⟨_, by dsimp only [feedStep]; rw [lock]; exact if_pos mem, ?_⟩
      have length := length_erase_add_one mem
      simp only [Feed.work, Feed.onChan, lock]
      omega
    | next =>
      obtain rfl : todo = [] := by simpa [Lock.due] using due
      refine ⟨_, by dsimp only [feedStep]; rw [lock], ?_⟩
      cases isOver : s.job.isOver <;> simp [work, lock, isOver]
    | _ => cases due
  | sending ch todo =>
    rw [lock] at due
    cases op with
    | send =>
      refine ⟨_, by dsimp only [feedStep]; rw [lock]; exact (h.send lock).1, ?_⟩
      simp only [Feed.work, Feed.onChan, lock]
      omega
    | _ => cases due
  | closing todo =>
    rw [lock] at due
    cases op with
    | close ch =>
      have mem : ch ∈ todo := by simpa [Lock.due] using due
      refine ⟨_, by dsimp only [feedStep]; rw [lock]; exact if_pos mem, ?_⟩
      have length := length_erase_add_one mem
      simp only [work, lock]
      omega
    | next =>
      obtain rfl : todo = [] := by simpa [Lock.due] using due
      refine ⟨_, by dsimp only [feedStep]; rw [lock], ?_⟩
      simp [work, lock]
    | _ => cases due

theorem work_read (step : s.read ch = some t) : t.work = s.work := by
  unfold Feed.read at step
  split at step
  · cases step
  split at step
  · cases step
    rfl
  · obtain ⟨-, rfl⟩ := Runs.of_guard step
    rfl

theorem held_cases {op : FeedOp} (held : s.lock ≠ .free) (step : feedStep keyOf s op = some t) :
    s.lock.due op = true ∨ ∃ ch, op = .read ch := by
  cases op with
  | read ch => exact .inr ⟨ch, rfl⟩
  | report _ _ | finish _ _ _ | subscribe | cancel _ =>
    -- these wait for the lock
    dsimp only [feedStep] at step
    split at step
    next free => exact absurd free held
    · cases step
  | drain ch | close ch =>
    left
    dsimp only [feedStep] at step
    split at step
    next lock =>
      split at step
      next due => simpa [lock, Lock.due] using due
      · cases step
    · cases step
  | send =>
    left
    dsimp only [feedStep] at step
    split at step
    next lock =>
      rw [lock]
      rfl
    · cases step
  | next =>
    left
    dsimp only [feedStep] at step
    split at step
    next lock =>
      rw [lock]
      rfl
    next lock =>
      rw [lock]
      rfl
    · cases step

theorem FeedInv.goesOn (h : FeedInv s) : s.GoesOn keyOf where
  due := exists_due
  taken := h.taken
  others := by
    intro held op t step
    rcases held_cases held step with due | ⟨ch, rfl⟩
    · obtain ⟨t', step', less⟩ := h.taken op due
      rw [step] at step'
      cases step'
      exact Nat.le_of_lt less
    · exact Nat.le_of_eq (work_read step)

end Publish

/-! ## The protocol -/

/-- What holds of a channel of this job, whoever reads it and whatever the lock is doing. -/
structure Chan.Faithful (s : Feed) (c : Chan) : Prop where
  /-- The reader has states of the job in their order, from the one at the subscription on. -/
  order : c.got.Sublist (s.history.drop c.since)
  /-- The end of a channel that was not cancelled is the end of the job, and what was sent last,
  taken or not, is its final state. -/
  final : c.closed = true → c.cancelled = false →
    s.job.isOver = true ∧ (c.got ++ c.buf.toList).getLast? = some s.job.view
  /-- A reader that has seen the end has taken everything before it. -/
  told : c.told = true → c.closed = true ∧ c.buf = none
  /-- After the end every channel is closed. -/
  ended : s.job.isOver = true → s.lock = .free → c.closed = true

/-- What the invariant says to a reader. -/
theorem FeedInv.faithful {s : Feed} (h : FeedInv s) {ch : Nat} {c : Chan}
    (at_ch : s.chans[ch]? = some c) : c.Faithful s := by
  have ok := h.chans ch c at_ch
  refine ⟨(sublist_append_left _ _).trans ok.log, ?_, ok.told, ?_⟩
  · intro closed kept
    have phase := ok.phase
    cases p : s.lock.phase s.subs ch with
    | shut =>
      rw [p] at phase
      exact phase.2 kept
    | _ =>
      rw [p] at phase
      rw [phase.1] at closed
      cases closed
  · intro isOver free
    have none_left := h.lock
    rw [free] at none_left
    have shut : s.lock.phase s.subs ch = .shut := by simp [phase, none_left isOver]
    have phase := ok.phase
    rw [shut] at phase
    exact phase.1

/-- **Following a job.** However the reports, the end, subscriptions, cancels and readers
interleave, `publish` neither panics nor blocks, and every channel is faithful to the job. -/
theorem subscription_protocol (keyOf : String → String) (j : JobRec) (ops : List FeedOp) (s : Feed)
    (h : Runs.run (feedStep keyOf) (Feed.of j) ops = some s) :
    s.fault = none ∧ s.GoesOn keyOf ∧
      ∀ (ch : Nat) (c : Chan), s.chans[ch]? = some c → c.Faithful s := by
  have inv : FeedInv s := Runs.run_inv (fun _ op _ inv step => feedInv_step inv op step)
    (feedInv_of j) h
  exact ⟨inv.fault, inv.goesOn, fun ch c at_ch => inv.faithful at_ch⟩

/-- One reader falls behind and misses a state, and another cancels. -/
def followed : List FeedOp :=
  [.subscribe, .subscribe, .report "copy" .begin, .drain 1, .read 0, .send, .drain 0, .send, .next,
    .cancel 1, .cancel 1, .report "copy" .done, .drain 0, .send, .next,
    .finish none 9 1, .drain 0, .send, .next, .close 0, .next, .read 0, .read 0, .cancel 0]

def copyJob : JobRec := { view := { id := "01", kind := .install, startedAt := 0 } }

theorem subscription_protocol_followed :
    ∃ s, Runs.run (feedStep id) (Feed.of copyJob) followed = some s ∧
      s.chans.map (fun c => (c.got.length, c.told, c.cancelled)) =
        [(2, true, false), (0, false, true)] ∧
      s.fault = none ∧ s.GoesOn id ∧ ∀ (ch : Nat) (c : Chan), s.chans[ch]? = some c →
        c.Faithful s := by
  have outcome : (Runs.run (feedStep id) (of copyJob) followed).map
      (fun s => s.chans.map fun c => (c.got.length, c.told, c.cancelled)) =
        some [(2, true, false), (0, false, true)] := by
    decide
  obtain ⟨s, reached, chans⟩ := map_eq_some_iff.mp outcome
  exact ⟨s, reached, chans, subscription_protocol id copyJob followed s reached⟩

end NasnetPanel.Jobs
