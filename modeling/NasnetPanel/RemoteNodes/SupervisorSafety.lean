import NasnetPanel.RemoteNodes.Supervisor

/-!
# RemoteNodes.SupervisorSafety — one child, with the right spec

At any time the supervisor is in one of four phases: no loop is left (`Off`), a loop goes its own
way (`Free`), a loop does what the holder of `ctl` asked (`Busy`), or a loop is on its way out
(`Ending`). In each, one party is in charge of the child, if there is one, and every child alive is
that one. The phases follow each other whatever the schedule (`phase_step`).

* `one_child`: at most one child is alive; once a `Stop` has returned none is, and none is started
  before the next call that takes `ctl` to start or update; and a child alive has the spec of the
  latest call that was accepted, or of the one that is at it.
-/

namespace NasnetPanel.RemoteNodes.Supervisor

variable {S : Type}

/-! ## What the calls came to -/

/-- The supervisor took the spec on, though the first launch may have failed. -/
def Result.accepts : Result → Bool
  | .ok => true
  | .launchFailed => true
  | _ => false

/-- The spec of the latest call that was accepted. -/
def accepted : List (Op S × Result) → Option S
  | [] => none
  | (op, result) :: log => if result.accepts then op.spec.or (accepted log) else accepted log

/-- The calls that returned, with the one that is about to. -/
def World.outcome (w : World S) : List (Op S × Result) :=
  match w.ctl with
  | some (.awaiting op _ (some result)) => (op, result) :: w.log
  | some (.returning op result) => (op, result) :: w.log
  | _ => w.log

open NasnetPanel.RemoteNodes.Supervisor.World

variable {op : Op S} {result : Result} {w w' : World S} {r i k : Nat} {s : S} {l : Loop S}
  {ok : Bool}

theorem accepted_refused (refused : result.accepts = false)
    (log : List (Op S × Result)) : accepted ((op, result) :: log) = accepted log := by
  rw [accepted, refused]
  rfl

theorem accepted_taken (asks : op.isStop = false)
    (taken : result.accepts = true) (log : List (Op S × Result)) :
    accepted ((op, result) :: log) = op.spec := by
  rw [accepted, taken]
  cases op with
  | stop => cases asks
  | _ => rfl

theorem accepted_cons_congr (e : Op S × Result) {a b : List (Op S × Result)}
    (same : accepted a = accepted b) : accepted (e :: a) = accepted (e :: b) := by
  unfold accepted
  rw [same]

/-! ## The phases -/

def Held.child : Held S → Option Nat
  | .launched _ c => some c
  | .registering _ c => some c
  | _ => none

/-- The call is in `startLocked`, and past its check. -/
def Held.makes : Held S → Option (Op S)
  | .starting op => some op
  | .launched op _ => some op
  | .registering op _ => some op
  | _ => none

/-- The call is in `startLocked`. -/
def Held.asks : Held S → Option (Op S)
  | .checking op => some op
  | .starting op => some op
  | .launched op _ => some op
  | .registering op _ => some op
  | _ => none

/-- What a call may be at while the loop of the run goes its own way. -/
def Held.calm (r : Nat) : Held S → Bool
  | .locked _ => true
  | .checking op => !op.isStop
  | .sending _ k => k = r
  | .awaiting op _ (some _) => !op.isStop
  | .returning op _ => !op.isStop
  | _ => false

def Loop.child : Loop S → Option Nat
  | .watching c => some c
  | .recording c => some c
  | .taken _ c => c
  | .stopping _ c _ => some c
  | .launched _ c => some c
  | .replying _ _ c => c
  | _ => none

def Loop.free : Loop S → Bool
  | .watching _ => true
  | .backing => true
  | .resting => true
  | .waking => true
  | .starting _ => true
  | .recording _ => true
  | _ => false

def Loop.serves : Loop S → Option (Op S)
  | .taken op _ => some op
  | .stopping op _ _ => some op
  | .cleared op => some op
  | .launching s => some (.update s)
  | .launched s _ => some (.update s)
  | .replying s _ _ => some (.update s)
  | _ => none

/-- It has put the new spec in place. -/
def Loop.renewed : Loop S → Bool
  | .launching _ => true
  | .launched _ _ => true
  | .replying _ _ _ => true
  | _ => false

/-- No loop is left. -/
structure Off (w : World S) : Prop where
  run : w.run = none
  loops : ∀ k, w.loops k = .ended
  owned : ∀ i s, w.children i = some s → w.ctl.bind Held.child = some i ∧ w.spec = some s
  asks : ∀ op, w.ctl.bind Held.asks = some op → op.isStop = false
  makes : ∀ op, w.ctl.bind Held.makes = some op → w.spec = op.spec
  state : (∀ op c, w.ctl ≠ some (.registering op c)) → w.state = .stopped ∧ w.pid = none

/-- The loop of the run goes its own way. -/
structure Free (w : World S) (r : Nat) : Prop where
  run : w.run = some r
  others : ∀ k, k ≠ r → w.loops k = .ended
  place : (w.loops r).free = true
  owned : ∀ i s, w.children i = some s → (w.loops r).child = some i ∧ w.spec = some s
  starts : ∀ s, w.loops r = .starting s → w.spec = some s
  given : accepted w.outcome = w.spec
  calm : ∀ h, w.ctl = some h → h.calm r = true

/-- The loop of the run does what the holder of `ctl` waits for. -/
structure Busy (w : World S) (r : Nat) (op : Op S) : Prop where
  run : w.run = some r
  others : ∀ k, k ≠ r → w.loops k = .ended
  ctl : w.ctl = some (.awaiting op r none)
  place : (w.loops r).serves = some op
  owned : ∀ i s, w.children i = some s → (w.loops r).child = some i ∧ w.spec = some s
  given : (w.loops r).renewed = false → accepted w.log = w.spec
  renewed : (w.loops r).renewed = true → w.spec = op.spec
  answers : ∀ s result next, w.loops r = .replying s result next → result.accepts = true

/-- The loop is on its way out, and a `Stop` waits for that. -/
structure Ending (w : World S) (r : Nat) : Prop where
  others : ∀ k, k ≠ r → w.loops k = .ended
  place : w.loops r = .finishing ∧ w.run = some r ∨
    w.loops r = .closing ∧ w.run = none ∧ w.state = .stopped ∧ w.pid = none
  ctl : (∃ result, w.ctl = some (.awaiting .stop r (some result))) ∨ w.ctl = some (.draining r)
  alone : ∀ i, w.children i = none

/-- `Stop` waits for the loop to be over. -/
def Held.waits : Held S → Bool
  | .awaiting .stop _ (some _) => true
  | .draining _ => true
  | _ => false

theorem Ending.waits {w : World S} {r : Nat} (h : Ending w r) :
    ∃ c, w.ctl = some c ∧ c.waits = true := by
  rcases h.ctl with ⟨result, held⟩ | held
  · exact ⟨_, held, rfl⟩
  · exact ⟨_, held, rfl⟩

inductive Phase (w : World S) : Prop where
  | off (h : Off w)
  | free {r : Nat} (h : Free w r)
  | busy {r : Nat} {op : Op S} (h : Busy w r op)
  | ending {r : Nat} (h : Ending w r)

/-- At the start there is no loop. -/
theorem phase_init : Phase ({} : World S) :=
  .off
    { run := rfl
      loops := fun _ => rfl
      owned := fun _ _ alive => by cases alive
      asks := fun _ asked => by cases asked
      makes := fun _ made => by cases made
      state := fun _ => ⟨rfl, rfl⟩ }

/-! ## A step of a loop -/

@[simp] theorem loops_at (w : World S) (r : Nat) (l : Loop S) (k : Nat) :
    (w.at_ r l).loops k = if k = r then l else w.loops k := rfl

theorem loops_at_self (w : World S) (r : Nat) (l : Loop S) : (w.at_ r l).loops r = l := if_pos rfl

theorem others_at (others : ∀ k, k ≠ r → w.loops k = .ended) (l : Loop S) :
    ∀ k, k ≠ r → (w.at_ r l).loops k = .ended := by
  intro k other
  rw [loops_at, if_neg other]
  exact others k other

variable {t : S} {P : S → Prop} {c : Option (Held S)} {n : Nat}

theorem owned_spawn (alone : ∀ i, w.children i = none)
    (alive : (w.spawn s).children i = some t) : i = w.born ∧ t = s := by
  dsimp only [spawn] at alive
  split at alive
  next same =>
    cases alive
    exact ⟨same, rfl⟩
  · rw [alone i] at alive
    cases alive

theorem alone_of_owned {charge : Option Nat}
    (owned : ∀ i s, w.children i = some s → charge = some i ∧ P s) (childless : charge = none)
    (i : Nat) : w.children i = none := by
  cases alive : w.children i with
  | none => rfl
  | some s =>
    have charge := (owned i s alive).1
    rw [childless] at charge
    cases charge

theorem owned_of_alone {P : Nat → S → Prop} (alone : ∀ i, w.children i = none) (i : Nat) (s : S)
    (alive : w.children i = some s) : P i s := by
  rw [alone i] at alive
  cases alive

theorem own_of_others {k : Nat} {l : Loop S} (others : ∀ k, k ≠ r → w.loops k = .ended)
    (here : w.loops k = l) (goes : l ≠ .ended) : k = r :=
  Classical.byContradiction fun other => goes (here.symm.trans (others k other))

theorem ne_ended_of_loopStep {k : Nat} {ok : Bool} {w' : World S}
    (ht : loopStep w k ok = some w') : w.loops k ≠ .ended := by
  intro ended
  rw [loopStep, ended] at ht
  cases ht

structure Kept (w w' : World S) (r : Nat) (l : Loop S) : Prop where
  loops : w'.loops = (w.at_ r l).loops
  run : w'.run = w.run
  log : w'.log = w.log

theorem Kept.here (kept : Kept w w' r l) : w'.loops r = l := by rw [kept.loops, loops_at_self]

theorem Kept.others (kept : Kept w w' r l)
    (others : ∀ k, k ≠ r → w.loops k = .ended) : ∀ k, k ≠ r → w'.loops k = .ended := by
  rw [kept.loops]
  exact others_at others l

theorem Free.goes (h : Free w r) (kept : Kept w w' r l)
    (ctl : w'.ctl = w.ctl) (spec : w'.spec = w.spec) (place : l.free = true)
    (owned : ∀ i s, w'.children i = some s → l.child = some i ∧ w.spec = some s)
    (starts : ∀ s, l = .starting s → w.spec = some s := by intro _ same; cases same) :
    Free w' r where
  run := kept.run.trans h.run
  others := kept.others h.others
  place := kept.here ▸ place
  owned := by
    rw [kept.here, spec]
    exact owned
  starts := by
    rw [kept.here, spec]
    exact starts
  given := by
    rw [outcome, ctl, kept.log, spec]
    exact h.given
  calm := by
    rw [ctl]
    exact h.calm

theorem owned_dead {l' : Loop S} {c : Nat}
    (owned : ∀ i s, w.children i = some s → l.child = some i ∧ P s) (charge : l.child = some c)
    (dead : (w.children c).isNone) (i : Nat) (s : S) (alive : w.children i = some s) :
    l'.child = some i ∧ P s := by
  have same := charge.symm.trans (owned i s alive).1
  cases same
  rw [alive] at dead
  cases dead

/-- A loop that goes its own way still does after a step. -/
theorem free_loop (h : Free w r) (ht : loopStep w k ok = some w') : Free w' r := by
  obtain rfl := own_of_others h.others rfl (ne_ended_of_loopStep ht)
  have place := h.place
  have owned := h.owned
  have starts := h.starts
  unfold loopStep at ht
  cases here : w.loops k with
  | watching c =>
    rw [here] at ht owned
    obtain ⟨dead, rfl⟩ := Runs.of_guard ht
    exact h.goes ⟨rfl, rfl, rfl⟩ rfl rfl rfl (owned_dead owned rfl dead)
  | backing =>
    rw [here] at ht owned
    cases ht
    exact h.goes ⟨rfl, rfl, rfl⟩ rfl rfl rfl owned
  | resting =>
    rw [here] at ht owned
    cases ht
    exact h.goes ⟨rfl, rfl, rfl⟩ rfl rfl rfl owned
  | waking =>
    rw [here] at ht owned
    obtain ⟨s, given, rfl⟩ := Option.map_eq_some_iff.mp ht
    refine h.goes ⟨rfl, rfl, rfl⟩ rfl rfl rfl owned fun t same => ?_
    cases same
    exact given
  | starting s =>
    rw [here] at ht owned
    dsimp only at ht
    split at ht
    · cases ht
      refine h.goes ⟨rfl, rfl, rfl⟩ rfl rfl rfl fun i t alive => ?_
      obtain ⟨rfl, rfl⟩ := owned_spawn (alone_of_owned owned rfl) alive
      exact ⟨rfl, starts _ here⟩
    · cases ht
      exact h.goes ⟨rfl, rfl, rfl⟩ rfl rfl rfl owned
  | recording c =>
    rw [here] at ht owned
    cases ht
    exact h.goes ⟨rfl, rfl, rfl⟩ rfl rfl rfl owned
  | _ =>
    rw [here] at place
    cases place

theorem Busy.goes (h : Busy w r op)
    (kept : Kept w w' r l) (ctl : w'.ctl = w.ctl) (place : l.serves = some op)
    (owned : ∀ i s, w'.children i = some s → l.child = some i ∧ w'.spec = some s)
    (spec : bif l.renewed then w'.spec = op.spec else accepted w.log = w'.spec)
    (answers : ∀ s result next, l = .replying s result next → result.accepts = true := by
      intro _ _ _ same; cases same) : Busy w' r op where
  run := kept.run.trans h.run
  others := kept.others h.others
  ctl := ctl.trans h.ctl
  place := kept.here ▸ place
  owned := by
    rw [kept.here]
    exact owned
  given old := by
    rw [kept.here] at old
    rw [old] at spec
    rw [kept.log]
    exact spec
  renewed new := by
    rw [kept.here] at new
    rw [new] at spec
    exact spec
  answers := by
    rw [kept.here]
    exact answers

theorem Busy.reply (h : Busy w r op) (result : Result) :
    w.reply result = { w with ctl := some (.awaiting op r (some result)) } := by
  rw [World.reply, h.ctl]

/-- The loop takes a step of what the holder of `ctl` waits for. -/
theorem busy_loop (h : Busy w r op) (ht : loopStep w k ok = some w') : Phase w' := by
  obtain rfl := own_of_others h.others rfl (ne_ended_of_loopStep ht)
  have place := h.place
  have owned := h.owned
  have given := h.given
  have renewed := h.renewed
  have answers := h.answers
  unfold loopStep at ht
  cases here : w.loops k with
  | taken op' c =>
    rw [here] at ht place owned given
    cases place
    have before := given rfl
    cases c with
    | none =>
      cases ht
      exact .busy (h.goes ⟨rfl, rfl, rfl⟩ rfl rfl owned before)
    | some c =>
      cases ht
      exact .busy (h.goes ⟨rfl, rfl, rfl⟩ rfl rfl owned before)
  | stopping op' c killed =>
    rw [here] at ht place owned given
    cases place
    have before := given rfl
    obtain ⟨dead, rfl⟩ := Runs.of_guard ht
    exact .busy (h.goes ⟨rfl, rfl, rfl⟩ rfl rfl (owned_dead owned rfl dead) before)
  | cleared op' =>
    rw [here] at ht place owned
    cases place
    have alone := alone_of_owned owned rfl
    cases op with
    | start s => cases ht
    | update s =>
      cases ht
      exact .busy (h.goes ⟨rfl, rfl, rfl⟩ rfl rfl (owned_of_alone alone) rfl)
    | stop =>
      rw [h.reply] at ht
      cases ht
      exact .ending
        { others := others_at h.others _
          place := .inl ⟨loops_at_self .., h.run⟩
          ctl := .inl ⟨.ok, rfl⟩
          alone := alone }
  | launching s =>
    rw [here] at ht place owned renewed
    cases place
    have spec := renewed rfl
    dsimp only at ht
    split at ht
    · cases ht
      refine .busy (h.goes ⟨rfl, rfl, rfl⟩ rfl rfl (fun i t alive => ?_) spec)
      obtain ⟨rfl, rfl⟩ := owned_spawn (alone_of_owned owned rfl) alive
      exact ⟨rfl, spec⟩
    · cases ht
      refine .busy (h.goes ⟨rfl, rfl, rfl⟩ rfl rfl owned spec fun _ _ _ same => ?_)
      cases same
      rfl
  | launched s c =>
    rw [here] at ht place owned renewed
    cases place
    have spec := renewed rfl
    cases ht
    refine .busy (h.goes ⟨rfl, rfl, rfl⟩ rfl rfl owned spec fun _ _ _ same => ?_)
    cases same
    rfl
  | replying s result next =>
    rw [here] at ht place owned renewed
    cases place
    have spec := renewed rfl
    have taken := answers s result next here
    dsimp only at ht
    rw [h.reply result] at ht
    cases ht
    exact .free
      { run := h.run
        others := others_at h.others _
        place := by
          rw [loops_at_self]
          cases next <;> rfl
        owned := fun i t alive => by
          rw [loops_at_self]
          obtain ⟨charge, given⟩ := owned i t alive
          cases next with
          | none => cases charge
          | some c => exact ⟨charge, given⟩
        starts := fun t same => by
          rw [loops_at_self] at same
          cases next <;> cases same
        given := by
          rw [spec]
          exact accepted_taken rfl taken _
        calm := fun held same => by
          cases same
          rfl }
  | _ =>
    rw [here] at place
    cases place

/-- A loop on its way out takes a step. -/
theorem ending_loop (h : Ending w r) (ht : loopStep w k ok = some w') : Phase w' := by
  obtain rfl := own_of_others h.others rfl (ne_ended_of_loopStep ht)
  unfold loopStep at ht
  rcases h.place with ⟨here, -⟩ | ⟨here, run, state⟩
  · rw [here] at ht
    cases ht
    exact .ending
      { h with
        others := others_at h.others _
        place := .inr ⟨loops_at_self .., rfl, rfl, rfl⟩ }
  · rw [here] at ht
    cases ht
    refine .off
      { run := run
        loops := fun i => ?_
        owned := owned_of_alone h.alone
        asks := fun op asked => ?_
        makes := fun op made => ?_
        state := fun _ => state }
    · rw [loops_at]
      split
      · rfl
      next other => exact h.others i other
    · obtain ⟨c, held, waits⟩ := h.waits
      rw [show (w.at_ k .ended).ctl = _ from held] at asked
      cases c <;> cases asked <;> cases waits
    · obtain ⟨c, held, waits⟩ := h.waits
      rw [show (w.at_ k .ended).ctl = _ from held] at made
      cases c <;> cases made <;> cases waits

/-- A loop takes a step, in whatever phase. -/
theorem phase_loop (h : Phase w) (ht : loopStep w k ok = some w') : Phase w' := by
  cases h with
  | off h =>
    rw [loopStep, h.loops k] at ht
    cases ht
  | free h => exact .free (free_loop h ht)
  | busy h => exact busy_loop h ht
  | ending h => exact ending_loop h ht

/-- The grace period of a stop is over. -/
theorem phase_kill (h : Phase w) (ht : killStep w k = some w') : Phase w' := by
  unfold killStep at ht
  split at ht
  case h_2 => cases ht
  next op' c here =>
  cases ht
  cases h with
  | off h =>
    rw [h.loops k] at here
    cases here
  | @free r h =>
    obtain rfl := own_of_others h.others here (by simp)
    have place := h.place
    rw [here] at place
    cases place
  | @busy r op h =>
    obtain rfl := own_of_others h.others here (by simp)
    have place := h.place
    have owned := h.owned
    have given := h.given
    rw [here] at place owned given
    obtain rfl : op' = op := Option.some.inj place
    exact .busy (h.goes ⟨rfl, rfl, rfl⟩ rfl rfl owned (given rfl))
  | @ending r h =>
    obtain rfl := own_of_others h.others here (by simp)
    rcases h.place with ⟨at_, -⟩ | ⟨at_, -⟩
    · cases here.symm.trans at_
    · cases here.symm.trans at_

/-! ## A step of the call that holds `ctl` -/

theorem Off.alone (h : Off w) (childless : w.ctl.bind Held.child = none) (i : Nat) :
    w.children i = none :=
  alone_of_owned h.owned childless i

variable {log : List (Op S × Result)}

/-- While no loop is left, a call that makes no child leaves things as they are. -/
theorem Off.holds (h : Off w)
    (childless : w.ctl.bind Held.child = none) (makes : c.bind Held.makes = none)
    (asks : ∀ op, c.bind Held.asks = some op → op.isStop = false) :
    Phase { w with ctl := c, log := log } :=
  .off
    { h with
      owned := owned_of_alone (h.alone childless)
      asks := asks
      makes := fun op made => by
        have none : none = some op := makes.symm.trans made
        cases none
      state := fun _ => h.state fun op k held => by
        rw [held] at childless
        cases childless }

theorem Off.idles (h : Off w) {a : Held S} (held : w.ctl = some a) (childless : a.child = none)
    {c : Option (Held S)} (makes : c.bind Held.makes = none)
    (asks : c.bind Held.asks = none) : Phase { w with ctl := c, log := log } :=
  h.holds (by rw [held]; exact childless) makes fun op asked => by cases asks.symm.trans asked

theorem off_held (h : Off w) (ht : heldStep w ok = some w') : Phase w' := by
  unfold heldStep at ht
  split at ht
  next s held =>
    cases ht
    refine h.holds (by rw [held]; rfl) (by rw [h.run]; rfl) fun op asked => ?_
    rw [h.run] at asked
    cases asked
    rfl
  next held =>
    cases ht
    exact h.idles held rfl (by rw [h.run]; rfl) (by rw [h.run]; rfl)
  next op held =>
    rw [h.run] at ht
    cases ht
    have alone := h.alone (by rw [held]; rfl)
    have asks := h.asks op (by rw [held]; rfl)
    have state := h.state fun op k other => by
      rw [held] at other
      cases other
    exact .off
      { run := rfl
        loops := h.loops
        owned := owned_of_alone alone
        asks := fun op' asked => by
          cases asked
          exact asks
        makes := fun op' made => by
          cases made
          rfl
        state := fun _ => state }
  next op held =>
    have asks := h.asks op (by rw [held]; rfl)
    split at ht
    · obtain ⟨s, asked, rfl⟩ := Option.map_eq_some_iff.mp ht
      have spec := h.makes op (by rw [held]; rfl)
      refine .off
        { h with
          owned := fun i t alive => ?_
          asks := fun op' asked => ?_
          makes := fun op' made => ?_
          state := fun _ => h.state fun op k other => ?_ }
      · obtain ⟨rfl, rfl⟩ := owned_spawn (h.alone (by rw [held]; rfl)) alive
        exact ⟨rfl, spec.trans asked⟩
      · cases asked
        exact asks
      · cases made
        exact spec
      · rw [held] at other
        cases other
    · cases ht
      exact h.idles held rfl rfl rfl
  next op c held =>
    cases ht
    have owned := h.owned
    have asks := h.asks op (by rw [held]; rfl)
    have spec := h.makes op (by rw [held]; rfl)
    rw [held] at owned
    refine .off
      { h with
        owned := owned
        asks := fun op' asked => ?_
        makes := fun op' made => ?_
        state := fun idle => absurd rfl (idle op c) }
    · cases asked
      exact asks
    · cases made
      exact spec
  next op c held =>
    cases ht
    have owned := h.owned
    have asks := h.asks op (by rw [held]; rfl)
    have spec := h.makes op (by rw [held]; rfl)
    rw [held] at owned
    refine .free
      { run := rfl
        others := others_at (fun k _ => h.loops k) _
        place := ?_
        owned := ?_
        starts := fun s same => ?_
        given := ?_
        calm := fun held same => ?_ }
    · rw [loops_at_self]
      rfl
    · rw [loops_at_self]
      exact owned
    · have other : Loop.watching c = .starting s := (loops_at_self w w.runs _).symm.trans same
      cases other
    · show accepted ((op, .ok) :: w.log) = w.spec
      rw [spec]
      exact accepted_taken asks rfl _
    cases same
    show (!op.isStop) = true
    rw [asks]
    rfl
  next r result held =>
    cases ht
    exact h.idles held rfl rfl rfl
  next op r result other held =>
    cases ht
    exact h.idles held rfl rfl rfl
  next r held =>
    obtain ⟨-, rfl⟩ := Runs.of_guard ht
    exact h.idles held rfl rfl rfl
  next op result held =>
    cases ht
    exact h.idles held rfl rfl rfl
  next => cases ht

/-- While the loop goes its own way, the call goes on. -/
theorem Free.holds (h : Free w r)
    (given : accepted ({ w with ctl := c, log := log } : World S).outcome = accepted w.outcome)
    (calm : ∀ h, c = some h → h.calm r = true) : Phase { w with ctl := c, log := log } :=
  .free { h with given := given.trans h.given, calm := calm }

theorem Free.sends (h : Free w r) (held : w.ctl = some (.locked op)) (idle : Held S) :
    Phase { w with ctl := some (w.run.elim idle (.sending op)) } := by
  refine h.holds ?_ fun c same => ?_
  · rw [outcome, outcome, held, h.run]
    rfl
  rw [h.run] at same
  cases same
  exact decide_eq_true rfl

theorem free_held (h : Free w r) (ht : heldStep w ok = some w') : Phase w' := by
  have calm := h.calm
  unfold heldStep at ht
  split at ht
  next s held =>
    cases ht
    exact h.sends held _
  next held =>
    cases ht
    exact h.sends held _
  next op held =>
    have runs : w.run.isSome = true := by
      rw [h.run]
      rfl
    rw [if_pos runs] at ht
    cases ht
    refine h.holds ?_ fun c same => ?_
    · rw [outcome, outcome, held]
      exact accepted_refused rfl _
    cases same
    have asks := calm _ held
    exact asks
  next op held => cases calm _ held
  next op c held => cases calm _ held
  next op c held => cases calm _ held
  next k result held => cases calm _ held
  next op k result other held =>
    cases ht
    refine h.holds ?_ fun c same => ?_
    · rw [outcome, outcome, held]
    cases same
    have asks := calm _ held
    exact asks
  next k held => cases calm _ held
  next op result held =>
    cases ht
    refine h.holds ?_ fun c same => ?_
    · rw [outcome, outcome, held]
    · cases same
  next => cases ht

theorem busy_held (h : Busy w r op) (ok : Bool) : heldStep w ok = none := by
  rw [heldStep, h.ctl]
  cases op <;> rfl

theorem Ending.not_ended (h : Ending w r) : (w.loops r).isEnded = false := by
  rcases h.place with ⟨here, -⟩ | ⟨here, -⟩
  · rw [here]
    rfl
  · rw [here]
    rfl

theorem ending_held (h : Ending w r) (ht : heldStep w ok = some w') : Phase w' := by
  rcases h.ctl with ⟨result, held⟩ | held
  · rw [heldStep, held] at ht
    cases ht
    exact .ending { h with ctl := .inr rfl }
  rw [heldStep, held] at ht
  dsimp only at ht
  rw [h.not_ended] at ht
  cases ht

/-- The holder of `ctl` takes a step. -/
theorem phase_held (h : Phase w) (ht : heldStep w ok = some w') : Phase w' := by
  cases h with
  | off h => exact off_held h ht
  | free h => exact free_held h ht
  | busy h =>
    rw [busy_held h] at ht
    cases ht
  | ending h => exact ending_held h ht

/-! ## Where call and loop meet -/

/-- The loop takes the holder's command. -/
theorem phase_send (h : Phase w) (ht : sendStep w = some w') : Phase w' := by
  unfold sendStep at ht
  split at ht
  case h_2 => cases ht
  next op k held =>
  cases h with
  | off h =>
    rw [h.loops k] at ht
    cases ht
  | @free r h =>
    obtain rfl : k = r := of_decide_eq_true (h.calm _ held)
    have given := h.given
    have owned := h.owned
    rw [outcome, held] at given
    -- the command is taken, with the child the loop is in charge of
    have taken (c : Option Nat) (child : (w.loops k).child = c) :
        Busy { w.at_ k (.taken op c) with ctl := some (.awaiting op k none) } k op := by
      have here := loops_at_self w k (.taken op c)
      constructor
      case run => exact h.run
      case others => exact others_at h.others _
      case ctl => rfl
      case given => exact fun _ => given
      all_goals rw [here]
      · rfl
      · exact child ▸ owned
      · simp [Loop.renewed]
      · simp
    split at ht
    next c here =>
      cases ht
      exact .busy (taken (some c) (by rw [here]; rfl))
    next here =>
      cases ht
      exact .busy (taken none (by rw [here]; rfl))
    next => cases ht
  | busy h =>
    rw [h.ctl] at held
    cases held
  | ending h =>
    obtain ⟨c, other, waits⟩ := h.waits
    cases held.symm.trans other
    cases waits

/-- The holder sees that the loop has ended. -/
theorem phase_seeDone (h : Phase w) (ht : seeDoneStep w = some w') : Phase w' := by
  unfold seeDoneStep at ht
  split at ht
  case h_2 => cases ht
  next op k held =>
  split at ht
  case isFalse => cases ht
  next ended =>
  cases ht
  cases h with
  | off h => exact h.idles held rfl (by cases op.isStop <;> rfl) (by cases op.isStop <;> rfl)
  | @free r h =>
    obtain rfl : k = r := of_decide_eq_true (h.calm _ held)
    have place := h.place
    cases here : w.loops k with
    | ended =>
      rw [here] at place
      cases place
    | _ =>
      rw [here] at ended
      cases ended
  | busy h =>
    rw [h.ctl] at held
    cases held
  | ending h =>
    obtain ⟨c, other, waits⟩ := h.waits
    cases held.symm.trans other
    cases waits

/-! ## Every schedule -/

variable {encodes : S → Bool}

/-- A call that waits, or one whose spec cannot be encoded, changes nothing here. -/
theorem phase_call (h : Phase w) (waiting : List (Op S)) (same : accepted log = accepted w.log) :
    Phase { w with waiting := waiting, log := log } := by
  cases h with
  | off h => exact .off { h with }
  | free h =>
    refine .free { h with given := Eq.trans ?_ h.given }
    unfold outcome
    dsimp only
    split
    · exact accepted_cons_congr _ same
    · exact accepted_cons_congr _ same
    · exact same
  | busy h => exact .busy { h with given := fun old => same.trans (h.given old) }
  | ending h => exact .ending { h with }

/-- A call that waited takes `ctl`. -/
theorem phase_lock (h : Phase w) (unheld : w.ctl = none) (op : Op S) (waiting : List (Op S)) :
    Phase { w with waiting := waiting, ctl := some (Held.enter op) } := by
  have locked : Phase { w with ctl := some (Held.enter op), log := w.log } := by
    cases h with
    | off h =>
      refine h.holds (by rw [unheld]; rfl) ?_ fun op' asked => ?_
      · cases op <;> rfl
      · cases op <;> cases asked
        rfl
    | free h =>
      refine h.holds ?_ fun held same => ?_
      · rw [outcome, outcome, unheld]
        cases op <;> rfl
      · cases same
        cases op <;> rfl
    | busy h =>
      rw [h.ctl] at unheld
      cases unheld
    | ending h =>
      obtain ⟨c, held, -⟩ := h.waits
      cases unheld.symm.trans held
  exact phase_call locked waiting rfl

/-- A death leaves everyone in charge of no more than before. -/
theorem phase_die (h : Phase w) (i : Nat) :
    Phase { w with children := fun k => if k = i then none else w.children k } := by
  have before {k : Nat} {s : S} (alive : (if k = i then none else w.children k) = some s) :
      w.children k = some s := by
    split at alive
    · cases alive
    · exact alive
  cases h with
  | off h => exact .off { h with owned := fun k s alive => h.owned k s (before alive) }
  | free h => exact .free { h with owned := fun k s alive => h.owned k s (before alive) }
  | busy h => exact .busy { h with owned := fun k s alive => h.owned k s (before alive) }
  | ending h =>
    refine .ending { h with alone := fun k => ?_ }
    dsimp only
    split
    · rfl
    · exact h.alone k

/-- One step, of whoever takes it, leads from phase to phase. -/
theorem phase_step {l : Label S} (h : Phase w) (ht : step encodes w l = some w') : Phase w' := by
  cases l with
  | call op =>
    dsimp only [step] at ht
    split at ht
    · cases ht
      exact phase_call h _ rfl
    · cases ht
      exact phase_call h _ (accepted_refused rfl _)
  | lock k =>
    dsimp only [step] at ht
    split at ht
    next op unheld _ =>
      cases ht
      exact phase_lock h unheld op _
    · cases ht
  | held ok => exact phase_held h ht
  | send => exact phase_send h ht
  | seeDone => exact phase_seeDone h ht
  | loop r ok => exact phase_loop h ht
  | kill r => exact phase_kill h ht
  | die i =>
    obtain ⟨-, rfl⟩ := Runs.of_guard ht
    exact phase_die h i
  | status =>
    cases ht
    exact h

/-- Every run is in one of the phases. -/
theorem phase_run {ls : List (Label S)} (ran : Runs.run (step encodes) {} ls = some w) : Phase w :=
  Runs.run_inv (fun _ _ _ h ht => phase_step h ht) phase_init ran

theorem Phase.one (h : Phase w) {j : Nat}
    (first : w.children i = some s) (second : w.children j = some t) : i = j := by
  cases h with
  | off h | free h | busy h =>
    exact Option.some.inj ((h.owned i s first).1.symm.trans (h.owned j t second).1)
  | ending h =>
    rw [h.alone i] at first
    cases first

/-- The spec of the call that holds `ctl`, once it may have started a child with it. -/
def Held.brings : Held S → Option S
  | .launched op _ => op.spec
  | .registering op _ => op.spec
  | .awaiting op _ none => op.spec
  | .awaiting op _ (some result) => if result.accepts then op.spec else none
  | .returning op result => if result.accepts then op.spec else none
  | _ => none

theorem accepted_cons (op : Op S) (result : Result) (log : List (Op S × Result)) :
    accepted ((op, result) :: log) = (if result.accepts then op.spec else none) ∨
      accepted ((op, result) :: log) = accepted log := by
  rw [accepted]
  split
  · cases op.spec with
    | none => exact .inr rfl
    | some s => exact .inl rfl
  · exact .inr rfl

/-- The spec of the latest call accepted, or of the call that is at it. -/
theorem Phase.spec (h : Phase w) (alive : w.children i = some s) :
    accepted w.log = some s ∨ w.ctl.bind Held.brings = some s := by
  cases h with
  | off h =>
    obtain ⟨charge, spec⟩ := h.owned i s alive
    cases held : w.ctl with
    | none =>
      rw [held] at charge
      cases charge
    | some c =>
      rw [held] at charge
      have makes := h.makes
      rw [held] at makes
      cases c with
      | launched op _ | registering op _ => exact .inr ((makes op rfl).symm.trans spec)
      | _ => cases charge
  | free h =>
    obtain ⟨-, spec⟩ := h.owned i s alive
    have given := h.given.trans spec
    unfold outcome at given
    split at given
    next op _ result held =>
      rcases accepted_cons op result w.log with same | same
      · exact .inr (by rw [held]; exact same.symm.trans given)
      · exact .inl (same.symm.trans given)
    next op result held =>
      rcases accepted_cons op result w.log with same | same
      · exact .inr (by rw [held]; exact same.symm.trans given)
      · exact .inl (same.symm.trans given)
    · exact .inl given
  | @busy r op h =>
    obtain ⟨-, spec⟩ := h.owned i s alive
    cases renewed : (w.loops r).renewed with
    | false => exact .inl ((h.given renewed).trans spec)
    | true =>
      refine .inr ?_
      rw [h.ctl]
      exact (h.renewed renewed).symm.trans spec
  | ending h =>
    rw [h.alone i] at alive
    cases alive

/-! ## After a stop -/

/-- Who takes `ctl` next is another `Stop`. -/
def staysStopped (w : World S) : Label S → Bool
  | .lock k => w.waiting[k]?.all Op.isStop
  | _ => true

/-- Nothing is there and nothing is made. -/
structure Quiet (born : Nat) (w : World S) : Prop where
  run : w.run = none
  loops : ∀ k, w.loops k = .ended
  alone : ∀ i, w.children i = none
  born : w.born = born
  state : w.state = .stopped ∧ w.pid = none
  ctl : ∀ h, w.ctl = some h → h = .locked .stop ∨ ∃ result, h = .returning .stop result

theorem quiet_held (h : Quiet n w) (ht : heldStep w ok = some w') : Quiet n w' := by
  cases held : w.ctl with
  | none =>
    rw [heldStep, held] at ht
    cases ht
  | some c =>
    rcases h.ctl c held with rfl | ⟨result, rfl⟩
    · rw [heldStep, held] at ht
      cases ht
      refine { h with ctl := fun c same => ?_ }
      rw [h.run] at same
      cases same
      exact .inr ⟨.ok, rfl⟩
    · rw [heldStep, held] at ht
      cases ht
      refine { h with ctl := fun c same => ?_ }
      cases same

/-- After a stop nothing is made, as long as only stops take `ctl`. -/
theorem quiet_step {l : Label S} (h : Quiet n w)
    (stays : staysStopped w l = true) (ht : step encodes w l = some w') : Quiet n w' := by
  have unsent {op : Op S} {r : Nat} : w.ctl ≠ some (.sending op r) := by
    intro held
    rcases h.ctl _ held with other | ⟨_, other⟩
    · cases other
    · cases other
  cases l with
  | call op =>
    dsimp only [step] at ht
    split at ht <;> cases ht <;> exact { h with }
  | lock k =>
    dsimp only [step] at ht
    split at ht
    next op _ here =>
      cases ht
      refine { h with ctl := fun c same => ?_ }
      rw [staysStopped, here] at stays
      cases op with
      | stop =>
        cases same
        exact .inl rfl
      | _ => cases stays
    · cases ht
  | held ok => exact quiet_held h ht
  | send =>
    dsimp only [step, sendStep] at ht
    split at ht
    next held => exact absurd held unsent
    · cases ht
  | seeDone =>
    dsimp only [step, seeDoneStep] at ht
    split at ht
    next held => exact absurd held unsent
    · cases ht
  | loop r ok =>
    dsimp only [step] at ht
    rw [loopStep, h.loops r] at ht
    cases ht
  | kill r =>
    dsimp only [step] at ht
    rw [killStep, h.loops r] at ht
    cases ht
  | die i =>
    dsimp only [step] at ht
    rw [h.alone i] at ht
    cases ht
  | status =>
    cases ht
    exact h

theorem Phase.quiet (h : Phase w)
    (returns : w.ctl = some (.returning .stop result)) : Quiet w.born w := by
  cases h with
  | off h =>
    refine ⟨h.run, h.loops, h.alone (by rw [returns]; rfl), rfl, h.state fun op c other => ?_,
      fun c held => ?_⟩
    · rw [returns] at other
      cases other
    rw [returns] at held
    cases held
    exact .inr ⟨result, rfl⟩
  | free h => cases h.calm _ returns
  | busy h =>
    rw [h.ctl] at returns
    cases returns
  | ending h =>
    obtain ⟨c, held, waits⟩ := h.waits
    cases returns.symm.trans held
    cases waits

/-! ## The supervisor -/

/-- **One child, with the right spec.** Over every schedule of calls, deaths, launches that fail
and children that ignore the stop: at most one child is alive; when a `Stop` returns, and as long
as only calls of `Stop` take `ctl` after it, none is alive, none is started and the status is
stopped; and a child alive was started with the spec of the latest call accepted, or of the call
that holds `ctl`, so where no call is at it, of the latest accepted. -/
theorem one_child {ls : List (Label S)} {w : World S}
    (ran : Runs.run (step encodes) {} ls = some w) :
    (∀ i j s t, w.children i = some s → w.children j = some t → i = j) ∧
    (∀ result after w', w.ctl = some (.returning .stop result) →
      Runs.Along (step encodes) (fun w l => staysStopped w l = true) w after →
      Runs.run (step encodes) w after = some w' →
      (∀ i, w'.children i = none) ∧ w'.born = w.born ∧ w'.state = .stopped ∧ w'.pid = none) ∧
    (∀ i s, w.children i = some s →
      accepted w.log = some s ∨ w.ctl.bind Held.brings = some s) := by
  have h := phase_run ran
  refine ⟨fun i j s t first second => h.one first second, ?_, fun i s alive => h.spec alive⟩
  intro result after w' returns stays ran'
  have q : Quiet w.born w' :=
    Runs.run_inv_along (fun _ _ _ h stays ht => quiet_step h stays ht) (h.quiet returns) stays ran'
  exact ⟨q.alone, q.born, q.state⟩

/-- Started with spec 1, the child dies and is started again; spec 2 comes, its first launch fails
and the next does not. -/
def updated : List (Label Nat) :=
  [Label.call (.start 1), .lock 0] ++ List.replicate 5 (Label.held true) ++
    [Label.die 0] ++ List.replicate 6 (Label.loop 0 true) ++
    [Label.call (.update 2), .lock 0, .held true, .send, .loop 0 true, .die 1, .loop 0 true,
      .loop 0 true, .loop 0 false, .loop 0 true, .held true, .held true] ++
    List.replicate 5 (Label.loop 0 true)

/-- A `Stop` the child ignores until it is killed. -/
def stopped : List (Label Nat) :=
  [Label.call .stop, .lock 0, .held true, .send, .loop 0 true, .kill 0, .die 2] ++
    List.replicate 4 (Label.loop 0 true) ++ List.replicate 2 (Label.held true)

theorem one_child_updated :
    ∃ w, Runs.run (step fun _ => true) {} (updated ++ stopped) = some w ∧
      w.ctl = some (.returning .stop .ok) ∧ w.log = [(.update 2, .launchFailed), (.start 1, .ok)] ∧
      (∀ i j s t, w.children i = some s → w.children j = some t → i = j) ∧
      (∀ i, w.children i = none) ∧ w.state = .stopped := by
  have ends : ((Runs.run (step fun _ => true) {} (updated ++ stopped)).map fun w =>
      (w.ctl, w.log)) =
      some (some (.returning .stop .ok), [(.update 2, .launchFailed), (.start 1, .ok)]) := by
    decide
  obtain ⟨w, ran, same⟩ := Option.map_eq_some_iff.mp ends
  obtain ⟨returns, log⟩ := Prod.mk.inj same
  have h := one_child ran
  obtain ⟨alone, -, state, -⟩ := h.2.1 .ok [] w returns trivial rfl
  exact ⟨w, ran, returns, log, h.1, alone, state⟩

end NasnetPanel.RemoteNodes.Supervisor
