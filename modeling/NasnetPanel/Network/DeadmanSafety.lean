import NasnetPanel.Network.Deadman

/-!
# Network.DeadmanSafety — an unconfirmed change can always be undone

Over every run of the process, with any call failing and a stop between any two calls: while some
operation of a plan has run and the plan is not confirmed, restored or given up, the marker names
the plan, and the snapshot file it names is whole and holds the network as it was before the plan's
first operation (`live_plan_armed`).

`Recoverable` is the invariant at every call. Inside `apply` it is carried by `Applying`, which says
what is armed; everywhere else by `Quiet`, once no plan is live.
-/

namespace NasnetPanel.Deadman
open CrashProg List Option

variable {Net : Type}

/-! ## Live plans -/

def Event.plan : Event Net → Nat
  | .opRan p _ | .restored p | .restoreFailed p | .phaseSet p _ | .gaveUp p => p

/-- The network an operation of the plan started from, if the event is one. -/
def Event.opOf (p : Nat) : Event Net → Option Net
  | .opRan q before => if q = p then some before else none
  | _ => none

/-- The network before the plan's first operation, once one has run. -/
def firstOp (p : Nat) (log : List (Event Net)) : Option Net := log.findSome? (Event.opOf p)

/-- The plan is confirmed, restored or given up. -/
def Done (p : Nat) (log : List (Event Net)) : Prop :=
  .phaseSet p .confirmed ∈ log ∨ .restored p ∈ log ∨ .gaveUp p ∈ log

/-- Some operation of the plan has run and the plan is not done. -/
def Live (p : Nat) (log : List (Event Net)) : Prop := (firstOp p log).isSome ∧ ¬ Done p log

theorem firstOp_append (p : Nat) (log : List (Event Net)) (e : Event Net) :
    firstOp p (log ++ [e]) = (firstOp p log).or (e.opOf p) := by
  simp [firstOp, findSome?_append]

variable {p : Nat} {w : World Net} {log : List (Event Net)}

theorem Done.append (h : Done p log) (e : Event Net) :
    Done p (log ++ [e]) := by
  rcases h with h | h | h
  · exact .inl (mem_append_left _ h)
  · exact .inr (.inl (mem_append_left _ h))
  · exact .inr (.inr (mem_append_left _ h))

theorem live_of_append {e : Event Net}
    (h : Live p (log ++ [e])) : Live p log ∨ (e.opOf p).isSome := by
  obtain ⟨ran, notDone⟩ := h
  rw [firstOp_append] at ran
  cases hf : firstOp p log with
  | none =>
    rw [hf, none_or] at ran
    exact .inr ran
  | some n => exact .inl ⟨by rw [hf]; rfl, fun done => notDone (done.append e)⟩

theorem firstOp_eq_none (h : ∀ e ∈ log, e.plan ≠ p) :
    firstOp p log = none := by
  rw [firstOp, findSome?_eq_none_iff]
  intro e he
  have other := h e he
  cases e with
  | opRan q before => exact if_neg other
  | _ => rfl

/-! ## The invariant of unconfirmed changes -/

/-- The marker names a plan whose snapshot file is whole and holds the network before the plan's
first operation. -/
def Armed (w : World Net) (p : Nat) (before : Net) : Prop :=
  ∃ m, w.marker = some m ∧ m.planID = p ∧ w.snaps m.snapshot = .whole ⟨snapshotVersion, before⟩

/-- Every live plan is armed with the network before its first operation, and nothing is known of
plans not yet created. -/
structure Recoverable (w : World Net) : Prop where
  fresh : ∀ e ∈ w.log, e.plan < w.nextID
  marked : ∀ m, w.marker = some m → m.planID < w.nextID
  armed : ∀ p, Live p w.log → ∃ before, firstOp p w.log = some before ∧ Armed w p before

/-- No plan is live. -/
structure Quiet (w : World Net) : Prop where
  fresh : ∀ e ∈ w.log, e.plan < w.nextID
  marked : ∀ m, w.marker = some m → m.planID < w.nextID
  quiet : ∀ p, ¬ Live p w.log

/-- While `apply` runs the plan of its marker: the plan is armed over the network it started from,
and no other plan is live. -/
structure Applying (m : Marker) (before : Net) (w : World Net) : Prop where
  fresh : ∀ e ∈ w.log, e.plan < w.nextID
  known : m.planID < w.nextID
  marker : w.marker = some m
  file : w.snaps m.snapshot = .whole ⟨snapshotVersion, before⟩
  only : ∀ p, Live p w.log → p = m.planID
  first : ∀ n, firstOp m.planID w.log = some n → n = before

theorem Quiet.recoverable (h : Quiet w) : Recoverable w :=
  { h with armed := fun p live => absurd live (h.quiet p) }

variable {m : Marker} {a : Applier}

theorem Applying.recoverable {before : Net} (h : Applying m before w) : Recoverable w where
  fresh := h.fresh
  marked := by
    intro m' hm'
    cases h.marker.symm.trans hm'
    exact h.known
  armed p live := by
    cases h.only p live
    obtain ⟨n, hn⟩ := isSome_iff_exists.mp live.1
    refine ⟨n, hn, m, h.marker, rfl, ?_⟩
    rw [h.first n hn]
    exact h.file

theorem Recoverable.quiet_of_disarmed (h : Recoverable w) (none : w.marker = none) : Quiet w := by
  refine { h with quiet := fun p live => ?_ }
  obtain ⟨_, _, m, hm, -⟩ := h.armed p live
  rw [none] at hm
  cases hm

theorem Recoverable.only (h : Recoverable w)
    (hm : w.marker = some m) (live : Live p w.log) : p = m.planID := by
  obtain ⟨_, _, m', hm', plan, -⟩ := h.armed p live
  cases hm.symm.trans hm'
  exact plan.symm

/-! ### What the calls do to it -/

section Updates
variable {w : World Net} {e : Event Net} {w' : World Net} {m : Marker} {before : Net}

theorem fresh_append {n : Nat}
    (fresh : ∀ e ∈ log, e.plan < n) (he : e.plan < n) : ∀ e' ∈ log ++ [e], e'.plan < n :=
  forall_mem_append.mpr ⟨fresh, forall_mem_singleton.mpr he⟩

theorem Recoverable.event (h : Recoverable w)
    (known : e.plan < w.nextID) (noOp : ∀ p, e.opOf p = none) (log : w'.log = w.log ++ [e])
    (next : w'.nextID = w.nextID) (marker : w'.marker = w.marker) (snaps : w'.snaps = w.snaps) :
    Recoverable w' where
  fresh := by
    rw [log, next]
    exact fresh_append h.fresh known
  marked := by
    rw [next, marker]
    exact h.marked
  armed p live := by
    rw [log] at live ⊢
    rw [firstOp_append, noOp p, or_none]
    rcases live_of_append live with live | op
    · obtain ⟨before, first, armed⟩ := h.armed p live
      refine ⟨before, first, ?_⟩
      rwa [Armed, marker, snaps]
    · rw [noOp p] at op
      cases op

theorem Recoverable.quiet (h : Recoverable w) (known : e.plan < w.nextID)
    (noOp : ∀ p, e.opOf p = none) (log : w'.log = w.log ++ [e]) (next : w'.nextID = w.nextID)
    (marked : ∀ m, w'.marker = some m → m.planID < w.nextID)
    (ended : ∀ p, Live p w.log → ¬ Live p w'.log) : Quiet w' where
  fresh := by
    rw [log, next]
    exact fresh_append h.fresh known
  marked := by
    rw [next]
    exact marked
  quiet p live := by
    rcases live_of_append (log ▸ live) with was | op
    · exact ended p was live
    · rw [noOp p] at op
      cases op

theorem Recoverable.finished (h : Recoverable w)
    (hm : w.marker = some m) (known : e.plan < w.nextID)
    (noOp : ∀ p, e.opOf p = none) (log : w'.log = w.log ++ [e]) (next : w'.nextID = w.nextID)
    (marked : ∀ m, w'.marker = some m → m.planID < w.nextID) (done : Done m.planID w'.log) :
    Quiet w' :=
  h.quiet known noOp log next marked fun _ was live => live.2 (h.only hm was ▸ done)

theorem mem_append_self : e ∈ log ++ [e] :=
  mem_append_right _ (mem_singleton.mpr rfl)

variable {id : Nat}

theorem Quiet.disarm (h : Quiet w) (why : Disarm) : Quiet (w.disarm why) := by
  cases why with
  | confirmed | restored => exact ⟨h.fresh, (fun _ hm => by cases hm), h.quiet⟩
  | budgetSpent =>
    cases hm : w.marker with
    | none =>
      have same : (w.disarm .budgetSpent).log = w.log := by simp [World.disarm, hm]
      exact ⟨same ▸ h.fresh, (fun _ hm => by cases hm), same ▸ h.quiet⟩
    | some m =>
      refine h.recoverable.quiet (e := .gaveUp m.planID) (h.marked m hm) (fun _ => rfl) ?_ rfl
        (fun _ hm => by cases hm) fun p live => absurd live (h.quiet p)
      simp [World.disarm, hm]

theorem Quiet.create (h : Quiet w) (r : ApplyRecord) : Quiet (w.create r) :=
  ⟨fun e he => Nat.lt_succ_of_lt (h.fresh e he), fun m hm => Nat.lt_succ_of_lt (h.marked m hm),
   h.quiet⟩

theorem Quiet.save (h : Quiet w) (path : String) (snap : Snapshot Net) : Quiet (w.save path snap) :=
  { h with }

theorem Quiet.arm (h : Quiet w) (known : m.planID < w.nextID)
    (file : w.snaps m.snapshot = .whole ⟨snapshotVersion, before⟩)
    (untouched : firstOp m.planID w.log = none) : Applying m before (w.arm m) where
  fresh := h.fresh
  known := known
  marker := rfl
  file := file
  only p live := absurd live (h.quiet p)
  first n hn := by cases untouched.symm.trans hn

section
variable (h : Recoverable w)
include h

theorem Recoverable.record (known : id < w.nextID) (phase : Phase)
    (msg : String) : Recoverable (w.record id phase msg) :=
  h.event (e := .phaseSet id phase) known (fun _ => rfl) rfl rfl rfl rfl

theorem Recoverable.putBackFailed {plan : Nat} (known : plan < w.nextID)
    (net : Net) : Recoverable (w.putBackFailed plan net) :=
  h.event (e := .restoreFailed plan) known (fun _ => rfl) rfl rfl rfl rfl

section
variable (hm : w.marker = some m)
include hm

theorem Recoverable.putBack (snap : Snapshot Net) : Quiet (w.putBack m.planID snap) :=
  h.finished hm (e := .restored m.planID) (h.marked m hm) (fun _ => rfl) rfl rfl h.marked
    (.inr (.inl mem_append_self))

theorem Recoverable.confirm (msg : String) : Quiet (w.record m.planID .confirmed msg) :=
  h.finished hm (e := .phaseSet m.planID .confirmed) (h.marked m hm) (fun _ => rfl) rfl rfl
    h.marked (.inl mem_append_self)

theorem Recoverable.giveUp : Quiet (w.disarm .budgetSpent) := by
  have log : (w.disarm .budgetSpent).log = w.log ++ [.gaveUp m.planID] := by simp [World.disarm, hm]
  refine h.finished hm (e := .gaveUp m.planID) (h.marked m hm) (fun _ => rfl) log rfl
    (fun _ hm => by cases hm) (.inr (.inr ?_))
  rw [log]
  exact mem_append_self

theorem Recoverable.rearm {m' : Marker}
    (plan : m'.planID = m.planID) (path : m'.snapshot = m.snapshot) : Recoverable (w.arm m') where
  fresh := h.fresh
  marked := by
    intro k hk
    cases hk
    exact plan ▸ h.marked m hm
  armed p live := by
    obtain ⟨before, first, k, hk, named, file⟩ := h.armed p live
    cases hm.symm.trans hk
    exact ⟨before, first, m', rfl, plan.trans named, by rw [path]; exact file⟩

end

end

theorem Applying.operate (h : Applying m before w)
    (pristine : firstOp m.planID w.log = none → w.net = before) (net : Net) :
    Applying m before (w.operate m.planID net) where
  fresh := fresh_append h.fresh h.known
  known := h.known
  marker := h.marker
  file := h.file
  only p live := by
    rcases live_of_append live with live | op
    · exact h.only p live
    simp only [Event.opOf] at op
    split at op
    next same => exact same.symm
    · cases op
  first n hn := by
    rw [World.operate, firstOp_append] at hn
    cases hf : firstOp m.planID w.log with
    | none =>
      rw [hf, none_or, Event.opOf, if_pos rfl] at hn
      cases hn
      exact pristine hf
    | some k =>
      rw [hf, some_or] at hn
      cases hn
      exact h.first _ hf

theorem Applying.reloaded (h : Applying m before w) (net : Net) :
    Applying m before (w.reloaded net) :=
  { h with }

end Updates

/-! ### The programs keep it -/

/-- Whatever fails and wherever the program stops, every live plan stays armed. -/
abbrev Undoable {α : Type} (p : Eff Net α) (w : World Net) : Prop :=
  Safe exec (fun _ => Recoverable) (fun _ _ => True) (fun _ => Recoverable) p w

/-- The plan is armed over the network before its first operation. -/
def Ready (m : Marker) (w : World Net) : Prop :=
  ∃ before, Applying m before w ∧ (firstOp m.planID w.log = none → w.net = before)

theorem walk_recoverable : Walk (fun _ : Call Net => Recoverable) (fun _ _ => True) Recoverable
    (fun id w => Recoverable w ∧ id < w.nextID) (fun m w => Recoverable w ∧ w.marker = some m) Ready
    (fun m w => Quiet w ∧ w.marker = some m) where
  here _ h := h
  settles h := h.1
  record phase msg h _ := h.1.record h.2 phase msg
  create h none _ := ⟨((h.quiet_of_disarmed none).create _).recoverable, Nat.lt_succ_self _⟩
  save path snap h none _ :=
    ⟨(((h.quiet_of_disarmed none).create _).save path snap).recoverable, Nat.lt_succ_self _⟩
  arm {w r m} h none _ plan := by
    have q := ((h.quiet_of_disarmed none).create r).save m.snapshot ⟨snapshotVersion, w.net⟩
    refine ⟨w.net, q.arm (plan ▸ Nat.lt_succ_self _) (Function.update_self _ _ _) ?_, fun _ => rfl⟩
    rw [plan]
    exact firstOp_eq_none fun e he => Nat.ne_of_lt (h.fresh e he)
  operate {m w} net h := by
    obtain ⟨before, applying, pristine⟩ := h
    refine ⟨before, applying.operate pristine net, fun none => ?_⟩
    -- An operation has run, so there is a first one.
    rw [World.operate, firstOp_append, Event.opOf, if_pos rfl] at none
    cases hf : firstOp m.planID w.log <;> rw [hf] at none <;> cases none
  ran h := by
    obtain ⟨before, applying, -⟩ := h
    exact ⟨⟨applying.recoverable, applying.marker⟩,
      fun net => ⟨(applying.reloaded net).recoverable, applying.marker⟩⟩
  armed h hm := ⟨h, hm⟩
  owns h := ⟨h.1, h.1.marked _ h.2⟩
  rearm h plan path := ⟨h.1.rearm h.2 plan path, h.1.marked _ h.2⟩
  giveUp h := ⟨(h.1.giveUp h.2).recoverable, h.1.marked _ h.2⟩
  putBackFailed net h := ⟨h.1.putBackFailed (h.1.marked _ h.2) net, h.2⟩
  putBack snap h := ⟨h.1.putBack h.2 snap, h.2⟩
  returned h := ⟨⟨h.1.recoverable, h.2⟩, fun _ => ⟨{ h.1 with }, h.2⟩⟩
  disarm h := ⟨(h.1.disarm _).recoverable, h.1.marked _ h.2⟩
  confirmed h hm := by
    have q := h.confirm hm ""
    exact ⟨q.recoverable, fun _ _ => q.recoverable, (q.disarm _).recoverable⟩

theorem undoable_entry (e : Entry) (w : World Net) (h : Recoverable w) :
    Undoable (entry a e) w :=
  walk_recoverable.keeps_entry e w h

theorem recoverable_init (net : Net) : Recoverable (World.init net) where
  fresh := by simp [World.init]
  marked := by simp [World.init]
  armed p live := by
    have ran := live.1
    simp [World.init, firstOp] at ran

/-- Every world a run reaches is recoverable. -/
theorem recoverable_of_run {net : Net} {ls : List (Label Entry (Answer Net))}
    {s : Sys Net} (h : Runs.run (step a) (Sys.init net) ls = some s) : Recoverable s.world := by
  have along : Runs.Along (step a) (System.Guarded (fun _ => True) fun _ _ => True)
      (Sys.init net) ls := System.along_free
  have settled := System.settled undoable_entry (fun _ _ h _ => h) (recoverable_init net) along h
  exact System.of_settled (fun _ h => h) (fun _ _ h => h) settled

/-- **A change that is not confirmed can always be undone.** In every state a run reaches, whatever
failed and wherever the process stopped, a plan with an operation run that is not confirmed,
restored or given up is the one the marker names, over a whole snapshot of the network before the
plan's first operation; and at most one plan is armed, at most one live. -/
theorem live_plan_armed (a : Applier) (net : Net) (ls : List (Label Entry (Answer Net)))
    (s : Sys Net) (h : Runs.run (step a) (Sys.init net) ls = some s) :
    (∀ p, Live p s.world.log →
      ∃ before, firstOp p s.world.log = some before ∧ Armed s.world p before) ∧
    (∀ p q before before', Armed s.world p before → Armed s.world q before' → p = q) ∧
    (∀ p q, Live p s.world.log → Live q s.world.log → p = q) := by
  have r := recoverable_of_run h
  refine ⟨r.armed, ?_, fun p q hp hq => ?_⟩
  · rintro p q before before' ⟨m, hm, rfl, -⟩ ⟨k, hk, rfl, -⟩
    cases hm.symm.trans hk
    rfl
  · obtain ⟨_, -, m, hm, -⟩ := r.armed p hp
    rw [r.only hm hp, r.only hm hq]

/-- An apply whose only operation fails after it took the network from 5 to 7, and a stop before
the restore. -/
def stoppedApply : List (Label Entry (Answer Nat)) :=
  Label.start (.apply ⟨"r1", [⟨"set wan0"⟩]⟩ false) ::
    List.replicate 6 (.advance { clock := 100, net := 5 }) ++
    [Label.advance { fault := some "exit status 1", net := 7 }, .crash]

theorem live_plan_armed_stopped :
    ∃ s, Runs.run (step ⟨"/var/lib/nasnet", true⟩) (Sys.init 5) stoppedApply = some s ∧
      s.world.net = 7 ∧ Live 1 s.world.log ∧ Armed s.world 1 5 := by
  refine ⟨_, rfl, rfl, ?_⟩
  have live : Live 1 [Event.opRan 1 5] := ⟨rfl, by simp [Done]⟩
  refine ⟨live, ?_⟩
  obtain ⟨before, first, armed⟩ :=
    (live_plan_armed ⟨"/var/lib/nasnet", true⟩ 5 stoppedApply _ rfl).1
    1 live
  cases first
  exact armed

end NasnetPanel.Deadman
