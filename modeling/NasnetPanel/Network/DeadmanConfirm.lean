import NasnetPanel.Network.Deadman

/-!
# Network.DeadmanConfirm — a confirmed change stays

`confirm` records the phase and then removes the marker, in two calls. In every run where the
second always follows the first, a plan whose record reads confirmed keeps that phase and its
snapshot is never restored, whatever else fails and wherever else the process stops
(`confirmed_stays`).

The order of the two calls leaves one gap. A stop, or a failed removal, between them leaves a
confirmed plan armed; the timer reads only the marker, so it restores the network and overwrites
the phase (`confirmed_then_rolled_back`).
-/

namespace NasnetPanel.Deadman
open CrashProg List

variable {Net : Type}

/-! ## Confirmed plans -/

def World.phaseOf (w : World Net) (p : Nat) : Option Phase := (w.records p).map (·.phase)

open World

/-- The event puts the plan's snapshot back, in whole or in part. -/
def Event.Undoes (p : Nat) (e : Event Net) : Prop := e = .restored p ∨ e = .restoreFailed p

def Pending (p : Nat) (w : World Net) : Prop := ∃ r, w.records p = some r ∧ r.phase ≠ .confirmed

/-- The log and the records agree on which plans are confirmed, and none of these was undone
after. -/
structure Firm (w : World Net) : Prop where
  fresh : ∀ p, w.nextID ≤ p → w.records p = none
  marked : ∀ m, w.marker = some m → (w.records m.planID).isSome
  phase : ∀ p, .phaseSet p .confirmed ∈ w.log ↔ w.phaseOf p = some .confirmed
  kept : w.log.Pairwise fun x y => ∀ p, x = .phaseSet p .confirmed → ¬ y.Undoes p

/-- Besides, no confirmed plan is armed. -/
structure Intact (w : World Net) : Prop extends Firm w where
  unmarked : ∀ m, w.marker = some m → w.phaseOf m.planID ≠ some .confirmed

section Updates
variable {w : World Net}

theorem Pending.not_logged {p : Nat} (h : Pending p w) (firm : Firm w) :
    .phaseSet p .confirmed ∉ w.log := by
  obtain ⟨r, hr, phase⟩ := h
  rw [firm.phase p, phaseOf, hr]
  exact fun same => phase (Option.some.inj same)

variable {m : Marker} {w' : World Net}

theorem Intact.pending (h : Intact w) (hm : w.marker = some m) : Pending m.planID w := by
  obtain ⟨r, hr⟩ := Option.isSome_iff_exists.mp (h.marked m hm)
  refine ⟨r, hr, fun phase => h.unmarked m hm ?_⟩
  rw [phaseOf, hr]
  exact congrArg some phase

variable {e : Event Net} {id : Nat}

theorem Firm.kept_append (h : Firm w) (ok : ∀ p, e.Undoes p → Pending p w) :
    (w.log ++ [e]).Pairwise fun x y => ∀ p, x = .phaseSet p .confirmed → ¬ y.Undoes p := by
  refine pairwise_append.mpr ⟨h.kept, pairwise_singleton _ _, ?_⟩
  intro x hx y hy p same undoes
  rw [mem_singleton] at hy
  subst hy same
  exact (ok p undoes).not_logged h hx

theorem Firm.event (h : Firm w)
    (ok : ∀ p, e.Undoes p → Pending p w) (other : ∀ p, e ≠ .phaseSet p .confirmed)
    (log : w'.log = w.log ++ [e]) (records : w'.records = w.records)
    (next : w'.nextID = w.nextID) (marker : ∀ m, w'.marker = some m → w.marker = some m) :
    Firm w' where
  fresh := by
    rw [next, records]
    exact h.fresh
  marked m hm := by
    rw [records]
    exact h.marked m (marker m hm)
  phase p := by
    rw [log, phaseOf, records, mem_append, mem_singleton]
    have new : ¬ Event.phaseSet p Phase.confirmed = e := fun same => other p same.symm
    rw [or_iff_left new]
    exact h.phase p
  kept := by
    rw [log]
    exact h.kept_append ok

section
variable (h : Intact w)
include h

theorem Intact.event
    (ok : ∀ p, e.Undoes p → Pending p w) (other : ∀ p, e ≠ .phaseSet p .confirmed)
    (log : w'.log = w.log ++ [e]) (records : w'.records = w.records)
    (next : w'.nextID = w.nextID) (marker : w'.marker = w.marker) : Intact w' where
  toFirm := h.toFirm.event ok other log records next fun m hm => marker ▸ hm
  unmarked m hm := by
    rw [phaseOf, records]
    exact h.unmarked m (marker ▸ hm)

theorem Intact.operate (id : Nat) (net : Net) : Intact (w.operate id net) :=
  h.event (e := .opRan id w.net) (fun _ undoes => by rcases undoes with u | u <;> cases u)
    (fun _ => nofun) rfl rfl rfl rfl

theorem Intact.putBackFailed (pending : Pending id w) (net : Net) :
    Intact (w.putBackFailed id net) := by
  refine h.event (e := .restoreFailed id) ?_ (fun _ => nofun) rfl rfl rfl rfl
  rintro p (undoes | undoes)
  · cases undoes
  · cases undoes
    exact pending

theorem Intact.putBack (pending : Pending id w) (snap : Snapshot Net) :
    Intact (w.putBack id snap) := by
  refine h.event (e := .restored id) ?_ (fun _ => nofun) rfl rfl rfl rfl
  rintro p (undoes | undoes)
  · cases undoes
    exact pending
  · cases undoes

theorem Intact.create (r : ApplyRecord) (disarmed : w.marker = none)
    (phase : r.phase ≠ .confirmed) : Intact (w.create r) := by
  have armed : ∀ m, (w.create r).marker = some m → False := by
    intro m hm
    cases disarmed.symm.trans hm
  refine ⟨⟨?_, fun m hm => (armed m hm).elim, ?_, h.kept⟩, fun m hm => (armed m hm).elim⟩
  · intro p hp
    have other : p ≠ w.nextID := Nat.ne_of_gt hp
    simpa [World.create, other] using h.fresh p (Nat.le_of_succ_le hp)
  intro p
  rw [show (w.create r).log = w.log from rfl, h.phase p]
  by_cases same : p = w.nextID
  · subst same
    simp [World.phaseOf, World.create, h.fresh w.nextID (Nat.le_refl _), phase]
  · simp [World.phaseOf, World.create, same]

theorem Intact.save (path : String) (snap : Snapshot Net) : Intact (w.save path snap) :=
  ⟨{ h with }, h.unmarked⟩

theorem Intact.reloaded (net : Net) : Intact (w.reloaded net) :=
  ⟨{ h with }, h.unmarked⟩

theorem Intact.arm (pending : Pending m.planID w) : Intact (w.arm m) := by
  obtain ⟨r, hr, phase⟩ := pending
  refine ⟨{ h with marked := ?_ }, ?_⟩
  · intro k hk
    cases hk
    rw [show (w.arm m).records = w.records from rfl, hr]
    rfl
  · intro k hk
    cases hk
    rw [show (w.arm m).phaseOf = w.phaseOf from rfl, phaseOf, hr]
    exact fun same => phase (Option.some.inj same)

end

theorem Firm.disarm (h : Firm w) (why : Disarm) : Intact (w.disarm why) := by
  have gone : ∀ m, (w.disarm why).marker = some m → False := fun _ hm => by cases hm
  suffices firm : Firm (w.disarm why) from ⟨firm, fun m hm => (gone m hm).elim⟩
  have plain : w.log = (w.disarm why).log → Firm (w.disarm why) := fun log =>
    ⟨h.fresh, fun m hm => (gone m hm).elim, log ▸ h.phase, log ▸ h.kept⟩
  cases why with
  | confirmed => exact plain rfl
  | restored => exact plain rfl
  | budgetSpent =>
    cases hm : w.marker with
    | none => exact plain (by simp [World.disarm, hm])
    | some m =>
      refine h.event (e := .gaveUp m.planID)
        (fun _ undoes => by rcases undoes with u | u <;> cases u) (fun _ => nofun) ?_ rfl rfl
        fun m hm => (gone m hm).elim
      simp [World.disarm, hm]

theorem World.phaseOf_record (w : World Net) (id : Nat) (phase : Phase) (msg : String) (p : Nat) :
    (w.record id phase msg).phaseOf p =
      if p = id then (w.phaseOf p).map fun _ => phase else w.phaseOf p := by
  by_cases same : p = id
  · subst same
    simp [phaseOf, record, Function.comp_def]
  · simp [phaseOf, record, same]

theorem Firm.record (h : Firm w) (pending : Pending id w) (phase : Phase)
    (msg : String) : Firm (w.record id phase msg) where
  fresh p hp := by
    have none := h.fresh p hp
    obtain ⟨r, hr, -⟩ := pending
    have other : p ≠ id := by
      rintro rfl
      cases none.symm.trans hr
    simpa [World.record, other] using none
  marked m hm := by
    have some := h.marked m hm
    by_cases same : m.planID = id
    · simpa [World.record, same] using same ▸ some
    · simpa [World.record, same] using some
  phase p := by
    rw [phaseOf_record]
    by_cases same : p = id
    · subst same
      have unlogged := pending.not_logged h
      obtain ⟨r, hr, -⟩ := pending
      simp [record, unlogged, phaseOf, hr, eq_comm]
    · simp [World.record, same, h.phase p]
  kept := h.kept_append fun p undoes => by rcases undoes with undoes | undoes <;> cases undoes

theorem Intact.record (h : Intact w) (pending : Pending id w) {phase : Phase}
    (other : phase ≠ .confirmed) (msg : String) : Intact (w.record id phase msg) where
  toFirm := h.toFirm.record pending phase msg
  unmarked m hm := by
    rw [phaseOf_record]
    split
    · simp [other]
    · exact h.unmarked m hm

end Updates

/-! ## The programs -/

/-- The process does not stop between recording a confirmation and removing the marker. -/
def MayStop (c : Call Net) : Prop := c ≠ .deleteMarker .confirmed

/-- The removal after a recorded confirmation does not fail. -/
def Removes (c : Call Net) (ans : Answer Net) : Prop :=
  c = .deleteMarker .confirmed → ans.fault = none

/-- At the removal after a recorded confirmation the plan is confirmed and still armed; everywhere
else no confirmed plan is armed. -/
def AtCall (c : Call Net) (w : World Net) : Prop := Firm w ∧ (MayStop c → Intact w)

/-- With the removal after a confirmation as guarded, the program keeps confirmed plans. -/
abbrev Keeps {α : Type} (p : Eff Net α) (w : World Net) : Prop :=
  Safe exec AtCall Removes (fun _ => Intact) p w

theorem Intact.atCall {w : World Net} (h : Intact w) (c : Call Net) : AtCall c w :=
  ⟨h.toFirm, fun _ => h⟩

/-- A program works on the plan it created or the marker names, which is not confirmed. -/
theorem walk_intact : Walk (@AtCall Net) Removes Intact (fun id w => Intact w ∧ Pending id w)
    (fun m w => Intact w ∧ Pending m.planID w) (fun m w => Intact w ∧ Pending m.planID w)
    (fun m w => Intact w ∧ Pending m.planID w) where
  here c h := h.atCall c
  settles h := h.1
  record _ msg h other := h.1.record h.2 other msg
  create h none planned := ⟨h.create _ none planned, _, Function.update_self _ _ _, planned⟩
  save path snap h none planned :=
    ⟨(h.create _ none planned).save path snap, _, Function.update_self _ _ _, planned⟩
  arm {w r m} h none planned plan := by
    have pending : Pending m.planID (w.create r) := ⟨r, by simp [create, plan], planned⟩
    exact ⟨((h.create r none planned).save _ _).arm pending, pending⟩
  operate net h := ⟨h.1.operate _ net, h.2⟩
  ran h := ⟨h, fun net => ⟨h.1.reloaded net, h.2⟩⟩
  armed h hm := ⟨h, h.pending hm⟩
  owns h := h
  rearm h plan _ := ⟨h.1.arm (plan ▸ h.2), h.2⟩
  giveUp h := ⟨h.1.toFirm.disarm _, h.2⟩
  putBackFailed net h := ⟨h.1.putBackFailed h.2 net, h.2⟩
  putBack snap h := ⟨h.1.putBack h.2 snap, h.2⟩
  returned h := ⟨h, fun net => ⟨h.1.reloaded net, h.2⟩⟩
  disarm h := ⟨h.1.toFirm.disarm _, h.2⟩
  confirmed {m w} h hm := by
    -- The removal follows the record, so the plan is disarmed once it is confirmed.
    have firm := h.toFirm.record (h.pending hm) .confirmed ""
    exact ⟨⟨firm, fun stop => absurd rfl stop⟩,
      fun _ fails => fails.elim fun _ removes => removes rfl, firm.disarm .confirmed⟩

/-- Every entry point keeps confirmed plans. -/
theorem keeps_entry {a : Applier} (e : Entry) (w : World Net) (h : Intact w) :
    Keeps (entry a e) w :=
  walk_intact.keeps_entry e w h

/-! ## Whole runs -/

/-- A step that keeps a recorded confirmation and the removal of the marker together. -/
abbrev ConfirmsWhole (s : Sys Net) (l : Label Entry (Answer Net)) : Prop :=
  System.Guarded MayStop Removes s l

theorem intact_init (net : Net) : Intact (World.init net) where
  fresh _ _ := rfl
  marked _ hm := by cases hm
  phase p := by simp [init, phaseOf]
  kept := List.Pairwise.nil
  unmarked _ hm := by cases hm

variable {a : Applier} {ls : List (Label Entry (Answer Net))} {s : Sys Net}

/-- After a run whose confirmations are whole no confirmed plan was undone. -/
theorem firm_of_run {net : Net} (along : Runs.Along (step a) ConfirmsWhole (Sys.init net) ls)
    (h : Runs.run (step a) (Sys.init net) ls = some s) : Firm s.world := by
  have settled := System.settled keeps_entry (fun _ _ at' stop => at'.2 stop) (intact_init net)
    along h
  exact System.of_settled (fun _ h => h.toFirm) (fun _ _ h => h.1) settled

/-- The log only grows. -/
theorem exec_log (c : Call Net) (ans : Answer Net) (w : World Net) :
    ∃ since, (exec c ans w).2.log = w.log ++ since := by
  have same : ∃ since, w.log = w.log ++ since := ⟨[], (append_nil _).symm⟩
  rcases ans with ⟨_ | e, clock, net⟩
  · cases c with
    | readMarker | writeMarker | createRecord | capture | saveSnapshot | loadSnapshot | reload
    | now | onRollback => exact same
    | deleteMarker why =>
      cases why with
      | confirmed => exact same
      | restored => exact same
      | budgetSpent =>
        cases hm : w.marker with
        | none => simp [exec, onSuccess, disarm, hm]
        | some m => exact ⟨[.gaveUp m.planID], by simp [exec, onSuccess, disarm, hm]⟩
    | setPhase id phase msg => exact ⟨_, rfl⟩
    | restore plan snap => exact ⟨_, rfl⟩
    | runOp plan desc => exact ⟨_, rfl⟩
  · cases c with
    | restore plan snap => exact ⟨_, rfl⟩
    | runOp plan desc => exact ⟨_, rfl⟩
    | _ => exact same

/-- A run only adds to the log. -/
theorem log_of_run {t : Sys Net}
    (h : Runs.run (step a) s ls = some t) : ∃ since, t.world.log = s.world.log ++ since := by
  refine System.run_world_rel (fun w w' : World Net => ∃ since, w'.log = w.log ++ since)
    (fun w => ⟨[], (append_nil _).symm⟩) ?_ exec_log h
  rintro u v w ⟨x, hx⟩ ⟨y, hy⟩
  exact ⟨x ++ y, by rw [hy, hx, append_assoc]⟩

/-- **A confirmed change stays.** In every run where a recorded confirmation is always followed by
the removal of the marker, a plan whose record reads confirmed at some point reads confirmed from
then on, and nothing puts its snapshot back. -/
theorem confirmed_stays (a : Applier) (net : Net) (before after : List (Label Entry (Answer Net)))
    (s t : Sys Net) (hs : Runs.run (step a) (Sys.init net) before = some s)
    (ht : Runs.run (step a) s after = some t)
    (along : Runs.Along (step a) ConfirmsWhole (Sys.init net) (before ++ after)) (p : Nat)
    (confirmed : s.world.phaseOf p = some .confirmed) :
    t.world.phaseOf p = some .confirmed ∧
      ∃ since, t.world.log = s.world.log ++ since ∧ ∀ e ∈ since, ¬ e.Undoes p := by
  have firmS := firm_of_run (Runs.along_append.mp along).1 hs
  have firmT := firm_of_run along (Runs.run_append.mpr ⟨s, hs, ht⟩)
  have logged := (firmS.phase p).mpr confirmed
  obtain ⟨since, grown⟩ := log_of_run ht
  have loggedT : .phaseSet p .confirmed ∈ t.world.log := by
    rw [grown]
    exact mem_append_left _ logged
  refine ⟨(firmT.phase p).mp loggedT, since, grown, fun e he => ?_⟩
  have kept := firmT.kept
  rw [grown, pairwise_append] at kept
  exact kept.2.2 _ logged e he p rfl

/-! ## A run without the condition -/

/-- A label of a run in which nothing fails and nothing stops. -/
def Smooth : Label Entry (Answer Net) → Prop
  | .start _ => True
  | .advance ans => ans.fault = none
  | .crash => False

theorem along_of_smooth (smooth : ∀ l ∈ ls, Smooth l) : Runs.Along (step a) ConfirmsWhole s ls := by
  induction ls generalizing s with
  | nil => trivial
  | cons l ls ih =>
    have here := smooth l mem_cons_self
    refine ⟨?_, fun t _ => ih fun l hl => smooth l (mem_cons_of_mem _ hl)⟩
    cases l with
    | start e => trivial
    | advance ans => exact fun _ _ _ _ => here
    | crash => exact here.elim

/-- `n` calls that succeed, at second `clock`, those that change the network leaving it at `net`. -/
def calls (n : Nat) (clock : Int) (net : Nat) : List (Label Entry (Answer Nat)) :=
  List.replicate n (.advance { clock := clock, net := net })

/-- A whole apply that takes the network from 5 to 7, and a confirm up to its removal of the
marker. -/
def appliedAndRecorded : List (Label Entry (Answer Nat)) :=
  .start (.apply ⟨"r1", [⟨"set wan0"⟩]⟩ false) :: calls 12 100 7 ++
    .start (.confirm 1) :: calls 3 110 7

/-- The timer, after the deadline. -/
def timerRun : List (Label Entry (Answer Nat)) := .start (.rollback true 0) :: calls 9 500 5

/-- The confirm removes the marker, and the timer finds nothing to do. -/
theorem confirmed_stays_smooth :
    ∃ s t, Runs.run (step ⟨"/var/lib/nasnet", true⟩) (Sys.init 5)
        (appliedAndRecorded ++ calls 2 110 7) = some s ∧
      Runs.run (step ⟨"/var/lib/nasnet", true⟩) s
        (.start (.rollback true 0) :: calls 2 500 7) = some t ∧
      s.world.phaseOf 1 = some .confirmed ∧ t.world.phaseOf 1 = some .confirmed := by
  refine ⟨_, _, rfl, rfl, rfl, ?_⟩
  have smooth : ∀ l ∈ appliedAndRecorded ++ calls 2 110 7 ++
      .start (.rollback true 0) :: calls 2 500 7, Smooth l := by
    simp [appliedAndRecorded, calls, Smooth]
  exact (confirmed_stays ⟨"/var/lib/nasnet", true⟩ 5 _ _ _ _ rfl rfl (along_of_smooth smooth) 1
    rfl).1

/-- **Without it a confirmed change is undone.** The process stops between recording the
confirmation and removing the marker; the timer then puts the network back and the record reads
rolled back. -/
theorem confirmed_then_rolled_back :
    ∃ s t, Runs.run (step ⟨"/var/lib/nasnet", true⟩) (Sys.init 5)
        (appliedAndRecorded ++ [.crash]) = some s ∧
      Runs.run (step ⟨"/var/lib/nasnet", true⟩) s timerRun = some t ∧
      s.world.phaseOf 1 = some .confirmed ∧ s.world.net = 7 ∧
      t.world.phaseOf 1 = some .rolledBack ∧ t.world.net = 5 ∧
      t.world.log = s.world.log ++ [.restored 1, .phaseSet 1 .rolledBack] :=
  ⟨_, _, rfl, rfl, rfl, rfl, rfl, rfl, rfl⟩

end NasnetPanel.Deadman
