import NasnetPanel.Update.Outcome

/-!
# Update.Copies — how long the saved copies stay

Any call on files may fail here, and the runner or the panel may stop between any two calls. The
earlier version is the one an update replaces and a rollback goes back to. `copies_outlive`: at
every moment every file of the job holds the earlier version's bytes, or its copy is on disk and
listed in the saved set, as long as the runner of an update could put back every file it wanted to.

The runner of an update drops the copies after a put-back whatever came of it. `copies_lost` is a
run in which one copy cannot be put back and is dropped.
-/

namespace NasnetPanel.Update
open CrashProg CrashProg.Prog

/-- Once the runner could not put a file back, that stays known. -/
theorem lost_exec (c : Call) (ans : Answer) {d : Disk} (lost : d.lost = true) :
    (exec c ans d).2.lost = true := by
  have failed (restores : Bool) : (d.failed restores).lost = true := by
    unfold Disk.failed
    split
    · rfl
    · exact lost
  have attempted {before after : Disk} (h : before.lost = true) (h' : after.lost = true) :
      (attempt before ans.fault after).2.lost = true := by
    cases ans.fault with
    | none => exact h'
    | some _ => exact h
  cases c with
  | save | mkdirAll | daemonReload | restart => exact attempted lost lost
  | rename | remove => exact attempted (failed _) lost
  | copy src dst =>
    rcases exec_copy src dst ans d with ⟨e, ran, -⟩ | ⟨b, -, ran⟩
    · rw [ran]
      exact failed _
    · rw [ran]
      exact lost
  | writeSet which => cases which <;> exact attempted lost lost
  | discard | wipe =>
    dsimp only [exec]
    cases ans.fault <;> exact lost
  | installPlan =>
    dsimp only [exec]
    cases ans.fault with
    | some _ => exact lost
    | none => cases d.staging <;> exact lost
  | _ => exact lost

namespace Stakes
variable (g : Stakes) {α β : Type}

/-! ## Covered files -/

/-- What the version before the update has of each file. -/
def earlier : String → Option Blob :=
  match g.kind with
  | .update => g.old
  | .rollback => g.new

/-- The file holds the earlier version's bytes, or the saved set has its copy. -/
def Covered (d : Disk) (f : String) : Prop :=
  d.live f = g.earlier f ∨
    ∃ s, d.set = some s ∧ ∃ e ∈ s.files, e.live = f ∧ e.Holds g.earlier d

/-- The look at the binary before it is saved does not fail; all else may. -/
def Looks : Call → Answer → Prop
  | .stat f, ans => f = binary → ans.fault = none
  | _, _ => True

/-- The job as far as settling looks at it. -/
def Known (j : Job) : Prop := j.kind = g.kind ∧ j.toVersion = g.toVersion

/-- Every file is covered, and settling does no harm. -/
structure Covering (d : Disk) : Prop where
  known : ∃ j, d.job = some j ∧ g.Known j
  harmless : g.Harmless d
  covered : ∀ f ∈ g.files, g.Covered d f

/-- The invariant of an update, up to a loss. -/
def Guarding (d : Disk) : Prop := d.lost = false → g.Covering d

/-- The program keeps it at every call. -/
def Outlives (post : α → Disk → Prop) (p : Program α) (d : Disk) : Prop :=
  Safe exec (fun _ => g.Guarding) Looks post p d

abbrev Guards (p : Program α) (d : Disk) : Prop := g.Outlives (fun _ => g.Guarding) p d

variable {fs : List String} {reason : Job → String} {status : StepStatus} {detail : String}

section Update
variable {g} {d d' : Disk} {j : Job} {t s : FileSet} {post : α → Disk → Prop}
  {p : Program α} {k : Job → Program PUnit} {result : Result}

theorem outlives_then {mid : α → Disk → Prop} {post : β → Disk → Prop}
    {k : α → Program β} (part : g.Outlives mid p d)
    (rest : ∀ a d', mid a d' → g.Outlives post (k a) d') : g.Outlives post (p >>= k) d :=
  safe_then part rest

/-- After a loss nothing is asked for. -/
theorem outlives_of_kept (h : d.lost = false → g.Guards p d) :
    g.Guards p d := by
  cases lost : d.lost with
  | false => exact h lost
  | true =>
    have after : Safe exec (fun _ => g.Guarding) Looks (fun _ d' => d'.lost = true) p d :=
      safe_of_only (fun c _ _ lost => ⟨fun kept => absurd kept (by simp [lost]),
          fun ans _ => lost_exec c ans lost⟩) (only_true p) lost
    exact safe_mono (fun _ _ lost kept => absurd kept (by simp [lost])) after

theorem Mine.known (h : g.Mine j) : g.Known j := ⟨h.kind, h.toVersion⟩

theorem Covering.save (h : g.Covering d) (known : g.Known j) :
    g.Covering { d with job := some j } :=
  { h with known := ⟨j, rfl, known⟩ }

theorem outlives_cleanup (h : g.Covering d) : g.Guards cleanup d :=
  safe_ask.mpr ⟨fun _ => h, fun _ _ _ => { h with }⟩

/-- The job ends, one way or another. -/
theorem outlives_finish {reason : String} (h : g.Covering d) (known : g.Known j)
    (rest : ∀ j' d', g.Covering d' → g.Guards (k j') d') :
    g.Guards (finish j result reason >>= k) d :=
  safe_saveJob (fun _ h _ => h) (fun _ h => h.save known) h (rest _)

variable {id : StepID} {err : String}

theorem outlives_fail (h : g.Covering d) (known : g.Known j)
    (rest : ∀ j' d', g.Covering d' → g.Guards (k j') d') :
    g.Guards (fail j id err >>= k) d := by
  have marked : g.Guards (mark j id .failed err >>= fun job =>
      finish job .failed err >>= k) d :=
    safe_saveJob (fun _ h _ => h) (fun _ h => h.save known) h
      fun _ h => outlives_finish h known rest
  exact marked

theorem outlives_giveUp (h : g.Covering d) (known : g.Known j) :
    g.Guards (giveUp j id err) d :=
  outlives_fail h known fun _ _ => outlives_cleanup

theorem outlives_ends (h : g.Covering d) (known : g.Known j) :
    g.Guards (mark j id status detail >>= fun job =>
      finish job result (reason job) >>= fun _ => pure PUnit.unit) d :=
  safe_saveJob (fun _ h _ => h) (fun _ h => h.save known) h
    fun _ h => outlives_finish h known fun _ _ h _ => h

/-! ### The runner of an update -/

variable (update : g.kind = .update)
include update

theorem earlier_eq : g.earlier = g.old := by rw [earlier, update]

theorem set_of_back (back : g.back d = some t) :
    d.set = some t ∧ t.replacedBy = g.toVersion := by
  rw [Stakes.back, update] at back
  simpa [Option.filter_eq_some_iff] using back

theorem Kept.covering (h : g.Kept t s d) : g.Covering d where
  known := by
    obtain ⟨j, job, mine⟩ := h.pending
    exact ⟨j, job, mine.known⟩
  harmless := h.harmless
  covered f mem := by
    rw [Covered, earlier_eq update]
    refine (h.changed f mem).imp_right ?_
    rintro ⟨e, listed, live⟩
    exact ⟨t, (set_of_back update h.back).1, e, listed, live, h.saved.holds e (h.sub e listed)⟩

theorem Even.covering (h : g.Even g.old d) : g.Covering d where
  known := by
    obtain ⟨j, job, mine⟩ := h.pending
    exact ⟨j, job, mine.known⟩
  harmless := h.harmless
  covered f mem := by
    rw [Covered, earlier_eq update]
    exact .inl (h.all f mem)

theorem Covering.moved (h : g.Covering d) (moved : Moved g.old fs d d') :
    g.Covering d' where
  known := exists_job moved.job h.known
  harmless := h.harmless.moved moved
  covered f mem := by
    have covered := h.covered f mem
    rw [Covered, earlier_eq update] at covered ⊢
    rcases covered with old | ⟨s, set, e, listed, live, holds⟩
    · exact .inl (moved.stays old)
    · exact .inr ⟨s, moved.set.trans set, e, listed, live, holds.moved moved⟩

/-- The set in hand is put back: every file is old, or the loss is noted. -/
theorem outlives_putBack (h : g.Kept t s d) (runner : d.settling = false) :
    g.Outlives (fun _ d' => d'.lost = false → g.Even g.old d') (putBack s) d := by
  refine safe_mono (fun err d' done kept => ?_)
    (safe_putBack (fun e mem => (h.saved.holds e mem).harmless)
      fun d' moved _ => (h.moved_old moved).covering update)
  exact (h.moved_old done.1).even fun e mem => done.2 e mem (.inr (.inr ⟨runner, kept⟩))

theorem outlives_dropPrev (h : g.Even g.old d) :
    g.Outlives (fun _ => g.Even g.old) dropPrev d :=
  safe_mono (fun _ _ wiped => h.wiped wiped)
    (safe_dropPrev fun _ wiped _ => (h.wiped wiped).covering update)

theorem outlives_undo (h : g.Kept t s d) (runner : d.settling = false)
    (mine : g.Mine j) : g.Guards (undo j s id err) d := by
  refine outlives_then (outlives_putBack update h runner) fun _ d' back => ?_
  refine outlives_of_kept fun kept => ?_
  refine outlives_then (outlives_dropPrev update (back kept)) fun _ d'' even => ?_
  exact outlives_giveUp (even.covering update) mine.known

end Update

structure Hand (t s : FileSet) (d : Disk) : Prop where
  kept : g.Kept t s d
  runner : d.settling = false

variable {want : String → Option Blob}

section Update
variable {g} {d d' d0 : Disk} {j : Job} {t s : FileSet} {post : α → Disk → Prop}
  {staging : List (String × Blob)}

theorem Hand.save (h : g.Hand t s d) (mine : g.Mine j) : g.Hand t s { d with job := some j } :=
  ⟨h.kept.save mine, h.runner⟩

theorem Hand.moved (h : g.Hand t t d)
    (lists : ∀ f ∈ g.files, ∃ e ∈ t.files, e.live = f) (moved : Moved want fs d d') :
    g.Hand t t d' :=
  ⟨h.kept.moved moved fun f mem => .inr (lists f mem), moved.settling.trans h.runner⟩

variable (update : g.kind = .update)
include update

/-- A step of the job is saved. -/
theorem Hand.outlives_saveJob {k : Job → Program α} (h : g.Hand t s d) (mine : g.Mine j)
    (next : ∀ d', g.Hand t s d' → g.Outlives post (k j) d') :
    g.Outlives post (saveJob j >>= k) d :=
  safe_saveJob (fun _ h _ => h.kept.covering update) (fun _ h => h.save mine) h next

theorem outlives_revert {cause : String} (h : g.Hand t s d) (mine : g.Mine j) :
    g.Guards (revert j s cause) d := by
  have mine' := mine.addStep ⟨.revert, "Putting " ++ j.fromVersion ++ " back", .running, ""⟩
  refine h.outlives_saveJob update mine' fun d h => ?_
  have brought : g.Outlives (fun _ d' => d'.lost = false → g.Even g.old d')
      (bringBack (j.addStep ⟨.revert, "Putting " ++ j.fromVersion ++ " back", .running, ""⟩) s
        j.fromVersion true) d := by
    refine outlives_then (outlives_putBack update h.kept h.runner) fun err d' back => ?_
    cases err with
    | some e => exact back
    | none =>
      refine safe_mono (fun _ d'' same => ?_) (safe_comesUp fun kept => (back kept).covering update)
      rw [same]
      exact back
  refine outlives_then brought fun err d' back => outlives_of_kept fun kept => ?_
  refine outlives_then (outlives_dropPrev update (back kept)) fun _ d'' even => ?_
  refine safe_ask.mpr ⟨fun _ => even.covering update, fun _ _ => ?_⟩
  have covering := even.unstage.covering update
  cases err <;> exact outlives_ends covering mine'.known

theorem outlives_tryNew (h : g.Hand t s d) (mine : g.Mine j) :
    g.Guards (tryNew j s) d :=
  safe_tryNew (fun _ h _ => h.kept.covering update) (fun _ _ mine h => h.save mine)
    (fun _ id st detail mine => mine.setStep id st detail) mine h
    (fun _ _ _ mine h => outlives_revert update h mine) fun _ _ mine h =>
      outlives_finish (h.kept.covering update) mine.known fun _ _ => outlives_cleanup

/-- The renames of step 8, with every file listed. -/
theorem outlives_installAll {plan : List (String × Path)} (h : g.Hand s s d)
    (lists : ∀ f ∈ g.files, ∃ e ∈ s.files, e.live = f) :
    g.Outlives (fun _ => g.Hand s s) (installAll plan) d := by
  induction plan generalizing d with
  | nil => exact h
  | cons x plan ih =>
    have one : g.Outlives (Placed (Calm Looks) (fun _ => d.read x.2) x.1 (x.2.isCopy = true)
        ((d.read x.2).isSome = true) d) (installFile x.2 x.1) d :=
      safe_installFile (fun _ there => there)
        fun d' moved _ => (h.moved lists moved).kept.covering update
    refine outlives_then one fun err d' placed => ?_
    have h := h.moved lists placed.moved
    cases err with
    | some e => exact h
    | none => exact ih h

/-- Step 8, from the set of system files to the renames. -/
theorem outlives_swap (start : g.StartsUpdate staging d0) (h : g.SystemSaved t staging d)
    (runner : d.settling = false) (mine : g.Mine j) :
    g.Guards (swap j t) d := by
  have swapping := mine.setStep .swap .running ""
  refine safe_saveJob (P := fun d => g.SystemSaved t staging d ∧ d.settling = false)
    (fun _ h _ => h.1.kept.covering update) (fun _ h => ⟨h.1.save swapping, h.2⟩) ⟨h, runner⟩
    fun d h => ?_
  obtain ⟨h, runner⟩ := h
  refine safe_ask.mpr ⟨fun _ => h.kept.covering update, fun ans _ => ?_⟩
  dsimp only [exec]
  cases ans.fault with
  | some e => exact outlives_undo update h.kept runner swapping
  | none =>
    rw [h.staged]
    dsimp only
    rw [h.plan start]
    have staged := h.restage (Disk.stageVersion (j.setStep .swap .running "").toVersion staging)
    have copies : g.Outlives (SavedTo (Calm Looks) g.old planSlot ((d0.plan staging).map (·.1)) t
        _) (savePlan (d0.plan staging) t) _ :=
      safe_savePlan (.refl _ _) staged.kept.saved
        (fun d' copied (_ : d'.lost = false) => (staged.copied copied).kept.covering update)
        staged.planned_old (fun n f => .inl ⟨n, base f, rfl⟩) (.inr ⟨rfl, rfl⟩)
        fun _ (looks : Looks _ _) => looks rfl
    refine outlives_then copies fun r d2 done => ?_
    obtain ⟨s, err⟩ := r
    have saved := staged.copied done.copied
    have runner : d2.settling = false := done.copied.settling.trans runner
    -- the set in hand has what the one on disk has, and more
    have kept : g.Kept t s d2 := by
      obtain ⟨-, added, files, -⟩ := done.grown
      refine { saved.kept with sub := fun e mem => ?_, saved := done.saved }
      rw [files]
      exact List.mem_append_left _ mem
    cases err with
    | some e => exact outlives_undo update kept runner swapping
    | none =>
      refine safe_ask.mpr ⟨fun _ => kept.covering update, fun ans _ => ?_⟩
      dsimp only [exec]
      cases ans.fault with
      | some e => exact outlives_undo update kept runner swapping
      | none =>
        have lives := saved.lives_grown start done.grown
        have hand : g.Hand s s { d2 with set := some s } :=
          ⟨saved.written update done.saved done.grown.replacedBy lives, runner⟩
        refine outlives_then (outlives_installAll update hand
          fun f mem => List.mem_map.mp (lives ▸ mem)) fun err d3 hand => ?_
        cases err with
        | some e => exact outlives_undo update hand.kept hand.runner swapping
        | none =>
          have swapped := swapping.setStep .swap .done ""
          exact hand.outlives_saveJob update swapped fun d h => outlives_tryNew update h swapped

end Update

/-- Before anything is saved: every file is old and no set is settling's. -/
structure Fresh (staging : List (String × Blob)) (d : Disk) : Prop where
  pending : g.Pending d
  back : g.back d = none
  old : ∀ f, d.live f = g.old f
  staged : d.staging = some staging
  runner : d.settling = false

section Update
variable {g} {d d' d0 : Disk} {j : Job} {t s : FileSet} {staging : List (String × Blob)}

theorem Fresh.wiped (h : g.Fresh staging d) (wiped : Wiped d d') : g.Fresh staging d' where
  pending := exists_job wiped.job h.pending
  back := (back_wiped wiped).elim (fun gone => gone) fun same => same.trans h.back
  old f := (wiped.lives f).trans (h.old f)
  staged := wiped.staging.trans h.staged
  runner := wiped.settling.trans h.runner

theorem Fresh.copied {slot : Path → String → Prop} (h : g.Fresh staging d)
    (copied : Copied slot d d') : g.Fresh staging d' where
  pending := exists_job copied.job h.pending
  back := (back_copied copied).trans h.back
  old f := (copied.lives f).trans (h.old f)
  staged := copied.staging.trans h.staged
  runner := copied.settling.trans h.runner

theorem Fresh.save (h : g.Fresh staging d) (mine : g.Mine j) :
    g.Fresh staging { d with job := some j } :=
  { h with pending := ⟨j, rfl, mine⟩ }

variable (update : g.kind = .update)
include update

theorem Fresh.covering (h : g.Fresh staging d) : g.Covering d :=
  Even.covering update ⟨h.pending, fun s back => absurd back (by simp [h.back]), fun f _ => h.old f⟩

theorem outlives_updateSystem (h : g.SystemSaved t staging d) (runner : d.settling = false) :
    g.Outlives (fun _ d' => g.SystemSaved t staging d' ∧ d'.settling = false) updateSystem d := by
  refine safe_ask.mpr ⟨fun _ => h.kept.covering update, fun ans _ => ?_⟩
  have begun := h.scripted ans.wrote
  exact ⟨fun _ => begun.kept.covering update, fun ans' _ => ⟨begun.scripted ans'.wrote, runner⟩⟩

/-- The runner of an update keeps every file covered. -/
theorem outlives_runUpdate (start : g.StartsUpdate staging d) (fresh : g.Fresh staging d)
    (mine : g.Mine j) : g.Guards (runUpdate j) d := by
  refine outlives_then (safe_removeAll fun _ wiped _ => (fresh.wiped wiped).covering update)
    fun _ d1 wiped => ?_
  have fresh := fresh.wiped wiped.1
  refine outlives_then (safe_removeAll fun _ wiped _ => (fresh.wiped wiped).covering update)
    fun _ d2 wiped => ?_
  have marked := mine.setStep .system .running ""
  refine safe_saveJob (fun _ h _ => h.covering update) (fun _ h => h.save marked)
    (fresh.wiped wiped.1) fun d3 fresh => ?_
  have copies : g.Outlives (SavedTo (Calm Looks) g.old systemSlot systemFiles
      ⟨j.fromVersion, j.toVersion, []⟩ d3)
      (FileSet.save ⟨j.fromVersion, j.toVersion, []⟩ .system systemFiles) d3 :=
    safe_save (.refl _ _) ⟨by simp, by simp⟩
      (fun _ copied _ => (fresh.copied copied).covering update) (fun f _ => fresh.old f)
      fun k f _ => ⟨_, _, rfl⟩
  refine outlives_then copies fun r d4 done => ?_
  have fresh' := fresh.copied done.copied
  obtain ⟨t, err⟩ := r
  cases err with
  | some e => exact outlives_giveUp (fresh'.covering update) marked.known
  | none =>
    refine safe_ask.mpr ⟨fun _ => fresh'.covering update, fun ans _ => ?_⟩
    dsimp only [exec]
    cases ans.fault with
    | some e => exact outlives_giveUp (fresh'.covering update) marked.known
    | none =>
      have saved := SystemSaved.of_saved update fresh.pending fresh.old fresh.staged
        mine.toVersion done
      refine outlives_then (outlives_updateSystem update saved fresh'.runner) fun r d5 after => ?_
      obtain ⟨saved, runner⟩ := after
      cases r with
      | error e => exact outlives_undo update saved.kept runner marked
      | ok _ =>
        have done := marked.setStep .system .done ""
        refine safe_saveJob (P := fun d => g.SystemSaved t staging d ∧ d.settling = false)
          (fun _ h _ => h.1.kept.covering update) (fun _ h => ⟨h.1.save done, h.2⟩)
          ⟨saved, runner⟩ fun d h => ?_
        exact outlives_swap update start h.1 h.2 done

/-! ### Settling an update -/

theorem Covering.wiped (h : g.Covering d) (old : g.AllOld d) (wiped : Wiped d d') :
    g.Covering d' where
  known := exists_job wiped.job h.known
  harmless := h.harmless.wiped wiped
  covered f mem := by
    rw [Covered, earlier_eq update]
    exact .inl ((wiped.lives f).trans (old f mem))

variable {version : String}

theorem outlives_interrupted (h : g.Covering d) (known : g.Known j) :
    g.Guards (interrupted version j) d := by
  have ends {result : Result} {reason : String} {d' : Disk} (h : g.Covering d') :
      g.Guards (do let _ ← finish j result reason; cleanup) d' :=
    outlives_finish h known fun _ _ => outlives_cleanup
  unfold interrupted
  rw [known.1, update]
  split
  · exact ends h
  split
  · exact ends h
  refine safe_ask.mpr ⟨fun _ => h, fun ans _ => ?_⟩
  dsimp only [exec, Disk.setFile]
  cases ans.fault with
  | some e => exact ends h
  | none =>
    cases set : d.set with
    | none => exact ends h
    | some s =>
      dsimp only
      split
      · exact ends h
      next replaced =>
        rw [not_not, known.2] at replaced
        have put : g.Outlives (fun err d' => g.Covering d' ∧ (err = none → g.AllOld d'))
            (putBack s) d := by
          refine safe_mono (fun err d' done => ⟨h.moved update done.1, fun clean f mem => ?_⟩)
            (safe_putBack (h.harmless s (back_set update set replaced))
              fun d' moved _ => h.moved update moved)
          have covered := h.covered f mem
          rw [Covered, earlier_eq update] at covered
          rcases covered with old | ⟨s', set', e, listed, rfl, -⟩
          · exact done.1.stays old
          · cases set.symm.trans set'
            exact done.2 e listed (.inl clean)
        refine outlives_then put fun err d' done => ?_
        cases err with
        | some e => exact ends done.1
        | none =>
          refine outlives_then (safe_dropPrev fun d'' wiped _ =>
            done.1.wiped update (done.2 rfl) wiped) fun _ d'' wiped => ?_
          exact ends (done.1.wiped update (done.2 rfl) wiped)

/-- A panel that watches the runner keeps every file covered. -/
theorem outlives_watchRunner (h : g.Covering d) :
    g.Guards (watchRunner version) d := by
  obtain ⟨j, job, known⟩ := h.known
  exact safe_watchRunner (fun _ => h) (fun _ => h) job fun _ =>
    outlives_interrupted update h known

theorem outlives_settle (h : g.Guarding d) : g.Guards settle d := by
  refine outlives_of_kept fun kept => ?_
  have h := h kept
  refine safe_ask.mpr ⟨fun _ => h, fun _ _ => outlives_watchRunner update ?_⟩
  exact { h with }

end Update

/-! ## The rollback -/

/-- The set a rollback goes back to is whole. -/
structure Intact (s : FileSet) (d : Disk) : Prop where
  set : d.set = some s
  whole : ∀ e ∈ s.files, e.Holds g.new d
  known : ∃ j, d.job = some j ∧ g.Known j

def Standing (s : FileSet) (d : Disk) : Prop :=
  g.Intact s d ∨ g.AllNew d ∧ ∃ j, d.job = some j ∧ g.Known j

abbrev Stands (s : FileSet) (p : Program α) (d : Disk) : Prop :=
  Safe exec (fun _ => g.Standing s) Looks (fun _ => g.Standing s) p d

/-- The calls that leave the set and its copies alone. -/
def Spares : Call → Prop
  | .save j => g.Known j
  | .copy _ dst => (∃ p, dst = .new p) ∨ ∃ n b, dst = .saved .forward n b
  | .wiping what | .wipe what => what = .forwardFolder ∨ what = .forwardFile
  | .writeSet which _ => which = .forward
  | .scripting | .script => False
  | _ => True

section Rollback
variable {g} {d d' : Disk} {j : Job} {s fwd : FileSet}

def Apart (s : FileSet) : Prop := ∀ e ∈ s.files, ∀ n b, e.saved ≠ some (.saved .forward n b)

theorem Intact.of_eq (h : g.Intact s d) (set : d'.set = d.set) (job : d'.job = d.job)
    (copies : ∀ e ∈ s.files, ∀ p, e.saved = some p → p.isCopy = true → d'.files p = d.files p) :
    g.Intact s d' where
  set := set.trans h.set
  whole e mem := (h.whole e mem).congr (copies e mem)
  known := by
    obtain ⟨j, there, known⟩ := h.known
    exact ⟨j, job.trans there, known⟩

theorem Intact.moved (h : g.Intact s d) (moved : Moved want fs d d') : g.Intact s d' :=
  h.of_eq moved.set moved.job fun _ _ p _ => moved.copies p

theorem Intact.write (h : g.Intact s d) {p : Path} {b : Option Blob}
    (out : ∀ e ∈ s.files, ∀ q, e.saved = some q → q.isCopy = true → q ≠ p) :
    g.Intact s (d.write p b) :=
  h.of_eq rfl rfl fun e mem q saved copy => files_write_of_ne d (out e mem q saved copy) b

theorem Intact.attempt (h : g.Intact s d) (h' : g.Intact s d') (fault : Option String) :
    g.Intact s (attempt d fault d').2 := by
  cases fault with
  | some _ => exact h
  | none => exact h'

variable {what : Wipe} {c : Call} {id : StepID}

theorem Intact.without (h : g.Intact s d) (apart : Apart s)
    (forward : what = .forwardFolder ∨ what = .forwardFile) (gone : Path → Bool)
    (goneSet : SetFile → Bool) : g.Intact s (d.without what gone goneSet) := by
  refine h.of_eq ?_ rfl fun e mem p saved copy => ?_
  · rcases forward with rfl | rfl <;> rfl
  have uncovered : what.covers p = false := by
    rcases forward with rfl | rfl
    · unfold Wipe.covers
      split
      next clash => cases clash
      next clash => exact absurd saved (apart e mem _ _)
      next clash => cases clash
      · rfl
    · rfl
  simp [Disk.without, uncovered]

/-- What such a call leaves alone stays whole. -/
theorem Intact.exec (h : g.Intact s d) (apart : Apart s) (spares : g.Spares c)
    (ans : Answer) : g.Intact s (exec c ans d).2 := by
  have failed (restores : Bool) : g.Intact s (d.failed restores) :=
    h.moved (moved_failed restores : Moved g.new [] d _)
  have noCopy {d : Disk} (h : g.Intact s d) {p : Path} (out : p.isCopy = false)
      (b : Option Blob) : g.Intact s (d.write p b) :=
    h.write fun e _ q _ copy same => by simp [same, out] at copy
  cases c with
  | save j =>
    have saved : g.Intact s { d with job := some j } := ⟨h.set, h.whole, j, rfl, spares⟩
    exact h.attempt saved ans.fault
  | mkdirAll | daemonReload | restart => exact h.attempt h ans.fault
  | copy src dst =>
    rcases exec_copy src dst ans d with ⟨e, ran, -⟩ | ⟨b, -, ran⟩
    · rw [ran]
      exact failed _
    rw [ran]
    rcases spares with ⟨p, rfl⟩ | ⟨n, c, rfl⟩
    · exact noCopy h rfl _
    · exact h.write fun e mem q saved _ same => apart e mem n c (same ▸ saved)
  | rename src p => exact (failed _).attempt (noCopy (noCopy h rfl _) rfl _) ans.fault
  | remove p => exact (failed _).attempt (noCopy h rfl _) ans.fault
  | discard p =>
    dsimp only [Update.exec]
    cases ans.fault with
    | some _ => exact h
    | none => exact noCopy h rfl _
  | wiping what => exact h.without apart spares _ _
  | wipe what =>
    dsimp only [Update.exec]
    cases ans.fault <;> exact h.without apart spares _ _
  | writeSet which fwd =>
    cases which with
    | set => cases spares
    | forward =>
      have written : g.Intact s { d with forward := some fwd } := { h with }
      exact h.attempt written ans.fault
  | installPlan version =>
    dsimp only [Update.exec]
    cases ans.fault with
    | some _ => exact h
    | none =>
      cases d.staging with
      | none => exact h
      | some _ => exact { h with }
  | scripting | script => cases spares
  | boot | cleanup => exact { h with }
  | load | stat | readSet | starts | trial => exact h

/-- A program of such calls keeps the set. -/
theorem standing_of_only {p : Program α} (only : Only g.Spares p) (apart : Apart s)
    (h : g.Intact s d) :
    Safe exec (fun _ => g.Standing s) Looks (fun _ => g.Intact s) p d :=
  safe_of_only (fun _ _ spares h => ⟨.inl h, fun ans _ => h.exec apart spares ans⟩) only h

/-! ### Programs that leave the set alone -/

theorem only_ask {q : Call → Prop} {k : Reply c → Program α} (here : q c)
    (next : ∀ r, Only q (k r)) : Only q (ask c >>= k) := ⟨here, next⟩

theorem only_saveJob {k : Job → Program α} (known : g.Known j) (next : Only g.Spares (k j)) :
    Only g.Spares (saveJob j >>= k) := ⟨known, fun _ => next⟩

theorem only_ends {result : Result} (known : g.Known j) :
    Only g.Spares (mark j id status detail >>= fun job =>
      finish job result (reason job) >>= fun _ => pure PUnit.unit) :=
  only_saveJob known (only_saveJob known trivial)

theorem only_failed {err : String} (known : g.Known j) :
    Only g.Spares (fail j id err >>= fun _ => pure PUnit.unit) :=
  ⟨known, fun _ => ⟨known, fun _ => trivial⟩⟩

theorem only_installFile (src : Path) (f : String) : Only g.Spares (installFile src f) := by
  refine only_ask (.inl ⟨f, rfl⟩) fun r => ?_
  cases r with
  | error e => exact only_ask trivial fun _ => trivial
  | ok _ =>
    refine only_ask trivial fun r => ?_
    cases r <;> trivial

theorem only_putBackAll (es : List SavedFile) : Only g.Spares (putBackAll es) := by
  induction es with
  | nil => trivial
  | cons e es ih =>
    refine only_bind ?_ fun _ => only_bind ih fun _ => trivial
    unfold SavedFile.putBack
    split
    · exact only_installFile ..
    · refine only_ask trivial fun r => ?_
      cases r <;> trivial

theorem only_putBack (s : FileSet) : Only g.Spares (putBack s) := by
  refine only_bind (only_putBackAll _) fun errs => only_ask trivial fun r => ?_
  cases r <;> trivial

theorem only_saveAll (lives : List String) (s : FileSet) :
    Only g.Spares (FileSet.saveAll .forward lives s) := by
  induction lives generalizing s with
  | nil => trivial
  | cons f lives ih =>
    refine only_ask trivial fun r => ?_
    cases r with
    | error e => trivial
    | ok there =>
      cases there with
      | false => exact ih _
      | true =>
        refine only_ask (.inr ⟨_, _, rfl⟩) fun r => ?_
        cases r with
        | error e => trivial
        | ok _ => exact ih _

theorem only_saveForward (es : List SavedFile) (s : FileSet) :
    Only g.Spares (saveForward es s) := by
  induction es generalizing s with
  | nil => trivial
  | cons e es ih =>
    refine only_bind (only_ask trivial fun r => ?_) fun r => ?_
    · cases r with
      | error e => trivial
      | ok _ => exact only_saveAll ..
    obtain ⟨s', err⟩ := r
    cases err with
    | some e => trivial
    | none => exact ih s'

theorem only_bringBack {want : String} {legacyOK : Bool} (s : FileSet) :
    Only g.Spares (bringBack j s want legacyOK) := by
  refine only_bind (only_putBack s) fun err => ?_
  cases err with
  | some e => trivial
  | none =>
    refine only_ask trivial fun r => ?_
    cases r with
    | error e => trivial
    | ok _ =>
      refine only_ask trivial fun _ => only_ask trivial fun r => ?_
      cases r <;> trivial

theorem only_removeAll (forward : what = .forwardFolder ∨ what = .forwardFile) :
    Only g.Spares (removeAll what) :=
  only_ask forward fun _ => only_ask forward fun _ => trivial

theorem only_goForward {cause : String} (known : g.Known j) (fwd : FileSet) :
    Only g.Spares (goForward j fwd cause) := by
  refine only_saveJob known (only_saveJob known (only_bind (only_bringBack fwd) fun err => ?_))
  refine only_bind (only_removeAll (.inl rfl)) fun _ =>
    only_bind (only_removeAll (.inr rfl)) fun _ => ?_
  cases err <;> exact only_ends known

theorem only_interrupted {version : String} (rollback : g.kind = .rollback) (known : g.Known j) :
    Only g.Spares (interrupted version j) := by
  have ends {result : Result} {reason : String} :
      Only g.Spares (do let _ ← finish j result reason; cleanup) :=
    only_saveJob known (only_ask trivial fun _ => trivial)
  unfold interrupted
  rw [known.1, rollback]
  split
  · exact ends
  split
  · exact ends
  refine only_ask trivial fun r => ?_
  cases r with
  | error e => exact ends
  | ok fwd => exact only_bind (only_putBack fwd) fun _ => ends

/-! ### The runner of a rollback, and settling it -/

/-- The version rolled back to is tried with every file in place. -/
theorem standing_tryOld (apart : Apart s) (h : g.Intact s d) (new : g.AllNew d)
    (known : g.Known j) :
    g.Stands s (tryOld j fwd) d := by
  have forward {j : Job} {cause : String} {d : Disk} (known : g.Known j) (h : g.Intact s d) :
      g.Stands s (goForward j fwd cause) d :=
    safe_mono (fun _ _ => .inl) (standing_of_only (only_goForward known fwd) apart h)
  refine safe_tryOld (H := fun d => g.Intact s d ∧ g.AllNew d) (fun _ h => .inl h.1)
    (fun _ j known h => ⟨⟨h.1.set, h.1.whole, j, rfl, known⟩, h.2⟩) (fun _ _ _ _ known => known)
    known ⟨h, new⟩ (fun _ _ _ known h => forward known h.1) fun j d known h => ?_
  have wiped {d' : Disk} (wiped : Wiped d d') : g.AllNew d' ∧ ∃ j, d'.job = some j ∧ g.Known j :=
    ⟨fun f mem => (wiped.lives f).trans (h.2 f mem), exists_job wiped.job h.1.known⟩
  refine safe_then (safe_dropPrev fun d' gone => .inr (wiped gone)) fun _ d' gone => ?_
  exact safe_saveJob (fun _ => .inr) (fun _ h => ⟨h.1, _, rfl, known⟩) (wiped gone) fun _ => .inr

/-- The runner of a rollback keeps the set until every file is back. -/
theorem standing_runRollback (apart : Apart s) (files : g.files = s.files.map (·.live))
    (h : g.Intact s d) (known : g.Known j) :
    g.Stands s (runRollback j) d := by
  have spared {p : Program PUnit} {d : Disk} (only : Only g.Spares p) (h : g.Intact s d) :
      g.Stands s p d :=
    safe_mono (fun _ _ => .inl) (standing_of_only only apart h)
  refine safe_ask.mpr ⟨.inl h, fun ans _ => ?_⟩
  dsimp only [exec, Disk.setFile]
  rw [h.set]
  cases ans.fault with
  | some e => exact spared (only_failed known) h
  | none =>
    refine safe_saveJob (fun _ => .inl) (fun _ h => ⟨h.set, h.whole, _, rfl, known⟩) h fun d h => ?_
    refine safe_then (standing_of_only (only_saveForward ..) apart h) fun r d h => ?_
    obtain ⟨fwd, err⟩ := r
    cases err with
    | some e => exact spared (only_failed known) h
    | none =>
      refine safe_ask.mpr ⟨.inl h, fun ans _ => ?_⟩
      have h := h.exec apart (c := .writeSet .forward fwd) rfl ans
      generalize exec (.writeSet .forward fwd) ans d = written at h ⊢
      obtain ⟨reply, d⟩ := written
      cases reply with
      | error e => exact spared (only_failed known) h
      | ok _ =>
        refine safe_then (safe_putBack (fun e mem => (h.whole e mem).harmless)
          fun d' moved => .inl (h.moved moved)) fun err d' done => ?_
        have h := h.moved done.1
        cases err with
        | some e => exact spared (only_bind (only_putBack fwd) fun _ => only_failed known) h
        | none =>
          have new : g.AllNew d' := by
            rw [Stakes.AllNew, files]
            exact List.forall_mem_map.mpr fun e listed => done.2 e listed (.inl rfl)
          exact safe_saveJob (P := fun d => g.Intact s d ∧ g.AllNew d) (fun _ h => .inl h.1)
            (fun _ h => ⟨⟨h.1.set, h.1.whole, _, rfl, known⟩, h.2⟩) ⟨h, new⟩
            fun d h => standing_tryOld apart h.1 h.2 known

theorem Standing.known (h : g.Standing s d) : ∃ j, d.job = some j ∧ g.Known j :=
  h.elim (·.known) (·.2)

/-- A panel of the version in place settles the job: with every file back it only says so. -/
theorem standing_watchRunner (rollback : g.kind = .rollback) (apart : Apart s)
    (h : g.Standing s d) :
    g.Stands s (watchRunner d.running) d := by
  obtain ⟨j, job, known⟩ := h.known
  refine safe_watchRunner h h job fun _ => ?_
  rcases h with intact | ⟨new, there⟩
  · exact safe_mono (fun _ _ => .inl)
      (standing_of_only (only_interrupted rollback known) apart intact)
  have ends {result : Result} {reason : String} :
      g.Stands s (do let _ ← finish j result reason; cleanup) d :=
    safe_saveJob (fun _ => .inr) (fun _ h => ⟨h.1, _, rfl, known⟩) ⟨new, there⟩
      fun _ h => safe_ask.mpr ⟨.inr h, fun _ _ => .inr h⟩
  unfold interrupted
  split
  · exact ends
  rw [if_pos (new.running.trans known.2.symm)]
  exact ends

theorem standing_settle (rollback : g.kind = .rollback) (apart : Apart s) (h : g.Standing s d) :
    g.Stands s settle d := by
  refine safe_ask.mpr ⟨h, fun _ _ => ?_⟩
  refine standing_watchRunner rollback apart ?_
  exact h.imp_left fun h => { h with }

theorem Standing.covered (rollback : g.kind = .rollback)
    (files : g.files = s.files.map (·.live)) (h : g.Standing s d) :
    ∀ f ∈ g.files, g.Covered d f := by
  intro f mem
  rw [Covered, earlier, rollback]
  rcases h with intact | ⟨new, -⟩
  · rw [files, List.mem_map] at mem
    obtain ⟨e, listed, live⟩ := mem
    exact .inr ⟨s, intact.set, e, listed, live, intact.whole e listed⟩
  · exact .inl (new f mem)

end Rollback

/-! ## Whole runs -/

section
variable {g} {d : Disk}

/-- **The saved copies outlive the need for them.** Any call may fail but the look at the binary,
the runner and every panel that settles may stop anywhere, and the runner of an update could put
back what it wanted to. An update has no set of an earlier update to the same version to start
with. -/
theorem copies_outlive (start : g.Starts d) (fresh : g.kind = .update → g.back d = none)
    (runner : d.settling = false) {ls : List (Label Unit Answer)} {t : System Call Reply Disk}
    (along : Runs.Along step (System.GuardedIn (fun _ => True) Looks) (handedOver d g.id) ls)
    (h : Runs.run step (handedOver d g.id) ls = some t)
    (kept : g.kind = .update → t.world.lost = false) : ∀ f ∈ g.files, g.Covered t.world f := by
  rcases start with ⟨staging, start⟩ | ⟨s, start⟩
  · have update := start.kind
    have unsaved : g.Fresh staging d :=
      { start with back := fresh update, runner := runner }
    have started : System.Settled exec (fun _ => g.Guarding) Looks g.Guarding (handedOver d g.id) :=
      runJob_pending start.pending (fun _ => unsaved.covering update)
        (fun _ => unsaved.covering update) fun j mine => by
          rw [mine.kind, update]
          exact outlives_runUpdate update start unsaved mine
    have settled : System.Settled exec (fun _ => g.Guarding) Looks g.Guarding t :=
      System.settled_in (fun _ _ => outlives_settle update) (fun _ _ node _ => node) started along h
    have guarding : g.Guarding t.world :=
      System.of_settled (fun _ h => h) (fun _ _ h => h) settled
    exact (guarding (kept update)).covered
  · have rollback := start.kind
    have intact : g.Intact s d := by
      obtain ⟨j, job, mine⟩ := start.pending
      exact ⟨start.set, start.whole, j, job, mine.known⟩
    have started : System.Settled exec (fun _ => g.Standing s) Looks (g.Standing s)
        (handedOver d g.id) :=
      runJob_pending start.pending (.inl intact) (.inl intact) fun j mine => by
        rw [mine.kind, rollback]
        exact standing_runRollback start.apart start.files intact mine.known
    have settled : System.Settled exec (fun _ => g.Standing s) Looks (g.Standing s) t :=
      System.settled_in (fun _ _ => standing_settle rollback start.apart)
        (fun _ _ node _ => node) started along h
    have standing : g.Standing s t.world :=
      System.of_settled (fun _ h => h) (fun _ _ h => h) settled
    exact standing.covered rollback start.files

end

end Stakes

/-! ## An update that is undone -/

/-- Version 1 in place, with the release of version 2 unpacked. -/
def updating : Disk where
  files
    | .live f => if f = binary then some ⟨"1", "1"⟩ else
        if f = "/usr/local/bin/nasnet" then some { bytes := "1" } else none
    | _ => none
  staging := some [("nasnet-tool.sh", { bytes := "2" }), (binary, ⟨"2", "2"⟩)]
  job := some ⟨"u", .update, "1", "2", .runner, none, "", [], false⟩

def toTwo : Stakes where
  id := "u"
  kind := .update
  fromVersion := "1"
  toVersion := "2"
  files := systemFiles ++ ["nasnet-tool.sh", ".version", binary]
  old := updating.live
  new f := if f = "/usr/local/bin/nasnet" then some { bytes := "2" } else
    [(".version", { bytes := "2\n" }), ("nasnet-tool.sh", { bytes := "2" }),
      (binary, ⟨"2", "2"⟩)].lookup f
  binary_last := ⟨systemFiles ++ ["nasnet-tool.sh", ".version"], rfl⟩
  old_version := by decide
  new_version := by decide
  differ := by decide

theorem updating_starts : toTwo.Starts updating := by
  refine .inl ⟨_, rfl, ⟨_, rfl, rfl, rfl, rfl, rfl, rfl⟩, fun _ => rfl, fun s back => ?_, rfl,
    by decide, by decide⟩
  cases back

def looks (s : System Call Reply Disk) : Label Unit Answer → Bool
  | .advance ans =>
    match s.running with
    | some (.call (.stat f) _) => f ≠ binary || ans.fault.isNone
    | _ => true
  | _ => true

theorem guarded_of_looks {s : System Call Reply Disk} {l : Label Unit Answer}
    (h : looks s l = true) : System.GuardedIn (fun _ => True) Stakes.Looks s l := by
  cases l with
  | start | crash => trivial
  | advance ans =>
    intro c k running
    cases c with
    | stat f =>
      intro isBinary
      rw [looks, running] at h
      simpa [isBinary] using h
    | _ => trivial

def scriptFails : List (Label Unit Answer) :=
  List.replicate 14 (.advance {}) ++
    [.advance { fault := some "exit status 1"
                wrote := fun f => if f = "/usr/local/bin/nasnet" then
                  some (some { bytes := "2" }) else none }]

/-- Stopped after that, the file's copy is there. -/
theorem copies_outlive_updating : ∃ t,
    Runs.run step (handedOver updating toTwo.id) (scriptFails ++ [.crash]) = some t ∧
      t.world.live "/usr/local/bin/nasnet" ≠ toTwo.earlier "/usr/local/bin/nasnet" ∧
      toTwo.Covered t.world "/usr/local/bin/nasnet" := by
  have ran : (Runs.runChecked step looks (handedOver updating toTwo.id)
      (scriptFails ++ [.crash])).map
      (fun t => (t.world.lost, t.world.live "/usr/local/bin/nasnet")) =
      some (false, some { bytes := "2" }) := by decide
  obtain ⟨t, checked, ended⟩ := Option.map_eq_some_iff.mp ran
  obtain ⟨kept, live⟩ := Prod.mk.inj ended
  obtain ⟨run, along⟩ := Runs.of_runChecked checked
  refine ⟨t, run, ?_, ?_⟩
  · rw [live]
    decide
  · exact Stakes.copies_outlive updating_starts (fun _ => rfl) rfl
      (along.mono fun _ _ => guarded_of_looks) run (fun _ => kept) _ (by decide)

/-- The file's copy cannot be read once, and is dropped all the same: the job ends with a file of
version 2 and nothing to put back. -/
theorem copies_lost : toTwo.Starts updating ∧ toTwo.back updating = none ∧
    (Runs.runChecked step looks (handedOver updating toTwo.id)
      (scriptFails ++ .advance { fault := some "input/output error" } ::
        List.replicate 13 (.advance {}))).map
      (fun t => (t.world.job.map (·.result), t.world.live "/usr/local/bin/nasnet", t.world.set)) =
      some (some (some .failed), some { bytes := "2" }, none) ∧
    "/usr/local/bin/nasnet" ∈ toTwo.files ∧
    toTwo.earlier "/usr/local/bin/nasnet" = some { bytes := "1" } :=
  ⟨updating_starts, rfl, by decide, by decide, by decide⟩

end NasnetPanel.Update
