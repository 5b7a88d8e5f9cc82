import NasnetPanel.Update.Save

/-!
# Update.Truth — what a stopped job can still be settled to

The invariant under which a job's result tells the truth about its files, while no call on files
fails and the runner or the machine may stop between any two calls.

A job is at stake over the live files of its set: `old` is what they hold when the runner starts,
`new` what the version it installs has. As long as the job is pending the disk is `Restorable`:
either every file is new, or the binary is old and every other file is old or has its copy listed in
the set that settling puts back. The binary in place tells the two apart, and it is all a booting
panel goes by (`keeps_settle`).

A rollback puts the binary in place first, so it passes through disks that are neither
(`Halfway`).
-/

namespace NasnetPanel.Update
open CrashProg CrashProg.Prog

/-! ## What is at stake -/

/-- A job, the live files of its set, and what each of the two versions has of them. -/
structure Stakes where
  id : String
  kind : JobKind
  fromVersion : String
  toVersion : String
  files : List String
  old : String → Option Blob
  new : String → Option Blob
  /-- The binary ends the set. -/
  binary_last : ∃ pre, files = pre ++ [binary]
  old_version : (old binary).elim "" (·.version) = fromVersion
  new_version : (new binary).elim "" (·.version) = toVersion
  differ : fromVersion ≠ toVersion

namespace Stakes
variable (g : Stakes) {α β : Type}

theorem binary_mem : binary ∈ g.files := by
  obtain ⟨pre, files⟩ := g.binary_last
  rw [files]
  exact List.mem_append_right _ (List.mem_singleton_self _)

/-- No call on files fails. The release's script may; if it comes through, the system files are the
new version's. -/
def Sound : Call → Answer → Prop
  | .script, ans => ans.fault = none → ∀ f ∈ systemFiles, ans.wrote f = some (g.new f)
  | .daemonReload, _ | .restart, _ => True
  | _, ans => ans.fault = none

theorem calm : Calm g.Sound := by
  intro c ans moves ok
  cases c with
  | stat | mkdirAll | copy | rename | remove => exact ok
  | _ => cases moves

def AllOld (d : Disk) : Prop := ∀ f ∈ g.files, d.live f = g.old f

def AllNew (d : Disk) : Prop := ∀ f ∈ g.files, d.live f = g.new f

/-- The set a panel puts back that finds the job unfinished and the old binary in place. -/
def back (d : Disk) : Option FileSet :=
  match g.kind with
  | .update => d.set.filter fun s => s.replacedBy = g.toVersion
  | .rollback => d.forward

/-- No entry of that set brings anything but the old content. -/
def Harmless (d : Disk) : Prop :=
  ∀ s, g.back d = some s → ∀ e ∈ s.files, e.Harmless g.old d

/-- The file is old, or that set brings it back. -/
def Recoverable (d : Disk) (f : String) : Prop :=
  d.live f = g.old f ∨ ∃ s, g.back d = some s ∧ ∃ e ∈ s.files, e.live = f ∧ e.Holds g.old d

/-- The old binary is in place and every file can be had back. -/
def Returns (d : Disk) : Prop :=
  d.live binary = g.old binary ∧ ∀ f ∈ g.files, g.Recoverable d f

/-- The binary in place tells what settling comes to. -/
def Restorable (d : Disk) : Prop := g.Harmless d ∧ (g.AllNew d ∨ g.Returns d)

/-- A rollback has the new binary in place and another file not. -/
def Halfway (d : Disk) : Prop :=
  g.kind = .rollback ∧ d.running = g.toVersion ∧ ¬ g.AllNew d

/-- The job as the runner has it. -/
structure Mine (j : Job) : Prop where
  id : j.id = g.id
  kind : j.kind = g.kind
  toVersion : j.toVersion = g.toVersion
  phase : j.phase = .runner
  result : j.result = none

def Pending (d : Disk) : Prop := ∃ j, d.job = some j ∧ g.Mine j

/-- A job that ended ok has every file new. One that was rolled back, and a rollback that failed,
has every file old. -/
def Told (j : Job) (d : Disk) : Prop :=
  (j.result = some .ok → g.AllNew d) ∧
    (j.result = some .rolledBack ∨ g.kind = .rollback ∧ j.result = some .failed → g.AllOld d)

def Ended (d : Disk) : Prop := ∃ j, d.job = some j ∧ j.phase = .done ∧ g.Told j d

/-- The invariant where nothing runs. -/
def Truthful (d : Disk) : Prop := g.Pending d ∧ g.Restorable d ∨ g.Ended d

/-- The condition at every call. -/
def Node (d : Disk) : Prop :=
  g.Pending d ∧ (g.Restorable d ∨ g.Halfway d) ∨ g.Ended d

def Keeps (post : α → Disk → Prop) (p : Program α) (d : Disk) : Prop :=
  Safe exec (fun _ => g.Node) g.Sound post p d

abbrev Tells (p : Program α) (d : Disk) : Prop := g.Keeps (fun _ => g.Truthful) p d

/-! ## Facts about the invariant -/

section
variable {g} {d d' : Disk} {j : Job}

theorem node_of_restorable (pending : g.Pending d) (h : g.Restorable d) : g.Node d :=
  .inl ⟨pending, .inl h⟩

theorem Truthful.node (h : g.Truthful d) : g.Node d := h.imp_left fun h => ⟨h.1, .inl h.2⟩

theorem Node.truthful (h : g.Node d) (whole : ¬ g.Halfway d) : g.Truthful d :=
  h.imp_left fun h => ⟨h.1, h.2.resolve_right whole⟩

theorem running_eq (d : Disk) : d.running = (d.live binary).elim "" (·.version) := rfl

theorem AllNew.running (h : g.AllNew d) : d.running = g.toVersion := by
  rw [running_eq, h binary g.binary_mem]
  exact g.new_version

theorem running_of_old (h : d.live binary = g.old binary) : d.running ≠ g.toVersion := by
  rw [running_eq, h, g.old_version]
  exact g.differ

theorem Restorable.allNew (h : g.Restorable d) (new : d.running = g.toVersion) : g.AllNew d := by
  rcases h.2 with all | ⟨old, -⟩
  · exact all
  · exact absurd new (running_of_old old)

theorem Restorable.returns (h : g.Restorable d) (old : d.running ≠ g.toVersion) :
    g.Returns d := by
  rcases h.2 with all | returns
  · exact absurd all.running old
  · exact returns

theorem AllOld.returns (h : g.AllOld d) : g.Returns d :=
  ⟨h binary g.binary_mem, fun f mem => .inl (h f mem)⟩

theorem Mine.setStep (h : g.Mine j) (id : StepID) (status : StepStatus) (detail : String) :
    g.Mine (j.setStep id status detail) := { h with }

theorem Mine.addStep (h : g.Mine j) (s : Step) : g.Mine (j.addStep s) :=
  { h with }

theorem exists_job {P : Job → Prop} (job : d'.job = d.job) (h : ∃ j, d.job = some j ∧ P j) :
    ∃ j, d'.job = some j ∧ P j := by
  rwa [job]

theorem back_congr (set : d'.set = d.set) (forward : d'.forward = d.forward) :
    g.back d' = g.back d := by
  rw [back, back, set, forward]

variable {fs : List String}

theorem back_moved {want : String → Option Blob} (h : Moved want fs d d') :
    g.back d' = g.back d := back_congr h.set h.forward

theorem back_copied {slot : Path → String → Prop} (h : Copied slot d d') :
    g.back d' = g.back d := back_congr h.set h.forward

theorem back_wiped (h : Wiped d d') : g.back d' = none ∨ g.back d' = g.back d := by
  unfold back
  cases g.kind with
  | update =>
    rcases h.set with gone | same
    · exact .inl (by rw [gone]; rfl)
    · exact .inr (by rw [same])
  | rollback => exact h.forward

theorem Harmless.moved {want : String → Option Blob} (h : g.Harmless d)
    (moved : Moved want fs d d') : g.Harmless d' := by
  intro s back e mem
  rw [back_moved moved] at back
  exact (h s back e mem).moved moved

theorem Harmless.wiped (h : g.Harmless d) (wiped : Wiped d d') : g.Harmless d' := by
  intro s back e mem
  rcases back_wiped wiped with gone | same
  · cases gone.symm.trans back
  refine (h s (same.symm.trans back) e mem).congr fun p _ copy b there => .inl ?_
  rcases wiped.copies p copy with gone | kept
  · cases gone.symm.trans there
  · exact kept.symm.trans there

theorem Returns.moved (h : g.Returns d) (moved : Moved g.old fs d d') : g.Returns d' := by
  refine ⟨moved.stays h.1, fun f mem => ?_⟩
  rcases h.2 f mem with old | ⟨s, back, e, listed, live, holds⟩
  · exact .inl (moved.stays old)
  · exact .inr ⟨s, (back_moved moved).trans back, e, listed, live, holds.moved moved⟩

end

/-! ## Disks with every file alike -/

/-- The job is pending and every file is as `want` has it. -/
structure Even (want : String → Option Blob) (d : Disk) : Prop where
  pending : g.Pending d
  harmless : g.Harmless d
  all : ∀ f ∈ g.files, d.live f = want f

section
variable {g} {d d' : Disk} {j : Job} {want : String → Option Blob}

theorem Even.wiped (h : g.Even want d) (wiped : Wiped d d') : g.Even want d' where
  pending := exists_job wiped.job h.pending
  harmless := h.harmless.wiped wiped
  all f mem := (wiped.lives f).trans (h.all f mem)

theorem Even.save (h : g.Even want d) (mine : g.Mine j) : g.Even want { d with job := some j } :=
  ⟨⟨j, rfl, mine⟩, h.harmless, h.all⟩

theorem Even.unstage (h : g.Even want d) : g.Even want { d with staging := none } :=
  { h with }

theorem Even.truthful (h : g.Even g.old d) : g.Truthful d :=
  .inl ⟨h.pending, h.harmless, .inr (AllOld.returns h.all)⟩

theorem Even.node_old (h : g.Even g.old d) : g.Node d := h.truthful.node

theorem Even.node_new (h : g.Even g.new d) : g.Node d :=
  node_of_restorable h.pending ⟨h.harmless, .inl h.all⟩

end

/-! ## Steps -/

section Steps
variable {g} {d : Disk} {j : Job} {post : α → Disk → Prop}

theorem keeps_then {mid : α → Disk → Prop} {post : β → Disk → Prop} {p : Program α}
    {k : α → Program β} (part : g.Keeps mid p d)
    (rest : ∀ a d', mid a d' → g.Keeps post (k a) d') : g.Keeps post (p >>= k) d :=
  safe_then part rest

theorem keeps_saveJob {k : Job → Program α} (node : g.Node d)
    (next : g.Keeps post (k j) { d with job := some j }) : g.Keeps post (saveJob j >>= k) d := by
  refine safe_ask.mpr ⟨node, fun ans ok => ?_⟩
  have calm : ans.fault = none := ok
  dsimp only [exec]
  rw [calm]
  exact next

variable {reason : String}

theorem told_ok (h : g.AllNew d) : g.Told (j.finish .ok reason) d :=
  ⟨fun _ => h, by simp [Job.finish]⟩

variable {result : Result} {k : Job → Program PUnit} {id : StepID} {err : String}

theorem told_old (notOk : result ≠ .ok) (h : g.AllOld d) :
    g.Told (j.finish result reason) d :=
  ⟨fun ok => absurd (Option.some.inj ok) notOk, fun _ => h⟩

theorem told_failed (update : g.kind = .update) :
    g.Told (j.finish .failed reason) d :=
  ⟨by simp [Job.finish], by simp [Job.finish, update]⟩

theorem keeps_cleanup_ended (ended : g.Ended d) :
    g.Tells cleanup d :=
  safe_ask.mpr ⟨.inr ended, fun _ _ => .inr ended⟩

theorem keeps_finish (node : g.Node d) (told : g.Told (j.finish result reason) d)
    (rest : ∀ d', g.Ended d' → g.Tells (k (j.finish result reason)) d') :
    g.Tells (finish j result reason >>= k) d :=
  keeps_saveJob node (rest _ ⟨_, rfl, rfl, told⟩)

theorem keeps_fail (even : g.Even g.old d) (mine : g.Mine j)
    (rest : ∀ j' d', g.Ended d' → g.Tells (k j') d') :
    g.Tells (fail j id err >>= k) d := by
  have saved := even.save (mine.setStep id .failed err)
  have marked : g.Tells (mark j id .failed err >>= fun job =>
      finish job .failed err >>= k) d :=
    keeps_saveJob even.node_old
      (keeps_finish saved.node_old (told_old (by simp) saved.all) (rest _))
  exact marked

/-- A failure before anything changed. -/
theorem keeps_giveUp (even : g.Even g.old d) (mine : g.Mine j) :
    g.Tells (giveUp j id err) d :=
  keeps_fail even mine fun _ _ => keeps_cleanup_ended

end Steps

/-! ## Settling -/

section Settle
variable {g} {d : Disk} {j : Job}

theorem keeps_putBack_back {s : FileSet} (back : g.back d = some s) (pending : g.Pending d)
    (harmless : g.Harmless d) (returns : g.Returns d) :
    g.Keeps (fun _ => g.Even g.old) (putBack s) d := by
  have at_moved {fs : List String} {d' : Disk} (moved : Moved g.old fs d d') :
      g.Pending d' ∧ g.Harmless d' ∧ g.Returns d' :=
    ⟨exists_job moved.job pending, harmless.moved moved, returns.moved moved⟩
  refine safe_mono (fun err d' done => ?_) (safe_putBack (harmless s back) fun d' moved => ?_)
  · obtain ⟨moved, put⟩ := done
    obtain ⟨pending', harmless', -⟩ := at_moved moved
    refine ⟨pending', harmless', fun f mem => ?_⟩
    rcases returns.2 f mem with old | ⟨s', back', e, listed, rfl, holds⟩
    · exact moved.stays old
    · cases back.symm.trans back'
      exact put e listed (.inr (.inl ⟨g.calm, holds⟩))
  · obtain ⟨pending', harmless', returns'⟩ := at_moved moved
    exact node_of_restorable pending' ⟨harmless', .inr returns'⟩

theorem keeps_readSet {which : SetFile} {k : Res FileSet → Program PUnit} (node : g.Node d)
    (missing : d.setFile which = none → ∀ e, g.Tells (k (.error e)) d)
    (there : ∀ s, d.setFile which = some s → g.Tells (k (.ok s)) d) :
    g.Tells (ask (.readSet which) >>= k) d := by
  refine safe_ask.mpr ⟨node, fun ans ok => ?_⟩
  have calm : ans.fault = none := ok
  dsimp only [exec]
  rw [calm]
  cases found : d.setFile which with
  | none => exact missing found _
  | some s => exact there s found

theorem keeps_interrupted (mine : g.Mine j) (pending : g.Pending d) (h : g.Restorable d) :
    g.Tells (interrupted d.running j) d := by
  have node := node_of_restorable pending h
  have ends {result : Result} {reason : String} {d' : Disk} (node : g.Node d')
      (told : g.Told (j.finish result reason) d') :
      g.Tells (do let _ ← finish j result reason; cleanup) d' :=
    keeps_finish node told fun _ => keeps_cleanup_ended
  have notPanel : ¬ j.phase = .panel := by
    rw [mine.phase]
    simp
  rw [interrupted, if_neg notPanel, mine.toVersion]
  by_cases new : d.running = g.toVersion
  · rw [if_pos new]
    exact ends node (told_ok (h.allNew new))
  rw [if_neg new, mine.kind]
  have returns := h.returns new
  cases kind : g.kind with
  | update =>
    refine keeps_readSet node (fun _ _ => ends node (told_failed kind)) fun s set => ?_
    dsimp only
    split
    · exact ends node (told_failed kind)
    next replaced =>
      have back : g.back d = some s := by
        have found : d.set = some s := set
        rw [back, kind]
        simpa [found] using replaced
      refine keeps_then (keeps_putBack_back back pending h.1 returns) fun err d' even => ?_
      cases err with
      | some e => exact ends even.node_old (told_failed kind)
      | none =>
        refine keeps_then (safe_dropPrev fun d' wiped => (even.wiped wiped).node_old)
          fun _ d'' wiped => ?_
        exact ends (even.wiped wiped).node_old (told_old (by simp) (even.wiped wiped).all)
  | rollback =>
    refine keeps_readSet node (fun missing _ => ends node (told_old (by simp) fun f mem => ?_))
      fun s forward => ?_
    · -- with no set to put back, what can be had back is there
      have none : g.back d = none := by
        rw [back, kind]
        exact missing
      rcases returns.2 f mem with old | ⟨s, back, -⟩
      · exact old
      · cases none.symm.trans back
    · have back : g.back d = some s := by
        rw [back, kind]
        exact forward
      refine keeps_then (keeps_putBack_back back pending h.1 returns) fun err d' even => ?_
      exact ends even.node_old (told_old (by simp) even.all)

/-- A panel that watches the runner tells the truth. -/
theorem keeps_watchRunner (h : g.Truthful d) :
    g.Tells (watchRunner d.running) d := by
  have truthful := h
  rcases h with ⟨⟨j, job, mine⟩, restorable⟩ | ⟨j, job, done, -⟩
  · exact safe_watchRunner truthful.node truthful job fun _ =>
      keeps_interrupted mine ⟨j, job, mine⟩ restorable
  · exact safe_watchRunner truthful.node truthful job fun unfinished => by
      simp [Job.finished, done] at unfinished

/-- So does one that settles the job it finds. -/
theorem keeps_settle (h : g.Truthful d) : g.Tells settle d :=
  safe_ask.mpr ⟨h.node, fun _ _ => keeps_watchRunner h⟩

end Settle

end Stakes

end NasnetPanel.Update
