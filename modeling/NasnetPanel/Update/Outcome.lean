import NasnetPanel.Update.Truth

/-!
# Update.Outcome — a job's result and its files

The runner keeps the invariant of `Update.Truth`: an update installs the binary last and puts it
back first, so whatever it is stopped at, either every file is new or the binary is old and the rest
can be had back (`keeps_runUpdate`). A rollback puts the binary in place first, and keeps the
invariant except between that rename and the last file's (`keeps_runRollback`).

`result_truthful` is the law over every run with stops elsewhere. `stopped_halfway` is a run with a
stop there: the job ends ok while a file is still the other version's.
-/

namespace NasnetPanel.Update
open CrashProg CrashProg.Prog List

namespace Stakes
variable (g : Stakes)

/-! ## Going back -/

/-- The runner has the set `s` in hand, with the copies of what it changes. The set on disk is `t`,
a part of it that lists all that has changed. -/
structure Kept (t s : FileSet) (d : Disk) : Prop where
  pending : g.Pending d
  back : g.back d = some t
  sub : ∀ e ∈ t.files, e ∈ s.files
  saved : s.Saved g.old d
  changed : ∀ f ∈ g.files, d.live f = g.old f ∨ ∃ e ∈ t.files, e.live = f

section Kept
variable {g} {t s : FileSet} {d d' : Disk} {j : Job}

theorem Kept.harmless (h : g.Kept t s d) : g.Harmless d := by
  intro s' back e mem
  cases h.back.symm.trans back
  exact (h.saved.holds e (h.sub e mem)).harmless

theorem Kept.returns (h : g.Kept t s d) (old : d.live binary = g.old binary) : g.Returns d := by
  refine ⟨old, fun f mem => (h.changed f mem).imp_right ?_⟩
  rintro ⟨e, listed, live⟩
  exact ⟨t, h.back, e, listed, live, h.saved.holds e (h.sub e listed)⟩

theorem Kept.node (h : g.Kept t s d) (old : d.live binary = g.old binary) : g.Node d :=
  node_of_restorable h.pending ⟨h.harmless, .inr (h.returns old)⟩

variable {fs : List String}

section
variable (h : g.Kept t s d)
include h

theorem Kept.moved {want : String → Option Blob} (moved : Moved want fs d d')
    (changed : ∀ f ∈ g.files, d'.live f = g.old f ∨ ∃ e ∈ t.files, e.live = f) : g.Kept t s d' where
  pending := exists_job moved.job h.pending
  back := (back_moved moved).trans h.back
  sub := h.sub
  saved := h.saved.moved moved
  changed := changed

theorem Kept.moved_old (moved : Moved g.old fs d d') : g.Kept t s d' :=
  h.moved moved fun f mem => (h.changed f mem).imp_left moved.stays

theorem Kept.save (mine : g.Mine j) : g.Kept t s { d with job := some j } :=
  ⟨⟨j, rfl, mine⟩, h.back, h.sub, { h.saved with }, h.changed⟩

theorem keeps_putBackAll {es : List SavedFile} (old : d.live binary = g.old binary)
    (sub : ∀ e ∈ es, e ∈ s.files) :
    g.Keeps (fun _ d' => g.Kept t s d' ∧ d'.live binary = g.old binary ∧
      (∀ f, d.live f = g.old f → d'.live f = g.old f) ∧
      ∀ e ∈ es, d'.live e.live = g.old e.live) (putBackAll es) d := by
  have holds : ∀ e ∈ es, e.Holds g.old d := fun e mem => h.saved.holds e (sub e mem)
  refine safe_mono (fun errs d' done => ?_)
    (safe_putBackAll (fun e mem => (holds e mem).harmless) fun d' moved =>
      (h.moved_old moved).node (moved.stays old))
  obtain ⟨moved, put⟩ := done
  exact ⟨h.moved_old moved, moved.stays old, fun f => moved.stays,
    fun e mem => put e mem (.inr (.inl ⟨g.calm, holds e mem⟩))⟩

theorem Kept.even (all : ∀ e ∈ s.files, d.live e.live = g.old e.live) : g.Even g.old d := by
  refine ⟨h.pending, h.harmless, fun f mem => ?_⟩
  rcases h.changed f mem with old | ⟨e, listed, rfl⟩
  · exact old
  · exact all e (h.sub e listed)

theorem keeps_putBack
    (turn : d.live binary = g.old binary ∨
      g.AllNew d ∧ ∃ pre, s.files.map (·.live) = pre ++ [binary]) :
    g.Keeps (fun _ => g.Even g.old) (putBack s) d := by
  have all : g.Keeps (fun _ => g.Even g.old) (putBackAll s.files.reverse) d := by
    rcases turn with old | ⟨new, pre, lives⟩
    · refine safe_mono (fun _ d' done => ?_)
        (keeps_putBackAll h old fun e mem => mem_reverse.mp mem)
      exact done.1.even fun e mem => done.2.2.2 e (mem_reverse.mpr mem)
    obtain ⟨es, last, files, -, tail⟩ := map_eq_append_iff.mp lives
    obtain ⟨e, rfl, isBinary⟩ : ∃ e, last = [e] ∧ e.live = binary := by
      simpa [map_eq_singleton_iff] using tail
    have mem_s : e ∈ s.files := by simp [files]
    rw [files, reverse_append, reverse_singleton, singleton_append]
    -- up to the rename every file is new, from then on the binary is old
    have node : ∀ d', Moved g.old [e.live] d d' → g.Node d' := by
      intro d' moved
      have kept := h.moved_old moved
      rw [isBinary] at moved
      rcases moved.lives binary with same | ⟨-, old⟩
      · refine node_of_restorable kept.pending ⟨kept.harmless, .inl fun f mem => ?_⟩
        by_cases isBin : f = binary
        · rw [isBin, same, new binary g.binary_mem]
        · exact (moved.other (by simpa using isBin)).trans (new f mem)
      · exact kept.node old
    refine keeps_then (safe_putBackOne (h.saved.holds e mem_s).harmless node)
      fun err d' placed => ?_
    have kept := h.moved_old placed.moved
    have back : d'.live e.live = g.old e.live :=
      placed.clean (placed.sure g.calm (h.saved.holds e mem_s))
    refine keeps_then (keeps_putBackAll kept (isBinary ▸ back)
      fun e' mem => by simp [files, mem_reverse.mp mem]) fun errs d'' done => ?_
    refine done.1.even fun e' mem => ?_
    rw [files, mem_append, mem_singleton] at mem
    rcases mem with mem | rfl
    · exact done.2.2.2 e' (mem_reverse.mpr mem)
    · exact done.2.2.1 _ back
  refine keeps_then all fun errs d' even => safe_still even.node_old (reload_still · _) fun r => ?_
  cases r with
  | error _ => exact even
  | ok _ => exact even

theorem keeps_bringBack {want : String} {legacyOK : Bool} (new : g.AllNew d)
    (last : ∃ pre, s.files.map (·.live) = pre ++ [binary]) :
    g.Keeps (fun _ => g.Even g.old) (bringBack j s want legacyOK) d := by
  refine keeps_then (keeps_putBack h (.inr ⟨new, last⟩)) fun err d' even => ?_
  cases err with
  | some e => exact even
  | none =>
    refine safe_mono (fun _ d'' same => ?_) (safe_comesUp even.node_old)
    rw [same]
    exact even

end

end Kept

/-! ## The update -/

section Update
variable {g} {t s : FileSet} {d d' : Disk} {j : Job} {id : StepID}

/-- A step is marked and the job ends, with every file old. -/
theorem keeps_ends {status : StepStatus} {detail : String} {result : Result}
    {reason : Job → String} (even : g.Even g.old d) (mine : g.Mine j) (notOk : result ≠ .ok) :
    g.Tells (mark j id status detail >>= fun job =>
      finish job result (reason job) >>= fun _ => pure PUnit.unit) d := by
  have saved := even.save (mine.setStep id status detail)
  exact keeps_saveJob even.node_old
    (keeps_finish saved.node_old (told_old notOk saved.all) fun _ => .inr)

theorem Kept.node_new (h : g.Kept t s d) (new : g.AllNew d) : g.Node d :=
  node_of_restorable h.pending ⟨h.harmless, .inl new⟩

/-- A failure once files may have changed. -/
theorem keeps_undo {err : String} (h : g.Kept t s d) (mine : g.Mine j)
    (old : d.live binary = g.old binary) : g.Tells (undo j s id err) d := by
  refine keeps_then (keeps_putBack h (.inl old)) fun _ d' even => ?_
  refine keeps_then (safe_dropPrev fun d'' wiped => (even.wiped wiped).node_old)
    fun _ d'' wiped => ?_
  exact keeps_giveUp (even.wiped wiped) mine

section
variable (h : g.Kept t s d) (mine : g.Mine j) (new : g.AllNew d)
  (last : ∃ pre, s.files.map (·.live) = pre ++ [binary])
include h mine new last

theorem keeps_revert {cause : String} : g.Tells (revert j s cause) d := by
  have mine' := mine.addStep ⟨.revert, "Putting " ++ j.fromVersion ++ " back", .running, ""⟩
  refine keeps_saveJob (h.node_new new) (keeps_then (keeps_bringBack (h.save mine') new last)
    fun err d' even => ?_)
  refine keeps_then (safe_dropPrev fun d'' wiped => (even.wiped wiped).node_old)
    fun _ d'' wiped => ?_
  have dropped := even.wiped wiped
  refine safe_ask.mpr ⟨dropped.node_old, fun _ _ => ?_⟩
  cases err <;> exact keeps_ends dropped.unstage mine' (by simp)

/-- Steps 9 and 10, with the way back where one of them fails. -/
theorem keeps_tryNew : g.Tells (tryNew j s) d :=
  safe_tryNew (H := fun d => g.Kept t s d ∧ g.AllNew d) (fun _ h => h.1.node_new h.2)
    (fun _ _ mine h => ⟨h.1.save mine, h.2⟩) (fun _ id st detail mine => mine.setStep id st detail)
    mine ⟨h, new⟩ (fun _ _ _ mine h => keeps_revert h.1 mine h.2 last)
    fun _ _ _ h => keeps_finish (h.1.node_new h.2) (told_ok h.2) fun _ => keeps_cleanup_ended

end

end Update

structure StartsUpdate (staging : List (String × Blob)) (d : Disk) : Prop where
  kind : g.kind = .update
  pending : g.Pending d
  old : ∀ f, d.live f = g.old f
  /-- A set of an earlier update to the same version, if it is there, brings nothing else. -/
  harmless : g.Harmless d
  staged : d.staging = some staging
  files : g.files = systemFiles ++ (d.plan staging).map (·.1)
  new : ∀ f ∈ (d.plan staging).map (·.1),
    g.new f = (Disk.stageVersion g.toVersion staging).lookup f

section Plan
variable {d d' : Disk} {staging : List (String × Blob)}

def planned (d : Disk) (staging : List (String × Blob)) : List String :=
  Disk.stagedAgents staging ++ ["nasnet-tool.sh"] ++
    ["bin/nasnet-tool", ".bundle-manifest"].filter (fun rel =>
      (d.live rel).isSome && (staging.lookup rel).isSome) ++ [".version"]

theorem plan_eq (d : Disk) (staging : List (String × Blob)) :
    d.plan staging = (planned d staging ++ [binary]).map fun rel => (rel, .staged rel) := by
  rw [Disk.plan, planned, append_assoc _ [".version"] [binary]]
  rfl

theorem map_plan (d : Disk) (staging : List (String × Blob)) :
    (d.plan staging).map (·.1) = planned d staging ++ [binary] := by
  rw [plan_eq, map_map]
  exact map_id _

variable {f : String}

theorem mem_stagedAgents (mem : f ∈ Disk.stagedAgents staging) :
    "bin/agent/".toList <+: f.toList := by
  obtain ⟨x, -, found⟩ := mem_filterMap.mp mem
  split at found
  next name rest =>
    obtain ⟨-, rfl⟩ : _ ∧ x.1 = f := by simpa using found
    exact ⟨name, (isPrefixOf?_eq_some_iff_append_eq.mp rest)⟩
  · cases found

theorem agent_out : ∀ f ∈ binary :: systemFiles, ¬ "bin/agent/".toList <+: f.toList := by decide

theorem fixed_out : ∀ f ∈ ["nasnet-tool.sh", "bin/nasnet-tool", ".bundle-manifest", ".version"],
    f ∉ binary :: systemFiles := by
  decide

theorem planned_out (mem : f ∈ planned d staging) : f ∉ binary :: systemFiles := by
  have rest : f ∈ Disk.stagedAgents staging ∨
      f ∈ ["nasnet-tool.sh", "bin/nasnet-tool", ".bundle-manifest", ".version"] := by
    simp only [planned, mem_append, mem_filter, mem_cons, not_mem_nil, or_false] at mem ⊢
    tauto
  rcases rest with agent | other
  · exact fun inside => agent_out f inside (mem_stagedAgents agent)
  · exact fixed_out f other

theorem planned_congr (same : ∀ f, f ∉ systemFiles → d'.live f = d.live f) :
    planned d' staging = planned d staging := by
  have tool := same "bin/nasnet-tool" (by decide)
  have manifest := same ".bundle-manifest" (by decide)
  unfold planned
  simp only [filter_cons, filter_nil]
  rw [tool, manifest]

end Plan

section Update
variable {g} {t s : FileSet} {d d' d0 : Disk} {j : Job} {staging : List (String × Blob)}

theorem read_staged {f : String} {b : Option Blob} (staged : d.staging = some staging)
    (content : b = staging.lookup f) : ∀ c, d.read (.staged f) = some c → b = some c := by
  intro c there
  rw [Disk.read, staged] at there
  exact content.trans there

/-- Step 8's renames, by induction on the files before the binary: until its own rename the binary
is old, and with it every file is new. -/
theorem keeps_installAll {rest : List String} (h : g.Kept s s d)
    (lists : ∀ f ∈ g.files, ∃ e ∈ s.files, e.live = f) (staged : d.staging = some staging)
    (content : ∀ f ∈ rest ++ [binary], g.new f = staging.lookup f) (out : binary ∉ rest)
    (old : d.live binary = g.old binary)
    (others : ∀ f ∈ g.files, f ≠ binary → f ∈ rest ∨ d.live f = g.new f) :
    g.Keeps (fun err d' => g.Kept s s d' ∧ (err = none → g.AllNew d') ∧
      (err ≠ none → d'.live binary = g.old binary))
      (installAll ((rest ++ [binary]).map fun rel => (rel, .staged rel))) d := by
  have kept {f : String} {d d' : Disk} (h : g.Kept s s d) (moved : Moved g.new [f] d d') :
      g.Kept s s d' := h.moved moved fun f mem => .inr (lists f mem)
  induction rest generalizing d with
  | nil =>
    have allNew {d' : Disk} (moved : Moved g.new [binary] d d')
        (new : d'.live binary = g.new binary) : g.AllNew d' := by
      intro f mem
      by_cases isBinary : f = binary
      · rw [isBinary, new]
      · exact moved.stays ((others f mem isBinary).resolve_left not_mem_nil)
    have node : ∀ d', Moved g.new [binary] d d' → g.Node d' := by
      intro d' moved
      have kept' := kept h moved
      rcases moved.lives binary with same | ⟨-, new⟩
      · exact kept'.node (same.trans old)
      · exact kept'.node_new (allNew moved new)
    refine keeps_then (safe_installFile (read_staged staged (content _ (by simp))) node)
      fun err d' placed => ?_
    cases err with
    | none => exact ⟨kept h placed.moved, fun _ => allNew placed.moved (placed.clean rfl), by simp⟩
    | some e =>
      exact ⟨kept h placed.moved, by simp, fun failed => (placed.unplaced failed).trans old⟩
  | cons f rest ih =>
    have notBinary : f ≠ binary := fun same => out (same ▸ mem_cons_self)
    have stays {d' : Disk} (moved : Moved g.new [f] d d') : d'.live binary = g.old binary :=
      (moved.other (by simpa using notBinary.symm)).trans old
    refine keeps_then (safe_installFile (read_staged staged (content _ (by simp)))
      fun d' moved => (kept h moved).node (stays moved)) fun err d' placed => ?_
    cases err with
    | some e => exact ⟨kept h placed.moved, by simp, fun _ => stays placed.moved⟩
    | none =>
      refine ih (kept h placed.moved) (placed.moved.staging.trans staged)
        (fun f' mem => content f' (mem_cons_of_mem _ mem))
        (fun mem => out (mem_cons_of_mem _ mem)) (stays placed.moved) fun f' mem ne => ?_
      rcases others f' mem ne with listed | new
      · rcases mem_cons.mp listed with rfl | later
        · exact .inr (placed.clean rfl)
        · exact .inl later
      · exact .inr (placed.moved.stays new)

/-- Where step 8's copies go. -/
def planSlot (p : Path) (f : String) : Prop :=
  (∃ n b, p = .saved .files n b) ∨ p = .prevBinary ∧ f = binary

/-- Where step 7's copies go. -/
def systemSlot (p : Path) (_ : String) : Prop := ∃ n b, p = .saved .system n b

/-- After step 7: the system files are saved and listed, and nothing else has changed. -/
structure SystemSaved (g : Stakes) (t : FileSet) (staging : List (String × Blob)) (d : Disk) :
    Prop where
  kept : g.Kept t t d
  replacedBy : t.replacedBy = g.toVersion
  lives : t.files.map (·.live) = systemFiles
  slots : ∀ e ∈ t.files, ∀ p, e.saved = some p → systemSlot p e.live
  others : ∀ f, f ∉ systemFiles → d.live f = g.old f
  staged : d.staging = some staging

theorem binary_out : binary ∉ systemFiles := by decide

section
variable (h : g.SystemSaved t staging d)
include h

theorem SystemSaved.binary_old : d.live binary = g.old binary :=
  h.others binary binary_out

theorem SystemSaved.save (mine : g.Mine j) :
    g.SystemSaved t staging { d with job := some j } :=
  { h with kept := h.kept.save mine }

theorem SystemSaved.scripted
    (wrote : String → Option (Option Blob)) : g.SystemSaved t staging (d.scripted wrote) := by
  have same {f : String} (out : f ∉ systemFiles) : (d.scripted wrote).live f = d.live f :=
    if_neg out
  have copies : ∀ p : Path, p.isCopy = true → (d.scripted wrote).files p = d.files p := by
    intro p copy
    cases p with
    | live => cases copy
    | _ => rfl
  refine { h with
    kept := { h.kept with
      saved := ⟨fun e mem => ?_, h.kept.saved.fresh⟩
      changed := fun f mem => ?_ }
    others := fun f out => (same out).trans (h.others f out) }
  · exact (h.kept.saved.holds e mem).congr fun p _ => copies p
  by_cases listed : f ∈ systemFiles
  · rw [← h.lives, mem_map] at listed
    exact .inr listed
  · exact .inl ((same listed).trans (h.others f listed))

theorem keeps_updateSystem :
    g.Keeps (fun r d' => g.SystemSaved t staging d' ∧
      (r = .ok () → ∀ f ∈ systemFiles, d'.live f = g.new f)) updateSystem d := by
  refine safe_ask.mpr ⟨h.kept.node h.binary_old, fun ans _ => ?_⟩
  have begun := h.scripted ans.wrote
  refine ⟨begun.kept.node begun.binary_old, fun ans' ok => ⟨begun.scripted ans'.wrote, ?_⟩⟩
  intro through f mem
  dsimp only [exec] at through
  cases fault : ans'.fault with
  | some e =>
    rw [fault] at through
    cases through
  | none =>
    have wrote : ans'.wrote f = some (g.new f) := ok fault f mem
    refine Eq.trans (if_pos mem) ?_
    rw [wrote]
    rfl

end

variable {α : Type} {staging0 : List (String × Blob)} {post : α → Disk → Prop}

/-- The plan is what is staged. -/
theorem keeps_installPlan {version : String}
    {k : Res (List (String × Path)) → Program α} (node : g.Node d)
    (staged : d.staging = some staging) (next : g.Keeps post (k (.ok (d.plan staging)))
      { d with staging := some (Disk.stageVersion version staging) }) :
    g.Keeps post (ask (.installPlan version) >>= k) d := by
  refine safe_ask.mpr ⟨node, fun ans ok => ?_⟩
  have calm : ans.fault = none := ok
  dsimp only [exec]
  rw [calm, staged]
  exact next

theorem keeps_writeSet {which : SetFile} {k : Res Unit → Program α}
    (node : g.Node d) (next : g.Keeps post (k (.ok ())) (exec (.writeSet which s) {} d).2) :
    g.Keeps post (ask (.writeSet which s) >>= k) d := by
  refine safe_ask.mpr ⟨node, fun ans ok => ?_⟩
  have calm : ans.fault = none := ok
  cases which <;> dsimp only [exec] <;> rw [calm] <;> exact next

theorem back_set (update : g.kind = .update) (set : d.set = some s)
    (replacedBy : s.replacedBy = g.toVersion) : g.back d = some s := by
  rw [back, update]
  simp [set, replacedBy]

theorem SystemSaved.of_saved {calm : Prop} (update : g.kind = .update) (pending : g.Pending d)
    (old : ∀ f, d.live f = g.old f) (staged : d.staging = some staging)
    (toVersion : j.toVersion = g.toVersion)
    (done : SavedTo calm g.old systemSlot systemFiles ⟨j.fromVersion, j.toVersion, []⟩ d (t, none)
      d') : g.SystemSaved t staging { d' with set := some t } := by
  obtain ⟨replacedBy, added, grown, slots, whole⟩ := done.grown
  have replacedBy : t.replacedBy = g.toVersion := replacedBy.trans toVersion
  have lives : ∀ f, d'.live f = g.old f := fun f => (done.copied.lives f).trans (old f)
  obtain ⟨j', job, mine'⟩ := pending
  refine ⟨⟨⟨j', done.copied.job.trans job, mine'⟩, back_set update rfl replacedBy,
    fun _ mem => mem, { done.saved with }, fun f _ => .inl (lives f)⟩,
    replacedBy, ?_, fun e mem => ?_, fun f _ => lives f, done.copied.staging.trans staged⟩
  · rw [grown]
    exact whole rfl
  · rw [grown] at mem
    exact (slots e mem).2

section
variable (h : g.SystemSaved t staging d)
include h

theorem SystemSaved.copied (copied : Copied planSlot d d') :
    g.SystemSaved t staging d' where
  kept := by
    refine ⟨exists_job copied.job h.kept.pending, (back_copied copied).trans h.kept.back,
      h.kept.sub, ⟨fun e mem => ?_, h.kept.saved.fresh⟩,
      fun f mem => (h.kept.changed f mem).imp_left (copied.lives f).trans⟩
    refine (h.kept.saved.holds e mem).congr fun p saved copy => ?_
    obtain ⟨n, b, rfl⟩ := h.slots e mem p saved
    rcases copied.copies _ copy with same | ⟨f, slot, -⟩
    · exact same
    · simp [planSlot] at slot
  replacedBy := h.replacedBy
  lives := h.lives
  slots := h.slots
  others f out := (copied.lives f).trans (h.others f out)
  staged := copied.staging.trans h.staged

theorem SystemSaved.plan (start : g.StartsUpdate staging d0) :
    d.plan staging = d0.plan staging := by
  rw [plan_eq, plan_eq, planned_congr fun _ out => (h.others _ out).trans (start.old _).symm]

theorem SystemSaved.planned_old : ∀ x ∈ d0.plan staging0, d.live x.1 = g.old x.1 := by
  intro x mem
  have within : x.1 ∈ (d0.plan staging0).map (·.1) := mem_map_of_mem mem
  rw [map_plan, mem_append, mem_singleton] at within
  refine h.others x.1 fun inside => ?_
  rcases within with early | last
  · exact planned_out early (mem_cons_of_mem _ inside)
  · exact binary_out (last ▸ inside)

theorem SystemSaved.restage (staging' : List (String × Blob)) :
    g.SystemSaved t staging' { d with staging := some staging' } :=
  { h with
    kept := { h.kept with saved := { h.kept.saved with } }
    staged := rfl }

theorem SystemSaved.lives_grown (start : g.StartsUpdate staging0 d0)
    (grown : Extends planSlot ((d0.plan staging0).map (·.1)) t s none) :
    s.files.map (·.live) = g.files := by
  obtain ⟨-, added, files, -, whole⟩ := grown
  rw [files, map_append, h.lives, whole rfl, start.files]

theorem SystemSaved.written (update : g.kind = .update)
    (saved : s.Saved g.old d) (replacedBy : s.replacedBy = t.replacedBy)
    (lives : s.files.map (·.live) = g.files) : g.Kept s s { d with set := some s } :=
  ⟨h.kept.pending, back_set update rfl (replacedBy.trans h.replacedBy), fun _ mem => mem,
    { saved with }, fun _ mem => .inr (mem_map.mp (lives ▸ mem))⟩

end

theorem keeps_swap (start : g.StartsUpdate staging d0) (h : g.SystemSaved t staging d)
    (new : ∀ f ∈ systemFiles, d.live f = g.new f) (mine : g.Mine j) :
    g.Tells (swap j t) d := by
  have swapping := mine.setStep .swap .running ""
  have marked := h.save swapping
  refine keeps_saveJob (h.kept.node h.binary_old)
    (keeps_installPlan (marked.kept.node marked.binary_old) marked.staged ?_)
  rw [marked.plan start, swapping.toVersion]
  have staged := marked.restage (Disk.stageVersion g.toVersion staging)
  -- the copies
  have copies : g.Keeps (SavedTo (Calm g.Sound) g.old planSlot ((d0.plan staging).map (·.1)) t _)
      (savePlan (d0.plan staging) t) _ :=
    safe_savePlan (.refl _ _) staged.kept.saved
      (fun d' copied => (staged.copied copied).kept.node (staged.copied copied).binary_old)
      staged.planned_old (fun n f => .inl ⟨n, base f, rfl⟩) (.inr ⟨rfl, rfl⟩) fun _ ok => ok
  refine keeps_then copies fun r d2 done => ?_
  obtain ⟨s, err⟩ := r
  obtain rfl : err = none := done.sure g.calm
  have saved := staged.copied done.copied
  refine keeps_writeSet (saved.kept.node saved.binary_old) ?_
  -- the renames, with every file listed
  have lives := saved.lives_grown start done.grown
  have kept := saved.written start.kind done.saved done.grown.replacedBy lives
  have content : ∀ f ∈ planned d0 staging ++ [binary],
      g.new f = (Disk.stageVersion g.toVersion staging).lookup f := by
    rw [← map_plan]
    exact start.new
  have others : ∀ f ∈ g.files, f ≠ binary → f ∈ planned d0 staging ∨ d2.live f = g.new f := by
    intro f mem ne
    rw [start.files, map_plan, mem_append, mem_append, mem_singleton] at mem
    rcases mem with system | rest | isBinary
    · exact .inr ((done.copied.lives f).trans (new f system))
    · exact .inl rest
    · exact absurd isBinary ne
  have installed := keeps_installAll kept (fun f mem => mem_map.mp (lives ▸ mem))
    saved.staged content (fun mem => planned_out mem mem_cons_self) saved.binary_old others
  rw [← plan_eq] at installed
  refine keeps_then installed fun err d3 after => ?_
  obtain ⟨kept, allNew, old⟩ := after
  cases err with
  | some e => exact keeps_undo kept swapping (old (by simp))
  | none =>
    have swapped := swapping.setStep .swap .done ""
    have last : ∃ pre, s.files.map (·.live) = pre ++ [binary] := lives ▸ g.binary_last
    exact keeps_saveJob (kept.node_new (allNew rfl))
      (keeps_tryNew (kept.save swapped) swapped (allNew rfl) last)

/-- **A stopped update is settled by the binary in place.** -/
theorem keeps_runUpdate (start : g.StartsUpdate staging d) (mine : g.Mine j) :
    g.Tells (runUpdate j) d := by
  have even : g.Even g.old d := { start with all := fun f _ => start.old f }
  -- the last update's copies go
  refine keeps_then (safe_removeAll fun d' wiped => (even.wiped wiped).node_old)
    fun _ d1 first => ?_
  refine keeps_then (safe_removeAll fun d' wiped =>
    (even.wiped (first.1.trans wiped)).node_old) fun _ d2 second => ?_
  have wiped := first.1.trans second.1
  have gone : d2.set = none := by
    rcases second.1.set with gone | same
    · exact gone
    · exact same.trans (first.2 (fun _ ok => ok) rfl)
  have even := even.wiped wiped
  refine keeps_saveJob even.node_old ?_
  have marked := mine.setStep .system .running ""
  have even := even.save marked
  -- the system files' copies
  have old : ∀ f, d2.live f = g.old f := fun f => (wiped.lives f).trans (start.old f)
  let d3 : Disk := { d2 with job := some (j.setStep .system .running "") }
  have node : ∀ d', Copied systemSlot d3 d' → g.Node d' := by
    intro d' copied
    have noSet : g.back d' = none := by
      rw [back_copied copied, back, start.kind]
      simp [d3, gone]
    obtain ⟨j', job, mine'⟩ := even.pending
    refine node_of_restorable ⟨j', copied.job.trans job, mine'⟩
      ⟨fun s back => absurd back (by simp [noSet]), .inr (AllOld.returns fun f _ => ?_)⟩
    exact (copied.lives f).trans (old f)
  have copies : g.Keeps (SavedTo (Calm g.Sound) g.old systemSlot systemFiles
      ⟨j.fromVersion, j.toVersion, []⟩ d3)
      (FileSet.save ⟨j.fromVersion, j.toVersion, []⟩ .system systemFiles) d3 :=
    safe_save (.refl _ _) ⟨by simp, by simp⟩ node (fun f _ => old f) fun k f _ => ⟨_, _, rfl⟩
  refine keeps_then copies fun r d4 done => ?_
  obtain ⟨t, err⟩ := r
  obtain rfl : err = none := done.sure g.calm
  refine keeps_writeSet (node d4 done.copied) ?_
  have saved := SystemSaved.of_saved start.kind even.pending old
    (wiped.staging.trans start.staged) mine.toVersion done
  refine keeps_then (keeps_updateSystem saved) fun r d5 after => ?_
  obtain ⟨saved, new⟩ := after
  cases r with
  | error e => exact keeps_undo saved.kept marked saved.binary_old
  | ok _ =>
    have done := marked.setStep .system .done ""
    exact keeps_saveJob (saved.kept.node saved.binary_old)
      (keeps_swap start (saved.save done) (new rfl) done)

end Update

/-! ## The rollback -/

/-- The disk a rollback is handed over on: the set on it is whole. -/
structure StartsRollback (s : FileSet) (d : Disk) : Prop where
  kind : g.kind = .rollback
  pending : g.Pending d
  old : ∀ f ∈ g.files, d.live f = g.old f
  set : d.set = some s
  files : g.files = s.files.map (·.live)
  whole : ∀ e ∈ s.files, e.Holds g.new d
  apart : ∀ e ∈ s.files, ∀ n b, e.saved ≠ some (.saved .forward n b)
  /-- A forward set that an earlier rollback left, if it is there, brings nothing else, and it has
  its copies where this one will. -/
  harmless : g.Harmless d
  slots : ∀ fwd, d.forward = some fwd → ∀ e ∈ fwd.files, ∀ n f, g.files[n]? = some f →
    e.saved = some (.saved .forward n (base f)) → e.live = f

section Rollback
variable {g} {s fwd : FileSet} {d d' : Disk} {j : Job}

section
variable (h : g.Kept fwd fwd d) (mine : g.Mine j) (new : g.AllNew d)
  (last : ∃ pre, fwd.files.map (·.live) = pre ++ [binary])
include h mine new last

/-- The way forward again, where the old version does not come up. -/
theorem keeps_goForward {cause : String} : g.Tells (goForward j fwd cause) d := by
  have failed := mine.setStep .health .failed cause
  have kept := h.save failed
  have mine' := failed.addStep ⟨.revert, "Going back to " ++ j.fromVersion, .running, ""⟩
  refine keeps_saveJob (h.node_new new) (keeps_saveJob (kept.node_new new)
    (keeps_then (keeps_bringBack (kept.save mine') new last) fun err d' even => ?_))
  refine keeps_then (safe_removeAll fun d'' wiped => (even.wiped wiped).node_old)
    fun _ d1 first => ?_
  have even := even.wiped first.1
  refine keeps_then (safe_removeAll fun d'' wiped => (even.wiped wiped).node_old)
    fun _ d2 second => ?_
  have even := even.wiped second.1
  cases err <;> exact keeps_ends even mine' (by simp)

theorem keeps_tryOld : g.Tells (tryOld j fwd) d := by
  refine safe_tryOld (H := fun d => g.Kept fwd fwd d ∧ g.AllNew d) (fun _ h => h.1.node_new h.2)
    (fun _ _ mine h => ⟨h.1.save mine, h.2⟩) (fun _ id st detail mine => mine.setStep id st detail)
    mine ⟨h, new⟩ (fun _ _ _ mine h => keeps_goForward h.1 mine h.2 last) fun j d mine h => ?_
  have even : g.Even g.new d := ⟨h.1.pending, h.1.harmless, h.2⟩
  refine keeps_then (safe_dropPrev fun d' wiped => (even.wiped wiped).node_new) fun _ d' wiped => ?_
  have dropped := even.wiped wiped
  exact keeps_finish dropped.node_new (told_ok dropped.all) fun _ => .inr

end

/-- The n-th file's copy goes to the n-th path. -/
def forwardSlot (g : Stakes) (p : Path) (f : String) : Prop :=
  ∃ n, g.files[n]? = some f ∧ p = .saved .forward n (base f)

theorem StartsRollback.copied (start : g.StartsRollback s d)
    (copied : Copied (forwardSlot g) d d') : g.Even g.old d' where
  pending := exists_job copied.job start.pending
  harmless := by
    intro fwd back e mem
    have before : g.back d = some fwd := (back_copied copied).symm.trans back
    refine (start.harmless fwd before e mem).congr fun p saved copy b there => ?_
    rcases copied.copies p copy with same | ⟨f, ⟨n, at_n, rfl⟩, content⟩
    · exact .inl (same.symm.trans there)
    rw [Stakes.back, start.kind] at before
    rw [start.slots fwd before e mem n f at_n saved, ← start.old f (mem_of_getElem? at_n)]
    exact .inr (content.symm.trans there)
  all f mem := (copied.lives f).trans (start.old f mem)

theorem StartsRollback.save (start : g.StartsRollback s d) (mine : g.Mine j) :
    g.StartsRollback s { d with job := some j } :=
  { start with pending := ⟨j, rfl, mine⟩ }

/-- The set is put back, the binary first: from its rename to the last one the disk is halfway. -/
theorem keeps_putBack_set (rollback : g.kind = .rollback) (h : g.Kept fwd fwd d)
    (lists : ∀ f ∈ g.files, ∃ e ∈ fwd.files, e.live = f) (old : d.live binary = g.old binary)
    (files : g.files = s.files.map (·.live)) (whole : ∀ e ∈ s.files, e.Holds g.new d) :
    g.Keeps (fun _ d' => g.Kept fwd fwd d' ∧ g.AllNew d') (putBack s) d := by
  have kept {d' : Disk} (moved : Moved g.new (s.files.map (·.live)) d d') : g.Kept fwd fwd d' :=
    h.moved moved fun f mem => .inr (lists f mem)
  refine safe_mono (fun err d' done => ?_)
    (safe_putBack (fun e mem => (whole e mem).harmless) fun d' moved => ?_)
  · refine ⟨kept done.1, fun f mem => ?_⟩
    rw [files, mem_map] at mem
    obtain ⟨e, mem, rfl⟩ := mem
    exact done.2 e mem (.inr (.inl ⟨g.calm, whole e mem⟩))
  · rcases moved.lives binary with same | ⟨-, new⟩
    · exact (kept moved).node (same.trans old)
    · by_cases all : g.AllNew d'
      · exact (kept moved).node_new all
      · refine .inl ⟨(kept moved).pending, .inr ⟨rollback, ?_, all⟩⟩
        rw [running_eq, new]
        exact g.new_version

/-- **A stopped rollback is settled by the binary in place, unless it stops halfway.** -/
theorem keeps_runRollback (start : g.StartsRollback s d) (mine : g.Mine j) :
    g.Tells (runRollback j) d := by
  have even := start.copied (.refl _ d)
  refine keeps_readSet even.node_old (fun missing => ?_) fun s' there => ?_
  · cases missing.symm.trans start.set
  cases start.set.symm.trans there
  have marked := mine.setStep .swap .running ""
  refine keeps_saveJob even.node_old ?_
  have start := start.save marked
  -- the copies to go forward to
  have copies : g.Keeps (SavedTo (Calm g.Sound) g.old (forwardSlot g) (s.files.map (·.live))
      ⟨j.fromVersion, j.toVersion, []⟩ { d with job := some (j.setStep .swap .running "") })
      (saveForward s.files ⟨j.fromVersion, j.toVersion, []⟩)
      { d with job := some (j.setStep .swap .running "") } := by
    refine safe_saveForward (.refl _ _) ⟨by simp, by simp⟩
      (fun d' copied => (start.copied copied).node_old)
      (fun e mem => start.old e.live ?_) fun k f at_k => ⟨k, ?_, ?_⟩
    · rw [start.files]
      exact mem_map_of_mem mem
    · rwa [start.files]
    · rw [length_nil, Nat.zero_add]
  refine keeps_then copies fun r d1 done => ?_
  obtain ⟨fwd, err⟩ := r
  obtain rfl : err = none := done.sure g.calm
  have even := start.copied done.copied
  refine keeps_writeSet even.node_old ?_
  have lives : fwd.files.map (·.live) = g.files := by
    obtain ⟨-, added, grown, -, whole⟩ := done.grown
    rw [grown, nil_append, whole rfl, start.files]
  have lists : ∀ f ∈ g.files, ∃ e ∈ fwd.files, e.live = f := fun f mem =>
    mem_map.mp (lives ▸ mem)
  have last : ∃ pre, fwd.files.map (·.live) = pre ++ [binary] := lives ▸ g.binary_last
  have kept : g.Kept fwd fwd { d1 with forward := some fwd } :=
    ⟨even.pending, by rw [Stakes.back, start.kind], fun _ mem => mem,
      { done.saved with }, fun f mem => .inl (even.all f mem)⟩
  have whole : ∀ e ∈ s.files, e.Holds g.new d1 := by
    intro e mem
    refine (start.whole e mem).congr fun p saved copy => ?_
    rcases done.copied.copies p copy with same | ⟨f, ⟨n, -, rfl⟩, -⟩
    · exact same
    · exact absurd saved (start.apart e mem n _)
  refine keeps_then (keeps_putBack_set start.kind kept lists (even.all binary g.binary_mem)
    start.files whole) fun err d2 after => ?_
  obtain ⟨kept, new⟩ := after
  cases err with
  | some e =>
    refine keeps_then (keeps_putBack kept (.inr ⟨new, last⟩)) fun _ d3 even => ?_
    exact keeps_fail even marked fun _ _ => .inr
  | none =>
    have swapped := marked.setStep .swap .done ""
    exact keeps_saveJob (kept.node_new new) (keeps_tryOld (kept.save swapped) swapped new last)

end Rollback

/-! ## Whole runs -/

def Starts (d : Disk) : Prop :=
  (∃ staging, g.StartsUpdate staging d) ∨ ∃ s, g.StartsRollback s d

section
variable {g} {d : Disk}

theorem Starts.even (start : g.Starts d) : g.Even g.old d := by
  rcases start with ⟨_, start⟩ | ⟨_, start⟩
  · exact { start with all := fun f _ => start.old f }
  · exact start.copied (.refl _ d)

theorem runJob_pending (pending : g.Pending d) {node : Disk → Prop}
    {allowed : Call → Answer → Prop} {post : PUnit → Disk → Prop} (here : node d) (skip : post ⟨⟩ d)
    (run : ∀ j, g.Mine j → Stops node allowed post
      (match j.kind with
        | .rollback => runRollback j
        | .update => runUpdate j) d) :
    Stops node allowed post (runJob g.id) d := by
  obtain ⟨j, job, mine⟩ := pending
  refine safe_ask.mpr ⟨here, fun ans _ => ?_⟩
  dsimp only [exec]
  cases ans.fault with
  | some e => exact skip
  | none =>
    dsimp only [Option.elim]
    rw [job]
    dsimp only
    rw [if_pos ⟨mine.id, mine.phase⟩]
    exact run j mine

/-- The runner's whole job, an update's or a rollback's. -/
theorem keeps_runJob (start : g.Starts d) : g.Tells (runJob g.id) d := by
  have even := start.even
  refine runJob_pending even.pending even.node_old even.truthful fun j mine => ?_
  rw [mine.kind]
  rcases start with ⟨_, start⟩ | ⟨_, start⟩
  · rw [start.kind]
    exact keeps_runUpdate start mine
  · rw [start.kind]
    exact keeps_runRollback start mine

/-- **An update's result tells the truth about the files.** No call on files fails; the runner and
every panel that settles the job may stop between any two calls, except where a rollback is
halfway. -/
theorem result_truthful (start : g.Starts d) {ls : List (Label Unit Answer)}
    {t : System Call Reply Disk}
    (along : Runs.Along step (System.GuardedIn (fun d => ¬ g.Halfway d) g.Sound)
      (handedOver d g.id) ls)
    (h : Runs.run step (handedOver d g.id) ls = some t) {j : Job} (job : t.world.job = some j) :
    (j.result = some .ok → ∀ f ∈ g.files, t.world.live f = g.new f) ∧
      (j.result = some .rolledBack ∨ g.kind = .rollback ∧ j.result = some .failed →
        ∀ f ∈ g.files, t.world.live f = g.old f) := by
  have started : System.Settled exec (fun _ => g.Node) g.Sound g.Truthful
      (handedOver d g.id) := keeps_runJob start
  have settled : System.Settled exec (fun _ => g.Node) g.Sound g.Truthful t :=
    System.settled_in (fun _ _ => keeps_settle) (fun _ _ => Node.truthful) started along h
  have node : g.Node t.world :=
    System.of_settled (fun _ => Truthful.node) (fun _ _ node => node) settled
  rcases node with ⟨⟨j', job', mine⟩, -⟩ | ⟨j', job', -, told⟩
  · cases job.symm.trans job'
    simp [mine.result]
  · cases job.symm.trans job'
    exact told

end

end Stakes

/-! ## A rollback that stops -/

/-- Version 2 in place, with the copies of version 1 of two files. -/
def rolling : Disk where
  files
    | .live f => if f = binary then some ⟨"2", "2"⟩ else
        if f = "nasnet-tool.sh" then some { bytes := "2" } else none
    | .prevBinary => some ⟨"1", "1"⟩
    | .saved .files 0 "nasnet-tool.sh" => some { bytes := "1" }
    | _ => none
  set := some ⟨"1", "2", [⟨"nasnet-tool.sh", some (.saved .files 0 "nasnet-tool.sh")⟩,
    ⟨binary, some .prevBinary⟩]⟩
  job := some ⟨"r", .rollback, "2", "1", .runner, none, "", [], false⟩

def toOne : Stakes where
  id := "r"
  kind := .rollback
  fromVersion := "2"
  toVersion := "1"
  files := ["nasnet-tool.sh", binary]
  old := rolling.live
  new f := if f = binary then some ⟨"1", "1"⟩ else
    if f = "nasnet-tool.sh" then some { bytes := "1" } else none
  binary_last := ⟨["nasnet-tool.sh"], rfl⟩
  old_version := by decide
  new_version := by decide
  differ := by decide

theorem rolling_starts : toOne.Starts rolling := by
  refine .inr ⟨_, rfl, ⟨_, rfl, rfl, rfl, rfl, rfl, rfl⟩, fun _ _ => rfl, rfl, rfl, ?_, ?_, ?_, ?_⟩
  · simp only [forall_mem_cons]
    refine ⟨?_, ?_, by simp⟩
    · exact ⟨rfl, by decide, by decide⟩
    · exact ⟨rfl, by decide, by decide⟩
  · simp
  · intro s back
    cases back
  · intro fwd there
    cases there

/-- No call fails, and no stop finds the binary of version 1 in place if `whole`. -/
def calmly (whole : Bool) (s : System Call Reply Disk) : Label Unit Answer → Bool
  | .start _ => true
  | .advance ans => ans.fault.isNone &&
    match s.running with
    | some (.call .script _) => false
    | _ => true
  | .crash => !whole || s.world.running ≠ toOne.toVersion

theorem guarded_of_calmly {s : System Call Reply Disk} {l : Label Unit Answer}
    (h : calmly true s l = true) :
    System.GuardedIn (fun d => ¬ toOne.Halfway d) toOne.Sound s l := by
  cases l with
  | start => trivial
  | advance ans =>
    intro c k running
    rw [calmly, running, Bool.and_eq_true, Option.isNone_iff_eq_none] at h
    cases c with
    | script => exact absurd h.2 (by simp)
    | daemonReload | restart => trivial
    | _ => exact h.1
  | crash =>
    rintro ⟨-, new, -⟩
    simp [calmly, new] at h

/-- The runner makes `n` calls and stops; a panel boots and comes to the end in `m`. -/
def stopAfter (n m : Nat) : List (Label Unit Answer) :=
  List.replicate n (.advance {}) ++ .crash :: .start () :: List.replicate m (.advance {})

/-- Stopped before the binary's rename, the rollback fails and version 2 is whole. -/
theorem result_truthful_rolling : ∃ t j,
    Runs.run step (handedOver rolling toOne.id) (stopAfter 11 11) = some t ∧
      t.world.job = some j ∧ j.result = some .failed ∧
      ∀ f ∈ toOne.files, t.world.live f = toOne.old f := by
  have ran : (Runs.runChecked step (calmly true) (handedOver rolling toOne.id)
      (stopAfter 11 11)).map (fun t => t.world.job.map (·.result)) =
      some (some (some .failed)) := by decide
  obtain ⟨t, checked, ended⟩ := Option.map_eq_some_iff.mp ran
  obtain ⟨j, job, failed⟩ := Option.map_eq_some_iff.mp ended
  obtain ⟨run, along⟩ := Runs.of_runChecked checked
  refine ⟨t, j, run, job, failed, ?_⟩
  have truth := Stakes.result_truthful rolling_starts
    (along.mono fun _ _ => guarded_of_calmly) run job
  exact truth.2 (.inr ⟨rfl, failed⟩)

/-- Stopped right after the binary's rename, the rollback ends ok with a file of version 2. -/
theorem stopped_halfway : toOne.Starts rolling ∧
    (Runs.runChecked step (calmly false) (handedOver rolling toOne.id) (stopAfter 12 5)).map
      (fun t => (t.world.job.map (·.result), t.world.live "nasnet-tool.sh")) =
      some (some (some .ok), some { bytes := "2" }) ∧
    "nasnet-tool.sh" ∈ toOne.files ∧ toOne.new "nasnet-tool.sh" = some { bytes := "1" } :=
  ⟨rolling_starts, by decide, by decide, by decide⟩

end NasnetPanel.Update
