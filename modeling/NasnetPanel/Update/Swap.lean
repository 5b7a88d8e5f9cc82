import NasnetPanel.Update.Runner

/-!
# Update.Swap — what installing, putting back and removing leave on the disk

One spec for each program of `swap.go` that changes live files or drops copies, over any node
condition and any answers: where the program may stop, the disk is one of a family that says what
can differ from the disk it started on, and by what.

* `safe_installFile`, `safe_putBack`: live files take the content wanted of them, one by one
  (`Moved`).
* `safe_removeAll`: copies and saved sets go, in any order (`Wiped`).

A put-back that comes to nothing is told from one that worked in three ways: the program reports
it, no call on files can fail, or the runner has lost nothing (`Back`).
-/

namespace NasnetPanel.Update
open CrashProg CrashProg.Prog List

variable {node : Disk → Prop} {allowed : Call → Answer → Prop} {α β : Type}

/-! ## Calls -/

def Call.movesFiles : Call → Bool
  | .stat _ | .mkdirAll | .copy _ _ | .rename _ _ | .remove _ => true
  | _ => false

def Calm (allowed : Call → Answer → Prop) : Prop :=
  ∀ c ans, c.movesFiles = true → allowed c ans → ans.fault = none

/-- The program can stop only where `node` holds. -/
abbrev Stops (node : Disk → Prop) (allowed : Call → Answer → Prop) (post : α → Disk → Prop) :
    Program α → Disk → Prop := Safe exec (fun _ => node) allowed post

variable {post : α → Disk → Prop} {d : Disk} {c : Call} {job : Job} {p : Path}
  {k : Reply c → Program α}

theorem safe_ask :
    Stops node allowed post (ask c >>= k) d ↔ node d ∧ ∀ ans, allowed c ans →
      Stops node allowed post (k (exec c ans d).1) (exec c ans d).2 := Iff.rfl

theorem safe_then {mid : α → Disk → Prop} {post : β → Disk → Prop} {p : Program α}
    {k : α → Program β} (part : Stops node allowed mid p d)
    (rest : ∀ a d', mid a d' → Stops node allowed post (k a) d') :
    Stops node allowed post (p >>= k) d :=
  safe_bind.mpr (safe_mono rest part)

theorem safe_still (here : node d) (still : ∀ ans, (exec c ans d).2 = d)
    (next : ∀ r, Stops node allowed post (k r) d) :
    Stops node allowed post (ask c >>= k) d := by
  refine safe_ask.mpr ⟨here, fun ans _ => ?_⟩
  rw [still ans]
  exact next _

theorem safe_saveJob {P : Disk → Prop} {k : Job → Program α} (here : ∀ d, P d → node d)
    (stable : ∀ d, P d → P { d with job := some job }) (h : P d)
    (next : ∀ d', P d' → Stops node allowed post (k job) d') :
    Stops node allowed post (saveJob job >>= k) d := by
  refine safe_ask.mpr ⟨here d h, fun ans _ => ?_⟩
  dsimp only [exec]
  cases ans.fault with
  | some _ => exact next _ h
  | none => exact next _ (stable d h)

theorem restart_still (ans : Answer) (d : Disk) : (exec .restart ans d).2 = d := by
  dsimp only [exec]
  cases ans.fault <;> rfl

theorem reload_still (ans : Answer) (d : Disk) : (exec .daemonReload ans d).2 = d := by
  dsimp only [exec]
  cases ans.fault <;> rfl

theorem safe_comesUp {want : String} {legacyOK : Bool} (here : node d) :
    Stops node allowed (fun _ d' => d' = d) (comesUp job want legacyOK) d := by
  refine safe_still here (restart_still · d) fun restarted => ?_
  cases restarted with
  | error e => exact rfl
  | ok _ =>
    refine safe_still here (fun _ => rfl) fun base => safe_still here (fun _ => rfl)
      fun passed => ?_
    cases passed with
    | error e => exact rfl
    | ok _ => exact rfl

theorem safe_watchRunner {post : PUnit → Disk → Prop} {version : String} (here : node d)
    (skip : post ⟨⟩ d) (found : d.job = some job)
    (run : job.finished = false →
      Stops node allowed post (interrupted version job) d) :
    Stops node allowed post (watchRunner version) d := by
  refine safe_ask.mpr ⟨here, fun ans _ => ?_⟩
  dsimp only [exec]
  cases ans.fault with
  | some e => exact skip
  | none =>
    dsimp only [Option.elim]
    rw [found]
    dsimp only
    split
    · exact skip
    next unfinished => exact run (Bool.not_eq_true _ ▸ unfinished)

section Trial
variable {post : PUnit → Disk → Prop} {s : FileSet} {H : Disk → Prop} {P : Job → Prop}
  (here : ∀ d, H d → node d) (saves : ∀ d j, P j → H d → H { d with job := some j })
  (steps : ∀ j id status detail, P j → P (j.setStep id status detail)) (mine : P job) (h : H d)
include here saves steps mine h

theorem safe_tryNew
    (fails : ∀ j cause d, P j → H d → Stops node allowed post (revert j s cause) d)
    (passes : ∀ j d, P j → H d →
      Stops node allowed post (do let _ ← finish j .ok ""; cleanup) d) :
    Stops node allowed post (tryNew job s) d := by
  have restarting := steps _ .restart .running "Waiting for the panel to come back…" mine
  refine safe_saveJob here (saves · _ restarting) h fun d h =>
    safe_still (here d h) (restart_still · d) fun restarted => ?_
  cases restarted with
  | error e =>
    have failed := steps _ .restart .failed e restarting
    exact safe_saveJob here (saves · _ failed) h fun d h => fails _ _ d failed h
  | ok _ =>
    have restarted := steps _ .restart .done "" restarting
    have watching := steps _ .health .running "" restarted
    refine safe_still (here d h) (fun _ => rfl) fun base =>
      safe_saveJob here (saves · _ restarted) h fun d h =>
      safe_saveJob here (saves · _ watching) h fun d h =>
      safe_still (here d h) (fun _ => rfl) fun passed => ?_
    cases passed with
    | error e =>
      have failed := steps _ .health .failed e watching
      exact safe_saveJob here (saves · _ failed) h fun d h => fails _ _ d failed h
    | ok _ =>
      have passed := steps _ .health .done "" watching
      exact safe_saveJob here (saves · _ passed) h fun d h => passes _ d passed h

theorem safe_tryOld
    (fails : ∀ j cause d, P j → H d →
      Stops node allowed post (goForward j s cause) d)
    (passes : ∀ j d, P j → H d → Stops node allowed post
      (do dropPrev; let _ ← finish j .ok ""; return ⟨⟩) d) :
    Stops node allowed post (tryOld job s) d := by
  have restarting := steps _ .restart .running "Waiting for the panel to come back…" mine
  refine safe_saveJob here (saves · _ restarting) h fun d h =>
    safe_still (here d h) (restart_still · d) fun restarted =>
    safe_still (here d h) (fun _ => rfl) fun base => ?_
  cases restarted with
  | error e => exact fails _ _ d restarting h
  | ok _ =>
    have restarted := steps _ .restart .done "" restarting
    have watching := steps _ .health .running "" restarted
    refine safe_saveJob here (saves · _ restarted) h fun d h =>
      safe_saveJob here (saves · _ watching) h fun d h =>
      safe_still (here d h) (fun _ => rfl) fun passed => ?_
    cases passed with
    | error e => exact fails _ _ d watching h
    | ok _ =>
      have passed := steps _ .health .done "" watching
      exact safe_saveJob here (saves · _ passed) h fun d h => passes _ d passed h

end Trial

theorem attempt_ok {failed after : Disk} : attempt failed none after = (.ok (), after) := rfl

theorem exec_copy (src dst : Path) (ans : Answer) (d : Disk) :
    (∃ e, exec (.copy src dst) ans d = (.error e, d.failed src.isCopy) ∧
        (d.read src = none ∨ ans.fault ≠ none)) ∨
      ∃ b, d.read src = some b ∧ exec (.copy src dst) ans d = (.ok (), d.write dst (some b)) := by
  dsimp only [exec]
  cases content : d.read src with
  | none => exact .inl ⟨_, rfl, .inl rfl⟩
  | some b =>
    cases fault : ans.fault with
    | some e => exact .inl ⟨e, rfl, .inr (Option.some_ne_none e)⟩
    | none => exact .inr ⟨b, rfl, rfl⟩

theorem read_copy (copy : p.isCopy = true) (d : Disk) : d.read p = d.files p := by
  cases p with
  | saved dir n b => rfl
  | prevBinary => rfl
  | _ => cases copy

theorem files_write_self (d : Disk) (p : Path) (b : Option Blob) : (d.write p b).files p = b :=
  Function.update_self _ _ _

theorem files_write_of_ne (d : Disk) {q : Path} (ne : q ≠ p) (b : Option Blob) :
    (d.write p b).files q = d.files q :=
  Function.update_of_ne ne _ _

theorem failed_lost (running : d.settling = false) : (d.failed true).lost = true := by
  rw [Disk.failed, running]
  rfl

theorem live_failed (d : Disk) (restores : Bool) (f : String) :
    (d.failed restores).live f = d.live f := by
  unfold Disk.failed
  split <;> rfl

/-! ## Live files that move -/

/-- Between the two disks only live files of `fs` differ, and those hold what is wanted. -/
structure Moved (want : String → Option Blob) (fs : List String) (d d' : Disk) : Prop where
  lives : ∀ f, d'.live f = d.live f ∨ f ∈ fs ∧ d'.live f = want f
  copies : ∀ p, p.isCopy = true → d'.files p = d.files p
  staging : d'.staging = d.staging
  set : d'.set = d.set
  forward : d'.forward = d.forward
  job : d'.job = d.job
  settling : d'.settling = d.settling
  lost : d'.lost = false → d.lost = false

section Moved
variable {want : String → Option Blob} {fs gs : List String} {d d' d'' : Disk}

theorem Moved.refl (want : String → Option Blob) (fs : List String) (d : Disk) :
    Moved want fs d d :=
  ⟨fun _ => .inl rfl, fun _ _ => rfl, rfl, rfl, rfl, rfl, rfl, id⟩

theorem Moved.trans (h : Moved want fs d d') (h' : Moved want fs d' d'') :
    Moved want fs d d'' where
  lives f := by
    rcases h'.lives f with same | moved
    · rcases h.lives f with same' | ⟨mem, moved⟩
      · exact .inl (same.trans same')
      · exact .inr ⟨mem, same.trans moved⟩
    · exact .inr moved
  copies p copy := (h'.copies p copy).trans (h.copies p copy)
  staging := h'.staging.trans h.staging
  set := h'.set.trans h.set
  forward := h'.forward.trans h.forward
  job := h'.job.trans h.job
  settling := h'.settling.trans h.settling
  lost kept := h.lost (h'.lost kept)

theorem Moved.mono (h : Moved want fs d d') (sub : fs ⊆ gs) : Moved want gs d d' :=
  { h with lives := fun f => (h.lives f).imp_right fun m => ⟨sub m.1, m.2⟩ }

variable {f : String}

theorem Moved.stays (h : Moved want fs d d') (there : d.live f = want f) : d'.live f = want f := by
  rcases h.lives f with same | ⟨-, moved⟩
  · exact same.trans there
  · exact moved

theorem Moved.other (h : Moved want fs d d') (out : f ∉ fs) : d'.live f = d.live f := by
  rcases h.lives f with same | ⟨mem, -⟩
  · exact same
  · exact absurd mem out

theorem moved_failed (restores : Bool) : Moved want fs d (d.failed restores) := by
  unfold Disk.failed
  split
  · exact { Moved.refl want fs d with lost := fun h => absurd h (by simp) }
  · exact Moved.refl want fs d

theorem moved_new (p : String) (b : Option Blob) : Moved want fs d (d.write (.new p) b) :=
  { Moved.refl want fs d with
    lives := fun f => .inl (files_write_of_ne d (by simp) b)
    copies := fun q copy => files_write_of_ne d (by rintro rfl; cases copy) b }

theorem moved_live {p : String} (mem : p ∈ fs) :
    Moved want fs d (d.write (.live p) (want p)) := by
  refine { Moved.refl want fs d with
    lives := fun f => ?_
    copies := fun q copy => files_write_of_ne d (by rintro rfl; cases copy) _ }
  by_cases same : f = p
  · subst same
    exact .inr ⟨mem, files_write_self ..⟩
  · exact .inl (files_write_of_ne d (by simpa using same) _)

theorem live_write_live (p : String) (b : Option Blob) : (d.write (.live p) b).live p = b :=
  files_write_self ..

theorem live_write_new (p f : String) (b : Option Blob) : (d.write (.new p) b).live f = d.live f :=
  files_write_of_ne d (by simp) b

end Moved

/-- What comes of one file that is put in place. -/
structure Placed (calm : Prop) (want : String → Option Blob) (f : String) (restores there : Prop)
    (d : Disk) (err : Option String) (d' : Disk) : Prop where
  moved : Moved want [f] d d'
  clean : err = none → d'.live f = want f
  unplaced : err ≠ none → d'.live f = d.live f
  /-- A failure to put a file back is noted, while the runner is at it. -/
  noted : err ≠ none → restores → d.settling = false → d'.lost = true
  sure : calm → there → err = none

theorem safe_installFile {want : String → Option Blob} {src : Path} {f : String}
    (content : ∀ b, d.read src = some b → want f = some b)
    (here : ∀ d', Moved want [f] d d' → node d') :
    Stops node allowed
      (Placed (Calm allowed) want f (src.isCopy = true) ((d.read src).isSome = true) d)
      (installFile src f) d := by
  have noted {d' : Disk} (moved : Moved want [f] d d') (copy : src.isCopy = true)
      (running : d.settling = false) : (d'.failed src.isCopy).lost = true := by
    rw [copy]
    exact failed_lost (moved.settling.trans running)
  refine safe_ask.mpr ⟨here d (.refl _ _ _), fun ans ok => ?_⟩
  rcases exec_copy src (.new f) ans d with ⟨e, ran, why⟩ | ⟨b, there, ran⟩
  · rw [ran]
    have moved : Moved want [f] d (d.failed src.isCopy) := moved_failed _
    refine safe_ask.mpr ⟨here _ moved, fun ans' _ => ?_⟩
    have discarded : Moved want [f] (d.failed src.isCopy)
        (exec (.discard f) ans' (d.failed src.isCopy)).2 := by
      dsimp only [exec]
      cases ans'.fault with
      | none => exact moved_new f none
      | some _ => exact .refl _ _ _
    have unplaced : (exec (.discard f) ans' (d.failed src.isCopy)).2.live f = d.live f := by
      refine Eq.trans ?_ (live_failed d src.isCopy f)
      dsimp only [exec]
      cases ans'.fault with
      | none => exact live_write_new ..
      | some _ => rfl
    refine ⟨moved.trans discarded, by simp, fun _ => unplaced, fun _ copy running => ?_,
      fun calm there => ?_⟩
    · have lost := noted (.refl _ _ _) copy running
      by_contra kept
      rw [Bool.not_eq_true] at kept
      rw [discarded.lost kept] at lost
      cases lost
    · rcases why with missing | fault
      · rw [missing] at there
        cases there
      · exact absurd (calm _ _ rfl ok) fault
  · rw [ran]
    have moved : Moved want [f] d (d.write (.new f) (some b)) := moved_new f _
    refine safe_ask.mpr ⟨here _ moved, fun ans' ok' => ?_⟩
    dsimp only [exec]
    cases fault : ans'.fault with
    | some e =>
      refine ⟨moved.trans (moved_failed _), by simp,
        fun _ => (live_failed ..).trans (live_write_new ..),
        fun _ copy running => noted moved copy running, fun calm _ => ?_⟩
      rw [calm _ _ rfl ok'] at fault
      cases fault
    | none =>
      have arrives : (d.write (.new f) (some b)).files (.new f) = want f := by
        rw [content b there]
        exact files_write_self ..
      rw [attempt_ok, arrives]
      refine ⟨moved.trans ((moved_live (mem_singleton_self f)).trans (moved_new f _)),
        fun _ => ?_, by simp, by simp, fun _ _ => rfl⟩
      exact (live_write_new ..).trans (live_write_live ..)

/-! ## Entries of a saved set -/

namespace SavedFile

/-- The entry brings the content wanted back: its copy is whole, or the file was not there. -/
def Holds (want : String → Option Blob) (d : Disk) (e : SavedFile) : Prop :=
  match e.saved with
  | none => want e.live = none
  | some p => p.isCopy = true ∧ (want e.live).isSome = true ∧ d.files p = want e.live

/-- The same for an entry whose copy may be gone. -/
def Harmless (want : String → Option Blob) (d : Disk) (e : SavedFile) : Prop :=
  match e.saved with
  | none => want e.live = none
  | some p => p.isCopy = true ∧ ∀ b, d.files p = some b → want e.live = some b

variable {want : String → Option Blob} {d d' : Disk} {e : SavedFile}

theorem Holds.harmless (h : e.Holds want d) : e.Harmless want d := by
  obtain ⟨live, saved⟩ := e
  cases saved with
  | none => exact h
  | some p => exact ⟨h.1, fun b there => h.2.2.symm.trans there⟩

theorem Holds.congr (h : e.Holds want d) (same : ∀ p, e.saved = some p → p.isCopy = true →
    d'.files p = d.files p) : e.Holds want d' := by
  obtain ⟨live, saved⟩ := e
  cases saved with
  | none => exact h
  | some p => exact ⟨h.1, h.2.1, (same p rfl h.1).trans h.2.2⟩

variable {fs : List String} {other : String → Option Blob}

theorem Holds.moved (h : e.Holds want d) (moved : Moved other fs d d') : e.Holds want d' :=
  h.congr fun p _ => moved.copies p

theorem Harmless.congr (h : e.Harmless want d)
    (same : ∀ p, e.saved = some p → p.isCopy = true →
      ∀ b, d'.files p = some b → d.files p = some b ∨ want e.live = some b) :
    e.Harmless want d' := by
  obtain ⟨live, saved⟩ := e
  cases saved with
  | none => exact h
  | some p => exact ⟨h.1, fun b there => (same p rfl h.1 b there).elim (h.2 b) id⟩

theorem Harmless.moved (h : e.Harmless want d) (moved : Moved other fs d d') : e.Harmless want d' :=
  h.congr fun p _ copy _ there => .inl ((moved.copies p copy).symm.trans there)

end SavedFile

section PutBack
variable {want : String → Option Blob} {d : Disk}

/-- One entry is put back. -/
theorem safe_putBackOne {e : SavedFile} (harmless : e.Harmless want d)
    (here : ∀ d', Moved want [e.live] d d' → node d') :
    Stops node allowed (Placed (Calm allowed) want e.live True (e.Holds want d) d) e.putBack d := by
  obtain ⟨live, saved⟩ := e
  cases saved with
  | none =>
    have gone : want live = none := harmless
    refine safe_ask.mpr ⟨here d (.refl _ _ _), fun ans ok => ?_⟩
    dsimp only [exec]
    cases fault : ans.fault with
    | some e =>
      refine ⟨moved_failed _, by simp, fun _ => live_failed .., fun _ _ => failed_lost,
        fun calm _ => ?_⟩
      rw [calm _ _ rfl ok] at fault
      cases fault
    | none =>
      rw [attempt_ok, ← gone]
      exact ⟨moved_live (mem_singleton_self live), fun _ => live_write_live .., by simp,
        by simp, fun _ _ => rfl⟩
  | some p =>
    obtain ⟨copy, content⟩ : p.isCopy = true ∧ ∀ b, d.files p = some b → want live = some b :=
      harmless
    rw [← read_copy copy] at content
    refine safe_mono (fun err d' placed => ?_) (safe_installFile content here)
    refine { placed with
      noted := fun failed _ => placed.noted failed copy
      sure := fun calm holds => placed.sure calm ?_ }
    obtain ⟨-, isSome, there⟩ : p.isCopy = true ∧ (want live).isSome = true ∧
      d.files p = want live := holds
    rwa [read_copy copy, there]

/-- Every entry is back: nothing was reported, or no call on files fails and the copies are whole,
or the runner put them back and lost none. -/
def Back (calm : Prop) (want : String → Option Blob) (es : List SavedFile) (d : Disk)
    (clean : Prop) (d' : Disk) : Prop :=
  ∀ e ∈ es, clean ∨ calm ∧ e.Holds want d ∨ d.settling = false ∧ d'.lost = false →
    d'.live e.live = want e.live

variable {es : List SavedFile} {errs : List String}

/-- The loop of `putBack`, by induction on the entries: each finds the copies as they were. -/
theorem safe_putBackAll (harmless : ∀ e ∈ es, e.Harmless want d)
    (here : ∀ d', Moved want (es.map (·.live)) d d' → node d') :
    Stops node allowed (fun errs d' => Moved want (es.map (·.live)) d d' ∧
      Back (Calm allowed) want es d (errs = []) d') (putBackAll es) d := by
  induction es generalizing d with
  | nil => exact ⟨.refl _ _ _, fun e mem => absurd mem not_mem_nil⟩
  | cons e es ih =>
    have first : [e.live] ⊆ (e :: es).map (·.live) := by simp
    have later : es.map (·.live) ⊆ (e :: es).map (·.live) := by simp
    refine safe_then (safe_putBackOne (harmless e mem_cons_self)
      fun d' moved => here d' (moved.mono first)) fun err d' placed => ?_
    refine safe_then (ih
      (fun e' mem => (harmless e' (mem_cons_of_mem _ mem)).moved placed.moved)
      fun d'' moved => here d'' ((placed.moved.mono first).trans (moved.mono later)))
      fun errs d'' done => ?_
    obtain ⟨moved, back⟩ := done
    refine ⟨(placed.moved.mono first).trans (moved.mono later), ?_⟩
    intro e' mem sure
    rcases mem_cons.mp mem with rfl | mem
    · refine moved.stays (placed.clean ?_)
      rcases sure with clean | ⟨calm, holds⟩ | ⟨running, kept⟩
      · cases err with
        | none => rfl
        | some _ => cases clean
      · exact placed.sure calm holds
      by_contra failed
      have lost := placed.noted failed trivial running
      rw [moved.lost kept] at lost
      cases lost
    · refine back e' mem ?_
      rcases sure with clean | ⟨calm, holds⟩ | ⟨running, kept⟩
      · cases err with
        | none => exact .inl clean
        | some _ => cases clean
      · exact .inr (.inl ⟨calm, holds.moved placed.moved⟩)
      · exact .inr (.inr ⟨placed.moved.settling.trans running, kept⟩)

theorem join_eq_none : join errs = none ↔ errs = [] := by
  unfold join
  split <;> simp_all

theorem safe_reload {d' : Disk} (here : ∀ d', Moved want (es.map (·.live)) d d' → node d')
    (done : Moved want (es.map (·.live)) d d' ∧ Back (Calm allowed) want es d (errs = []) d') :
    Stops node allowed (fun err d' => Moved want (es.map (·.live)) d d' ∧
      Back (Calm allowed) want es d (err = none) d') (do match ← ask .daemonReload with
          | .error e => return join (errs ++ [e])
          | .ok _ => return join errs) d' := by
  refine safe_ask.mpr ⟨here d' done.1, fun ans _ => ?_⟩
  dsimp only [exec]
  cases ans.fault with
  | some e =>
    refine ⟨done.1, fun e' mem sure => done.2 e' mem (sure.imp_left fun clean => ?_)⟩
    simp [join_eq_none] at clean
  | none => exact ⟨done.1, fun e' mem sure => done.2 e' mem (sure.imp_left join_eq_none.mp)⟩

/-- A set is put back, entry by entry. -/
theorem safe_putBack {s : FileSet} (harmless : ∀ e ∈ s.files, e.Harmless want d)
    (here : ∀ d', Moved want (s.files.map (·.live)) d d' → node d') :
    Stops node allowed (fun err d' => Moved want (s.files.map (·.live)) d d' ∧
      Back (Calm allowed) want s.files d (err = none) d') (putBack s) d := by
  have here' : ∀ d', Moved want (s.files.reverse.map (·.live)) d d' → node d' :=
    fun d' moved => here d' (moved.mono (by simp))
  refine safe_mono (fun err d' done => ⟨done.1.mono (by simp), fun e mem => ?_⟩)
    (safe_then (safe_putBackAll (fun e mem => harmless e (mem_reverse.mp mem)) here')
      fun errs d' => safe_reload here')
  exact done.2 e (mem_reverse.mpr mem)

end PutBack

/-! ## Removals -/

/-- Between the two disks copies and saved sets may have gone. -/
structure Wiped (d d' : Disk) : Prop where
  lives : ∀ f, d'.live f = d.live f
  copies : ∀ p, p.isCopy = true → d'.files p = none ∨ d'.files p = d.files p
  set : d'.set = none ∨ d'.set = d.set
  forward : d'.forward = none ∨ d'.forward = d.forward
  staging : d'.staging = d.staging
  job : d'.job = d.job
  settling : d'.settling = d.settling
  lost : d'.lost = d.lost

theorem Wiped.refl (d : Disk) : Wiped d d :=
  ⟨fun _ => rfl, fun _ _ => .inr rfl, .inr rfl, .inr rfl, rfl, rfl, rfl, rfl⟩

theorem none_or_trans {γ : Type} {a b c : Option γ} (h' : c = none ∨ c = b)
    (h : b = none ∨ b = a) : c = none ∨ c = a := by
  rcases h' with gone | rfl
  · exact .inl gone
  · exact h

theorem Wiped.trans {d' d'' : Disk} (h : Wiped d d') (h' : Wiped d' d'') : Wiped d d'' where
  lives f := (h'.lives f).trans (h.lives f)
  copies p copy := none_or_trans (h'.copies p copy) (h.copies p copy)
  set := none_or_trans h'.set h.set
  forward := none_or_trans h'.forward h.forward
  staging := h'.staging.trans h.staging
  job := h'.job.trans h.job
  settling := h'.settling.trans h.settling
  lost := h'.lost.trans h.lost

theorem none_or_of_ite {γ : Type} (c : Prop) [Decidable c] (a : Option γ) :
    (if c then none else a) = none ∨ (if c then none else a) = a := by
  split
  · exact .inl rfl
  · exact .inr rfl

theorem wiped_without (d : Disk) (what : Wipe) (gone : Path → Bool) (goneSet : SetFile → Bool) :
    Wiped d (d.without what gone goneSet) := by
  refine { Wiped.refl d with
    lives := fun f => ?_
    copies := fun p _ => none_or_of_ite ..
    set := none_or_of_ite ..
    forward := none_or_of_ite .. }
  have uncovered : what.covers (.live f) = false := by cases what <;> rfl
  simp [Disk.live, Disk.without, uncovered]

theorem safe_removeAll {what : Wipe} (here : ∀ d', Wiped d d' → node d') :
    Stops node allowed (fun _ d' => Wiped d d' ∧
      ((∀ ans, allowed (.wipe what) ans → ans.fault = none) → what.coversSet .set = true →
        d'.set = none)) (removeAll what) d := by
  refine safe_ask.mpr ⟨here d (.refl d), fun ans _ => ?_⟩
  have begun := wiped_without d what ans.gone ans.goneSet
  refine safe_ask.mpr ⟨here _ begun, fun ans' ok => ?_⟩
  dsimp only [exec]
  cases fault : ans'.fault with
  | some e =>
    refine ⟨begun.trans (wiped_without ..), fun never => ?_⟩
    rw [never ans' ok] at fault
    cases fault
  | none =>
    refine ⟨begun.trans (wiped_without ..), fun _ covered => ?_⟩
    simp [Disk.without, covered]

/-- The previous set is wiped. -/
theorem safe_dropPrev (here : ∀ d', Wiped d d' → node d') :
    Stops node allowed (fun _ d' => Wiped d d') dropPrev d := by
  refine safe_then (safe_removeAll here) fun _ d' wiped => ?_
  refine safe_mono (fun _ d'' wiped' => wiped.1.trans wiped'.1)
    (safe_removeAll fun d'' wiped' => here d'' (wiped.1.trans wiped'))

end NasnetPanel.Update
