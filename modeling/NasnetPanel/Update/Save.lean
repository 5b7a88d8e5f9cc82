import NasnetPanel.Update.Swap

/-!
# Update.Save — what saving leaves on the disk

The specs of the programs that save copies (`save`, `saveAt`, and the loops of an update and a
rollback over them), in the manner of `Update.Swap`: where one may stop, copies of live files may
have appeared, each in a slot for that file (`Copied`), and nothing else has changed.

The set grows by one entry for each file (`Extends`), and every entry holds (`FileSet.Saved`): a
copy's path has the entry's number in it, so no later copy takes its place, and only the binary has
a path of its own.
-/

namespace NasnetPanel.Update
open CrashProg CrashProg.Prog List

variable {node : Disk → Prop} {allowed : Call → Answer → Prop}

/-! ## Copies that appear -/

/-- Between the two disks copies of live files may have appeared, each in a slot for that file. -/
structure Copied (slot : Path → String → Prop) (d d' : Disk) : Prop where
  lives : ∀ f, d'.live f = d.live f
  copies : ∀ p, p.isCopy = true → d'.files p = d.files p ∨
    ∃ f, slot p f ∧ d'.files p = d.live f
  staging : d'.staging = d.staging
  set : d'.set = d.set
  forward : d'.forward = d.forward
  job : d'.job = d.job
  settling : d'.settling = d.settling
  lost : d'.lost = d.lost

section Saving
variable {want : String → Option Blob} {slot : Path → String → Prop} {d d' : Disk} {s s' : FileSet}

theorem Copied.refl (slot : Path → String → Prop) (d : Disk) : Copied slot d d :=
  ⟨fun _ => rfl, fun _ _ => .inl rfl, rfl, rfl, rfl, rfl, rfl, rfl⟩

variable {f : String} {lives : List String} {p : Path} {err : Option String} {dir : Folder}

theorem Copied.write (h : Copied slot d d') (mine : slot p f)
    (copy : p.isCopy = true) : Copied slot d (d'.write p (d'.live f)) := by
  refine { h with lives := fun g => ?_, copies := fun q copy => ?_ }
  · refine Eq.trans (files_write_of_ne d' ?_ _) (h.lives g)
    rintro rfl
    cases copy
  by_cases same : q = p
  · subst same
    exact .inr ⟨f, mine, (files_write_self ..).trans (h.lives f)⟩
  · rw [files_write_of_ne d' same]
    exact h.copies q copy

/-! ## The set that grows -/

/-- Every entry of the set holds, under a path no later copy goes to. -/
structure FileSet.Saved (want : String → Option Blob) (s : FileSet) (d : Disk) : Prop where
  holds : ∀ e ∈ s.files, e.Holds want d
  fresh : ∀ e ∈ s.files, ∀ p, e.saved = some p →
    p = .prevBinary ∧ e.live = binary ∨ ∃ dir n b, p = .saved dir n b ∧ n < s.files.length

def FileSet.Next (s : FileSet) (p : Path) (f : String) : Prop :=
  p = .prevBinary ∧ f = binary ∨ ∃ dir b, p = .saved dir s.files.length b

theorem FileSet.Next.isCopy (next : s.Next p f) : p.isCopy = true := by
  rcases next with ⟨rfl, -⟩ | ⟨dir, b, rfl⟩ <;> rfl

namespace FileSet.Saved

theorem moved {other : String → Option Blob} {fs : List String} (h : s.Saved want d)
    (moved : Moved other fs d d') : s.Saved want d' :=
  ⟨fun e mem => (h.holds e mem).moved moved, h.fresh⟩

theorem fresh_add (h : s.Saved want d) {f : SavedFile}
    (next : ∀ p, f.saved = some p → s.Next p f.live) : ∀ e ∈ (s.add f).files, ∀ p,
      e.saved = some p → p = .prevBinary ∧ e.live = binary ∨
        ∃ dir n b, p = .saved dir n b ∧ n < (s.add f).files.length := by
  have length : (s.add f).files.length = s.files.length + 1 := by simp [FileSet.add]
  intro e mem p saved
  rcases mem_append.mp mem with mem | mem
  · rcases h.fresh e mem p saved with own | ⟨dir, n, b, rfl, lt⟩
    · exact .inl own
    · exact .inr ⟨dir, n, b, rfl, by omega⟩
  cases mem_singleton.mp mem
  rcases next p saved with own | ⟨dir, b, rfl⟩
  · exact .inl own
  · exact .inr ⟨dir, _, b, rfl, by omega⟩

theorem add_none (h : s.Saved want d) {f : String} (gone : want f = none) :
    (s.add ⟨f, none⟩).Saved want d where
  holds := forall_mem_append.mpr ⟨h.holds, forall_mem_singleton.mpr gone⟩
  fresh := h.fresh_add (by simp)

theorem add_copy (h : s.Saved want d) {f : String} {p : Path} (next : s.Next p f) {b : Blob}
    (content : want f = some b) :
    (s.add ⟨f, some p⟩).Saved want (d.write p (some b)) where
  holds e mem := by
    rcases mem_append.mp mem with mem | mem
    · have held := h.holds e mem
      have fresh := h.fresh e mem
      refine held.congr fun q saved _ => ?_
      by_cases same : q = p
      · -- only the binary's copy goes to one path twice
        subst same
        rcases fresh q saved with ⟨rfl, ofBinary⟩ | ⟨dir, n, c, rfl, lt⟩
        · rcases next with ⟨-, rfl⟩ | ⟨dir, c, path⟩
          · rw [SavedFile.Holds, saved] at held
            rw [held.2.2, ofBinary, content]
            exact files_write_self ..
          · cases path
        · rcases next with ⟨path, -⟩ | ⟨dir', c', path⟩
          · cases path
          · cases path
            exact absurd lt (Nat.lt_irrefl _)
      · exact files_write_of_ne d same _
    · cases mem_singleton.mp mem
      refine ⟨next.isCopy, ?_, ?_⟩
      · rw [content]
        rfl
      · rw [content]
        exact files_write_self ..
  fresh := h.fresh_add fun q saved => by
    cases saved
    exact next

end FileSet.Saved

/-- The set grew by entries in their slots: those of `lives`, if there was no error. -/
structure Extends (slot : Path → String → Prop) (lives : List String) (s s' : FileSet)
    (err : Option String) : Prop where
  replacedBy : s'.replacedBy = s.replacedBy
  files : ∃ added, s'.files = s.files ++ added ∧
    (∀ e ∈ added, e.live ∈ lives ∧ ∀ p, e.saved = some p → slot p e.live) ∧
    (err = none → added.map (·.live) = lives)

theorem Extends.stopped (lives : List String) (s : FileSet) (e : String) :
    Extends slot lives s s (some e) :=
  ⟨rfl, [], by simp, by simp, by simp⟩

theorem Extends.nil (s : FileSet) : Extends slot [] s s none := ⟨rfl, [], by simp, by simp, by simp⟩

theorem Extends.add {saved : Option Path}
    (mine : ∀ p, saved = some p → slot p f) (rest : Extends slot lives (s.add ⟨f, saved⟩) s' err) :
    Extends slot (f :: lives) s s' err := by
  obtain ⟨replacedBy, added, grown, slots, whole⟩ := rest
  refine ⟨replacedBy, ⟨f, saved⟩ :: added, ?_, ?_, fun ok => ?_⟩
  · simpa [FileSet.add] using grown
  · exact forall_mem_cons.mpr ⟨⟨mem_cons_self, mine⟩,
      fun e mem => ⟨mem_cons_of_mem _ (slots e mem).1, (slots e mem).2⟩⟩
  · rw [map_cons, whole ok]

theorem Extends.length (one : Extends slot [f] s s' none) :
    s'.files.length = s.files.length + 1 := by
  obtain ⟨-, added, grown, -, whole⟩ := one
  have count := congrArg List.length (whole rfl)
  rw [length_map] at count
  rw [grown, length_append, count]
  rfl

theorem Extends.trans {s'' : FileSet}
    (first : Extends slot [f] s s' none) (rest : Extends slot lives s' s'' err) :
    Extends slot (f :: lives) s s'' err := by
  obtain ⟨replacedBy, added, grown, slots, whole⟩ := first
  obtain ⟨replacedBy', added', grown', slots', whole'⟩ := rest
  refine ⟨replacedBy'.trans replacedBy, added ++ added', ?_, ?_, fun ok => ?_⟩
  · rw [grown', grown, append_assoc]
  · intro e mem
    rcases mem_append.mp mem with mem | mem
    · exact ⟨mem_cons.mpr (.inl (mem_singleton.mp (slots e mem).1)), (slots e mem).2⟩
    · exact ⟨mem_cons_of_mem _ (slots' e mem).1, (slots' e mem).2⟩
  · rw [map_append, whole rfl, whole' ok, singleton_append]

theorem Extends.halt {e : String}
    (first : Extends slot [f] s s' (some e)) : Extends slot (f :: lives) s s' (some e) := by
  obtain ⟨replacedBy, added, grown, slots, -⟩ := first
  refine ⟨replacedBy, added, grown, fun e mem => ⟨?_, (slots e mem).2⟩, by simp⟩
  exact mem_cons.mpr (.inl (mem_singleton.mp (slots e mem).1))

/-! ## The programs -/

/-- What a program that saves `lives` leaves. -/
structure SavedTo (calm : Prop) (want : String → Option Blob) (slot : Path → String → Prop)
    (lives : List String) (s : FileSet) (d : Disk) (r : FileSet × Option String) (d' : Disk) :
    Prop where
  copied : Copied slot d d'
  saved : r.1.Saved want d'
  grown : Extends slot lives s r.1 r.2
  sure : calm → r.2 = none

variable {d0 : Disk} (node allowed want slot) in
/-- A program that saves `lives`, at states where `node` holds. -/
abbrev Saves (d0 : Disk) (lives : List String) (s : FileSet) :=
  Stops node allowed (SavedTo (Calm allowed) want slot lives s d0)

section
variable (sofar : Copied slot d0 d) (saved : s.Saved want d)
  (here : ∀ d', Copied slot d0 d' → node d')
include sofar saved here

theorem safe_saveAll (old : ∀ f ∈ lives, d0.live f = want f)
    (slots : ∀ k f, lives[k]? = some f → slot (.saved dir (s.files.length + k) (base f)) f) :
    Saves node allowed want slot d0 lives s (FileSet.saveAll dir lives s) d := by
  induction lives generalizing s d with
  | nil => exact ⟨sofar, saved, .nil s, fun _ => rfl⟩
  | cons f lives ih =>
    have ofRest : ∀ g ∈ lives, d0.live g = want g := fun g mem =>
      old g (mem_cons_of_mem _ mem)
    have slotsRest (entry : SavedFile) : ∀ k g, lives[k]? = some g →
        slot (.saved dir ((s.add entry).files.length + k) (base g)) g := by
      intro k g at_k
      have := slots (k + 1) g (by simpa using at_k)
      simpa [FileSet.add, Nat.add_assoc, Nat.add_comm 1 k] using this
    have content : d.live f = want f := (sofar.lives f).trans (old f mem_cons_self)
    refine safe_ask.mpr ⟨here d sofar, fun ans ok => ?_⟩
    dsimp only [exec]
    cases fault : ans.fault with
    | some e =>
      refine ⟨sofar, saved, .stopped _ s e, fun calm => ?_⟩
      rw [calm _ _ rfl ok] at fault
      cases fault
    | none =>
      cases there : d.live f with
      | none =>
        have gone : want f = none := content.symm.trans there
        refine safe_mono (fun r d' done => ?_) (ih sofar (saved.add_none gone) ofRest (slotsRest _))
        exact { done with grown := done.grown.add (by simp) }
      | some b =>
        have mine : slot (.saved dir s.files.length (base f)) f := slots 0 f rfl
        refine safe_ask.mpr ⟨here d sofar, fun ans' ok' => ?_⟩
        rcases exec_copy (.live f) (.saved dir s.files.length (base f)) ans' d with
          ⟨e, ran, why⟩ | ⟨b', read, ran⟩
        · rw [ran]
          refine ⟨sofar, saved, .stopped _ s _, fun calm => ?_⟩
          rcases why with missing | faulty
          · cases missing.symm.trans there
          · exact absurd (calm _ _ rfl ok') faulty
        · rw [ran]
          have copied := sofar.write mine rfl
          have read' : d.live f = some b' := read
          rw [read'] at copied
          refine safe_mono (fun r d' done => ?_) (ih copied
            (saved.add_copy (.inr ⟨dir, base f, rfl⟩) (content.symm.trans read')) ofRest
            (slotsRest _))
          refine { done with grown := done.grown.add fun p same => ?_ }
          cases same
          exact mine

/-- The files are copied into the set. -/
theorem safe_save (old : ∀ f ∈ lives, d0.live f = want f)
    (slots : ∀ k f, lives[k]? = some f → slot (.saved dir (s.files.length + k) (base f)) f) :
    Saves node allowed want slot d0 lives s (s.save dir lives) d := by
  refine safe_ask.mpr ⟨here d sofar, fun ans ok => ?_⟩
  dsimp only [exec]
  cases fault : ans.fault with
  | some e =>
    refine ⟨sofar, saved, .stopped _ s e, fun calm => ?_⟩
    rw [calm _ _ rfl ok] at fault
    cases fault
  | none => exact safe_saveAll sofar saved here old slots

theorem safe_saveAt (old : d0.live binary = want binary) (mine : slot .prevBinary binary)
    (looks : ∀ ans, allowed (.stat binary) ans → ans.fault = none) :
    Saves node allowed want slot d0 [binary] s (s.saveAt binary .prevBinary) d := by
  have content : d.live binary = want binary := (sofar.lives binary).trans old
  refine safe_ask.mpr ⟨here d sofar, fun ans ok => ?_⟩
  dsimp only [exec]
  rw [looks ans ok]
  cases there : d.live binary with
  | none =>
    have gone : want binary = none := content.symm.trans there
    exact ⟨sofar, saved.add_none gone, .add (by simp) (.nil _), fun _ => rfl⟩
  | some b =>
    refine safe_ask.mpr ⟨here d sofar, fun ans' ok' => ?_⟩
    rcases exec_copy (.live binary) .prevBinary ans' d with ⟨e, ran, why⟩ | ⟨b', read, ran⟩
    · rw [ran]
      refine ⟨sofar, saved, .stopped _ s _, fun calm => ?_⟩
      rcases why with missing | faulty
      · cases missing.symm.trans there
      · exact absurd (calm _ _ rfl ok') faulty
    · rw [ran]
      have copied := sofar.write mine rfl
      have read' : d.live binary = some b' := read
      rw [read'] at copied
      refine ⟨copied, saved.add_copy (.inl ⟨rfl, rfl⟩) (content.symm.trans read'),
        .add (fun p same => ?_) (.nil _), fun _ => rfl⟩
      cases same
      exact mine

theorem safe_savePlan {plan : List (String × Path)} (old : ∀ x ∈ plan, d0.live x.1 = want x.1)
    (slots : ∀ n f, slot (.saved .files n (base f)) f) (mine : slot .prevBinary binary)
    (looks : ∀ ans, allowed (.stat binary) ans → ans.fault = none) :
    Saves node allowed want slot d0 (plan.map (·.1)) s (savePlan plan s) d := by
  induction plan generalizing s d with
  | nil => exact ⟨sofar, saved, .nil s, fun _ => rfl⟩
  | cons x plan ih =>
    have oldFirst := old x mem_cons_self
    have one : Saves node allowed want slot d0 [x.1] s (s.saveLive x.1) d := by
      unfold FileSet.saveLive
      split
      next same =>
        rw [same] at oldFirst ⊢
        exact safe_saveAt sofar saved here oldFirst mine looks
      · refine safe_save sofar saved here ?_ fun k f _ => slots _ f
        simpa using oldFirst
    refine safe_then one fun r d' done => ?_
    obtain ⟨s', err⟩ := r
    cases err with
    | some e =>
      exact { done with
        grown := done.grown.halt
        sure := fun calm => absurd (done.sure calm) (by simp) }
    | none =>
      refine safe_mono (fun r d'' rest => ?_)
        (ih done.copied done.saved fun y mem => old y (mem_cons_of_mem _ mem))
      exact { rest with grown := done.grown.trans rest.grown }

theorem safe_saveForward {es : List SavedFile}
    (old : ∀ e ∈ es, d0.live e.live = want e.live)
    (slots : ∀ k f, (es.map (·.live))[k]? = some f →
      slot (.saved .forward (s.files.length + k) (base f)) f) :
    Saves node allowed want slot d0 (es.map (·.live)) s (saveForward es s) d := by
  induction es generalizing s d with
  | nil => exact ⟨sofar, saved, .nil s, fun _ => rfl⟩
  | cons e es ih =>
    have one : Saves node allowed want slot d0 [e.live] s (s.save .forward [e.live]) d := by
      refine safe_save sofar saved here ?_ fun k f at_k => ?_
      · simpa using old e mem_cons_self
      cases k with
      | zero => exact slots 0 f at_k
      | succ k => cases at_k
    refine safe_then one fun r d' done => ?_
    obtain ⟨s', err⟩ := r
    cases err with
    | some e =>
      exact { done with
        grown := done.grown.halt
        sure := fun calm => absurd (done.sure calm) (by simp) }
    | none =>
      refine safe_mono (fun r d'' rest => ?_) (ih done.copied done.saved
        (fun y mem => old y (mem_cons_of_mem _ mem)) fun k f at_k => ?_)
      · exact { rest with grown := done.grown.trans rest.grown }
      have := slots (k + 1) f (by simpa using at_k)
      have one : s'.files.length = s.files.length + 1 := done.grown.length
      rwa [one, Nat.add_assoc, Nat.add_comm 1 k]

end

end Saving

end NasnetPanel.Update
