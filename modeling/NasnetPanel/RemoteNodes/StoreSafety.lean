import NasnetPanel.RemoteNodes.Store

/-!
# RemoteNodes.StoreSafety — the state changes all at once or not at all

`all_or_nothing`: in every run of `Open`, `Update` and `Restore`, whatever call on the disk fails
and wherever the process or the machine stops,

* readers see a valid state, and between calls it is what the file reads as,
* a call that returns an error leaves memory and file as they were, one that returns nil leaves both
  at the state its edit made,
* what is opened after a stop is the state before or after the call it interrupted.

`Open` settles the installs that ran, so a file reads as the settled form of the state it was
written from.

Two things are asked of the run. No pointer an edit kept writes to its copy before the call returns
(`kept_pointer`: the copy is checked, encoded and shown at three different times), and the machine
does not stop while the last rename has not been synced to its directory, a failure `writeAtomic`
takes no notice of.
-/

namespace NasnetPanel.RemoteNodes.Store
open CrashProg CrashProg.Prog List Option

variable {R U X : Type}

/-! ## Reading what was written -/

theorem Node.settle_settle (n : Node R) : n.settle.settle = n.settle := by
  unfold Node.settle
  split
  · have known : unknownFailure ≠ "" := by decide
    simp [known]
  · rfl

namespace State

theorem settle_settle (s : State R U X) : s.settleInstalls.settleInstalls = s.settleInstalls := by
  simp [settleInstalls, Node.settle_settle]

end State

namespace Format

/-- What `Open` makes of the file. -/
def read (F : Format R U X) : Option Bytes → Option (State R U X)
  | none => some (newState F.defaults)
  | some b => F.decode b

variable {F : Format R U X} {s : State R U X} {b : Bytes}

theorem read_encode (valid : F.validate s = true)
    (enc : F.encode s = some b) : F.read (some b) = some s.settleInstalls := by
  simp [read, decode, F.undoes s b valid enc, valid]

theorem of_read {file : Option Bytes} (h : F.read file = some s) :
    F.validate s = true ∧ s.settleInstalls = s := by
  cases file with
  | none =>
    cases h
    exact ⟨F.fresh, rfl⟩
  | some b =>
    dsimp only [read, decode] at h
    split at h
    · cases h
    split at h
    · rename_i s' _ valid
      cases h
      exact ⟨F.settles s' valid, s'.settle_settle⟩
    · cases h

theorem encode_inj {t : State R U X} (validS : F.validate s = true)
    (validT : F.validate t = true) (encS : F.encode s = some b) (encT : F.encode t = some b) :
    s = t :=
  Option.some.inj ((F.undoes s b validS encS).symm.trans (F.undoes t b validT encT))

theorem validate_of_checkEdit {before : State R U X} (h : F.checkEdit s before = none) :
    F.validate s = true := by
  unfold checkEdit at h
  split at h
  · cases h
  · rename_i valid
    simpa using valid

end Format

/-! ## Saving -/

/-- No pointer an edit kept writes to its copy. -/
def Unmeddled : Call R U X → Answer R U X → Prop
  | .look _, ans => ans.meddled = none
  | _, _ => True

/-- Only the temporary file differs. -/
def Kept (w w' : World R U X) : Prop := ∃ temp, w' = { w with temp := temp }

/-- The temporary file was renamed over the old one. -/
def Renamed (w : World R U X) (data : Bytes) (w' : World R U X) : Prop :=
  ∃ temp, w' = { w with temp := temp, file := some data, versions := some data :: w.versions }

/-- The rename is done, and its sync was tried. -/
def Saved (w : World R U X) (data : Bytes) (w' : World R U X) : Prop :=
  w'.mem = w.mem ∧ w'.file = some data ∧ (w'.unsynced = false → w'.versions = [some data])

section Saving
variable {node : World R U X → Prop} {w w1 : World R U X} {data : Bytes}

theorem Kept.refl (w : World R U X) : Kept w w := ⟨w.temp, rfl⟩

theorem Kept.trans {w2 : World R U X} (a : Kept w w1) (b : Kept w1 w2) : Kept w w2 := by
  obtain ⟨_, rfl⟩ := a
  obtain ⟨temp, rfl⟩ := b
  exact ⟨temp, rfl⟩

variable {err : Error → World R U X → Prop}

section
variable (here : ∀ w', Kept w w' → node w')
include here

theorem safe_fillTemp (empty : w.temp = some []) :
    Safe exec (fun _ => node) Unmeddled
      (Gives (fun ok w' => Kept w w' ∧ (ok = true → w'.temp = some data)) err)
      (fillTemp data).run w := by
  refine safe_request (here w (.refl w)) fun ans _ => ?_
  dsimp only [exec]
  cases ans.fails with
  | true => exact ⟨.refl w, by simp⟩
  | false =>
    refine safe_request (here w (.refl w)) fun ans' _ => ?_
    dsimp only [exec]
    cases ans'.fails with
    | true => exact ⟨⟨_, rfl⟩, by simp⟩
    | false =>
      refine ⟨here _ ⟨_, rfl⟩, fun ans'' _ => ⟨⟨_, rfl⟩, fun _ => ?_⟩⟩
      simp [exec, empty]

theorem safe_writeTemp (empty : w.temp = some []) :
    Safe exec (fun _ => node) Unmeddled
      (Gives (fun ok w' => Kept w w' ∧ (ok = true → w'.temp = some data)) err)
      (writeTemp data).run w := by
  refine safe_seq (safe_fillTemp here empty) fun filled w1 h1 => ?_
  refine safe_request (here w1 h1.1) fun ans _ => ⟨h1.1, fun ok => ?_⟩
  exact h1.2 (by simpa using (Bool.and_eq_true_iff.mp ok).1)

theorem safe_giveUp {ok : Unit → World R U X → Prop} (kept : Kept w w1) :
    Safe exec (fun _ => node) Unmeddled (Gives ok fun _ => Kept w) giveUp.run w1 := by
  refine safe_request (here w1 kept) fun ans _ => ?_
  dsimp only [exec]
  cases ans.fails with
  | true => exact kept
  | false => exact kept.trans ⟨_, rfl⟩

end

/-- **A save replaces the file by all of the data, or leaves it.** -/
theorem safe_writeAtomic (here : ∀ w', Kept w w' ∨ Renamed w data w' → node w') :
    Safe exec (fun _ => node) Unmeddled (Gives (fun _ => Saved w data) fun _ => Kept w)
      (writeAtomic data).run w := by
  have before : ∀ w', Kept w w' → node w' := fun w' kept => here w' (.inl kept)
  refine safe_request (before w (.refl w)) fun ans _ => ?_
  dsimp only [exec]
  cases ans.fails with
  | true => exact .refl w
  | false =>
    refine safe_ensure (by simp) fun _ => ?_
    have start : Kept w { w with temp := some [] } := ⟨_, rfl⟩
    refine safe_seq (safe_writeTemp (fun w' kept => before w' (start.trans kept)) rfl)
      fun ok w1 h1 => ?_
    have kept := start.trans h1.1
    cases ok with
    | false => exact safe_giveUp before kept
    | true =>
      refine safe_request (before w1 kept) fun ans' _ => ?_
      dsimp only [exec]
      cases ans'.fails with
      | true => exact safe_giveUp before kept
      | false =>
        obtain ⟨_, rfl⟩ := kept
        have temp := h1.2 rfl
        subst temp
        refine safe_request (here _ (.inr ⟨_, rfl⟩)) fun ans'' _ => ?_
        dsimp only [exec]
        cases ans''.fails with
        | true => exact ⟨rfl, rfl, by simp⟩
        | false => exact ⟨rfl, rfl, fun _ => rfl⟩

end Saving

/-! ## A call -/

/-- Memory and file agree, and a file that is synced is the only version there is. -/
structure Agrees (F : Format R U X) (w : World R U X) : Prop where
  valid : ∀ m, w.mem = some m → F.validate m.cur = true ∧ F.encode m.cur = some m.enc
  reads : ∀ m, w.mem = some m → F.read w.file = some m.cur.settleInstalls
  synced : w.unsynced = false → ∀ v ∈ w.versions, v = w.file

/-- A version of the file from before the edit or from after it. -/
def Outcome (F : Format R U X) (s : State R U X) (fn : Edit R U X) (v : Option Bytes) : Prop :=
  F.read v = some s.settleInstalls ∨
    ∃ next, fn s = .ok next ∧ F.read v = some next.settleInstalls

/-- What a stop finds: the file is from before the edit or from after it, also after a power cut. -/
structure Whole (F : Format R U X) (s : State R U X) (fn : Edit R U X) (w : World R U X) :
    Prop where
  file : Outcome F s fn w.file
  versions : w.unsynced = false → ∀ v ∈ w.versions, Outcome F s fn v

/-- What holds while a call runs. -/
structure Between (F : Format R U X) (m : Mem R U X) (fn : Edit R U X) (w : World R U X) : Prop
    extends Whole F m.cur fn w where
  mem : w.mem = some m

/-- The call returned nil. -/
structure Done (F : Format R U X) (s : State R U X) (fn : Edit R U X) (w : World R U X) : Prop
    extends Agrees F w where
  edited : ∃ next m, fn s = .ok next ∧ F.checkEdit next s = none ∧ w.mem = some m ∧ m.cur = next

section Calls
variable {F : Format R U X} {m : Mem R U X} {fn : Edit R U X} {w : World R U X} {w' : World R U X}

theorem Agrees.kept (h : Agrees F w) (kept : Kept w w') : Agrees F w' := by
  obtain ⟨_, rfl⟩ := kept
  exact { h with }

theorem Agrees.between (h : Agrees F w) (mem : w.mem = some m)
    (kept : Kept w w') : Between F m fn w' := by
  obtain ⟨_, rfl⟩ := kept
  have before : Outcome F m.cur fn w.file := .inl (h.reads m mem)
  exact ⟨⟨before, fun synced v there => h.synced synced v there ▸ before⟩, mem⟩

variable {next : State R U X} {enc : Bytes}

theorem Agrees.renamed (h : Agrees F w) (mem : w.mem = some m) (edited : fn m.cur = .ok next)
    (valid : F.validate next = true) (encoded : F.encode next = some enc)
    (renamed : Renamed w enc w') : Between F m fn w' := by
  obtain ⟨_, rfl⟩ := renamed
  have after : Outcome F m.cur fn (some enc) :=
    .inr ⟨next, edited, Format.read_encode valid encoded⟩
  refine ⟨⟨after, fun synced v there => ?_⟩, mem⟩
  rcases mem_cons.mp there with rfl | there
  · exact after
  · exact h.synced synced v there ▸ .inl (h.reads m mem)

theorem Done.whole (h : Done F m.cur fn w) : Whole F m.cur fn w := by
  obtain ⟨next, m', edited, -, mem, rfl⟩ := h.edited
  have after : Outcome F m.cur fn w.file := .inr ⟨m'.cur, edited, h.reads m' mem⟩
  exact ⟨after, fun synced v there => h.synced synced v there ▸ after⟩

/-- While a save runs the file has the old state or the new one. -/
theorem safe_save (h : Agrees F w) (mem : w.mem = some m)
    (edited : fn m.cur = .ok next) (checked : F.checkEdit next m.cur = none)
    (encoded : F.encode next = some enc) :
    Safe exec (fun _ => Between F m fn) Unmeddled
      (Gives (fun _ => Done F m.cur fn) fun _ => Kept w) (save m next enc).run w := by
  have valid : F.validate next = true := Format.validate_of_checkEdit checked
  unfold save
  split
  case isTrue same =>
    -- The same bytes are the same state.
    obtain ⟨validM, encM⟩ := h.valid m mem
    have unchanged : m.cur = next := Format.encode_inj validM valid encM (same ▸ encoded)
    exact ⟨h, next, m, edited, checked, mem, unchanged⟩
  case isFalse =>
    have here : ∀ w', Kept w w' ∨ Renamed w enc w' → Between F m fn w' := by
      rintro w' (kept | renamed)
      · exact h.between mem kept
      · exact h.renamed mem edited valid encoded renamed
    refine safe_seq (safe_writeAtomic here) fun _ w1 saved => ?_
    obtain ⟨mem1, file1, versions1⟩ := saved
    have after : F.read (some enc) = some next.settleInstalls := Format.read_encode valid encoded
    have between : Between F m fn w1 := by
      have outcome : Outcome F m.cur fn (some enc) := .inr ⟨next, edited, after⟩
      refine ⟨⟨file1 ▸ outcome, fun synced v there => ?_⟩, mem1.trans mem⟩
      rw [versions1 synced, mem_singleton] at there
      exact there ▸ outcome
    refine safe_request between fun ans unmeddled => ?_
    refine safe_request between fun ans' _ => ?_
    have shown : ans.meddled.getD next = next := congrArg (·.getD next) unmeddled
    dsimp only [exec]
    rw [shown]
    refine ⟨⟨?_, ?_, ?_⟩, next, _, edited, checked, rfl, rfl⟩
    · rintro _ ⟨⟩
      exact ⟨valid, encoded⟩
    · rintro _ ⟨⟩
      exact file1 ▸ after
    intro synced v there
    have one : v ∈ w1.versions := there
    rw [versions1 synced, mem_singleton] at one
    exact one.trans file1.symm

/-- **An update is done or leaves everything as it was**, and whenever it stops the file is whole.
-/
theorem safe_update (h : Agrees F w) (mem : w.mem = some m) (fn : Edit R U X) :
    Safe exec (fun _ => Between F m fn) Unmeddled
      (Gives (fun _ => Done F m.cur fn) fun _ => Kept w) (F.update m fn).run w := by
  have between : Between F m fn w := h.between mem (.refl w)
  unfold Format.update
  cases edited : fn m.cur with
  | error e => exact .refl w
  | ok next =>
    refine safe_request between fun ans unmeddled => ?_
    have same : ans.meddled.getD next = next := congrArg (·.getD next) unmeddled
    dsimp only [exec]
    rw [same]
    cases checked : F.checkEdit next m.cur with
    | some e => exact .refl w
    | none =>
      refine safe_request between fun ans' unmeddled' => ?_
      have same' : ans'.meddled.getD next = next := congrArg (·.getD next) unmeddled'
      dsimp only [exec]
      rw [same']
      cases encoded : F.encode next with
      | none => exact .refl w
      | some enc => exact safe_save h mem edited checked encoded

/-- Every call is one edit, made whole or not at all. -/
theorem safe_program (h : Agrees F w) (mem : w.mem = some m) (op : Op R U X) :
    Safe exec (fun _ => Between F m (op.edit F)) Unmeddled
      (Gives (fun _ => Done F m.cur (op.edit F)) fun _ => Kept w) (op.program F m).run w := by
  cases op with
  | update fn => exact safe_update h mem fn
  | restore data =>
    dsimp only [Op.program, Format.restore]
    cases decoded : F.decode data with
    | none => exact .refl w
    | some restored =>
      have same : (Op.restore data : Op R U X).edit F = Format.restoring restored := by
        funext s
        simp only [Op.edit, decoded]
      rw [same]
      exact safe_update h mem _

/-- Opening shows what the file reads as. -/
theorem safe_openStore {allowed : Call R U X → Answer R U X → Prop} (h : Agrees F w)
    (closed : w.mem = none) :
    Safe exec (fun _ w' => w'.mem = none ∧ Agrees F w') allowed
      (Gives (fun _ w' => Agrees F w' ∧ ∃ m, w'.mem = some m ∧ F.read w.file = some m.cur)
        fun _ => Agrees F)
      F.openStore.run w := by
  have boots : ∀ s w1, Kept w w1 → F.read w.file = some s →
      Safe exec (fun _ w' => w'.mem = none ∧ Agrees F w') allowed
        (Gives (fun _ w' => Agrees F w' ∧ ∃ m, w'.mem = some m ∧ F.read w.file = some m.cur)
          fun _ => Agrees F) (F.boot s).run w1 := by
    intro s w1 kept reads
    have agrees := h.kept kept
    obtain ⟨_, rfl⟩ := kept
    unfold Format.boot
    cases encoded : F.encode s with
    | none => exact agrees
    | some enc =>
      obtain ⟨valid, settled⟩ := Format.of_read reads
      refine safe_request ⟨closed, agrees⟩ fun ans _ => ⟨⟨?_, ?_, h.synced⟩, _, rfl, reads⟩
      · rintro _ ⟨⟩
        exact ⟨valid, encoded⟩
      · rintro _ ⟨⟩
        exact reads.trans (congrArg some settled.symm)
  refine safe_request ⟨closed, h⟩ fun ans _ => ?_
  have kept : Kept w (exec .removeTemp ans w).2 := by
    dsimp only [exec]
    cases ans.fails with
    | true => exact .refl w
    | false => exact ⟨_, rfl⟩
  generalize (exec .removeTemp ans w).2 = w1 at kept
  have agrees := h.kept kept
  have same : w1.file = w.file ∧ w1.mem = none := by
    obtain ⟨_, rfl⟩ := kept
    exact ⟨rfl, closed⟩
  refine safe_request ⟨same.2, agrees⟩ fun ans' _ => ?_
  dsimp only [exec]
  cases ans'.fails with
  | true => exact agrees
  | false =>
    rw [if_neg (by simp), same.1]
    cases file : w.file with
    | none =>
      rw [file] at boots
      exact boots _ w1 kept rfl
    | some b =>
      rw [file] at boots
      dsimp only
      cases decoded : F.decode b with
      | none => exact agrees
      | some s => exact boots s w1 kept decoded

end Calls

/-! ## Runs -/

/-- No kept pointer writes to the copy of the call that runs, and no power cut comes while the last
rename is not synced. -/
def Orderly (s : System R U X) : Label R U X → Prop
  | .advance ans => ∀ c k, s.running = some (.call c k) → Unmeddled c ans
  | .powerCut _ => s.world.unsynced = false
  | _ => True

section Runs
variable {F : Format R U X} {s t : System R U X}

/-- Between calls memory and file agree; while one runs it ends so, and readers see a valid state.
-/
def Settled (F : Format R U X) (s : System R U X) : Prop :=
  match s.running with
  | none => Agrees F s.world
  | some p => Safe exec (fun _ w => ∀ m, w.mem = some m → F.validate m.cur = true) Unmeddled
      (fun _ => Agrees F) p s.world

theorem settled_installed (F : Format R U X) (file : Option Bytes) :
    Settled F (installed file) :=
  ⟨by simp [installed], by simp [installed], by simp [installed]⟩

variable {w : World R U X} {m : Mem R U X} {fn : Edit R U X}
  {w' : World R U X} {r : Except Error Unit}

theorem agrees_of_call (h : Agrees F w)
    (ended : Gives (fun _ => Done F m.cur fn) (fun _ => Kept w) r w') : Agrees F w' := by
  cases r with
  | ok _ => exact ended.toAgrees
  | error e => exact h.kept ended

theorem agrees_of_open
    (ended : Gives (fun _ w' => Agrees F w' ∧ ∃ m, w'.mem = some m ∧ F.read w.file = some m.cur)
      (fun _ => Agrees F) r w') : Agrees F w' := by
  cases r with
  | ok _ => exact ended.1
  | error e => exact ended

theorem agrees_dead (dead : w.mem = none)
    (synced : w.unsynced = false → w.versions = [w.file]) : Agrees F w := by
  refine ⟨by simp [dead], by simp [dead], fun ok v there => ?_⟩
  rw [synced ok] at there
  exact mem_singleton.mp there

/-- One orderly step keeps the store settled. -/
theorem Settled.step {l : Label R U X} (h : Settled F s) (orderly : Orderly s l)
    (ht : step F s l = some t) : Settled F t := by
  cases l with
  | openStore =>
    dsimp only [Store.step] at ht
    split at ht
    · rename_i closed idle
      cases ht
      have agrees : Agrees F s.world := by simpa [Settled, idle] using h
      refine safe_mono (fun _ _ => agrees_of_open) (safe_weaken ?_ (safe_openStore agrees closed))
      intro _ w open_ m mem
      rw [open_.1] at mem
      cases mem
    · cases ht
  | call op =>
    dsimp only [Store.step] at ht
    split at ht
    · rename_i m mem idle
      cases ht
      have agrees : Agrees F s.world := by simpa [Settled, idle] using h
      refine safe_mono (fun _ _ => agrees_of_call agrees)
        (safe_weaken ?_ (safe_program agrees mem op))
      intro _ w between m' mem'
      cases between.mem.symm.trans mem'
      exact (agrees.valid m mem).1
    · cases ht
  | advance ans =>
    dsimp only [Store.step] at ht
    unfold Settled at h
    cases running : s.running with
    | none => simp [running] at ht
    | some p =>
      rw [running] at h ht
      cases p with
      | ret r =>
        cases ht
        exact h
      | call c k =>
        cases ht
        exact h.2 ans (orderly c k running)
  | kill =>
    cases ht
    refine agrees_dead rfl fun ok => ?_
    simpa using (Bool.or_eq_false_iff.mp ok).2
  | powerCut version =>
    obtain ⟨file, -, rfl⟩ := map_eq_some_iff.mp ht
    exact agrees_dead rfl fun _ => rfl

/-- Every orderly run of an install is settled. -/
theorem settled_run {file : Option Bytes} {ls : List (Label R U X)}
    (along : Runs.Along (step F) Orderly (installed file) ls)
    (h : Runs.run (step F) (installed file) ls = some s) : Settled F s :=
  Runs.run_inv_along (fun _ _ _ h orderly ht => h.step orderly ht) (settled_installed F file) along
    h

/-! ## Stops -/

/-- A call is running or has ended, and the file is whole. -/
def Underway (F : Format R U X) (m : Mem R U X) (fn : Edit R U X) (s : System R U X) : Prop :=
  match s.running with
  | none => Whole F m.cur fn s.world
  | some p => Safe exec (fun _ => Between F m fn) Unmeddled (fun _ => Whole F m.cur fn) p s.world

theorem Underway.whole (h : Underway F m fn s) : Whole F m.cur fn s.world := by
  unfold Underway at h
  split at h
  · exact h
  rename_i p _
  cases p with
  | ret r => exact h
  | call c k => exact h.1.toWhole

theorem Underway.advance {ans : Answer R U X}
    (h : Underway F m fn s) (orderly : Orderly s (.advance ans))
    (ht : step F s (.advance ans) = some t) : Underway F m fn t := by
  dsimp only [Store.step] at ht
  unfold Underway at h
  cases running : s.running with
  | none => simp [running] at ht
  | some p =>
    rw [running] at h ht
    cases p with
    | ret r =>
      cases ht
      exact h
    | call c k =>
      cases ht
      exact h.2 ans (orderly c k running)

/-- A call under way leaves the file whole, however it is answered. -/
theorem Underway.run (answers : List (Answer R U X))
    (h : Underway F m fn s) (along : Runs.Along (step F) Orderly s (answers.map .advance))
    (ht : Runs.run (step F) s (answers.map .advance) = some t) : Underway F m fn t := by
  induction answers generalizing s with
  | nil =>
    cases ht
    exact h
  | cons ans rest ih =>
    rw [map_cons, Runs.run_cons] at ht
    obtain ⟨u, first, later⟩ := ht
    exact ih (h.advance along.1 first) (along.2 u first) later

theorem underway_call {op : Op R U X} (h : Agrees F s.world)
    (mem : s.world.mem = some m) (ht : step F s (.call op) = some t) :
    Underway F m (op.edit F) t := by
  dsimp only [Store.step] at ht
  split at ht
  · rename_i m' mem' _
    cases ht
    cases mem.symm.trans mem'
    refine safe_mono ?_ (safe_program h mem op)
    intro r w' ended
    cases r with
    | ok _ => exact Done.whole ended
    | error e => exact (h.between mem ended).toWhole
  · cases ht

/-- The process dies, or the machine while the last rename is synced. -/
def Dies (F : Format R U X) (s t : System R U X) : Prop :=
  step F s .kill = some t ∨ s.world.unsynced = false ∧ ∃ v, step F s (.powerCut v) = some t

def Opens (F : Format R U X) (w : World R U X) (s : State R U X) : Prop :=
  F.read w.file = some s ∧ ∀ w', Ends exec (fun _ _ => True) F.openStore.run w (.ok ()) w' →
    ∃ m, w'.mem = some m ∧ m.cur = s

theorem opens_of_read {x : State R U X} (h : Agrees F w) (closed : w.mem = none)
    (reads : F.read w.file = some x) : Opens F w x := by
  refine ⟨reads, fun w' ends => ?_⟩
  obtain ⟨-, m, mem, shown⟩ := post_of_ends (safe_openStore h closed) ends
  exact ⟨m, mem, Option.some.inj (shown.symm.trans reads)⟩

theorem Dies.file (dies : Dies F s t) : Agrees F t.world ∧ t.world.mem = none ∧
    (t.world.file = s.world.file ∨ s.world.unsynced = false ∧ t.world.file ∈ s.world.versions) := by
  rcases dies with killed | ⟨synced, v, cut⟩
  · cases killed
    refine ⟨agrees_dead rfl fun ok => ?_, rfl, .inl rfl⟩
    simpa using (Bool.or_eq_false_iff.mp ok).2
  · obtain ⟨file, there, rfl⟩ := map_eq_some_iff.mp cut
    exact ⟨agrees_dead rfl fun _ => rfl, rfl, .inr ⟨synced, mem_of_getElem? there⟩⟩

theorem Underway.dies (h : Underway F m fn s)
    (dies : Dies F s t) : Opens F t.world m.cur.settleInstalls ∨
      ∃ next, fn m.cur = .ok next ∧ Opens F t.world next.settleInstalls := by
  obtain ⟨agrees, closed, file⟩ := dies.file
  have outcome : Outcome F m.cur fn t.world.file := by
    rcases file with same | ⟨synced, there⟩
    · exact same ▸ h.whole.file
    · exact h.whole.versions synced _ there
  rcases outcome with before | ⟨next, edited, after⟩
  · exact .inl (opens_of_read agrees closed before)
  · exact .inr ⟨next, edited, opens_of_read agrees closed after⟩

/-- **The state changes all at once or not at all.** -/
theorem all_or_nothing (F : Format R U X) {file : Option Bytes} {ls : List (Label R U X)}
    (along : Runs.Along (step F) Orderly (installed file) ls)
    (h : Runs.run (step F) (installed file) ls = some s) {m : Mem R U X}
    (mem : s.world.mem = some m) :
    F.validate m.cur = true ∧
    (s.running = none →
      F.read s.world.file = some m.cur.settleInstalls ∧
      (∀ t, Dies F s t → Opens F t.world m.cur.settleInstalls) ∧
      ∀ op : Op R U X,
        (∀ e w', Ends exec Unmeddled (op.program F m).run s.world (.error e) w' →
          w'.mem = some m ∧ w'.file = s.world.file) ∧
        (∀ w', Ends exec Unmeddled (op.program F m).run s.world (.ok ()) w' →
          ∃ next m', op.edit F m.cur = .ok next ∧ F.checkEdit next m.cur = none ∧
            w'.mem = some m' ∧ m'.cur = next ∧ F.read w'.file = some next.settleInstalls) ∧
        ∀ (answers : List (Answer R U X)) u t,
          Runs.Along (step F) Orderly s (.call op :: answers.map .advance) →
          Runs.run (step F) s (.call op :: answers.map .advance) = some u → Dies F u t →
          Opens F t.world m.cur.settleInstalls ∨
            ∃ next, op.edit F m.cur = .ok next ∧ Opens F t.world next.settleInstalls) := by
  have settled : Settled F s := settled_run along h
  refine ⟨?_, fun idle => ?_⟩
  · unfold Settled at settled
    split at settled
    · exact (settled.valid m mem).1
    rename_i p _
    cases p with
    | ret r => exact (Agrees.valid settled m mem).1
    | call c k => exact settled.1 m mem
  · have agrees : Agrees F s.world := by simpa [Settled, idle] using settled
    refine ⟨agrees.reads m mem, fun t dies => ?_, fun op => ⟨?_, ?_, ?_⟩⟩
    · obtain ⟨agreesT, closed, same⟩ := dies.file
      refine opens_of_read agreesT closed ?_
      rcases same with same | ⟨synced, there⟩
      · exact same ▸ agrees.reads m mem
      · exact agrees.synced synced _ there ▸ agrees.reads m mem
    · intro e w' ends
      obtain ⟨_, rfl⟩ := post_of_ends (safe_program agrees mem op) ends
      exact ⟨mem, rfl⟩
    · intro w' ends
      have done := post_of_ends (safe_program agrees mem op) ends
      obtain ⟨next, m', edited, checked, mem', cur⟩ := done.edited
      exact ⟨next, m', edited, checked, mem', cur, cur ▸ done.reads m' mem'⟩
    · intro answers u t alongCall ran dies
      rw [Runs.run_cons] at ran
      obtain ⟨v, called, later⟩ := ran
      have started := underway_call agrees mem called
      exact (started.run answers (alongCall.2 v called) later).dies dies

end Runs

/-! ## A store of one byte -/

/-- States that differ in one byte, up to 100. -/
def oneByte : Format Unit Unit UInt8 where
  defaults := 0
  validate s := s = newState s.rest && s.rest ≤ 100
  encode s := some [s.rest]
  parse
    | [x] => some (newState x)
    | _ => none
  undoes s b valid enc := by
    cases enc
    have shape : s = newState s.rest := by simpa using (Bool.and_eq_true_iff.mp valid).1
    exact congrArg some shape.symm
  settles s valid := by
    have shape : s = newState s.rest := by simpa using (Bool.and_eq_true_iff.mp valid).1
    have same : s.settleInstalls = s := by rw [shape]; rfl
    rw [same]
    exact valid
  fresh := rfl

def setTo (x : UInt8) : Op Unit Unit UInt8 := .update fun s => .ok { s with rest := x }

/-- The executable form of `Orderly`. -/
def orderly (s : System Unit Unit UInt8) : Label Unit Unit UInt8 → Bool
  | .advance ans => ans.meddled.isNone
  | .powerCut _ => !s.world.unsynced
  | _ => true

theorem orderly_of {s : System Unit Unit UInt8} {l : Label Unit Unit UInt8}
    (h : orderly s l = true) : Orderly s l := by
  cases l with
  | advance ans =>
    intro c k _
    cases c with
    | look next => exact isNone_iff_eq_none.mp h
    | _ => trivial
  | powerCut v => simpa [orderly, Orderly] using h
  | _ => trivial

def opening : List (Label Unit Unit UInt8) := .openStore :: List.replicate 4 (.advance {})

/-- The calls of an update, up to the sync of the directory and from there on. -/
def setting (x : UInt8) (sync look : Answer Unit Unit UInt8) : List (Label Unit Unit UInt8) :=
  Label.call (setTo x) :: List.replicate 8 (.advance {}) ++
    [Label.advance sync, .advance look, .advance {}, .advance {}]

theorem all_or_nothing_set : ∃ s m,
    Runs.run (step oneByte) (installed none) (opening ++ setting 1 {} {}) = some s ∧
      s.world.mem = some m ∧ m.cur.rest = 1 ∧ oneByte.validate m.cur = true ∧
      oneByte.read s.world.file = some m.cur.settleInstalls := by
  have ran : (Runs.runChecked (step oneByte) orderly (installed none)
      (opening ++ setting 1 {} {})).map
      (fun s => (s.world.mem.map (·.cur.rest), s.running.isNone)) = some (some 1, true) := by
    decide
  obtain ⟨s, checked, ended⟩ := map_eq_some_iff.mp ran
  obtain ⟨mem, idle⟩ := Prod.mk.inj ended
  obtain ⟨m, mem, rest⟩ := map_eq_some_iff.mp mem
  obtain ⟨run, along⟩ := Runs.of_runChecked checked
  have held := all_or_nothing oneByte (along.mono fun _ _ => orderly_of) run mem
  exact ⟨s, m, run, mem, rest, held.1, (held.2 (isNone_iff_eq_none.mp idle)).1⟩

/-- A pointer the edit kept writes to its copy while the file is written: the call returns nil,
readers see a state that is not valid, and the file has another. -/
theorem kept_pointer :
    (Runs.run (step oneByte) (installed none)
      (opening ++ setting 1 {} { meddled := some (newState 200) })).map
      (fun s => (s.running.isNone, s.world.mem.map (fun m => (m.cur.rest, oneByte.validate m.cur)),
        s.world.file)) = some (true, some (200, false), some [1]) := by
  decide

/-- The sync of the directory fails, the call returns nil, and a power cut takes it back. -/
example : (Runs.run (step oneByte) (installed none)
    (opening ++ setting 1 { fails := true } {} ++ [.powerCut 1])).map (·.world.file) =
      some none := by
  decide

end NasnetPanel.RemoteNodes.Store
