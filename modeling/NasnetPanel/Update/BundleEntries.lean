import NasnetPanel.Update.Bundle

/-!
# Update.BundleEntries — what unpacking an uploaded bundle does, entry by entry

`Fits` is read off the tarball: for each file that the loop of `unpackBundle` can come to, what its
size does to the running total, which is an `int64`, and how many bytes there are of it.

* `safe_unpackEntry`, `safe_unpackEntries`: where every file fits, only paths below the directory
  change, at most 2 GiB are written and the sums are those of the files on the disk.
* `complete_unpackEntry`, `complete_unpackEntries`: where one does not, a disk without faults gets
  more than 2 GiB.

`Held` is what holds at every call, `Tracked` and `Reached` what holds between two entries.
-/

namespace NasnetPanel.Update.Unpack
open CrashProg CrashProg.Prog GoPath List Option Std.ExtTreeMap

/-! ## One place of the disk -/

theorem Tree.nodes_put_self (t : Tree) (p : List Name) (n : Node) :
    (t.put p n).nodes p = some n := by
  simp [Tree.put]

variable {p : List Name} {s : Sums} {err : Error → Tree → Prop} {ans : Answer} {n : Name}
  {e : Entry} {α : Type}

theorem Tree.nodes_put_below (t : Tree) {d q : List Name} (n : Node) (other : q ≠ p) :
    (t.put (d ++ p) n).nodes (d ++ q) = t.nodes (d ++ q) := by
  simp [Tree.put, other]

theorem Tree.put_put (t : Tree) (p : List Name) (n m : Node) : (t.put p n).put p m = t.put p m := by
  unfold Tree.put
  congr
  funext q
  dsimp only
  split <;> rfl

/-! ## The names of entries -/

/-- **What an entry is called inside the bundle is a path of plain names, or it is refused.** -/
theorem bundleEntry_plain {name rel : Text} (h : bundleEntry name = .ok rel) (there : rel ≠ []) :
    ∃ names, rel = relative names ∧ ∀ n ∈ names, Plain n := by
  unfold bundleEntry at h
  dsimp only at h
  split at h
  · exact absurd h (by simp)
  split at h
  · exact absurd (Except.ok.inj h).symm there
  split at h
  · exact absurd h (by simp)
  rename_i inside
  obtain ⟨notAbs, notUp, notUps⟩ :
      ¬ isAbs _ = true ∧ ¬ clean _ = dotdot ∧ ¬ dotdot ++ ['/'] <+: clean _ := by
    simpa only [not_or] using inside
  rw [← Except.ok.inj h]
  exact clean_relative (by simpa using notAbs) notUp notUps

/-! ## Which tarballs fit

Of the entries before one, the directories they make and the files they write say whether it can be
unpacked. -/

/-- Where an entry goes, if it is not the top directory and its name is not refused. -/
def Entry.dest (dir : Dir) (e : Entry) : Option (List Name) :=
  match bundleEntry e.name with
  | .ok (c :: rel) => some (resolve (dir.join (c :: rel)))
  | _ => none

def Entry.file (dir : Dir) (e : Entry) : Option (List Name) :=
  if e.typeflag = .reg then e.dest dir else none

/-- The directory an entry makes, with those above it. -/
def Entry.folder (dir : Dir) (e : Entry) : Option (List Name) :=
  match e.typeflag with
  | .dir => e.dest dir
  | .reg => (e.dest dir).map dropLast
  | .other => none

def folders (dir : Dir) (before : List Entry) : List (List Name) := before.filterMap (·.folder dir)

/-- The files that the entries write, each once. -/
def files (dir : Dir) (before : List Entry) : List (List Name) :=
  before.foldl (fun l e => ((e.file dir).map l.insert).getD l) []

def sizes (dir : Dir) (before : List Entry) : Int :=
  (before.map fun e => ((e.file dir).map fun _ => e.size.toInt).getD 0).sum

/-- The bytes that the reader gives of a file. -/
def Entry.bytes (e : Entry) : Nat := (e.data.take e.size.toInt.toNat).length

/-- Nothing is in the way of a file: no file is where a directory of it has to be, and its place is
no directory. -/
def Opens (start : Tree) (folders files : List (List Name)) (dest : List Name) : Prop :=
  (∀ f ∈ files, ¬ f <+: dest.dropLast) ∧ start.nodes dest ≠ some .dir ∧
    ∀ m ∈ folders, ¬ dest <+: m

/-- Where a file can be opened and its size takes the sum of the sizes past the largest `int64`,
the bytes that the reader gives of it are within the limit all the same. -/
def Entry.Fits (dir : Dir) (start : Tree) (before : List Entry) (e : Entry) : Prop :=
  ∀ dest ∈ e.file dir, (files dir before).length < maxBundleFiles →
    Opens start (folders dir before) (files dir before) dest →
    9223372036854775808 ≤ sizes dir before + e.size.toInt →
    sizes dir before + e.bytes ≤ 2147483648

/-- An entry can be unpacked after those before it, on a disk without faults. -/
def Entry.Lands (dir : Dir) (start : Tree) (before : List Entry) (e : Entry) : Prop :=
  match bundleEntry e.name with
  | .error _ => False
  | .ok [] => True
  | .ok rel =>
    match e.typeflag with
    | .dir => ∀ f ∈ files dir before, ¬ f <+: resolve (dir.join rel)
    | .reg => (files dir before).length < maxBundleFiles ∧
        Opens start (folders dir before) (files dir before) (resolve (dir.join rel)) ∧
        e.bytes = e.size.toInt ∧ sizes dir before + e.size.toInt ≤ 2147483648
    | .other => False

def FitFrom (dir : Dir) (start : Tree) (before : List Entry) : List Entry → Prop
  | [] => True
  | e :: rest => e.Fits dir start before ∧
      (e.Lands dir start before → FitFrom dir start (before ++ [e]) rest)

/-- Every file that unpacking can come to fits. -/
def Tarball.Fits (dir : Dir) (start : Tree) : Tarball → Prop
  | .stream entries _ => FitFrom dir start [] entries
  | _ => True

/-! ## What unpacking keeps -/

/-- Where unpacking may start: the directory is new or empty, and those above it are there. -/
structure Fresh (dir : Dir) (t : Tree) : Prop where
  root : t.nodes [] = some .dir
  above : ∀ p, p <+: dir.names → p ≠ dir.names → t.nodes p = some .dir
  top : t.nodes dir.names = none ∨ t.nodes dir.names = some .dir
  empty : ∀ p, p ≠ [] → t.nodes (dir.names ++ p) = none
  unwritten : t.written = 0

/-- What holds at every call: only paths below the directory changed, and little was written. -/
structure Held (dir : Dir) (start t : Tree) : Prop where
  outside : ∀ p, ¬ dir.names <+: p → t.nodes p = start.nodes p
  within : t.written ≤ 2147483648

/-- Between two entries the sums are those of the files below the directory, and the disk has the
directories and files of the entries so far. -/
structure Tracked (env : Env) (dir : Dir) (start : Tree) (folders files : List (List Name))
    (s : Sums) (t : Tree) : Prop extends Held dir start t where
  plain : ∀ p, t.nodes (dir.names ++ p) ≠ none → ∀ n ∈ p, Plain n
  hashed : ∀ p content, t.nodes (dir.names ++ p) = some (.file content) →
    s.sums[relative p]? = some (env.sha256 content)
  summed : ∀ rel sum, s.sums[rel]? = some sum → ∃ p content, (∀ n ∈ p, Plain n) ∧
    relative p = rel ∧ t.nodes (dir.names ++ p) = some (.file content) ∧ env.sha256 content = sum
  total : s.total.toInt = t.written
  made : ∀ p, t.nodes p = some .dir ↔ start.nodes p = some .dir ∨ ∃ m ∈ folders, p <+: m
  laid : ∀ p, (∃ content, t.nodes p = some (.file content)) ↔
    (∃ content, start.nodes p = some (.file content)) ∨ p ∈ files
  count : s.sums.size = files.length

section Steps
variable {env : Env} {dir : Dir} {start t : Tree} {s : Sums} {allowed : Call → Answer → Prop}
  {m f : List (List Name)} {p q : List Name} {e : Entry}

/-- A program that stays below `dir` however it ends. -/
abbrev Below {α : Type} (dir : Dir) (start : Tree) (allowed : Call → Answer → Prop)
    (good : α → Tree → Prop) :=
  Safe exec (fun _ => Held dir start) allowed (Gives good fun _ : Error => Held dir start)

theorem Held.put (held : Held dir start t) (p : List Name) (n : Node) :
    Held dir start (t.put (dir.names ++ p) n) where
  outside q away := by
    have other : q ≠ dir.names ++ p := fun same => away (same ▸ prefix_append _ _)
    simpa only [Tree.put, if_neg other] using held.outside q away
  within := held.within

/-! ## Directories -/

/-- The disk with a directory and those above it. -/
def Tree.mkdirs (t : Tree) (p : List Name) : Tree :=
  { t with nodes := fun q => if q <+: p then some .dir else t.nodes q }

/-- No file is where a directory of the path has to be. -/
def Clear (t : Tree) (p : List Name) : Prop :=
  ∀ q, q <+: p → ∀ content, t.nodes q ≠ some (.file content)

theorem Tree.nodes_mkdirs (t : Tree) (p q : List Name) :
    (t.mkdirs p).nodes q = if q <+: p then some .dir else t.nodes q := rfl

theorem Tree.mkdirs_of_there (there : ∀ q, q <+: p → t.nodes q = some .dir) : t.mkdirs p = t := by
  unfold Tree.mkdirs
  congr
  funext q
  split
  · rename_i up
    exact (there q up).symm
  · rfl

theorem Tree.mkdirs_mkdirs (t : Tree) (p q : List Name) :
    (t.mkdirs p).mkdirs (p ++ q) = t.mkdirs (p ++ q) := by
  unfold Tree.mkdirs
  congr
  funext r
  dsimp only
  by_cases up : r <+: p
  · simp [up.trans (prefix_append p q)]
  · simp [up]

theorem Tree.put_dir (t : Tree) (there : ∀ q, q <+: p → t.nodes q = some .dir) :
    t.put (p ++ [n]) .dir = t.mkdirs (p ++ [n]) := by
  unfold Tree.put Tree.mkdirs
  congr
  funext q
  simp only [prefix_concat_iff]
  by_cases same : q = p ++ [n]
  · simp [same]
  · by_cases up : q <+: p
    · simp [same, up, there q up]
    · simp [same, up]

/-- **What making one directory does**, where those above it are there. -/
theorem exec_mkdir (there : ∀ q, q <+: p → t.nodes q = some .dir) (ans : Answer) :
    exec (.mkdir (p ++ [n])) ans t = (false, t) ∧
        (ans.fails = true ∨ ∃ content, t.nodes (p ++ [n]) = some (.file content)) ∨
      exec (.mkdir (p ++ [n])) ans t = (true, t.mkdirs (p ++ [n])) ∧
        ∀ content, t.nodes (p ++ [n]) ≠ some (.file content) := by
  cases works : ans.fails with
  | true => simp [exec, works]
  | false =>
    cases found : t.nodes (p ++ [n]) with
    | none =>
      have parent := there p (prefix_refl p)
      simp [exec, works, found, parent, t.put_dir there]
    | some node =>
      cases node with
      | file content => simp [exec, works, found]
      | dir =>
        have all : ∀ q, q <+: p ++ [n] → t.nodes q = some .dir := fun q up => by
          rcases prefix_concat_iff.mp up with rfl | up
          · exact found
          · exact there q up
        simp [exec, works, found, Tree.mkdirs_of_there all]

theorem clear_cons (there : ∀ q, q <+: p → t.nodes q = some .dir)
    (free : ∀ content, t.nodes (p ++ [n]) ≠ some (.file content)) (rest : List Name) :
    Clear t (p ++ n :: rest) ↔ Clear (t.mkdirs (p ++ [n])) (p ++ n :: rest) := by
  refine forall_congr' fun q => imp_congr_right fun _ => forall_congr' fun content => ?_
  rw [Tree.nodes_mkdirs]
  split
  · rename_i up
    rcases prefix_concat_iff.mp up with rfl | up
    · simp [free content]
    · simp [there q up]
  · rfl

/-- Where directories could be made, no file was in the way and they are there. -/
theorem ends_makeDirs {rest above : List Name} {t' : Tree}
    (there : ∀ q, q <+: above → t.nodes q = some .dir)
    (ends : Ends exec allowed (makeDirs above rest).run t (.ok ()) t') :
    Clear t (above ++ rest) ∧ t' = t.mkdirs (above ++ rest) := by
  induction rest generalizing above t with
  | nil =>
    obtain ⟨-, rfl⟩ := ends
    rw [append_nil]
    refine ⟨fun q up content => ?_, (Tree.mkdirs_of_there there).symm⟩
    simp [there q up]
  | cons n rest ih =>
    obtain ⟨ans, -, ends⟩ := ends
    change Ends exec allowed (ensure (exec (.mkdir (above ++ [n])) ans t).1 _ >>= _).run _ _ _
      at ends
    rcases exec_mkdir there ans with ⟨failed, -⟩ | ⟨made, free⟩
    · rw [failed] at ends
      obtain ⟨failed, -⟩ := ends
      cases failed
    · rw [made] at ends
      obtain ⟨clear, rfl⟩ := ih (fun q up => if_pos up) ends
      rw [append_assoc, singleton_append] at clear
      refine ⟨(clear_cons there free rest).mpr clear, ?_⟩
      rw [Tree.mkdirs_mkdirs, append_assoc, singleton_append]

/-- Where no file is in the way, all of them are made. -/
theorem complete_makeDirs {rest above : List Name}
    (there : ∀ q, q <+: above → t.nodes q = some .dir) (clear : Clear t (above ++ rest)) :
    complete exec {} (makeDirs above rest).run t = (.ok (), t.mkdirs (above ++ rest)) := by
  induction rest generalizing above t with
  | nil =>
    rw [append_nil, Tree.mkdirs_of_there there]
    rfl
  | cons n rest ih =>
    change complete exec {} (ask (.mkdir (above ++ [n])) >>= _).run t = _
    rcases exec_mkdir (n := n) there {} with ⟨-, failed⟩ | ⟨made, free⟩
    · obtain ⟨content, file⟩ : ∃ content, t.nodes (above ++ [n]) = some (.file content) := by
        simpa using failed
      exact absurd file (clear _ (prefix_append_right_inj above |>.mpr (by simp)) content)
    · rw [complete_request, made, complete_ensure]
      have clear : Clear (t.mkdirs (above ++ [n])) (above ++ [n] ++ rest) := by
        simpa using (clear_cons there free rest).mp clear
      rw [ih (fun q up => if_pos up) clear, Tree.mkdirs_mkdirs, append_assoc, singleton_append]

/-! ## The programs -/

section
variable (fresh : Fresh dir start)
include fresh

theorem Held.mkdir (held : Held dir start t) (below : p <+: dir.names ++ q) (ans : Answer) :
    Held dir start (exec (.mkdir p) ans t).2 := by
  dsimp only [exec]
  split
  · exact held
  split
  · exact held
  · exact held
  rename_i free
  split
  · -- The directories above `dir` are there, so a free place is below it.
    rcases prefix_or_prefix_of_prefix below (prefix_append dir.names q) with up | down
    · by_cases top : p = dir.names
      · rw [top, ← append_nil dir.names]
        exact held.put [] .dir
      · have notBelow : ¬ dir.names <+: p := fun down =>
          top (up.eq_of_length (le_antisymm up.length_le down.length_le))
        rw [held.outside p notBelow, fresh.above p up top] at free
        simp at free
    · obtain ⟨r, rfl⟩ := down
      exact held.put r .dir
  · exact held

/-- Folders are made below the directory only. -/
theorem safe_makeDirs (rest above : List Name) (below : above ++ rest <+: dir.names ++ q)
    (held : Held dir start t) :
    Below dir start allowed (fun _ => Held dir start) (makeDirs above rest).run t := by
  induction rest generalizing above t with
  | nil => exact held
  | cons n rest ih =>
    have onward : above ++ [n] ++ rest <+: dir.names ++ q := by simpa using below
    refine safe_request held fun ans _ => ?_
    have next : Held dir start (exec (.mkdir (above ++ [n])) ans t).2 :=
      held.mkdir fresh ((prefix_append _ rest).trans onward) ans
    exact safe_ensure (fun _ => next) fun _ => ih (above ++ [n]) onward next

/-! ## What is tracked -/

theorem Fresh.not_file (below : p <+: dir.names ++ q) (content : Bytes) :
    start.nodes p ≠ some (.file content) := by
  rcases prefix_or_prefix_of_prefix below (prefix_append dir.names q) with up | ⟨r, rfl⟩
  · by_cases top : p = dir.names
    · rcases fresh.top with h | h
      · simp [top, h]
      · simp [top, h]
    · simp [fresh.above p up top]
  · by_cases top : r = []
    · rcases fresh.top with h | h
      · simp [top, h]
      · simp [top, h]
    · simp [fresh.empty r top]

theorem Fresh.tracked : Tracked env dir start [] [] {} start where
  outside _ _ := rfl
  within := by simp [fresh.unwritten]
  plain p there := by
    by_cases top : p = []
    · simp [top]
    · exact absurd (fresh.empty p top) there
  hashed p content there := absurd there (fresh.not_file (prefix_refl _) content)
  summed rel sum found := by simp at found
  total := by simp [fresh.unwritten]
  made p := by simp
  laid p := by simp
  count := rfl

theorem Tracked.root (h : Tracked env dir start m f s t) (p : List Name) (up : p <+: []) :
    t.nodes p = some .dir := by
  rw [prefix_nil.mp up]
  exact (h.made []).mpr (.inl fresh.root)

theorem Tracked.file_iff (h : Tracked env dir start m f s t) (below : p <+: dir.names ++ q) :
    (∃ content, t.nodes p = some (.file content)) ↔ p ∈ f := by
  rw [h.laid p]
  refine or_iff_right ?_
  rintro ⟨content, file⟩
  exact fresh.not_file below content file

theorem Tracked.clear_iff (h : Tracked env dir start m f s t) (below : p <+: dir.names ++ q) :
    Clear t p ↔ ∀ x ∈ f, ¬ x <+: p := by
  constructor
  · intro clear x mem up
    obtain ⟨content, file⟩ := (h.file_iff fresh (up.trans below)).mpr mem
    exact clear x up content file
  · intro none x up content file
    exact none x ((h.file_iff fresh (up.trans below)).mp ⟨content, file⟩) up

theorem Tracked.mkdirs (h : Tracked env dir start m f s t) (plain : ∀ n ∈ q, Plain n)
    (below : p <+: dir.names ++ q) (clear : Clear t p) :
    Tracked env dir start (m ++ [p]) f s (t.mkdirs p) where
  outside x away := by
    rw [Tree.nodes_mkdirs]
    split
    · rename_i up
      rcases prefix_or_prefix_of_prefix (up.trans below) (prefix_append dir.names q) with up | down
      · exact (fresh.above x up fun same => away (same ▸ prefix_refl _)).symm
      · exact absurd down away
    · exact h.outside x away
  within := h.within
  plain x there := by
    rw [Tree.nodes_mkdirs] at there
    by_cases up : dir.names ++ x <+: p
    · have part : x <+: q := by simpa using up.trans below
      exact fun n mem => plain n (part.subset mem)
    · rw [if_neg up] at there
      exact h.plain x there
  hashed x content there := by
    rw [Tree.nodes_mkdirs] at there
    split at there
    · cases there
    · exact h.hashed x content there
  summed rel sum found := by
    obtain ⟨x, content, plain, text, there, hash⟩ := h.summed rel sum found
    refine ⟨x, content, plain, text, ?_, hash⟩
    rw [Tree.nodes_mkdirs, if_neg fun up => clear _ up content there]
    exact there
  total := h.total
  made x := by
    rw [Tree.nodes_mkdirs]
    split
    · rename_i up
      simp [up]
    · rename_i away
      simp [h.made x, away]
  laid x := by
    rw [Tree.nodes_mkdirs]
    split
    · rename_i up
      have none := (h.laid x).not.mp fun ⟨content, file⟩ => clear x up content file
      simpa using none
    · exact h.laid x
  count := h.count

/-- A sum is kept for the files that were written. -/
theorem Tracked.contains_iff (h : Tracked env dir start m f s t) (plain : ∀ n ∈ q, Plain n) :
    s.sums.contains (relative q) = true ↔ dir.names ++ q ∈ f := by
  rw [← h.file_iff fresh (prefix_refl _), contains_eq_isSome_getElem?, isSome_iff_exists]
  constructor
  · rintro ⟨sum, found⟩
    obtain ⟨x, content, plainx, text, there, -⟩ := h.summed _ _ found
    exact ⟨content, relative_inj plainx plain text ▸ there⟩
  · rintro ⟨content, there⟩
    exact ⟨_, h.hashed q content there⟩

theorem Tracked.putFile (h : Tracked env dir start m f s t) (plain : ∀ n ∈ q, Plain n)
    (notDir : t.nodes (dir.names ++ q) ≠ some .dir) {data : Bytes} {total : Int64}
    (fits : t.written + data.length ≤ 2147483648)
    (added : total.toInt = s.total.toInt + data.length) :
    Tracked env dir start m (f.insert (dir.names ++ q))
      { sums := s.sums.insert (relative q) (env.sha256 data), total := total }
      { t.put (dir.names ++ q) (.file data) with written := t.written + data.length } where
  outside := (h.toHeld.put q (.file data)).outside
  within := fits
  plain x there := by
    by_cases same : x = q
    · exact same ▸ plain
    · exact h.plain x (Tree.nodes_put_below t _ same ▸ there)
  hashed x content there := by
    rw [GoMap.getElem?_insert]
    by_cases same : x = q
    · rw [same, Tree.nodes_put_self] at there
      rw [if_pos (by rw [same])]
      cases there
      rfl
    · rw [Tree.nodes_put_below t _ same] at there
      have other : relative x ≠ relative q := fun eq =>
        same (relative_inj (h.plain x (by simp [there])) plain eq)
      rw [if_neg other]
      exact h.hashed x content there
  summed rel sum found := by
    rw [GoMap.getElem?_insert] at found
    by_cases same : rel = relative q
    · rw [if_pos same] at found
      exact ⟨q, data, plain, same.symm, Tree.nodes_put_self t _ _, Option.some.inj found⟩
    rw [if_neg same] at found
    obtain ⟨x, content, plainx, text, there, hash⟩ := h.summed rel sum found
    refine ⟨x, content, plainx, text, ?_, hash⟩
    have other : x ≠ q := by
      rintro rfl
      exact same text.symm
    exact (Tree.nodes_put_below t _ other).trans there
  total := by
    have total := h.total
    push_cast
    omega
  made x := by
    by_cases same : x = dir.names ++ q
    · have none := (h.made x).not.mp (same ▸ notDir)
      simpa [same, Tree.put] using none
    · simpa [same, Tree.put] using h.made x
  laid x := by
    by_cases same : x = dir.names ++ q
    · simp [same, Tree.put]
    · simpa [same, Tree.put] using h.laid x
  count := by
    have known := h.contains_iff fresh plain
    dsimp only
    rw [size_insert, h.count]
    by_cases old : dir.names ++ q ∈ f
    · rw [if_pos (known.mpr old), insert_of_mem old]
    · rw [if_neg (known.not.mpr old), insert_of_not_mem old, length_cons]

/-! ## One file -/

omit fresh in
theorem Held.write (held : Held dir start t) (p : List Name) {data : Bytes} (ans : Answer)
    (fits : t.written + data.length ≤ 2147483648) :
    Held dir start (exec (.write (dir.names ++ p) data) ans t).2 where
  outside := (held.put p _).outside
  within := by
    dsimp only [exec]
    cases ans.room with
    | none => exact fits
    | some room =>
      dsimp only [elim_some]
      omega

omit fresh in
theorem Held.openFile (held : Held dir start t) (p : List Name) (ans : Answer) :
    Held dir start (exec (.openFile (dir.names ++ p)) ans t).2 ∧
      ((exec (.openFile (dir.names ++ p)) ans t).1 = true →
        (exec (.openFile (dir.names ++ p)) ans t).2 = t.put (dir.names ++ p) (.file []) ∧
          t.nodes (dir.names ++ p) ≠ some .dir) := by
  dsimp only [exec]
  split
  · exact ⟨held, by simp⟩
  · rename_i free
    exact ⟨held.put p (.file []), fun _ => ⟨rfl, fun folder => free (.inr (.inl folder))⟩⟩

/-- Writing an entry: the bytes it has room for, and on success all its header says. -/
theorem safe_writeEntry (plain : ∀ n ∈ q, Plain n)
    (fits : Opens start m f (dir.names ++ q) → t.written + e.bytes ≤ 2147483648)
    (h : Tracked env dir start m f s t) :
    Below dir start allowed
      (fun sum t' => Opens start m f (dir.names ++ q) ∧ e.bytes = e.size.toInt ∧
        ∀ total : Int64, total.toInt = s.total.toInt + e.bytes →
          Tracked env dir start (m ++ [(dir.names ++ q).dropLast]) (f.insert (dir.names ++ q))
            { sums := s.sums.insert (relative q) sum, total := total } t')
      (writeEntry env (dir.names ++ q) e).run t := by
  have up : (dir.names ++ q).dropLast <+: dir.names ++ q :=
    dropLast_prefix _
  refine safe_seq_ends (safe_makeDirs fresh _ [] up h.toHeld) fun _ t1 h1 made => ?_
  obtain ⟨clear, rfl⟩ := ends_makeDirs (h.root fresh) made
  rw [nil_append] at clear h1 ⊢
  have h1 := h.mkdirs fresh plain up clear
  refine safe_request h1.toHeld fun ans _ => ?_
  obtain ⟨held, opened⟩ := h1.toHeld.openFile q ans
  refine safe_ensure (fun _ => held) fun ok => ?_
  obtain ⟨opened, notDir⟩ := opened ok
  have opens : Opens start m f (dir.names ++ q) := by
    have place := (h1.made (dir.names ++ q)).not.mp notDir
    rw [not_or] at place
    refine ⟨(h.clear_iff fresh up).mp clear, place.1, fun x mem below => place.2 ⟨x, ?_, below⟩⟩
    exact mem_append_left _ mem
  rw [opened] at held ⊢
  set data := e.data.take e.size.toInt.toNat with taken
  have room : (t.mkdirs (dir.names ++ q).dropLast).written + data.length ≤ 2147483648 := fits opens
  refine safe_request held fun ans' _ => ?_
  have after := held.write q ans' room
  refine safe_request after fun ans'' _ => ?_
  cases failed : copyError (dir.names ++ q) e
      (exec (.write (dir.names ++ q) data) ans'
        ((t.mkdirs (dir.names ++ q).dropLast).put (dir.names ++ q) (.file []))).1.2 with
  | some err => exact after
  | none =>
    refine safe_ensure (fun _ => after) fun _ => ?_
    refine safe_ensure (fun _ => after) fun whole => ?_
    -- A copy without an error found room for all it read.
    have all : ans'.room = none := by
      by_contra full
      have notAll : ans'.room.isNone = false := by simpa [isSome_iff_ne_none] using full
      simp [copyError, exec, notAll] at failed
    have length : (data.length : Int) = e.size.toInt := by simpa [exec, all] using whole
    refine ⟨opens, length, fun total added => ?_⟩
    have done := h1.putFile fresh plain notDir room added
    dsimp only [exec]
    rw [all, Tree.put_put, Option.elim_none, take_length]
    exact done

omit fresh in
theorem written_le (ans : Answer) (p : Prog Call Reply α) (t : Tree) :
    t.written ≤ (complete exec ans p t).2.written := by
  induction p generalizing t with
  | ret a => exact Nat.le_refl _
  | call c k ih =>
    refine Nat.le_trans ?_ (ih (exec c ans t).1 (exec c ans t).2)
    unfold exec
    split
    all_goals repeat' split
    all_goals simp [Tree.put]

omit fresh in
theorem written_seq {β : Type} {p : Program α} {f : α → Program β} :
    (complete exec ans p.run t).2.written ≤ (complete exec ans (p >>= f).run t).2.written := by
  change _ ≤ (complete exec ans (p.run >>= ExceptT.bindCont f) t).2.written
  rw [complete_bind]
  exact written_le _ _ _

omit fresh in
theorem complete_lastEnsure {β : Type} {b : Bool} {e : Error} {a : β} :
    complete exec ans (ensure b e >>= fun _ => (pure a : Program β)).run t =
      (if b then .ok a else .error e, t) := by
  cases b <;> rfl

/-- Without faults, a file that can be opened is written as far as the reader gives it, and whole
if it gives all. -/
theorem complete_writeEntry (h : Tracked env dir start m f s t)
    (opens : Opens start m f (dir.names ++ q)) :
    (complete exec {} (writeEntry env (dir.names ++ q) e).run t).2.written =
        t.written + e.bytes ∧
      (e.bytes = e.size.toInt →
        ∃ sum, (complete exec {} (writeEntry env (dir.names ++ q) e).run t).1 = .ok sum) := by
  obtain ⟨clear, notStart, notMade⟩ := opens
  have up : (dir.names ++ q).dropLast <+: dir.names ++ q :=
    dropLast_prefix _
  have made : complete exec {} (mkdirAll (dir.names ++ q).dropLast).run t =
      (.ok (), t.mkdirs (dir.names ++ q).dropLast) :=
    complete_makeDirs (h.root fresh) ((h.clear_iff fresh up).mpr clear)
  have opened : exec (.openFile (dir.names ++ q)) {} (t.mkdirs (dir.names ++ q).dropLast) =
      (true, (t.mkdirs (dir.names ++ q).dropLast).put (dir.names ++ q) (.file [])) := by
    have notDir : t.nodes (dir.names ++ q) ≠ some .dir := fun there => by
      rcases (h.made _).mp there with there | ⟨x, mem, below⟩
      · exact notStart there
      · exact notMade x mem below
    have notUp : ¬ dir.names ++ q <+: (dir.names ++ q).dropLast := fun down => by
      have short := down.length_le
      rw [length_dropLast] at short
      have empty : dir.names ++ q = [] := length_eq_zero_iff.mp (by omega)
      exact notStart (empty ▸ fresh.root)
    simp [exec, Tree.nodes_mkdirs, notDir, notUp]
  unfold writeEntry
  rw [complete_seq (congrArg Prod.fst made), made]
  rw [complete_request, opened, complete_ensure, complete_request, complete_request]
  constructor
  · dsimp only [exec]
    cases copyError _ e _ with
    | some err => rfl
    | none =>
      rw [Bool.not_false, complete_ensure, complete_lastEnsure]
      rfl
  · intro whole
    have read : copyError (dir.names ++ q) e true = none := by
      have all : e.size.toInt.toNat ≤ e.data.length := by
        have taken := length_take_le' e.size.toInt.toNat e.data
        unfold Entry.bytes at whole
        omega
      unfold copyError
      rw [if_neg (by simp), if_neg (Nat.not_lt.mpr all)]
    refine ⟨env.sha256 (e.data.take e.size.toInt.toNat), ?_⟩
    unfold Entry.bytes at whole
    dsimp only [exec, Option.elim_none, Option.isNone_none]
    rw [read, Bool.not_false, complete_ensure, complete_lastEnsure]
    exact if_pos (decide_eq_true whole)

omit fresh in
/-- The running total with a size is exact, or it is past the largest `int64` and negative. -/
theorem toInt_total_add {a b : Int64} (nonneg : 0 ≤ a.toInt) (low : a.toInt ≤ 2147483648) :
    (a.toInt + b.toInt < 9223372036854775808 → (a + b).toInt = a.toInt + b.toInt) ∧
      (9223372036854775808 ≤ a.toInt + b.toInt → (a + b).toInt < 0) := by
  have least := b.le_toInt
  have most := b.toInt_lt
  rw [Int64.toInt_add, Int.bmod_eq_emod]
  constructor
  · intro small
    split <;> omega
  · intro large
    split <;> omega

omit fresh in
theorem Entry.bytes_le (e : Entry) : e.bytes ≤ e.size.toInt.toNat := length_take_le _ _

/-- A file that fits is written below the directory and counted. -/
theorem safe_unpackFile (plain : ∀ n ∈ q, Plain n)
    (fits : f.length < maxBundleFiles → Opens start m f (dir.names ++ q) →
      9223372036854775808 ≤ s.total.toInt + e.size.toInt → s.total.toInt + e.bytes ≤ 2147483648)
    (h : Tracked env dir start m f s t) :
    Below dir start allowed
      (fun s' t' => Tracked env dir start (m ++ [(dir.names ++ q).dropLast])
          (f.insert (dir.names ++ q)) s' t' ∧ s'.total.toInt = s.total.toInt + e.size.toInt ∧
        f.length < maxBundleFiles ∧ Opens start m f (dir.names ++ q) ∧ e.bytes = e.size.toInt ∧
        s.total.toInt + e.size.toInt ≤ 2147483648)
      (unpackFile env (dir.names ++ q) (relative q) e s).run t := by
  have total := h.total
  have within := h.within
  have short := e.bytes_le
  obtain ⟨exact, wraps⟩ := toInt_total_add (b := e.size) (by omega : 0 ≤ s.total.toInt) (by omega)
  refine safe_ensure (fun _ => h.toHeld) fun few => ?_
  have few : f.length < maxBundleFiles := h.count ▸ of_decide_eq_true few
  refine safe_ensure (fun _ => h.toHeld) fun small => ?_
  have small : (s.total + e.size).toInt ≤ 2147483648 :=
    Int64.le_iff_toInt_le.mp (of_decide_eq_true small)
  have room : Opens start m f (dir.names ++ q) → s.total.toInt + e.bytes ≤ 2147483648 := by
    intro opens
    by_cases large : 9223372036854775808 ≤ s.total.toInt + e.size.toInt
    · exact fits few opens large
    · have same := exact (by omega)
      omega
  refine safe_seq (safe_writeEntry fresh plain (fun opens => ?_) h) ?_
  · have room := room opens
    omega
  rintro sum t' ⟨opens, whole, done⟩
  have room := room opens
  have same := exact (by omega)
  exact ⟨done _ (by rw [same, whole]), same, few, opens, whole, by omega⟩

/-- Where nothing fails, all of a file that can be opened is written. -/
theorem complete_unpackFile (h : Tracked env dir start m f s t) (few : f.length < maxBundleFiles)
    (opens : Opens start m f (dir.names ++ q)) :
    (9223372036854775808 ≤ s.total.toInt + e.size.toInt →
        t.written + e.bytes ≤ (complete exec {}
          (unpackFile env (dir.names ++ q) (relative q) e s).run t).2.written) ∧
      (s.total.toInt + e.size.toInt ≤ 2147483648 → e.bytes = e.size.toInt →
        ∃ s', (complete exec {} (unpackFile env (dir.names ++ q) (relative q) e s).run t).1 =
          .ok s') := by
  have total := h.total
  have within := h.within
  obtain ⟨exact, wraps⟩ := toInt_total_add (b := e.size) (by omega : 0 ≤ s.total.toInt) (by omega)
  have limit : maxUnpacked.toInt = 2147483648 := by decide
  obtain ⟨written, whole⟩ := complete_writeEntry (e := e) fresh h opens
  have few : s.sums.size < maxBundleFiles := h.count ▸ few
  unfold unpackFile
  rw [decide_eq_true few, complete_ensure]
  constructor
  · intro large
    have small : s.total + e.size ≤ maxUnpacked := by
      have negative := wraps large
      exact Int64.le_iff_toInt_le.mpr (by omega)
    rw [decide_eq_true small, complete_ensure, ← written]
    exact written_seq
  · intro fits all
    have small : s.total + e.size ≤ maxUnpacked := by
      have same := exact (by omega)
      exact Int64.le_iff_toInt_le.mpr (by omega)
    obtain ⟨sum, ok⟩ := whole all
    rw [decide_eq_true small, complete_ensure, complete_seq ok]
    exact ⟨_, rfl⟩

/-! ## One entry -/

/-- What is reached between two entries: those before were unpacked. -/
structure Reached (env : Env) (dir : Dir) (start : Tree) (before : List Entry) (s : Sums)
    (t : Tree) : Prop
    extends Tracked env dir start (folders dir before) (files dir before) s t where
  sized : s.total.toInt = sizes dir before

variable {before : List Entry}

omit fresh in
theorem folders_concat (before : List Entry) (e : Entry) :
    folders dir (before ++ [e]) = folders dir before ++ (e.folder dir).toList := by
  unfold folders
  rw [filterMap_append]
  cases h : e.folder dir <;> simp [h]

omit fresh in
theorem files_concat (before : List Entry) (e : Entry) :
    files dir (before ++ [e]) =
      ((e.file dir).map (files dir before).insert).getD (files dir before) := by
  unfold files
  rw [foldl_append]
  rfl

omit fresh in
theorem sizes_concat (before : List Entry) (e : Entry) :
    sizes dir (before ++ [e]) =
      sizes dir before + ((e.file dir).map fun _ => e.size.toInt).getD 0 := by
  simp [sizes]

omit fresh in
/-- An entry that is not refused goes to a path of plain names below the directory. -/
theorem Entry.dest_plain (e : Entry) (dir : Dir) {c : Char} {rel : Text}
    (named : bundleEntry e.name = .ok (c :: rel)) :
    ∃ q, c :: rel = relative q ∧ (∀ n ∈ q, Plain n) ∧ e.dest dir = some (dir.names ++ q) := by
  obtain ⟨q, text, plain⟩ := bundleEntry_plain named (by simp)
  refine ⟨q, text, plain, ?_⟩
  simp only [Entry.dest, named]
  rw [text, resolve_join plain dir]

/-- **An entry keeps what unpacking keeps**, or unpacking ends there. -/
theorem safe_unpackEntry (fits : e.Fits dir start before) (h : Reached env dir start before s t) :
    Below dir start allowed
      (fun s' t' => Reached env dir start (before ++ [e]) s' t' ∧ e.Lands dir start before)
      (unpackEntry env dir e s).run t := by
  unfold unpackEntry Entry.Lands
  cases named : bundleEntry e.name with
  | error err => exact h.toHeld
  | ok rel =>
    cases rel with
    | nil =>
      have dest : e.dest dir = none := by simp only [Entry.dest, named]
      have file : e.file dir = none := by simp [Entry.file, dest]
      have folder : e.folder dir = none := by
        unfold Entry.folder
        cases e.typeflag <;> simp [dest]
      refine ⟨⟨?_, ?_⟩, trivial⟩
      · rw [folders_concat, files_concat, file, folder, Option.toList_none, append_nil]
        exact h.toTracked
      · rw [sizes_concat, file]
        simpa using h.sized
    | cons c rel =>
      obtain ⟨q, text, plain, dest⟩ := e.dest_plain dir named
      dsimp only
      rw [text, resolve_join plain dir]
      cases kind : e.typeflag with
      | dir =>
        have file : e.file dir = none := by simp [Entry.file, kind]
        have folder : e.folder dir = some (dir.names ++ q) := by
          simp only [Entry.folder, kind, dest]
        refine safe_seq_ends (safe_makeDirs fresh _ [] (prefix_refl _) h.toHeld) ?_
        intro _ t' _ ends
        obtain ⟨clear, rfl⟩ := ends_makeDirs (h.root fresh) ends
        rw [nil_append] at clear ⊢
        refine ⟨⟨?_, ?_⟩, (h.clear_iff fresh (prefix_refl _)).mp clear⟩
        · rw [folders_concat, files_concat, file, folder]
          exact h.mkdirs fresh plain (prefix_refl _) clear
        · rw [sizes_concat, file]
          simpa using h.sized
      | reg =>
        have file : e.file dir = some (dir.names ++ q) := by simp [Entry.file, kind, dest]
        have folder : e.folder dir = some (dir.names ++ q).dropLast := by
          simp only [Entry.folder, kind, dest, Option.map_some]
        have fits := fits _ file
        rw [← h.sized] at fits ⊢
        refine safe_mono ?_ (safe_unpackFile fresh plain fits h.toTracked)
        rintro (err | s') t' after
        · exact after
        obtain ⟨tracked, total, lands⟩ := after
        refine ⟨⟨?_, ?_⟩, lands⟩
        · rw [folders_concat, files_concat, file, folder]
          exact tracked
        · rw [sizes_concat, file, total, h.sized]
          rfl
      | other => exact h.toHeld

/-- Without faults, an entry that can be unpacked is, and a file that does not fit is written. -/
theorem complete_unpackEntry (h : Reached env dir start before s t) :
    (e.Lands dir start before →
        ∃ s', (complete exec {} (unpackEntry env dir e s).run t).1 = .ok s') ∧
      (¬ e.Fits dir start before →
        2147483648 < (complete exec {} (unpackEntry env dir e s).run t).2.written) := by
  unfold unpackEntry Entry.Lands
  cases named : bundleEntry e.name with
  | error err =>
    have dest : e.dest dir = none := by simp only [Entry.dest, named]
    refine ⟨False.elim, fun large => absurd ?_ large⟩
    simp [Entry.Fits, Entry.file, dest]
  | ok rel =>
    cases rel with
    | nil =>
      have dest : e.dest dir = none := by simp only [Entry.dest, named]
      refine ⟨fun _ => ⟨s, rfl⟩, fun large => absurd ?_ large⟩
      simp [Entry.Fits, Entry.file, dest]
    | cons c rel =>
      obtain ⟨q, text, plain, dest⟩ := e.dest_plain dir named
      dsimp only
      rw [text, resolve_join plain dir]
      cases kind : e.typeflag with
      | dir =>
        refine ⟨fun clear => ?_, fun large => absurd ?_ large⟩
        · have made : complete exec {} (mkdirAll (dir.names ++ q)).run t =
              (.ok (), t.mkdirs (dir.names ++ q)) :=
            complete_makeDirs (h.root fresh) ((h.clear_iff fresh (prefix_refl _)).mpr clear)
          dsimp only
          rw [complete_seq (congrArg Prod.fst made)]
          exact ⟨s, rfl⟩
        · simp [Entry.Fits, Entry.file, kind]
      | reg =>
        have file : e.file dir = some (dir.names ++ q) := by simp [Entry.file, kind, dest]
        constructor
        · rintro ⟨few, opens, whole, small⟩
          rw [← h.sized] at small
          exact (complete_unpackFile fresh h.toTracked few opens).2 small whole
        · intro large
          obtain ⟨few, opens, past, much⟩ : (files dir before).length < maxBundleFiles ∧
              Opens start (folders dir before) (files dir before) (dir.names ++ q) ∧
              9223372036854775808 ≤ sizes dir before + e.size.toInt ∧
              2147483648 < sizes dir before + e.bytes := by
            simpa [Entry.Fits, file] using large
          rw [← h.sized] at past much
          have written := (complete_unpackFile (e := e) fresh h.toTracked few opens).1 past
          have total := h.total
          dsimp only
          omega
      | other =>
        refine ⟨False.elim, fun large => absurd ?_ large⟩
        simp [Entry.Fits, Entry.file, kind]

/-! ## All entries -/

/-- A run over the entries of a tarball that fits keeps what unpacking keeps. -/
theorem safe_unpackEntries {rest : List Entry} (fit : FitFrom dir start before rest)
    (h : Reached env dir start before s t) :
    Below dir start allowed (Reached env dir start (before ++ rest))
      (unpackEntries env dir rest s).run t := by
  induction rest generalizing before s t with
  | nil =>
    rw [append_nil]
    exact h
  | cons e rest ih =>
    refine safe_seq (safe_unpackEntry fresh fit.1 h) ?_
    rintro s' t' ⟨h', lands⟩
    simpa using ih (fit.2 lands) h'

/-- Entries that do not fit are written past the limit where nothing fails. -/
theorem complete_unpackEntries {rest : List Entry} (fails : ¬ FitFrom dir start before rest)
    (h : Reached env dir start before s t) :
    2147483648 < (complete exec {} (unpackEntries env dir rest s).run t).2.written := by
  induction rest generalizing before s t with
  | nil => exact absurd trivial fails
  | cons e rest ih =>
    obtain ⟨passes, written⟩ := complete_unpackEntry (e := e) fresh h
    by_cases fits : e.Fits dir start before
    · obtain ⟨lands, onward⟩ : e.Lands dir start before ∧
          ¬ FitFrom dir start (before ++ [e]) rest := by
        simpa [FitFrom, fits] using fails
      obtain ⟨s', ok⟩ := passes lands
      have safe : Below dir start (fun _ _ => True) _ (unpackEntry env dir e s).run t :=
        safe_unpackEntry fresh fits h
      have after := post_of_ends safe (ends_complete exec {} (fun _ => trivial) _ _)
      rw [ok] at after
      rw [unpackEntries, complete_seq ok]
      exact ih onward after.1
    · exact Nat.lt_of_lt_of_le (written fits) written_seq

end

end Steps

end NasnetPanel.Update.Unpack
