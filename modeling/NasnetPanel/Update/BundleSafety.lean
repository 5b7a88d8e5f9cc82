import NasnetPanel.Update.BundleEntries

/-!
# Update.BundleSafety — an uploaded bundle lands where it should

What `unpackBundle` keeps and what a success says:

* `unpackBundle_safe`: what is outside the directory stays as it is, at most 2 GiB are written, and
  after a success the files below the directory are those of the signed list, with their hashes,
  and the three that carry it, if and only if the tarball fits.
* `unpacked_too_large`: the running total is an `int64`, so a second file of the largest size wraps
  it and the limit is not seen.
-/

namespace NasnetPanel.Update.Unpack
open CrashProg CrashProg.Prog GoPath List Option Std.ExtTreeMap

variable {p : List Name} {s : Sums} {err : Error → Tree → Prop} {e : Entry}

/-! ## The signed list -/

variable {env : Env} {data sig : Bytes} {b : Bundle} {dir : Dir} {t : Tree}
  {allowed : Call → Answer → Prop} {β : Type}

theorem parseSigned_signed (h : env.parseSigned data sig = .ok b) :
    env.verify data sig = true ∧ env.unmarshal data = some b := by
  unfold Env.parseSigned at h
  split at h
  · rename_i verified
    split at h
    · rename_i read
      exact ⟨verified, (Except.ok.inj h) ▸ read⟩
    · exact absurd h (by simp)
  · exact absurd h (by simp)

theorem parseBundle_signed
    (h : env.parseBundle data sig = .ok b) : env.parseSigned data sig = .ok b := by
  unfold Env.parseBundle at h
  split at h
  · exact absurd h (by simp)
  rename_i parsed
  split at h
  · exact absurd h (by simp)
  split at h
  · exact absurd h (by simp)
  · exact (Except.ok.inj h) ▸ parsed

theorem of_checkSums {sums : GoMap Text Text} (h : checkSums b sums = .ok ()) :
    (∀ (rel want : Text), b.files[rel]? = some want →
      ∃ got, sums[rel]? = some got ∧ equalFold got want = true) ∧
    ∀ (rel got : Text), sums[rel]? = some got →
      unsignedBundleFile rel = true ∨ ∃ want, b.files[rel]? = some want := by
  unfold checkSums at h
  split at h
  · exact absurd h (by simp)
  rename_i matched
  split at h
  · exact absurd h (by simp)
  rename_i listed
  rw [find?_eq_none] at matched listed
  constructor
  · intro rel want found
    have here := matched (rel, want) (mem_toList_iff_getElem?_eq_some.mpr found)
    simpa [Option.any_eq_true] using here
  intro rel got found
  have here := listed (rel, got) (mem_toList_iff_getElem?_eq_some.mpr found)
  cases there : b.files[rel]? with
  | some want => exact .inr ⟨want, rfl⟩
  | none =>
    have missing : b.files.contains rel = false := by
      rw [contains_eq_isSome_getElem?, there]
      rfl
    simpa [missing] using here

/-- After a success: the list is signed, the files below the directory are those it lists, with
their hashes, and the three that carry it, and every file it lists is there. -/
structure AsListed (env : Env) (dir : Dir) (b : Bundle) (t : Tree) : Prop where
  signed : ∃ data sig, env.verify data sig = true ∧ env.unmarshal data = some b ∧
    t.nodes (dir.names ++ [bundleName]) = some (.file data) ∧
    t.nodes (dir.names ++ [bundleName ++ sigSuffix]) = some (.file sig)
  only : ∀ p content, t.nodes (dir.names ++ p) = some (.file content) →
    unsignedBundleFile (relative p) = true ∨
      ∃ want, b.files[relative p]? = some want ∧ equalFold (env.sha256 content) want = true
  all : ∀ rel want, b.files[rel]? = some want → ∃ p content, (∀ n ∈ p, Plain n) ∧
    relative p = rel ∧ t.nodes (dir.names ++ p) = some (.file content) ∧
    equalFold (env.sha256 content) want = true

theorem Tracked.asListed {start : Tree} {m f : List (List Name)}
    (h : Tracked env dir start m f s t)
    (parsed : env.parseBundle data sig = .ok b)
    (manifest : t.nodes (dir.names ++ [bundleName]) = some (.file data))
    (signature : t.nodes (dir.names ++ [bundleName ++ sigSuffix]) = some (.file sig))
    (checked : checkSums b s.sums = .ok ()) : AsListed env dir b t := by
  obtain ⟨matched, listed⟩ := of_checkSums checked
  obtain ⟨verified, read⟩ := parseSigned_signed (parseBundle_signed parsed)
  refine ⟨⟨data, sig, verified, read, manifest, signature⟩, ?_, ?_⟩
  · intro p content there
    have sum := h.hashed p content there
    rcases listed _ _ sum with free | ⟨want, found⟩
    · exact .inl free
    obtain ⟨got, same, fold⟩ := matched _ _ found
    refine .inr ⟨want, found, ?_⟩
    rw [sum] at same
    rwa [Option.some.inj same]
  · intro rel want found
    obtain ⟨got, sum, fold⟩ := matched rel want found
    obtain ⟨p, content, plain, text, there, hash⟩ := h.summed rel got sum
    exact ⟨p, content, plain, text, there, hash.symm ▸ fold⟩

/-- What a read of a plain file below the directory finds. -/
theorem safe_readFile {node : Tree → Prop} {ok : β → Tree → Prop}
    {k : Option Bytes → Program β} (here : node t)
    (missing : Safe exec (fun _ => node) allowed (Gives ok err) (k none).run t)
    (found : ∀ content, t.nodes p = some (.file content) →
      Safe exec (fun _ => node) allowed (Gives ok err) (k (some content)).run t) :
    Safe exec (fun _ => node) allowed (Gives ok err) (ask (.readFile p) >>= k).run t := by
  refine safe_request here fun ans _ => ?_
  dsimp only [exec]
  split
  · exact missing
  split
  · exact found _ (by assumption)
  · exact missing

theorem safe_readUnpackedBundle {node : Tree → Prop} (here : node t) (failed : ∀ e, err e t) :
    Safe exec (fun _ => node) allowed
      (Gives
        (fun b t' => t' = t ∧ ∃ data sig, env.parseBundle data sig = .ok b ∧
          t.nodes (dir.names ++ [bundleName]) = some (.file data) ∧
          t.nodes (dir.names ++ [bundleName ++ sigSuffix]) = some (.file sig))
        err) (readUnpackedBundle env dir).run t := by
  refine safe_readFile here (failed _) fun data manifest => ?_
  refine safe_readFile here (failed _) fun sig signature => ?_
  rw [resolve_join_name dir (by decide)] at manifest signature
  cases parsed : env.parseBundle data sig with
  | error e =>
    dsimp only
    rw [parsed]
    exact failed e
  | ok b =>
    dsimp only
    rw [parsed]
    exact ⟨rfl, data, sig, parsed, manifest, signature⟩

/-! ## Unpacking is safe -/

/-- Unpacking writes below its directory only, and returns what is listed. -/
theorem safe_unpackBundle {start : Tree} (fresh : Fresh dir start) {tarball : Tarball}
    (fits : tarball.Fits dir start) :
    Below dir start allowed (fun b t => Held dir start t ∧ AsListed env dir b t)
      (unpackBundle env tarball dir).run start := by
  have begin : Reached env dir start [] {} start := ⟨fresh.tracked, rfl⟩
  cases tarball with
  | unopened err => exact begin.toHeld
  | notGzip err => exact begin.toHeld
  | stream entries damage =>
    refine safe_seq (safe_unpackEntries fresh fits begin) fun s t h => ?_
    cases damage with
    | some err => exact h.toHeld
    | none =>
      refine safe_seq (safe_readUnpackedBundle h.toHeld fun _ => h.toHeld) ?_
      rintro b t' ⟨rfl, data, sig, parsed, manifest, signature⟩
      cases checked : checkSums b s.sums with
      | error e => exact h.toHeld
      | ok _ => exact ⟨h.toHeld, h.asListed parsed manifest signature checked⟩

/-- A tarball that does not fit is written past the limit by a disk without faults. -/
theorem complete_unpackBundle {start : Tree} (fresh : Fresh dir start) {tarball : Tarball}
    (fails : ¬ tarball.Fits dir start) :
    2147483648 < (complete exec {} (unpackBundle env tarball dir).run start).2.written := by
  cases tarball with
  | unopened err => exact absurd trivial fails
  | notGzip err => exact absurd trivial fails
  | stream entries damage =>
    have begin : Reached env dir start [] {} start := ⟨fresh.tracked, rfl⟩
    exact Nat.lt_of_lt_of_le (complete_unpackEntries fresh fails begin) written_seq

/-- **When unpacking a bundle is safe.** Whatever the tarball holds and however the disk behaves, it
ends; only paths below the directory changed, at most 2 GiB were written, and a success leaves the
files of the signed list: this holds of every run if and only if each file fits whose size takes the
running total past `int64`. -/
theorem unpackBundle_safe (env : Env) (dir : Dir) {start : Tree} (fresh : Fresh dir start)
    (tarball : Tarball) :
    ((∃ r t, Ends exec (fun _ _ => True) (unpackBundle env tarball dir).run start r t) ∧
      ∀ r t, Ends exec (fun _ _ => True) (unpackBundle env tarball dir).run start r t →
        (∀ p, t.nodes p ≠ start.nodes p → dir.names <+: p) ∧ t.written ≤ 2147483648 ∧
        ∀ b, r = .ok b → AsListed env dir b t) ↔ tarball.Fits dir start := by
  constructor
  · rintro ⟨-, safe⟩
    by_contra fails
    obtain ⟨-, small, -⟩ := safe _ _ (ends_complete exec {} (fun _ => trivial) _ _)
    exact absurd (complete_unpackBundle fresh fails) (Nat.not_lt.mpr small)
  intro fits
  refine ⟨ends_total exec (fun _ => ⟨{}, trivial⟩) _ _, fun r t ends => ?_⟩
  have after := post_of_ends (safe_unpackBundle fresh fits) ends
  have held : Held dir start t := by
    cases r with
    | ok b => exact after.1
    | error e => exact after
  refine ⟨fun p changed => ?_, held.within, ?_⟩
  · by_contra away
    exact changed (held.outside p away)
  · rintro b rfl
    exact after.2

/-! ## Small sizes fit -/

/-- No plain file's header says more than the running total can take. -/
def Tarball.Bounded : Tarball → Prop
  | .stream entries _ =>
    ∀ e ∈ entries, e.typeflag = .reg → e.size.toInt ≤ 9223372034707292159
  | _ => True

instance (tarball : Tarball) : Decidable tarball.Bounded := by
  unfold Tarball.Bounded
  cases tarball <;> infer_instance

theorem Entry.Lands.sizes_le {start : Tree} {before : List Entry}
    (lands : e.Lands dir start before) (low : sizes dir before ≤ 2147483648) :
    sizes dir (before ++ [e]) ≤ 2147483648 := by
  rw [sizes_concat]
  unfold Entry.Lands at lands
  unfold Entry.file Entry.dest
  cases named : bundleEntry e.name with
  | error err => simpa [named] using low
  | ok rel =>
    cases rel with
    | nil => simpa using low
    | cons c rel =>
      rw [named] at lands
      cases kind : e.typeflag with
      | dir => simpa using low
      | reg =>
        rw [kind] at lands
        exact lands.2.2.2
      | other => simpa using low

theorem fitFrom_of_bounded {start : Tree} {before rest : List Entry}
    (bounded : ∀ e ∈ rest, e.typeflag = .reg → e.size.toInt ≤ 9223372034707292159)
    (low : sizes dir before ≤ 2147483648) : FitFrom dir start before rest := by
  induction rest generalizing before with
  | nil => trivial
  | cons e rest ih =>
    refine ⟨fun dest file _ _ past => ?_, fun lands => ?_⟩
    · have kind : e.typeflag = .reg := by
        by_contra other
        simp [Entry.file, other] at file
      have small := bounded e (by simp) kind
      omega
    · exact ih (fun e mem => bounded e (by simp [mem])) (lands.sizes_le low)

theorem Tarball.Bounded.fits {tarball : Tarball} (bounded : tarball.Bounded) (start : Tree) :
    tarball.Fits dir start := by
  cases tarball with
  | unopened err => trivial
  | notGzip err => trivial
  | stream entries damage => exact fitFrom_of_bounded bounded (by simp [sizes])

def stagingDir : Dir := ⟨["s".toList], by decide⟩

def emptyDisk : Tree where
  nodes p := if p <+: stagingDir.names then some .dir else none

theorem fresh_emptyDisk : Fresh stagingDir emptyDisk where
  root := rfl
  above p up _ := if_pos up
  top := .inr (by decide)
  empty p some := by
    refine if_neg fun up => some ?_
    have short := up.length_le
    rw [length_append] at short
    exact length_eq_zero_iff.mp (by omega)
  unwritten := rfl

/-- A list of one file, signed by anyone. -/
def trusting : Env where
  sha256 _ := "0a".toList
  verify _ _ := true
  unmarshal _ := some
    { schema := 1, version := "2".toList, minFrom := [], arch := "amd64".toList
      files := (∅ : GoMap Text Text).insert "bin/panel".toList "0A".toList }
  isVersion _ := true

def inBundle (rel : String) : Text := bundleTopPrefix ++ ("amd64/" ++ rel).toList

def oneFile : Tarball :=
  .stream
    [{ name := inBundle "bundle.json", typeflag := .reg, size := 1, data := [1] },
     { name := inBundle "bundle.json.sig", typeflag := .reg, size := 1, data := [2] },
     { name := inBundle "bin/../bin/panel", typeflag := .reg, size := 2, data := [3, 4] }]
    none

example : (complete exec {} (unpackBundle trusting oneFile stagingDir).run
    emptyDisk).1.toOption.isSome = true := by decide

theorem unpackBundle_safe_oneFile :
    (∃ r t, Ends exec (fun _ _ => True) (unpackBundle trusting oneFile stagingDir).run emptyDisk
      r t) ∧
    ∀ r t, Ends exec (fun _ _ => True) (unpackBundle trusting oneFile stagingDir).run emptyDisk
        r t →
      (∀ p, t.nodes p ≠ emptyDisk.nodes p → stagingDir.names <+: p) ∧
      t.written ≤ 2147483648 ∧ ∀ b, r = .ok b → AsListed trusting stagingDir b t := by
  have bounded : oneFile.Bounded := by decide
  exact (unpackBundle_safe trusting stagingDir fresh_emptyDisk oneFile).mpr (bounded.fits _)

/-! ## A total that wraps -/

def oneByte : Entry := { name := inBundle "a", typeflag := .reg, size := 1, data := [0] }

def largest (data : Bytes) : Entry :=
  { name := inBundle "b", typeflag := .reg, size := 9223372036854775807, data := data }

theorem oneByte_lands : oneByte.Lands stagingDir emptyDisk [] := by
  have named : bundleEntry oneByte.name = .ok ['a'] := by decide
  unfold Entry.Lands
  rw [named]
  exact ⟨by decide, ⟨by simp [files], by decide, by simp [folders]⟩, by decide, by decide⟩

theorem largest_not_fits {data : Bytes} (much : 2147483648 ≤ data.length) :
    ¬ (largest data).Fits stagingDir emptyDisk [oneByte] := by
  intro fits
  have one : sizes stagingDir [oneByte] = 1 := by decide
  have size : (largest data).size.toInt = 9223372036854775807 :=
    (by decide : (9223372036854775807 : Int64).toInt = 9223372036854775807)
  have small := fits (stagingDir.names ++ [['b']]) rfl (by decide)
    ⟨by decide, by decide, by decide⟩ (by rw [one, size]; decide)
  have bytes : 2147483648 ≤ (largest data).bytes := by
    rw [Entry.bytes, length_take, size]
    exact Nat.le_min.mpr ⟨by decide, much⟩
  rw [one] at small
  omega

/-- More than 2 GiB are written: the largest size takes the total from one byte to the least
`int64`, which is within the limit. -/
theorem unpacked_too_large : ∃ tarball r t, Fresh stagingDir emptyDisk ∧
    Ends exec (fun _ _ => True) (unpackBundle trusting tarball stagingDir).run emptyDisk r t ∧
    2147483648 < t.written := by
  refine ⟨.stream [oneByte, largest (List.replicate 2147483648 0)] none, _, _, fresh_emptyDisk,
    ends_complete exec {} (fun _ => trivial) _ _, complete_unpackBundle fresh_emptyDisk ?_⟩
  rintro ⟨-, next⟩
  refine largest_not_fits ?_ (next oneByte_lands).1
  rw [length_replicate]

end NasnetPanel.Update.Unpack
