import Mathlib.Data.List.Basic

/-!
# Lib.GoPath — slash-separated paths, cleaned

Paths as lists of characters, split into names at the slashes. `clean` is the shortest equivalent
path: empty names and `.` are dropped, `..` takes back the name before it, and a `..` with nothing
to take back is dropped from a rooted path and kept at the front of any other.

`resolve` is where a rooted path leads when no name on the way is a link. Joining a directory and a
relative path that does not begin with `..` leads below the directory
(`resolve_join`), and `clean_relative` says which texts such paths are.
-/

namespace GoPath
open List

abbrev Text := List Char

abbrev Name := List Char

def dot : Name := ['.']

def dotdot : Name := ['.', '.']

def split (p : Text) : List Name := p.splitOn '/'

def join (names : List Name) : Text := ['/'].intercalate names

def isAbs (p : Text) : Bool := p.head? = some '/'

/-- The next name of a path, over the names so far, the last one first. -/
def push (rooted : Bool) (names : List Name) (n : Name) : List Name :=
  if n = [] ∨ n = dot then names
  else if n = dotdot then
    match names with
    | [] => if rooted then [] else [dotdot]
    | last :: before => if last = dotdot then dotdot :: names else before
  else n :: names

/-- The names of a path that are left when it is cleaned. -/
def cleaned (rooted : Bool) (p : Text) : List Name := ((split p).foldl (push rooted) []).reverse

def clean (p : Text) : Text :=
  if isAbs p then '/' :: join (cleaned true p)
  else if cleaned false p = [] then dot
  else join (cleaned false p)

/-- The names on the way from the root. -/
def resolve (p : Text) : List Name := cleaned true p

/-- A name that stands for an entry of its directory. -/
structure Plain (n : Name) : Prop where
  nonempty : n ≠ []
  ne_dot : n ≠ dot
  ne_dotdot : n ≠ dotdot
  no_slash : '/' ∉ n

instance (n : Name) : Decidable (Plain n) :=
  decidable_of_iff (n ≠ [] ∧ n ≠ dot ∧ n ≠ dotdot ∧ '/' ∉ n)
    ⟨fun h => ⟨h.1, h.2.1, h.2.2.1, h.2.2.2⟩, fun h => ⟨h.1, h.2, h.3, h.4⟩⟩

/-- An absolute directory, clean. -/
structure Dir where
  names : List Name
  plain : ∀ n ∈ names, Plain n

def Dir.text (d : Dir) : Text := '/' :: join d.names

/-- `filepath.Join(dir, p)`, for a path that is not empty. -/
def Dir.join (d : Dir) (p : Text) : Text := clean (d.text ++ '/' :: p)

/-- The path of plain names below a directory, as `path.Clean` writes it. -/
def relative (names : List Name) : Text := if names = [] then dot else join names

/-! ## Splitting and joining -/

variable {n : Name} {names : List Name} {rooted : Bool}

theorem no_slash_of_mem_split {p : Text} (mem : n ∈ split p) : '/' ∉ n := by
  induction p generalizing n with
  | nil =>
    rw [split, splitOn_nil, mem_singleton] at mem
    simp [mem]
  | cons c p ih =>
    unfold split at mem ih
    rw [splitOn_cons_eq_if_modifyHead] at mem
    by_cases slash : c = '/'
    · rw [if_pos (by simpa using slash), mem_cons] at mem
      rcases mem with rfl | mem
      · simp
      · exact ih mem
    · rw [if_neg (by simpa using slash)] at mem
      cases parts : p.splitOn '/' with
      | nil => simp [parts] at mem
      | cons first rest =>
        rw [parts, modifyHead_cons, mem_cons] at mem
        rcases mem with rfl | mem
        · have inFirst : '/' ∉ first := ih (by simp [parts])
          simp [inFirst, Ne.symm slash]
        · exact ih (by simp [parts, mem])

theorem split_join (plain : ∀ n ∈ names, '/' ∉ n) (some : names ≠ []) :
    split (join names) = names :=
  splitOn_intercalate '/' plain some

theorem split_cons_slash (p : Text) : split ('/' :: p) = [] :: split p := by
  unfold split
  simp [splitOn_cons_eq_if_modifyHead]

/-! ## Pushing names -/

theorem push_plain (plain : Plain n) : push rooted names n = n :: names := by
  unfold push
  rw [if_neg (not_or.mpr ⟨plain.nonempty, plain.ne_dot⟩), if_neg plain.ne_dotdot]

theorem push_nothing (rooted : Bool) (names : List Name) : push rooted names [] = names := by
  simp [push]

theorem push_dot (rooted : Bool) (names : List Name) : push rooted names dot = names := by
  simp [push]

section
variable (plain : ∀ n ∈ names, Plain n)
include plain

theorem foldl_push_plain (before : List Name) :
    names.foldl (push rooted) before = names.reverse ++ before := by
  induction names generalizing before with
  | nil => rfl
  | cons n names ih =>
    rw [foldl_cons, push_plain (plain n (by simp)), ih fun m mem => plain m (by simp [mem])]
    simp

theorem foldl_push_join (before : List Name) :
    (split (join names)).foldl (push rooted) before = names.reverse ++ before := by
  by_cases empty : names = []
  · subst empty
    exact push_nothing rooted before
  · rw [split_join (fun n mem => (plain n mem).no_slash) empty]
    exact foldl_push_plain plain before

theorem foldl_push_relative (before : List Name) :
    (split (relative names)).foldl (push rooted) before = names.reverse ++ before := by
  unfold relative
  split
  case isTrue empty =>
    subst empty
    exact push_dot rooted before
  case isFalse => exact foldl_push_join plain before

/-- **A directory joined with a relative path of plain names leads below the directory.** -/
theorem resolve_join (d : Dir) :
    resolve (d.join (relative names)) = d.names ++ names := by
  have below : cleaned true (d.text ++ '/' :: relative names) = d.names ++ names := by
    unfold cleaned
    have parts : split (d.text ++ '/' :: relative names) = split d.text ++ split (relative names) :=
      splitOn_append_cons_self _ _
    rw [parts, foldl_append, Dir.text, split_cons_slash, foldl_cons, push_nothing,
      foldl_push_join d.plain, foldl_push_relative plain]
    simp
  have all : ∀ n ∈ d.names ++ names, Plain n := forall_mem_append.mpr ⟨d.plain, plain⟩
  have abs : isAbs (d.text ++ '/' :: relative names) = true := rfl
  rw [Dir.join, clean, if_pos abs, below, resolve, cleaned, split_cons_slash, foldl_cons,
    push_nothing, foldl_push_join all]
  simp

end

theorem resolve_join_name (d : Dir) (plain : Plain n) : resolve (d.join n) = d.names ++ [n] := by
  have below := resolve_join (forall_mem_singleton.mpr plain) d
  rwa [relative, if_neg (by simp), join, intercalate_singleton] at below

/-! ## What cleaning leaves -/

/-- The names of a cleaned path, the last one first: plain ones, then `..` where the path is not
rooted. -/
def Tidy (rooted : Bool) (names : List Name) : Prop :=
  ∃ plain ups, names = plain ++ List.replicate ups dotdot ∧ (∀ n ∈ plain, Plain n) ∧
    (rooted = true → ups = 0)

theorem Tidy.push (tidy : Tidy rooted names)
    (no_slash : '/' ∉ n) : Tidy rooted (push rooted names n) := by
  obtain ⟨plain, ups, rfl, all, root⟩ := tidy
  unfold GoPath.push
  by_cases nothing : n = [] ∨ n = dot
  · rw [if_pos nothing]
    exact ⟨plain, ups, rfl, all, root⟩
  rw [if_neg nothing]
  by_cases up : n = dotdot
  · rw [if_pos up]
    cases plain with
    | cons last before =>
      have other : last ≠ dotdot := (all last (by simp)).ne_dotdot
      simp only [cons_append, if_neg other]
      exact ⟨before, ups, rfl, fun m mem => all m (by simp [mem]), root⟩
    | nil =>
      cases ups with
      | zero =>
        cases rooted with
        | true => exact ⟨[], 0, rfl, by simp, fun _ => rfl⟩
        | false => exact ⟨[], 1, rfl, by simp, by simp⟩
      | succ ups =>
        have notRooted : rooted = false := by
          by_contra h
          exact absurd (root (by simpa using h)) (by simp)
        subst notRooted
        refine ⟨[], ups + 2, ?_, by simp, by simp⟩
        simp [replicate_succ]
  · rw [if_neg up]
    obtain ⟨nonempty, ne_dot⟩ := not_or.mp nothing
    exact ⟨n :: plain, ups, rfl, forall_mem_cons.mpr ⟨⟨nonempty, ne_dot, up, no_slash⟩, all⟩, root⟩

theorem tidy_foldl (parts : List Name) (no_slash : ∀ n ∈ parts, '/' ∉ n)
    (tidy : Tidy rooted names) : Tidy rooted (parts.foldl (push rooted) names) := by
  exact foldlRecOn parts _ tidy fun _ tidy n hn => tidy.push (no_slash n hn)

theorem cleaned_shape (rooted : Bool) (p : Text) : ∃ ups plain,
    cleaned rooted p = List.replicate ups dotdot ++ plain ∧ ∀ n ∈ plain, Plain n := by
  have start : Tidy rooted [] := ⟨[], 0, rfl, by simp, fun _ => rfl⟩
  obtain ⟨plain, ups, shape, all, -⟩ :=
    tidy_foldl (split p) (fun n mem => no_slash_of_mem_split mem) start
  refine ⟨ups, plain.reverse, ?_, by simpa using all⟩
  rw [cleaned, shape]
  simp

theorem join_cons (n : Name) (names : List Name) :
    join (n :: names) = n ∨ join (n :: names) = n ++ '/' :: join names := by
  cases names with
  | nil => exact .inl (by simp [join])
  | cons m names =>
    refine .inr ?_
    unfold join
    simp

/-- **A cleaned path that is not absolute and does not begin with `..` is made of plain names.** -/
theorem clean_relative {p : Text} (rel : isAbs (clean p) = false) (notUp : clean p ≠ dotdot)
    (notUps : ¬ dotdot ++ ['/'] <+: clean p) :
    ∃ names, clean p = relative names ∧ ∀ n ∈ names, Plain n := by
  have notAbs : isAbs p = false := by
    by_contra abs
    rw [clean, if_pos (by simpa using abs)] at rel
    simp [isAbs] at rel
  have text : clean p = relative (cleaned false p) := by simp [clean, relative, notAbs]
  refine ⟨cleaned false p, text, ?_⟩
  obtain ⟨ups, plain, shape, all⟩ := cleaned_shape false p
  cases ups with
  | zero =>
    rw [shape]
    simpa using all
  | succ ups =>
    -- A `..` that is left stands at the front, where the two checks see it.
    rw [text, shape, replicate_succ, cons_append, relative, if_neg (by simp)] at notUp notUps
    rcases join_cons dotdot (replicate ups dotdot ++ plain) with only | more
    · exact absurd only notUp
    · exact absurd ⟨_, by rw [more, append_assoc, singleton_append]⟩ notUps

theorem relative_inj {a b : List Name} (plainA : ∀ n ∈ a, Plain n) (plainB : ∀ n ∈ b, Plain n)
    (same : relative a = relative b) : a = b := by
  have here : (split (relative a)).foldl (push true) [] = a.reverse ++ [] :=
    foldl_push_relative plainA []
  rw [same, foldl_push_relative plainB] at here
  simpa using here.symm

example : clean "a//b/./../c/".toList = "a/c".toList := by decide
example : clean "a/../../b".toList = "../b".toList := by decide
example : clean "/../a".toList = "/a".toList := by decide

end GoPath
