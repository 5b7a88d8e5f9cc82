import Mathlib.Data.List.TakeWhile
import NasnetPanel.Jobs.Text
import NasnetPanel.Lib.GoMap

/-!
# Agent.PromMetric — the metrics of an MTProto core, read back

`parsePromMetric` and `labelValue` of `core/mtproto/mtproto.go`. A text is its characters. `value`
stands for `strconv.ParseFloat` and the conversion after it, with no answer for an error and what is
negative; the sums are below 2^53, where both are exact. The carriage return `bufio.ScanLines` drops
from a line is a blank, which the trimming drops as well.

Two characters of the text format are not read back: a closing brace in a label's value ends the
labels, and the newline of a user is read as an `n`. `Sample.read` is what a sample's line is read
as, and `parsePromMetric_written` says for which texts the sums come out right all the same.
-/

namespace NasnetPanel.Prom
open List Function Jobs

abbrev Text := List Char

/-- A value up to its closing quote, and the rest from there. -/
def quoted : Text → Text × Text
  | '\\' :: c :: rest => (c :: (quoted rest).1, (quoted rest).2)
  | '"' :: rest => ([], '"' :: rest)
  | c :: rest => (c :: (quoted rest).1, (quoted rest).2)
  | [] => ([], [])

/-- Each round of the loop takes an equals sign, so the labels' length is fuel enough. -/
def labelValue (key : Text) : Nat → Text → Option Text
  | 0, _ => none
  | n + 1, labels =>
    match labels.dropWhile (· ≠ '=') with
    | _ :: '"' :: rest =>
      let after := (quoted rest).2.tail
      if trimSpace (labels.takeWhile (· ≠ '=')) = key then some (quoted rest).1
      else labelValue key n (if after.head? = some ',' then after.tail else after)
    | _ => none

/-- What a line adds to whom. -/
def readLine (value : Text → Option Nat) (metric line : Text) : Option (Text × Nat) :=
  let line := trimSpace line
  let rest := line.drop metric.length
  if line.head? = some '#' ∨ ¬ metric <+: line ∨ rest.head? ≠ some '{' ∨ '}' ∉ rest then none
  else
    let labels := (rest.takeWhile (· ≠ '}')).tail
    let text := (trimSpace (rest.dropWhile (· ≠ '}')).tail).takeWhile (· ≠ ' ')
    (labelValue "user".toList labels.length labels).bind fun user => (value text).map (user, ·)

/-- The scanner gives up at a line of 8 MiB. -/
def scan (text : Text) : List Text :=
  (text.splitOn '\n').takeWhile fun line => (line.map Char.utf8Size).sum < 8388608

def add (out : Text → Option Nat) (a : Text × Nat) : Text → Option Nat :=
  update out a.1 (some ((out a.1).getD 0 + a.2))

def parsePromMetric (value : Text → Option Nat) (text metric : Text) : Text → Option Nat :=
  ((scan text).filterMap (readLine value metric)).foldl add fun _ => none

/-! ## The text format -/

def escape (v : Text) : Text :=
  v.flatMap fun c =>
    if c = '\\' ∨ c = '"' then ['\\', c] else if c = '\n' then ['\\', 'n'] else [c]

abbrev Label := Text × Text

def commas (labels : List Label) : Text :=
  labels.flatMap fun l => ',' :: (l.1 ++ '=' :: '"' :: (escape l.2 ++ ['"']))

/-- A sample. Behind its labels is the text of its count, and maybe a time behind a blank. -/
structure Sample where
  labels : List Label
  user : Text
  count : Nat
  shown : Text

def Sample.line (metric : Text) (s : Sample) : Text :=
  metric ++ '{' :: ((commas s.labels).tail ++ '}' :: ' ' :: s.shown)

/-- How a sample is written: its labels' names are plain, one of them is the user's, and the text of
its count is read as the count. -/
structure Sample.Formed (value : Text → Option Nat) (s : Sample) : Prop where
  names : ∀ l ∈ s.labels, trimSpace l.1 = l.1 ∧ '=' ∉ l.1 ∧ '}' ∉ l.1
  user : s.labels.lookup "user".toList = some s.user
  blanks : trimSpace s.shown = s.shown
  count : value (s.shown.takeWhile (· ≠ ' ')) = some s.count

/-- A sample, or a comment, another metric's line or an empty one, as behind the last newline. -/
abbrev Line := Sample ⊕ Text

def Line.text (metric : Text) : Line → Text := Sum.elim (Sample.line metric) id

/-- On one line, without blanks around a sample, and other lines are not of the metric. -/
def Line.Formed (value : Text → Option Nat) (metric : Text) (l : Line) : Prop :=
  '\n' ∉ l.text metric ∧ ((l.text metric).map Char.utf8Size).sum < 8388608 ∧
    l.elim (fun s => s.Formed value ∧ trimSpace (s.line metric) = s.line metric) fun t =>
      (trimSpace t).head? = some '#' ∨ ¬ metric ++ ['{'] <+: trimSpace t

def written (metric : Text) (lines : List Line) : Text :=
  ['\n'].intercalate (lines.map (Line.text metric))

def samples (lines : List Line) : List Sample := lines.filterMap Sum.getLeft?

def total (u : Text) (lines : List Line) : Nat :=
  ((samples lines).map fun s => if s.user = u then s.count else 0).sum

/-! ## What is read of a sample -/

/-- Labels cut at the first closing brace in a value: the labels before that one, its name with
what its value has before the brace, and what stands behind the brace. -/
structure Cut where
  before : List Label
  last : Label
  behind : Text

def cut : List Label → Option Cut
  | [] => none
  | (name, v) :: ls =>
    if '}' ∈ v then
      some ⟨[], (name, v.takeWhile (· ≠ '}')), escape (v.dropWhile (· ≠ '}')).tail ++
        '"' :: commas ls⟩
    else (cut ls).map fun c => { c with before := (name, v) :: c.before }

/-- The count behind the brace. -/
def Cut.count (value : Text → Option Nat) (shown : Text) (c : Cut) : Option Nat :=
  value ((trimSpace (c.behind ++ '}' :: ' ' :: shown)).takeWhile (· ≠ ' '))

/-- What counts of a sample: its count; but where a label's value has a closing brace, what stands
behind the first, if the user's label is before it. -/
def Sample.seen (value : Text → Option Nat) (s : Sample) : Option Nat :=
  match cut s.labels with
  | none => some s.count
  | some c => if (c.before.lookup "user".toList).isSome then c.count value s.shown else none

/-- No user has a newline or a closing brace, and what counts of the samples adds up for every user
and leaves none out. -/
structure Survives (value : Text → Option Nat) (lines : List Line) : Prop where
  users : ∀ s ∈ samples lines, '\n' ∉ s.user ∧ '}' ∉ s.user
  sums : ∀ u, ((samples lines).map fun s => if s.user = u then (s.seen value).getD 0 else 0).sum =
    total u lines
  named : ∀ s ∈ samples lines, ∃ t ∈ samples lines, t.user = s.user ∧ (t.seen value).isSome = true

/-- A value as it is read: an escaped newline is an `n`. -/
def misread (v : Text) : Text := v.map fun c => if c = '\n' then 'n' else c

/-- Whom and what a line is read as. -/
def Sample.read (value : Text → Option Nat) (s : Sample) : Option (Text × Nat) :=
  match cut s.labels with
  | none => some (misread s.user, s.count)
  | some c => ((c.before ++ [c.last]).lookup "user".toList).bind fun user =>
      (c.count value s.shown).map (misread user, ·)

variable {value : Text → Option Nat} {key metric t : Text} {s : Sample} {ls : List Label}

theorem quoted_escape (v rest : Text) :
    quoted (escape v ++ rest) = (misread v ++ (quoted rest).1, (quoted rest).2) := by
  unfold misread
  induction v with
  | nil => rfl
  | cons c v ih =>
    unfold escape at ih ⊢
    rw [flatMap_cons, append_assoc, map_cons]
    by_cases quote : c = '\\' ∨ c = '"'
    · rcases quote with rfl | rfl <;> simp [quoted, ih]
    by_cases newline : c = '\n'
    · simp [newline, quoted, ih]
    · rw [not_or] at quote
      simp [quote, newline, quoted, ih]

/-- One round of the loop: the label at the front has the key, or the rest is looked at. -/
theorem labelValue_cons {n : Nat} {l : Label} {rest : Text} (trimmed : trimSpace l.1 = l.1)
    (equals : '=' ∉ l.1) : labelValue key (n + 1) (l.1 ++ '=' :: '"' :: rest) =
      if l.1 = key then some (quoted rest).1
      else labelValue key n (if (quoted rest).2.tail.head? = some ',' then (quoted rest).2.tail.tail
        else (quoted rest).2.tail) := by
  have plain : ∀ c ∈ l.1, decide (c ≠ '=') = true := fun c mem =>
    decide_eq_true fun same => equals (same ▸ mem)
  rw [labelValue, dropWhile_append_of_pos plain, takeWhile_append_of_pos plain]
  simp [trimmed]

/-- The labels with more behind them, if it begins with a comma. -/
theorem labelValue_commas {n : Nat} {more : Text} (comma : more = [] ∨ more.head? = some ',')
    (names : ∀ l ∈ ls, trimSpace l.1 = l.1 ∧ '=' ∉ l.1 ∧ '}' ∉ l.1) :
    labelValue key (ls.length + n) (commas ls ++ more).tail =
      ((ls.lookup key).map misread).or (labelValue key n more.tail) := by
  induction ls with
  | nil => simp [commas]
  | cons l ls ih =>
    obtain ⟨⟨trimmed, equals, -⟩, names⟩ := forall_mem_cons.mp names
    have after : (if (commas ls ++ more).head? = some ',' then (commas ls ++ more).tail
        else commas ls ++ more) = (commas ls ++ more).tail := by
      cases ls with
      | nil => rcases comma with rfl | comma <;> simp [commas, *]
      | cons l ls => simp [commas]
    have text : (commas (l :: ls) ++ more).tail =
        l.1 ++ '=' :: '"' :: (escape l.2 ++ '"' :: (commas ls ++ more)) := by simp [commas]
    rw [text, length_cons, Nat.add_right_comm, labelValue_cons trimmed equals,
      quoted_escape, quoted,
      append_nil, tail_cons, after, ih names, lookup_cons]
    by_cases same : l.1 = key
    · simp [same]
    · simp [same, beq_false_of_ne (Ne.symm same)]

theorem escape_append (v w : Text) : escape (v ++ w) = escape v ++ escape w := flatMap_append

theorem brace_mem_escape {v : Text} : '}' ∈ escape v ↔ '}' ∈ v := by
  constructor
  · intro mem
    obtain ⟨c, inside, mem⟩ := mem_flatMap.mp mem
    have same : c = '}' := by grind
    exact same ▸ inside
  · exact fun mem => mem_flatMap.mpr ⟨'}', mem, by simp⟩

theorem cut_eq_none : cut ls = none ↔ ∀ l ∈ ls, '}' ∉ l.2 := by
  induction ls with
  | nil => simp [cut]
  | cons l ls ih =>
    unfold cut
    split
    next brace => simp [brace]
    next plain => simp [plain, ih]

theorem brace_not_mem_commas (names : ∀ l ∈ ls, '}' ∉ l.1) (values : ∀ l ∈ ls, '}' ∉ l.2) :
    '}' ∉ commas ls := by
  intro mem
  obtain ⟨l, listed, mem⟩ := mem_flatMap.mp mem
  simp [names l listed, brace_mem_escape, values l listed] at mem

/-- The text of the labels, at the cut. -/
theorem of_cut_some {c : Cut} (names : ∀ l ∈ ls, '}' ∉ l.1) (found : cut ls = some c) :
    commas ls = commas c.before ++ ',' :: (c.last.1 ++ '=' :: '"' :: (escape c.last.2 ++
        '}' :: c.behind)) ∧
      (∀ l ∈ c.before ++ [c.last], '}' ∉ l.2) ∧
      ∃ v, '}' ∈ v ∧ c.before ++ [(c.last.1, v)] <+: ls := by
  induction ls generalizing c with
  | nil => cases found
  | cons l ls ih =>
    obtain ⟨name, names⟩ := forall_mem_cons.mp names
    unfold cut at found
    split at found
    next brace =>
      cases found
      have first : (l.2.takeWhile (· ≠ '}')) ++ '}' :: (l.2.dropWhile (· ≠ '}')).tail = l.2 := by
        obtain ⟨line, rest, split, plain⟩ := eq_append_cons_of_mem brace
        have all : ∀ c ∈ line, decide (c ≠ '}') = true := fun c mem =>
          decide_eq_true fun same => plain (same ▸ mem)
        rw [split, takeWhile_append_of_pos all, dropWhile_append_of_pos all]
        simp
      refine ⟨?_, ?_, l.2, brace, ?_⟩
      · rw [commas, flatMap_cons, ← commas]
        nth_rewrite 1 [← first]
        rw [escape_append]
        simp [escape, commas]
      · simp only [nil_append, forall_mem_singleton]
        intro mem
        exact absurd (mem_takeWhile_imp mem) (by simp)
      · simp
    next plain =>
      obtain ⟨d, deeper, rfl⟩ := Option.map_eq_some_iff.mp found
      obtain ⟨text, clean, v, brace, whole⟩ := ih names deeper
      refine ⟨?_, ?_, v, brace, ?_⟩
      · rw [commas, flatMap_cons, ← commas, text]
        simp [commas]
      · simpa [plain] using clean
      · simpa using whole

theorem length_commas (ls : List Label) : 2 * ls.length ≤ (commas ls).length := by
  induction ls with
  | nil => exact le_rfl
  | cons l ls ih =>
    simp [commas] at ih ⊢
    omega

/-- A line of the metric, by what its labels have before the first brace and what is behind it. -/
theorem readLine_cut {inside behind : Text} (head : metric.head? ≠ some '#')
    (plain : '}' ∉ inside)
    (trimmed : trimSpace (metric ++ '{' :: (inside ++ '}' :: behind)) =
      metric ++ '{' :: (inside ++ '}' :: behind)) :
    readLine value metric (metric ++ '{' :: (inside ++ '}' :: behind)) =
      (labelValue "user".toList inside.length inside).bind fun user =>
        (value ((trimSpace behind).takeWhile (· ≠ ' '))).map (user, ·) := by
  have first : metric.head?.getD '{' ≠ '#' := by
    cases metric with
    | nil => decide
    | cons c metric => simpa using head
  have open' : ∀ c ∈ '{' :: inside, decide (c ≠ '}') = true := by
    rw [forall_mem_cons]
    exact ⟨rfl, fun c mem => decide_eq_true fun same => plain (same ▸ mem)⟩
  rw [readLine, trimmed, drop_left, if_neg (by simp [first]), ← cons_append]
  dsimp only
  rw [takeWhile_append_of_pos open', dropWhile_append_of_pos open', takeWhile_cons_of_neg (by simp),
    dropWhile_cons_of_neg (by simp), append_nil, tail_cons, tail_cons]

/-- The labels up to the cut, of which the last is not closed. -/
theorem labelValue_cut {c : Cut} {n : Nat}
    (names : ∀ l ∈ c.before ++ [c.last], trimSpace l.1 = l.1 ∧ '=' ∉ l.1 ∧ '}' ∉ l.1) :
    labelValue key (c.before.length + n + 1)
        (commas c.before ++ ',' :: (c.last.1 ++ '=' :: '"' :: escape c.last.2)).tail =
      ((c.before ++ [c.last]).lookup key).map misread := by
  obtain ⟨before, last⟩ := forall_mem_append.mp names
  obtain ⟨trimmed, equals, -⟩ := last c.last mem_cons_self
  have unclosed : quoted (escape c.last.2) = (misread c.last.2, []) := by
    have := quoted_escape c.last.2 []
    rwa [append_nil, quoted, append_nil] at this
  have ended : labelValue key n [] = none := by cases n <;> rfl
  rw [Nat.add_assoc, labelValue_commas (.inr rfl) before, tail_cons,
    labelValue_cons trimmed equals, unclosed,
    lookup_append, lookup_cons, Option.map_or]
  congr 1
  by_cases same : c.last.1 = key
  · simp [same]
  · simp [same, beq_false_of_ne (Ne.symm same), ended]

/-- **A sample's line is read as `Sample.read` says.** -/
theorem readLine_line (head : metric.head? ≠ some '#') (h : s.Formed value)
    (trimmed : trimSpace (s.line metric) = s.line metric) :
    readLine value metric (s.line metric) = s.read value := by
  have names : ∀ l ∈ s.labels, '}' ∉ l.1 := fun l mem => (h.names l mem).2.2
  unfold Sample.line at trimmed ⊢
  cases found : cut s.labels with
  | none =>
    have plain : '}' ∉ (commas s.labels).tail :=
      fun mem => brace_not_mem_commas names (cut_eq_none.mp found) (mem_of_mem_tail mem)
    obtain ⟨n, fuel⟩ : ∃ n, (commas s.labels).tail.length = s.labels.length + n := by
      have := length_commas s.labels
      refine Nat.exists_eq_add_of_le ?_
      rw [length_tail]
      omega
    have user : labelValue "user".toList (s.labels.length + n) (commas s.labels ++ []).tail =
        ((s.labels.lookup "user".toList).map misread).or (labelValue "user".toList n []) :=
      labelValue_commas (.inl rfl) h.names
    have blank : trimSpace (' ' :: s.shown) = s.shown := by
      rw [trimSpace, dropWhile_cons_of_pos rfl]
      exact h.blanks
    rw [append_nil, h.user] at user
    rw [readLine_cut head plain trimmed, fuel, user, blank, h.count, Sample.read, found]
    rfl
  | some c =>
    obtain ⟨text, clean, v, -, whole⟩ := of_cut_some names found
    have formed : ∀ l ∈ c.before ++ [c.last], trimSpace l.1 = l.1 ∧ '=' ∉ l.1 ∧ '}' ∉ l.1 := by
      intro l mem
      rcases mem_append.mp mem with before | last
      · exact h.names l (whole.subset (mem_append_left _ before))
      · rw [mem_singleton.mp last]
        exact h.names (c.last.1, v) (whole.subset (by simp))
    have lined : (commas s.labels).tail =
        (commas c.before ++ ',' :: (c.last.1 ++ '=' :: '"' :: escape c.last.2)).tail ++
          '}' :: c.behind := by
      rw [text]
      cases commas c.before <;> simp
    have plain : '}' ∉
        (commas c.before ++ ',' :: (c.last.1 ++ '=' :: '"' :: escape c.last.2)).tail := by
      intro mem
      refine brace_not_mem_commas (fun l mem => (formed l mem).2.2) clean ?_
      rw [commas, flatMap_append, ← commas]
      simpa using mem_append_left ['"'] (mem_of_mem_tail mem)
    obtain ⟨n, fuel⟩ : ∃ n, (commas c.before ++ ',' ::
        (c.last.1 ++ '=' :: '"' :: escape c.last.2)).tail.length = c.before.length + n + 1 := by
      have := length_commas c.before
      refine Nat.exists_eq_add_of_lt ?_
      simp
      omega
    rw [lined, append_assoc, cons_append] at trimmed ⊢
    rw [readLine_cut head plain trimmed, fuel, labelValue_cut formed, Sample.read, found,
      Option.bind_map]
    rfl

/-! ## Users -/

theorem newline_not_mem_misread (v : Text) : '\n' ∉ misread v := by
  intro mem
  obtain ⟨c, -, same⟩ := mem_map.mp mem
  split at same
  · cases same
  next other => exact other same

theorem brace_mem_misread {v : Text} (mem : '}' ∈ misread v) : '}' ∈ v := by
  obtain ⟨c, inside, same⟩ := mem_map.mp mem
  split at same
  · cases same
  · exact same ▸ inside

theorem misread_of_plain {v : Text} (plain : '\n' ∉ v) : misread v = v := by
  refine (map_congr_left fun c mem => if_neg ?_).trans (map_id _)
  exact fun same => plain (same ▸ mem)

theorem mem_of_lookup {v : Text} (found : ls.lookup key = some v) : (key, v) ∈ ls := by
  obtain ⟨before, after, rfl, -⟩ := lookup_eq_some_iff.mp found
  simp

/-- No line is read as one of a user with a newline or a closing brace. -/
theorem read_plain (h : s.Formed value) {u : Text} {n : Nat} (read : s.read value = some (u, n)) :
    '\n' ∉ u ∧ '}' ∉ u := by
  unfold Sample.read at read
  split at read
  next whole =>
    cases read
    have plain := cut_eq_none.mp whole _ (mem_of_lookup h.user)
    exact ⟨newline_not_mem_misread _, fun mem => plain (brace_mem_misread mem)⟩
  next c found =>
    obtain ⟨v, user, counted⟩ := Option.bind_eq_some_iff.mp read
    obtain ⟨m, -, same⟩ := Option.map_eq_some_iff.mp counted
    cases same
    obtain ⟨-, clean, -⟩ := of_cut_some (fun l mem => (h.names l mem).2.2) found
    have plain := clean _ (mem_of_lookup user)
    exact ⟨newline_not_mem_misread _, fun mem => plain (brace_mem_misread mem)⟩

/-- A sample of a plain user is read as the user's, with what counts of it. -/
theorem read_eq_seen (h : s.Formed value) (newline : '\n' ∉ s.user) (brace : '}' ∉ s.user) :
    s.read value = (s.seen value).map (s.user, ·) := by
  unfold Sample.read Sample.seen
  cases found : cut s.labels with
  | none => simp [misread_of_plain newline]
  | some c =>
    obtain ⟨-, -, v, inside, rest, whole⟩ := of_cut_some (fun l mem => (h.names l mem).2.2) found
    have user := h.user
    rw [← whole, append_assoc, lookup_append] at user
    dsimp only
    rw [lookup_append]
    cases seen : c.before.lookup "user".toList with
    | some w =>
      rw [seen, Option.some_or] at user
      cases user
      simp [misread_of_plain newline]
    | none =>
      rw [seen, Option.none_or, singleton_append, lookup_cons] at user
      -- the label at the cut is not the user's, which has no brace
      have other : ("user".toList == c.last.1) = false := by
        refine Bool.eq_false_iff.mpr fun same => brace ?_
        rw [same] at user
        cases user
        exact inside
      have unseen : [c.last].lookup "user".toList = none := by rw [lookup_cons, other, lookup_nil]
      rw [unseen]
      rfl

theorem readLine_other
    (other : (trimSpace t).head? = some '#' ∨ ¬ metric ++ ['{'] <+: trimSpace t) :
    readLine value metric t = none := by
  refine if_pos (or_iff_not_imp_left.mpr fun noComment => ?_)
  have other := other.resolve_left noComment
  refine or_iff_not_imp_left.mpr fun isMetric => .inl fun brace => other ?_
  obtain ⟨rest, is⟩ := not_not.mp isMetric
  rw [← is, drop_left] at brace
  obtain ⟨more, rfl⟩ := head?_eq_some_iff.mp brace
  exact ⟨more, by simp [← is]⟩

/-! ## The whole text -/

theorem isSome_foldl_add (as : List (Text × Nat)) (out : Text → Option Nat) (u : Text) :
    (as.foldl add out u).isSome ↔ (out u).isSome ∨ u ∈ as.map (·.1) := by
  induction as generalizing out with
  | nil => simp
  | cons a as ih =>
    rw [foldl_cons, ih, map_cons, mem_cons, ← or_assoc]
    refine or_congr_left ?_
    by_cases same : u = a.1 <;> simp [add, same]

theorem getD_foldl_add (as : List (Text × Nat)) (out : Text → Option Nat) (u : Text) :
    (as.foldl add out u).getD 0 =
      (out u).getD 0 + (as.map fun a => if a.1 = u then a.2 else 0).sum := by
  refine GoMap.foldl_add (fun out : Text → Option Nat => (out u).getD 0) _ (fun out a => ?_) as out
  by_cases same : a.1 = u
  · simp [add, same]
  · simp [add, same, Ne.symm same]

theorem sum_seen (ss : List Sample) (u : Text) :
    ((ss.filterMap fun s => (s.seen value).map (s.user, ·)).map fun a =>
        if a.1 = u then a.2 else 0).sum =
      (ss.map fun s => if s.user = u then (s.seen value).getD 0 else 0).sum := by
  induction ss with
  | nil => rfl
  | cons s ss ih => cases seen : s.seen value <;> simp [seen, ih]

section
variable {lines : List Line} (lined : lines ≠ []) (head : metric.head? ≠ some '#')
  (formed : ∀ l ∈ lines, l.Formed value metric)
include formed

theorem formed_of_mem (mem : s ∈ samples lines) : s.Formed value := by
  obtain ⟨l, listed, is⟩ := mem_filterMap.mp mem
  cases l with
  | inl s' =>
    cases is
    exact (formed _ listed).2.2.1
  | inr t => cases is

include lined head

/-- The lines of the text that count are the samples, each as it is read. -/
theorem filterMap_readLine : (scan (written metric lines)).filterMap (readLine value metric) =
    (samples lines).filterMap (Sample.read value) := by
  have split : scan (written metric lines) = lines.map (Line.text metric) := by
    rw [scan, written, splitOn_intercalate '\n' ?_ (by simpa using lined), takeWhile_eq_self_iff]
    · exact forall_mem_map.mpr fun l mem => decide_eq_true (formed l mem).2.1
    · exact forall_mem_map.mpr fun l mem => (formed l mem).1
  have each : ∀ l ∈ lines, readLine value metric (l.text metric) =
      l.getLeft?.bind (Sample.read value) := by
    rintro (s | t) mem
    · exact readLine_line head (formed _ mem).2.2.1 (formed _ mem).2.2.2
    · exact readLine_other (formed _ mem).2.2
  rw [split, filterMap_map, samples, filterMap_filterMap]
  exact filterMap_congr each

/-- Where all users are plain, the sums are of what counts. -/
theorem parsePromMetric_seen (plain : ∀ s ∈ samples lines, '\n' ∉ s.user ∧ '}' ∉ s.user)
    (u : Text) :
    (parsePromMetric value (written metric lines) metric u).getD 0 =
        ((samples lines).map fun s => if s.user = u then (s.seen value).getD 0 else 0).sum ∧
      ((parsePromMetric value (written metric lines) metric u).isSome ↔
        ∃ s ∈ samples lines, s.user = u ∧ (s.seen value).isSome = true) := by
  have each : ∀ s ∈ samples lines, s.read value = (s.seen value).map (s.user, ·) := fun s mem =>
    read_eq_seen (formed_of_mem formed mem) (plain s mem).1 (plain s mem).2
  rw [parsePromMetric, filterMap_readLine lined head formed, filterMap_congr each, getD_foldl_add,
    isSome_foldl_add]
  refine ⟨(Nat.zero_add _).trans (sum_seen _ u), ?_⟩
  simp only [Option.isSome_none, Bool.false_eq_true, false_or, mem_map, mem_filterMap,
    Option.map_eq_some_iff, Option.isSome_iff_exists]
  constructor
  · rintro ⟨_, ⟨s, mem, n, seen, rfl⟩, rfl⟩
    exact ⟨s, mem, rfl, n, seen⟩
  · rintro ⟨s, mem, rfl, n, seen⟩
    exact ⟨(s.user, n), ⟨s, mem, n, seen, rfl⟩, rfl⟩

/-- **What the text format writes is read back just where it survives**: each user's counts are
summed and nobody else is named. -/
theorem parsePromMetric_written :
    (∀ u, (parsePromMetric value (written metric lines) metric u).getD 0 = total u lines ∧
      ((parsePromMetric value (written metric lines) metric u).isSome ↔
        u ∈ (samples lines).map (·.user))) ↔ Survives value lines := by
  constructor
  · intro right
    have plain : ∀ s ∈ samples lines, '\n' ∉ s.user ∧ '}' ∉ s.user := by
      intro s mem
      have named := (right s.user).2.mpr (mem_map_of_mem mem)
      rw [parsePromMetric, filterMap_readLine lined head formed, isSome_foldl_add] at named
      obtain ⟨⟨u, n⟩, read, same⟩ := mem_map.mp (named.resolve_left (by simp))
      obtain ⟨t, listed, read⟩ := mem_filterMap.mp read
      cases same
      exact read_plain (formed_of_mem formed listed) read
    refine ⟨plain, fun u => ?_, fun s mem => ?_⟩
    · rw [← (parsePromMetric_seen lined head formed plain u).1]
      exact (right u).1
    · rw [← (parsePromMetric_seen lined head formed plain s.user).2]
      exact (right s.user).2.mpr (mem_map_of_mem mem)
  · intro survives u
    obtain ⟨sum, named⟩ := parsePromMetric_seen lined head formed survives.users u
    refine ⟨sum.trans (survives.sums u), named.trans ⟨?_, fun mem => ?_⟩⟩
    · rintro ⟨s, mem, rfl, -⟩
      exact mem_map_of_mem mem
    · obtain ⟨s, listed, rfl⟩ := mem_map.mp mem
      exact survives.named s listed

end

def three : Text → Option Nat := fun t => if t = ['3'] then some 3 else none

def only (user : Text) : List Line := [.inl ⟨[("user".toList, user)], user, 3, ['3']⟩]

theorem parsePromMetric_only :
    (parsePromMetric three (written ['m'] (only ['"'])) ['m'] ['"']).getD 0 =
      total ['"'] (only ['"']) := by
  have formed : ∀ l ∈ only ['"'], l.Formed three ['m'] :=
    forall_mem_singleton.mpr ⟨by decide, by decide,
      ⟨by decide, rfl, by decide, by decide⟩, by decide⟩
  have survives : Survives three (only ['"']) := ⟨by decide, fun u => rfl, by decide⟩
  exact ((parsePromMetric_written (by decide) (by decide) formed).mpr survives ['"']).1

/-- **A user with a brace is lost, one with a newline is another.** -/
theorem brace_lost :
    parsePromMetric three (written ['m'] (only ['a', '}'])) ['m'] ['a', '}'] = none ∧
      parsePromMetric three (written ['m'] (only ['\n'])) ['m'] ['n'] = some 3 := by decide

end NasnetPanel.Prom
