import Mathlib.Algebra.Order.BigOperators.Group.List
import NasnetPanel.Agent.Traffic
import NasnetPanel.Lib.Runs

/-!
# Agent.TrafficCut — what an agent crash does to the counts

The agent's process as a state machine. The collector's tick reads Xray's counters, stores the
difference and then sets the store's baseline; a flush reads the buckets, then the baseline, opens
the file `.tmp`, writes it and renames it over the store's; a drain drops buckets and flushes. Each
call takes the store's lock by itself and a flush takes none, so they interleave freely, several
flushes at once with the one `.tmp` included, and the process may stop anywhere. A restart loads the
file at the store's path.

That file is a consistent cut, and a restart neither loses nor repeats bytes, in every run where no
flush overlaps a tick's two calls or another flush's file, and no drain is cut off from its flush
(`accounted_of_untorn`). Nothing in the source keeps them so (`torn_flush_miscounts`).

Not in the source: what the process drained, reloaded and collected, per counter, and how often it
drained.
-/

namespace NasnetPanel.Traffic
open List Option Std.ExtTreeMap

/-! ## The process -/

/-- Where the collector's tick is. -/
inductive Tick where
  | idle
  | read (delta current : XrayStatsSnapshot)
  | stored (current : XrayStatsSnapshot)

/-- Where an open file is: at the store's path, at the path with `.tmp`, or at neither since. -/
inductive Place where
  | path
  | tmp
  | gone
deriving DecidableEq

/-- The one `.tmp` is renamed over the store's file. -/
def Place.renamed : Place → Place
  | .tmp => .path
  | .path | .gone => .gone

/-- A flush that has read the buckets, and maybe the baseline, opened its file and written it.
`drained` is what had been drained when it read the buckets, in `drains` drains. -/
structure Flush where
  buckets : List TrafficBucket
  baseline : Option (Option XrayStatsSnapshot) := none
  handle : Option Place := none
  written : Bool := false
  drained : Counter → Int
  drains : Nat

/-- A file: how long it is, what a reader makes of it, and what had been drained by the time its
buckets were read. -/
structure Text where
  length : Nat
  content : StoreFile
  drained : Counter → Int
  drains : Nat

/-- The file as `os.WriteFile` opens it, created or truncated. -/
def Text.blank : Text := ⟨0, .corrupt, fun _ => 0, 0⟩

/-- Writes a text from the start. The tail of a longer one is left behind it. -/
def Text.write (t new : Text) : Text :=
  if t.length ≤ new.length then new else { t with content := .corrupt }

/-- The running agent. `baseline` is the collector's own copy; `reloaded` is what the restart found
in the buckets, `drainedBefore` what had been drained before it, and `collected` the differences
since. -/
structure Process where
  mem : MemoryStore
  baseline : Option XrayStatsSnapshot
  tick : Tick
  flushes : GoMap Nat Flush
  drained : Counter → Int
  drains : Nat
  reloaded : Counter → Int
  drainedBefore : Counter → Int
  collected : Counter → Int

/-- Xray, the file at the store's path and the one beside it, and the process if it runs. `drained`
is what had been drained when the last process stopped. -/
structure Agent where
  xray : XrayStatsSnapshot
  path : Option Text
  tmp : Option Text
  drained : Counter → Int
  proc : Option Process

namespace Agent

def init : Agent := ⟨{}, none, none, fun _ => 0, none⟩

/-- The store's file as a restart reads it. -/
def file (a : Agent) : StoreFile :=
  match a.path with
  | none => .missing
  | some t => t.content

def fileDrained (a : Agent) : Counter → Int :=
  match a.path with
  | none => fun _ => 0
  | some t => t.drained

def fileDrains (a : Agent) : Nat :=
  match a.path with
  | none => 0
  | some t => t.drains

end Agent

def MemoryStore.sum (s : MemoryStore) (c : Counter) : Int :=
  GoMap.total (fun _ (b : TrafficBucket) => b.read c) s.buckets

open MemoryStore

def MemoryStore.dropped (s : MemoryStore) (t : Int) (c : Counter) : Int :=
  GoMap.total (fun _ (b : TrafficBucket) => b.read c) (s.buckets.filter fun ts _ => decide (ts ≤ t))

/-- Xray counts `n` more bytes. -/
def XrayStatsSnapshot.count (s : XrayStatsSnapshot) (c : Counter) (n : Nat) : XrayStatsSnapshot :=
  let more := s.get c + Int64.ofNat n
  match c with
  | .userUplink k => { s with userUplink := s.userUplink.insert k more }
  | .userDownlink k => { s with userDownlink := s.userDownlink.insert k more }
  | .inboundUplink k => { s with inboundUplink := s.inboundUplink.insert k more }
  | .inboundDownlink k => { s with inboundDownlink := s.inboundDownlink.insert k more }
  | .outboundUplink k => { s with outboundUplink := s.outboundUplink.insert k more }
  | .outboundDownlink k => { s with outboundDownlink := s.outboundDownlink.insert k more }
  | .totalUplink => { s with totalUplink := more }
  | .totalDownlink => { s with totalDownlink := more }

open XrayStatsSnapshot

inductive Action where
  | traffic (c : Counter) (n : Nat)
  | tickRead
  | tickStore (now : Int)
  | tickBaseline
  | flushBuckets (i : Nat)
  | flushBaseline (i : Nat)
  | flushOpen (i : Nat)
  | flushData (i : Nat)
  | flushRename (i : Nat)
  | flushFail (i : Nat) (left : Text)
  | drain (t : Int)
  | crash
  | start

/-- The buckets' width and retention, and how long the text of the file's data is. -/
structure Config where
  bucketDuration : Int
  retention : Int
  textLength : FileStoreData → Nat

/-- The collector and the store as `Start` and `NewFileStore` leave them. -/
def boot (cfg : Config) (file : StoreFile) (drained : Counter → Int) (drains : Nat) : Process :=
  let mem := loadFromDisk { bucketDuration := cfg.bucketDuration, retention := cfg.retention } file
  { mem := mem, baseline := mem.getBaseline, tick := .idle, flushes := ∅, drained := drained
    drains := drains, reloaded := mem.sum, drainedBefore := drained, collected := fun _ => 0 }

namespace Process

/-- The tick reads the counters: the difference, and the collector's own baseline. -/
def tickRead (p : Process) (xray : XrayStatsSnapshot) : Option Process :=
  match p.tick with
  | .idle =>
    let delta := diffSnapshot p.baseline xray
    some { p with
      baseline := some xray
      tick := .read delta xray
      collected := fun c => p.collected c + delta.read c }
  | _ => none

def tickStore (p : Process) (now : Int) : Option Process :=
  match p.tick with
  | .read delta current =>
    some { p with
      mem := if snapshotIsEmpty delta then p.mem else p.mem.accumulate delta now
      tick := .stored current }
  | _ => none

def tickBaseline (p : Process) : Option Process :=
  match p.tick with
  | .stored current => some { p with mem := p.mem.setBaseline current, tick := .idle }
  | _ => none

def flushBuckets (p : Process) (i : Nat) : Option Process :=
  match p.flushes[i]? with
  | none =>
    let flush := { buckets := p.mem.getAll, drained := p.drained, drains := p.drains }
    some { p with flushes := p.flushes.insert i flush }
  | some _ => none

def flushBaseline (p : Process) (i : Nat) : Option Process := do
  let f ← p.flushes[i]?
  match f.baseline with
  | none =>
    return { p with flushes := p.flushes.insert i { f with baseline := some p.mem.getBaseline } }
  | some _ => none

def drain (p : Process) (t : Int) : Process :=
  { p with
    mem := p.mem.drain t
    drained := fun c => p.drained c + p.mem.dropped t c
    drains := p.drains + 1 }

end Process

namespace Agent

def read (a : Agent) : Place → Text
  | .path => a.path.getD .blank
  | .tmp => a.tmp.getD .blank
  | .gone => .blank

def write (a : Agent) (t : Text) : Place → Agent
  | .path => { a with path := some t }
  | .tmp => { a with tmp := some t }
  | .gone => a

/-- Opens the `.tmp`, which other flushes may have open too. -/
def flushOpen (a : Agent) (i : Nat) : Option Agent := do
  let p ← a.proc
  let f ← p.flushes[i]?
  if f.baseline.isSome ∧ f.handle = none then
    return { a with
      tmp := some .blank
      proc := some { p with flushes := p.flushes.insert i { f with handle := some .tmp } } }
  else none

def flushData (cfg : Config) (a : Agent) (i : Nat) : Option Agent := do
  let p ← a.proc
  let f ← p.flushes[i]?
  match f.handle, f.baseline, f.written with
  | some place, some baseline, false =>
    let data : FileStoreData := ⟨fileStoreVersion, f.buckets, baseline⟩
    let text := (a.read place).write ⟨cfg.textLength data, .whole data, f.drained, f.drains⟩
    return { a.write text place with
      proc := some { p with flushes := p.flushes.insert i { f with written := true } } }
  | _, _, _ => none

/-- Renames whatever is at `.tmp` by now; with nothing there the rename fails. -/
def flushRename (a : Agent) (i : Nat) : Option Agent := do
  let p ← a.proc
  let f ← p.flushes[i]?
  if f.written then
    let rest := p.flushes.erase i
    match a.tmp with
    | none => return { a with proc := some { p with flushes := rest } }
    | some t =>
      let moved := rest.map fun _ f => { f with handle := f.handle.map Place.renamed }
      return { a with path := some t, tmp := none, proc := some { p with flushes := moved } }
  else none

/-- A flush that goes no further. A write that fails may leave anything in its file. -/
def flushFail (a : Agent) (i : Nat) (left : Text) : Option Agent := do
  let p ← a.proc
  let f ← p.flushes[i]?
  let rest := { p with flushes := p.flushes.erase i }
  match f.handle, f.written with
  | some place, false => return { a.write left place with proc := some rest }
  | _, _ => return { a with proc := some rest }

/-- The process stops, wherever it is. -/
def crash (a : Agent) : Agent :=
  match a.proc with
  | none => a
  | some p => { a with drained := p.drained, proc := none }

end Agent

def agentStep (cfg : Config) (a : Agent) : Action → Option Agent
  | .traffic c n =>
    if a.xray.read c + n < 2 ^ 63 then some { a with xray := a.xray.count c n } else none
  | .tickRead => do return { a with proc := some (← (← a.proc).tickRead a.xray) }
  | .tickStore now => do return { a with proc := some (← (← a.proc).tickStore now) }
  | .tickBaseline => do return { a with proc := some (← (← a.proc).tickBaseline) }
  | .flushBuckets i => do return { a with proc := some (← (← a.proc).flushBuckets i) }
  | .flushBaseline i => do return { a with proc := some (← (← a.proc).flushBaseline i) }
  | .flushOpen i => a.flushOpen i
  | .flushData i => a.flushData cfg i
  | .flushRename i => a.flushRename i
  | .flushFail i left => a.flushFail i left
  | .drain t => do return { a with proc := some ((← a.proc).drain t) }
  | .crash => some a.crash
  | .start =>
    match a.proc with
    | none => some { a with proc := some (boot cfg a.file a.drained a.fileDrains) }
    | some _ => none

/-- The bytes a counter accounts for after a restart: those reloaded, those drained before, and the
differences collected since. -/
def Process.accounted (p : Process) (c : Counter) : Int :=
  p.reloaded c + p.drainedBefore c + p.collected c

/-! ## Cuts -/

/-- A store, and what had been drained by then, add up to `base`. -/
structure Cut (s : MemoryStore) (drained base : Int) (c : Counter) : Prop where
  keyed : s.Keyed
  nonneg : ∀ (ts : Int) (b : TrafficBucket), s.buckets[ts]? = some b → 0 ≤ b.read c
  drained_nonneg : 0 ≤ drained
  sums : s.sum c + drained = base

variable {now : Int}

namespace Cut
variable {s : MemoryStore} {drained base : Int} {c : Counter}

theorem total_nonneg {m : GoMap Int TrafficBucket}
    (nonneg : ∀ (ts : Int) (b : TrafficBucket), m[ts]? = some b → 0 ≤ b.read c) :
    0 ≤ GoMap.total (fun _ (b : TrafficBucket) => b.read c) m := by
  refine sum_nonneg (forall_mem_map.mpr fun e he => ?_)
  exact nonneg e.1 e.2 (mem_toList_iff_getElem?_eq_some.mp he)

section
variable (h : Cut s drained base c)
include h

theorem bucketAt_le (ts : Int) : 0 ≤ (s.bucketAt ts).read c ∧ (s.bucketAt ts).read c ≤ base := by
  have sums := h.sums
  have drained := h.drained_nonneg
  rw [MemoryStore.sum] at sums
  rw [bucketAt, GoMap.getD_eq]
  cases found : s.buckets[ts]? with
  | none =>
    have rest := total_nonneg h.nonneg
    have zero : (({ timestamp := ts } : TrafficBucket)).read c = 0 := read_empty c
    rw [getD_none, zero]
    omega
  | some b =>
    have here := h.nonneg ts b found
    have rest : 0 ≤ GoMap.total (fun _ (b : TrafficBucket) => b.read c) (s.buckets.erase ts) := by
      refine total_nonneg fun a v hv => ?_
      exact h.nonneg a v (GoMap.of_erase hv).2
    rw [GoMap.total_erase found] at sums
    rw [getD_some]
    omega

theorem accumulate {delta : XrayStatsSnapshot} (grows : 0 ≤ delta.read c)
    (fits : base + delta.read c < 2 ^ 63) (fresh : (s.add delta now).Fresh now) :
    Cut (s.accumulate delta now) drained (base + delta.read c) c := by
  have same : s.accumulate delta now = s.add delta now := evict_of_fresh fresh
  obtain ⟨low, high⟩ := h.bucketAt_le (s.truncateTime now)
  have merged : (s.grown delta now).read c =
      (s.bucketAt (s.truncateTime now)).read c + delta.read c :=
    read_merge low grows (by omega)
  rw [same]
  refine ⟨h.keyed.add delta now, fun ts b found => ?_, h.drained_nonneg, ?_⟩
  · rw [getElem?_add] at found
    split at found
    · cases found
      omega
    · exact h.nonneg ts b found
  · have sum : (s.add delta now).sum c = s.sum c + delta.read c :=
      total_add (read_empty c) merged
    rw [sum, ← h.sums]
    omega

theorem drain (t : Int) : Cut (s.drain t) (drained + s.dropped t c) base c := by
  have part := total_drain s (fun b => b.read c) t
  refine ⟨h.keyed.filter _, fun ts b found => ?_, ?_, ?_⟩
  · rw [getElem?_drain] at found
    split at found
    · cases found
    · exact h.nonneg ts b found
  · have left : 0 ≤ s.dropped t c := by
      exact total_nonneg fun ts b found => h.nonneg ts b (GoMap.of_filter found).1
    have before := h.drained_nonneg
    omega
  · rw [← h.sums, MemoryStore.sum, MemoryStore.sum, MemoryStore.dropped, ← part]
    omega

theorem of_buckets {s' : MemoryStore} (same : s'.buckets = s.buckets) : Cut s' drained base c := by
  refine ⟨?_, ?_, h.drained_nonneg, ?_⟩
  · intro ts b found
    exact h.keyed ts b (same ▸ found)
  · intro ts b found
    exact h.nonneg ts b (same ▸ found)
  · rw [MemoryStore.sum, same]
    exact h.sums

end

end Cut

/-! ## The invariant -/

/-- The step keeps a tick's two calls apart from a flush's two reads, and drops nothing past the
retention: a flush reads the buckets while no tick is between its two calls, a tick sets the
baseline while no flush is between its two reads, and a tick stores where no bucket is expired. A
flush opens the `.tmp` while no other has it open, and the process stops where the file was read
after its last drain. -/
def untorn (a : Agent) : Action → Bool
  | .flushBuckets _ => a.proc.all fun p =>
    match p.tick with
    | .stored _ => false
    | _ => true
  | .tickBaseline => a.proc.all fun p => p.flushes.toList.all fun e => e.2.baseline.isSome
  | .tickStore now => a.proc.all fun p =>
    match p.tick with
    | .read delta _ => (p.mem.add delta now).buckets.toList.all fun e => now - p.mem.retention ≤ e.1
    | _ => true
  | .flushOpen _ => a.proc.all fun p => p.flushes.toList.all fun e => e.2.handle.isNone
  | .crash => a.proc.all fun p => a.fileDrains == p.drains
  | _ => true

variable {a : Agent} {p : Process} {top top' : Int} {c : Counter} {i : Nat} {f : Flush}

theorem not_stored_of_untorn (hp : a.proc = some p)
    (h : untorn a (.flushBuckets i) = true) (current : XrayStatsSnapshot) :
    p.tick ≠ .stored current := by
  intro stored
  rw [untorn, hp, all_some, stored] at h
  cases h

theorem baseline_of_untorn (hp : a.proc = some p)
    (h : untorn a .tickBaseline = true) (found : p.flushes[i]? = some f) : f.baseline ≠ none := by
  intro none
  rw [untorn, hp, all_some, List.all_eq_true] at h
  have some := h (i, f) (mem_toList_iff_getElem?_eq_some.mpr found)
  rw [none] at some
  cases some

theorem handle_of_untorn {k : Nat} (hp : a.proc = some p)
    (h : untorn a (.flushOpen k) = true) (found : p.flushes[i]? = some f) : f.handle = none := by
  rw [untorn, hp, all_some, List.all_eq_true] at h
  exact isNone_iff_eq_none.mp (h (i, f) (mem_toList_iff_getElem?_eq_some.mpr found))

theorem fresh_of_untorn (hp : a.proc = some p)
    (h : untorn a (.tickStore now) = true) {delta current : XrayStatsSnapshot}
    (reading : p.tick = .read delta current) : (p.mem.add delta now).Fresh now := by
  rw [untorn, hp, all_some, reading, List.all_eq_true] at h
  intro ts b found
  exact of_decide_eq_true (h (ts, b) (mem_toList_iff_getElem?_eq_some.mpr found))

/-- The file is a cut, up to counters Xray has reached. -/
def FileCut (file : StoreFile) (drained : Int) (top : Int) (c : Counter) : Prop :=
  (file = .missing ∧ drained = 0) ∨
    ∃ s b, file = .whole ⟨fileStoreVersion, s.getAll, b⟩ ∧
      Cut s drained (readBaseline b c) c ∧ readBaseline b c ≤ top

/-- What a flush read is a cut: of the baseline it read, or of the one it will. -/
def FlushCut (f : Flush) (stored : Int) (top : Int) (c : Counter) : Prop :=
  ∃ s, f.buckets = s.getAll ∧
    match f.baseline with
    | none => Cut s (f.drained c) stored c
    | some b => Cut s (f.drained c) (readBaseline b c) c ∧ readBaseline b c ≤ top

/-- Where the store is against its baseline, by where the tick is. -/
def TickCut (p : Process) (c : Counter) : Prop :=
  match p.tick with
  | .idle =>
    Cut p.mem (p.drained c) (readBaseline p.mem.baseline c) c ∧
      readBaseline p.baseline c = readBaseline p.mem.baseline c
  | .read delta current =>
    Cut p.mem (p.drained c) (readBaseline p.mem.baseline c) c ∧ p.baseline = some current ∧
      0 ≤ delta.read c ∧ readBaseline p.mem.baseline c + delta.read c = current.read c
  | .stored current =>
    Cut p.mem (p.drained c) (current.read c) c ∧ p.baseline = some current

/-- What was read after the last drain has all that was drained. -/
def Process.Saved (p : Process) (drains : Nat) (drained : Int) (c : Counter) : Prop :=
  drains ≤ p.drains ∧ (drains = p.drains → drained = p.drained c)

/-- The invariant of the running agent, for one counter, with Xray's counter at `top`. -/
structure Sound (p : Process) (top : Int) (c : Counter) : Prop where
  tick : TickCut p c
  flushes : ∀ (i : Nat) (f : Flush), p.flushes[i]? = some f →
    FlushCut f (readBaseline p.mem.baseline c) top c ∧ p.Saved f.drains (f.drained c) c
  reached : readBaseline p.baseline c ≤ top
  stored : 0 ≤ readBaseline p.mem.baseline c ∧
    readBaseline p.mem.baseline c ≤ readBaseline p.baseline c
  accounts : p.accounted c = readBaseline p.baseline c

structure AgentSound (a : Agent) (c : Counter) : Prop where
  file : FileCut a.file (a.fileDrained c) (a.xray.read c) c
  proc : ∀ p, a.proc = some p →
    Sound p (a.xray.read c) c ∧ p.Saved a.fileDrains (a.fileDrained c) c
  idle : a.proc = none → a.drained c = a.fileDrained c
  xray : 0 ≤ a.xray.read c

/-- A flush that has not opened its file. -/
def Flush.Closed (f : Flush) : Prop :=
  f.handle = none ∧ f.written = false

/-- An open flush has the `.tmp`: blank, and then its own text. -/
def Flush.Holds (f : Flush) (tmp : Option Text) : Prop :=
  f.handle = some .tmp ∧ ∃ t b, tmp = some t ∧ f.baseline = some b ∧
    (f.written = false → t.length = 0) ∧
    (f.written = true → t.content = .whole ⟨fileStoreVersion, f.buckets, b⟩ ∧
      t.drained = f.drained ∧ t.drains = f.drains)

/-- At most one flush is open. -/
def OneWriter (p : Process) (tmp : Option Text) : Prop :=
  ∀ (i : Nat) (f : Flush), p.flushes[i]? = some f →
    f.Closed ∨ f.Holds tmp ∧ ∀ (j : Nat) (g : Flush), p.flushes[j]? = some g → j ≠ i → g.Closed

variable {file : StoreFile}

theorem FileCut.mono {drained : Int}
    (h : FileCut file drained top c) (le : top ≤ top') : FileCut file drained top' c := by
  rcases h with h | ⟨s, b, hf, cut, reached⟩
  · exact .inl h
  · exact .inr ⟨s, b, hf, cut, reached.trans le⟩

theorem FlushCut.mono {f : Flush} {stored : Int}
    (h : FlushCut f stored top c) (le : top ≤ top') : FlushCut f stored top' c := by
  obtain ⟨s, hs, h⟩ := h
  refine ⟨s, hs, ?_⟩
  cases hb : f.baseline with
  | none =>
    rw [hb] at h
    exact h
  | some b =>
    rw [hb] at h
    exact ⟨h.1, h.2.trans le⟩

theorem Sound.mono (h : Sound p top c) (le : top ≤ top') : Sound p top' c :=
  ⟨h.tick, fun i f found => (h.flushes i f found).imp_left (·.mono le), h.reached.trans le,
    h.stored, h.accounts⟩

theorem read_count (s : XrayStatsSnapshot) (c k : Counter) (n : Nat) (nonneg : 0 ≤ s.read c)
    (fits : s.read c + n < 2 ^ 63) :
    (s.count c n).read k = if k = c then s.read c + n else s.read k := by
  have more : (s.get c + Int64.ofNat n).toInt = s.read c + n := by
    have small : (Int64.ofNat n).toInt = n := Int64.toInt_ofNat_of_lt (by omega)
    rw [toInt_add_of_lt nonneg (by omega) (by rw [small]; exact fits), small]
    rfl
  by_cases same : k = c
  · subst same
    rw [if_pos rfl, ← more]
    cases k <;> simp [XrayStatsSnapshot.count, XrayStatsSnapshot.read, XrayStatsSnapshot.get]
  · cases c <;> cases k <;>
      simp_all [XrayStatsSnapshot.count, XrayStatsSnapshot.read, XrayStatsSnapshot.get,
        GoMap.getD_eq, GoMap.getElem?_insert]

/-! ## Each step keeps it -/

@[simp] theorem readBaseline_clone (b : Option XrayStatsSnapshot) (c : Counter) :
    readBaseline (b.map XrayStatsSnapshot.clone) c = readBaseline b c := by
  cases b <;> simp [readBaseline]

section Steps
variable {p q : Process} {top : Int} {c : Counter} {i : Nat} {f : Flush}

/-- A restart from a cut is sound. -/
theorem sound_boot {cfg : Config} {drained : Counter → Int} {drains : Nat}
    (h : FileCut file (drained c) top c) (nonneg : 0 ≤ top) :
    Sound (boot cfg file drained drains) top c := by
  have none : ∀ (i : Nat) (f : Flush), (boot cfg file drained drains).flushes[i]? ≠ some f := by
    intro i f found
    simp [boot] at found
  rcases h with ⟨rfl, zero⟩ | ⟨s, b, rfl, cut, reached⟩
  · have empty : Cut { bucketDuration := cfg.bucketDuration, retention := cfg.retention }
        (drained c) 0 c :=
      ⟨fun ts b found => by simp at found, fun ts b found => by simp at found, by omega,
        by simp [MemoryStore.sum, zero]⟩
    refine ⟨⟨empty, rfl⟩, (fun i f found => absurd found (none i f)), nonneg, ⟨le_rfl, le_rfl⟩, ?_⟩
    have sums := empty.sums
    simp only [Process.accounted, boot, loadFromDisk, getBaseline, readBaseline, map_none]
    omega
  · have loaded :
        (boot cfg (.whole ⟨fileStoreVersion, s.getAll, b⟩) drained drains).mem.baseline = b := by
      simp [boot, loadFromDisk]
    have base :
      readBaseline (boot cfg (.whole ⟨fileStoreVersion, s.getAll, b⟩) drained drains).baseline c =
        readBaseline b c := by
      rw [show (boot cfg (.whole ⟨fileStoreVersion, s.getAll, b⟩) drained drains).baseline =
        Option.map clone
          (boot cfg (.whole ⟨fileStoreVersion, s.getAll, b⟩) drained drains).mem.baseline from rfl,
        readBaseline_clone, loaded]
    have moved :
      Cut (boot cfg (.whole ⟨fileStoreVersion, s.getAll, b⟩) drained drains).mem (drained c)
        (readBaseline b c) c := cut.of_buckets (loadFromDisk_getAll cut.keyed rfl b)
    have low : 0 ≤ readBaseline b c := by
      have sums := cut.sums
      have nonneg := Cut.total_nonneg cut.nonneg
      have drained := cut.drained_nonneg
      rw [MemoryStore.sum] at sums
      omega
    refine ⟨⟨by rw [loaded]; exact moved, by rw [loaded, base]⟩,
      (fun i f found => absurd found (none i f)), ?_, ?_, ?_⟩
    · rw [base]
      exact reached
    · rw [loaded, base]
      exact ⟨low, le_rfl⟩
    · rw [base, ← moved.sums]
      exact add_zero _

/-- The tick reads counters at least as large as those it read before. -/
theorem sound_tickRead {xray : XrayStatsSnapshot} (h : Sound p (xray.read c) c)
    (hq : p.tickRead xray = some q) : Sound q (xray.read c) c := by
  have tick := h.tick
  simp only [Process.tickRead] at hq
  split at hq
  next idle =>
    cases hq
    rw [TickCut, idle] at tick
    obtain ⟨cut, base⟩ := tick
    have nonneg : 0 ≤ readBaseline p.baseline c := by
      rw [base]
      exact h.stored.1
    have delta := read_diffSnapshot nonneg h.reached
    have reached := h.reached
    have accounts := h.accounts
    refine ⟨⟨cut, rfl, by omega, by rw [← base]; omega⟩, h.flushes, le_rfl, ⟨h.stored.1, ?_⟩, ?_⟩
    · rw [← base]
      exact reached
    simp only [Process.accounted] at accounts ⊢
    rw [show readBaseline (some xray) c = xray.read c from rfl]
    omega
  · cases hq

section
variable (h : Sound p top c)
include h

/-- Storing the difference brings the buckets to the counters read. -/
theorem sound_tickStore (small : top < 2 ^ 63)
    (fresh : ∀ delta current, p.tick = .read delta current → (p.mem.add delta now).Fresh now)
    (hq : p.tickStore now = some q) : Sound q top c := by
  have tick := h.tick
  simp only [Process.tickStore] at hq
  split at hq
  next delta current reading =>
    cases hq
    rw [TickCut, reading] at tick
    obtain ⟨cut, base, grows, sum⟩ := tick
    have reached := h.reached
    rw [base] at reached
    have bound : readBaseline p.mem.baseline c + delta.read c < 2 ^ 63 := by
      rw [sum]
      exact lt_of_le_of_lt reached small
    have kept : (if snapshotIsEmpty delta then p.mem else p.mem.accumulate delta now).baseline =
        p.mem.baseline := by
      split <;> rfl
    have moved : Cut (if snapshotIsEmpty delta then p.mem else p.mem.accumulate delta now)
        (p.drained c) (current.read c) c := by
      rw [← sum]
      split
      next empty =>
        rw [read_of_isEmpty empty c, add_zero]
        exact cut
      · exact cut.accumulate grows bound (fresh delta current reading)
    refine ⟨⟨moved, base⟩, ?_, h.reached, ?_, h.accounts⟩
    · rw [kept]
      exact h.flushes
    · rw [kept]
      exact h.stored
  · cases hq

/-- The baseline follows the buckets, with no flush between its two reads. -/
theorem sound_tickBaseline
    (apart : ∀ (i : Nat) (f : Flush), p.flushes[i]? = some f → f.baseline ≠ none)
    (hq : p.tickBaseline = some q) : Sound q top c := by
  have tick := h.tick
  simp only [Process.tickBaseline] at hq
  split at hq
  next current stored =>
    cases hq
    rw [TickCut, stored] at tick
    obtain ⟨cut, base⟩ := tick
    have set : readBaseline (p.mem.setBaseline current).baseline c = readBaseline p.baseline c := by
      rw [base]
      exact read_clone _ _
    refine ⟨⟨?_, ?_⟩, fun i f found => ?_, h.reached, ?_, h.accounts⟩
    · exact cut.of_buckets rfl
    · exact set.symm
    · obtain ⟨⟨s, hs, flush⟩, saved⟩ := h.flushes i f found
      refine ⟨⟨s, hs, ?_⟩, saved⟩
      cases hb : f.baseline with
      | none => exact absurd hb (apart i f found)
      | some b =>
        rw [hb] at flush
        exact flush
    · rw [set]
      exact ⟨h.stored.1.trans h.stored.2, le_rfl⟩
  · cases hq

/-- One flush goes on, with a cut of its own. -/
theorem sound_setFlush (i : Nat) (f : Flush)
    (cut : FlushCut f (readBaseline p.mem.baseline c) top c)
    (saved : p.Saved f.drains (f.drained c) c) :
    Sound { p with flushes := p.flushes.insert i f } top c :=
  { h with flushes := GoMap.forall_insert ⟨cut, saved⟩ h.flushes }

theorem sound_eraseFlush (i : Nat) : Sound { p with flushes := p.flushes.erase i } top c :=
  { h with flushes := fun j g found => h.flushes j g (GoMap.of_erase found).2 }

theorem sound_moveFlushes (move : Option Place → Option Place) :
    Sound { p with flushes := p.flushes.map fun _ f => { f with handle := move f.handle } }
      top c := by
  refine { h with flushes := fun j g found => ?_ }
  obtain ⟨f, before, rfl⟩ := GoMap.of_map found
  exact h.flushes j f before

/-- A flush that does not read the buckets between a tick's two calls reads a cut. -/
theorem sound_flushBuckets (apart : ∀ current, p.tick ≠ .stored current)
    (hq : p.flushBuckets i = some q) : Sound q top c := by
  have cut : Cut p.mem (p.drained c) (readBaseline p.mem.baseline c) c := by
    have tick := h.tick
    rw [TickCut] at tick
    cases ht : p.tick with
    | idle | read =>
      rw [ht] at tick
      exact tick.1
    | stored current => exact absurd ht (apart current)
  simp only [Process.flushBuckets] at hq
  split at hq
  · cases hq
    exact sound_setFlush h i _ ⟨p.mem, rfl, cut⟩ ⟨le_rfl, fun _ => rfl⟩
  · cases hq

/-- The baseline a flush reads goes with its buckets. -/
theorem sound_flushBaseline (hq : p.flushBaseline i = some q) : Sound q top c := by
  simp only [Process.flushBaseline, bind_eq_bind, bind_eq_some_iff] at hq
  obtain ⟨f, found, hq⟩ := hq
  split at hq
  next unread =>
    cases hq
    obtain ⟨⟨s, hs, cut⟩, saved⟩ := h.flushes i f found
    have same : readBaseline p.mem.getBaseline c = readBaseline p.mem.baseline c :=
      readBaseline_clone _ _
    rw [unread] at cut
    refine sound_setFlush h i { f with baseline := some p.mem.getBaseline } ⟨s, hs, ?_⟩ saved
    dsimp only at cut ⊢
    rw [same]
    exact ⟨cut, h.stored.2.trans h.reached⟩
  · cases hq

omit h in
theorem saved_drain {drains : Nat} {drained : Int} (saved : p.Saved drains drained c) (t : Int) :
    (p.drain t).Saved drains drained c := by
  have le := saved.1
  refine ⟨le.trans (Nat.le_succ _), fun same => ?_⟩
  simp only [Process.drain] at same
  omega

/-- A drain takes from the buckets what the hub has. -/
theorem sound_drain (t : Int) : Sound (p.drain t) top c := by
  refine { h with
    tick := ?_
    flushes := fun i f found => (h.flushes i f found).imp_right (saved_drain · t) }
  have tick := h.tick
  rw [TickCut] at tick ⊢
  simp only [Process.drain]
  cases ht : p.tick <;>
  · rw [ht] at tick
    exact ⟨tick.1.drain t, tick.2⟩

end

end Steps

/-! ## One writer -/

namespace OneWriter
variable {tmp : Option Text} {k : Nat}

theorem of_closed (closed : ∀ (i : Nat) (f : Flush), p.flushes[i]? = some f → f.Closed) :
    OneWriter p tmp :=
  fun i f found => .inl (closed i f found)

theorem set (h : OneWriter p tmp) (k : Nat) (f : Flush) (closed : f.Closed) :
    OneWriter { p with flushes := p.flushes.insert k f } tmp := by
  intro i g found
  rcases GoMap.insert_cases found with ⟨rfl, rfl⟩ | ⟨-, found⟩
  · exact .inl closed
  · refine (h i g found).imp_right fun ⟨holds, rest⟩ => ⟨holds, ?_⟩
    exact GoMap.forall_insert (fun _ => closed) rest

/-- The flush that writes, where all others are closed. -/
theorem open_ (holds : f.Holds tmp)
    (rest : ∀ (j : Nat) (g : Flush), p.flushes[j]? = some g → j ≠ k → g.Closed) :
    OneWriter { p with flushes := p.flushes.insert k f } tmp := by
  intro i g found
  rcases GoMap.insert_cases found with ⟨rfl, rfl⟩ | ⟨other, found⟩
  · refine .inr ⟨holds, fun j g found differ => ?_⟩
    rcases GoMap.insert_cases found with ⟨same, -⟩ | ⟨-, found⟩
    · exact absurd same differ
    · exact rest j g found differ
  · exact .inl (rest i g found other)

theorem erase (h : OneWriter p tmp) (k : Nat) :
    OneWriter { p with flushes := p.flushes.erase k } tmp := by
  intro i g found
  refine (h i g (GoMap.of_erase found).2).imp_right fun ⟨holds, rest⟩ => ⟨holds, ?_⟩
  exact fun j g' found' => rest j g' (GoMap.of_erase found').2

theorem closed_of_handle (h : OneWriter p tmp) (found : p.flushes[i]? = some f)
    (shut : f.handle = none) : f.Closed := by
  rcases h i f found with closed | ⟨⟨opened, -⟩, -⟩
  · exact closed
  · cases shut.symm.trans opened

theorem holds_of_handle (h : OneWriter p tmp) (found : p.flushes[i]? = some f) {place : Place}
    (opened : f.handle = some place) :
    f.Holds tmp ∧ ∀ (j : Nat) (g : Flush), p.flushes[j]? = some g → j ≠ i → g.Closed := by
  rcases h i f found with closed | holds
  · cases closed.1.symm.trans opened
  · exact holds

end OneWriter

/-! ## Whole runs -/

/-- The invariant of the agent: every counter is sound and one flush writes at a time. -/
structure Consistent (a : Agent) : Prop where
  counters : ∀ c, AgentSound a c
  writer : ∀ p, a.proc = some p → OneWriter p a.tmp

theorem consistent_init : Consistent Agent.init :=
  ⟨fun c => ⟨.inl ⟨rfl, rfl⟩, (fun _ hp => by cases hp), fun _ => rfl, (read_empty c).ge⟩,
    fun _ hp => by cases hp⟩

/-- A step of the process that leaves the store's file alone. -/
inductive Works (a : Agent) : Agent → Prop
  | intro {p q : Process} {tmp : Option Text} (running : a.proc = some p)
      (sound : ∀ c, Sound p (a.xray.read c) c → Sound q (a.xray.read c) c)
      (saved : ∀ drains drained c, p.Saved drains drained c → q.Saved drains drained c)
      (writer : OneWriter q tmp) : Works a { a with tmp := tmp, proc := some q }

section
variable {b : Agent}

theorem Works.consistent (w : Works a b) (h : Consistent a) : Consistent b := by
  obtain ⟨running, sound, saved, writer⟩ := w
  refine ⟨fun c => ?_, fun _ hq => by cases hq; exact writer⟩
  obtain ⟨before, file⟩ := (h.counters c).proc _ running
  exact { h.counters c with
    proc := fun _ hq => by cases hq; exact ⟨sound c before, saved _ _ c file⟩
    idle := fun stopped => by cases stopped }

/-- A tick's call leaves the flushes and the drains alone. -/
theorem works_tick {act : Process → Option Process}
    (hb : (do return { a with proc := some (← act (← a.proc)) }) = some b) (h : Consistent a)
    (same : ∀ p q, act p = some q →
      q.flushes = p.flushes ∧ q.drained = p.drained ∧ q.drains = p.drains)
    (sound : ∀ p q, a.proc = some p → act p = some q →
      ∀ c, Sound p (a.xray.read c) c → Sound q (a.xray.read c) c) : Works a b := by
  simp only [bind_eq_bind, bind_eq_some_iff] at hb
  obtain ⟨p, hp, q, hq, hb⟩ := hb
  cases hb
  obtain ⟨flushes, drained, drains⟩ := same p q hq
  refine .intro hp (sound p q hp hq) (fun n x c saved => ?_) ?_
  · rw [Process.Saved, drained, drains]
    exact saved
  · rw [OneWriter, flushes]
    exact h.writer p hp

theorem works_flushBuckets {i : Nat} (h : Consistent a) (apart : untorn a (.flushBuckets i) = true)
    (hb : (do return { a with proc := some (← (← a.proc).flushBuckets i) }) = some b) :
    Works a b := by
  simp only [bind_eq_bind, bind_eq_some_iff] at hb
  obtain ⟨p, hp, q, hq, hb⟩ := hb
  cases hb
  have sound : ∀ c, Sound p (a.xray.read c) c → Sound q (a.xray.read c) c := by
    exact fun c before => sound_flushBuckets before (not_stored_of_untorn hp apart) hq
  simp only [Process.flushBuckets] at hq
  split at hq
  · cases hq
    exact .intro hp sound (fun _ _ _ saved => saved) ((h.writer p hp).set i _ ⟨rfl, rfl⟩)
  · cases hq

theorem works_flushBaseline {i : Nat} (h : Consistent a)
    (hb : (do return { a with proc := some (← (← a.proc).flushBaseline i) }) = some b) :
    Works a b := by
  simp only [bind_eq_bind, bind_eq_some_iff] at hb
  obtain ⟨p, hp, q, hq, hb⟩ := hb
  cases hb
  have sound : ∀ c, Sound p (a.xray.read c) c → Sound q (a.xray.read c) c := by
    exact fun c before => sound_flushBaseline before hq
  simp only [Process.flushBaseline, bind_eq_bind, bind_eq_some_iff] at hq
  obtain ⟨f, found, hq⟩ := hq
  split at hq
  next unread =>
    cases hq
    have closed : f.Closed := by
      rcases h.writer p hp i f found with closed | ⟨⟨-, _, _, -, read, -⟩, -⟩
      · exact closed
      · cases unread.symm.trans read
    exact .intro hp sound (fun _ _ _ saved => saved) ((h.writer p hp).set i _ closed)
  · cases hq

theorem works_flushOpen {i : Nat} (h : Consistent a) (apart : untorn a (.flushOpen i) = true)
    (hb : a.flushOpen i = some b) : Works a b := by
  simp only [Agent.flushOpen, bind_eq_bind, bind_eq_some_iff] at hb
  obtain ⟨p, hp, f, found, hb⟩ := hb
  split at hb
  next ready =>
    cases hb
    obtain ⟨baseline, read⟩ := isSome_iff_exists.mp ready.1
    have closed : ∀ (j : Nat) (g : Flush), p.flushes[j]? = some g → g.Closed := fun j g found =>
      (h.writer p hp).closed_of_handle found (handle_of_untorn hp apart found)
    have holds : Flush.Holds { f with handle := some .tmp } (some .blank) := by
      refine ⟨rfl, _, baseline, rfl, read, fun _ => rfl, fun written => ?_⟩
      cases (closed i f found).2.symm.trans written
    refine .intro hp (fun c before => ?_) (fun _ _ _ saved => saved)
      (.open_ holds fun j g found _ => closed j g found)
    obtain ⟨cut, saved⟩ := before.flushes i f found
    exact sound_setFlush before i { f with handle := some .tmp } cut saved
  · cases hb

/-- A flush writes its text to the handle it has. -/
theorem works_flushData {cfg : Config} {i : Nat} (h : Consistent a)
    (hb : a.flushData cfg i = some b) : Works a b := by
  simp only [Agent.flushData, bind_eq_bind, bind_eq_some_iff] at hb
  obtain ⟨p, hp, f, found, hb⟩ := hb
  split at hb
  next place baseline opened read unwritten =>
    cases hb
    obtain ⟨⟨atTmp, t, b, tmp, _, blank, -⟩, rest⟩ := (h.writer p hp).holds_of_handle found opened
    cases atTmp.symm.trans opened
    have empty : (a.read .tmp).length = 0 := by
      rw [Agent.read, tmp]
      exact blank unwritten
    refine .intro hp (fun c before => ?_) (fun _ _ _ saved => saved) (.open_ ?_ rest)
    · obtain ⟨cut, saved⟩ := before.flushes i f found
      exact sound_setFlush before i { f with written := true } cut saved
    · refine ⟨opened, _, baseline, rfl, read, (fun written => by cases written), fun _ => ?_⟩
      rw [Text.write, if_pos (by rw [empty]; exact Nat.zero_le _)]
      exact ⟨rfl, rfl, rfl⟩
  · cases hb

/-- A flush that fails leaves the file alone. -/
theorem works_flushFail {i : Nat} {left : Text} (h : Consistent a)
    (hb : a.flushFail i left = some b) : Works a b := by
  simp only [Agent.flushFail, bind_eq_bind, bind_eq_some_iff] at hb
  obtain ⟨p, hp, f, found, hb⟩ := hb
  have sound : ∀ c, Sound p (a.xray.read c) c →
      Sound { p with flushes := p.flushes.erase i } (a.xray.read c) c :=
    fun c before => sound_eraseFlush before i
  split at hb
  next place opened unwritten =>
    cases hb
    obtain ⟨⟨atTmp, -⟩, rest⟩ := (h.writer p hp).holds_of_handle found opened
    cases atTmp.symm.trans opened
    refine .intro hp sound (fun _ _ _ saved => saved) (.of_closed fun j g found => ?_)
    obtain ⟨other, found⟩ := GoMap.of_erase found
    exact rest j g found other
  · cases hb
    exact .intro hp sound (fun _ _ _ saved => saved) ((h.writer p hp).erase i)

/-- The file that the rename leaves is the text of the flush that renames it. -/
theorem consistent_flushRename {i : Nat} (h : Consistent a) (hb : a.flushRename i = some b) :
    Consistent b := by
  simp only [Agent.flushRename, bind_eq_bind, bind_eq_some_iff] at hb
  obtain ⟨p, hp, f, found, hb⟩ := hb
  split at hb
  next written =>
    rcases h.writer p hp i f found with closed | ⟨⟨-, t, baseline, tmp, read, -, own⟩, rest⟩
    · cases closed.2.symm.trans written
    obtain ⟨content, drained, drains⟩ := own written
    rw [tmp] at hb
    cases hb
    refine ⟨fun c => ?_, fun _ hq => ?_⟩
    · obtain ⟨before, -⟩ := (h.counters c).proc p hp
      obtain ⟨⟨s, hs, cut⟩, saved⟩ := before.flushes i f found
      rw [read] at cut
      refine ⟨.inr ⟨s, baseline, ?_, ?_, cut.2⟩, fun _ hq => ?_, (fun stopped => by cases stopped),
        (h.counters c).xray⟩
      · rw [← hs]
        exact content
      · simp only [Agent.fileDrained, drained]
        exact cut.1
      · cases hq
        refine ⟨sound_moveFlushes (sound_eraseFlush before i) _, ?_⟩
        simp only [Agent.fileDrained, Agent.fileDrains, drained, drains]
        exact saved
    · cases hq
      refine .of_closed fun j g moved => ?_
      obtain ⟨g, left, rfl⟩ := GoMap.of_map moved
      obtain ⟨other, before⟩ := GoMap.of_erase left
      obtain ⟨shut, unwritten⟩ := rest j g before other
      exact ⟨by simp only [shut, map_none], unwritten⟩
  · cases hb

/-- A crash leaves a file that no drain is missing from. -/
theorem consistent_crash (h : Consistent a) (apart : untorn a .crash = true) :
    Consistent a.crash := by
  rw [Agent.crash]
  split
  · exact h
  next p hp =>
    rw [untorn, hp, all_some, beq_iff_eq] at apart
    refine ⟨fun c => ?_, fun _ hq => by cases hq⟩
    obtain ⟨-, saved⟩ := (h.counters c).proc p hp
    exact { h.counters c with
      proc := fun _ hq => by cases hq
      idle := fun _ => (saved.2 apart).symm }

/-- A start reads the file. -/
theorem consistent_start {cfg : Config} (h : Consistent a) (stopped : a.proc = none) :
    Consistent { a with proc := some (boot cfg a.file a.drained a.fileDrains) } := by
  refine ⟨fun c => ?_, fun _ hq => ?_⟩
  · have same := (h.counters c).idle stopped
    have file := (h.counters c).file
    rw [← same] at file
    refine { h.counters c with proc := fun _ hq => ?_, idle := fun none => by cases none }
    cases hq
    exact ⟨sound_boot file (h.counters c).xray, le_rfl, fun _ => same.symm⟩
  · cases hq
    refine .of_closed fun i f found => ?_
    simp [boot] at found

/-- **Every untorn step keeps the agent consistent.** -/
theorem consistent_step (cfg : Config) (a : Agent) (l : Action) (b : Agent)
    (h : Consistent a) (apart : untorn a l = true) (hb : agentStep cfg a l = some b) :
    Consistent b := by
  cases l with
  | traffic k n =>
    obtain ⟨fits, rfl⟩ := Runs.of_guard hb
    refine ⟨fun c => ?_, h.writer⟩
    have read := read_count a.xray k c n (h.counters k).xray fits
    have grown : a.xray.read c ≤ (a.xray.count k n).read c := by
      rw [read]
      split
      next same => rw [same]; omega
      · exact le_rfl
    have before := h.counters c
    exact ⟨before.file.mono grown, fun p hp => (before.proc p hp).imp_left (·.mono grown),
      before.idle, before.xray.trans grown⟩
  | tickRead =>
    refine (works_tick hb h (fun p q hq => ?_) fun p q _ hq c sound => sound_tickRead sound hq)
      |>.consistent h
    simp only [Process.tickRead] at hq
    split at hq <;> cases hq
    exact ⟨rfl, rfl, rfl⟩
  | tickStore now =>
    refine (works_tick hb h (fun p q hq => ?_) fun p q hp hq c sound => ?_).consistent h
    · simp only [Process.tickStore] at hq
      split at hq <;> cases hq
      exact ⟨rfl, rfl, rfl⟩
    · exact sound_tickStore sound (Int64.toInt_lt _)
        (fun _ _ reading => fresh_of_untorn hp apart reading) hq
  | tickBaseline =>
    refine (works_tick hb h (fun p q hq => ?_) fun p q hp hq c sound => ?_).consistent h
    · simp only [Process.tickBaseline] at hq
      split at hq <;> cases hq
      exact ⟨rfl, rfl, rfl⟩
    · exact sound_tickBaseline sound (fun i f found => baseline_of_untorn hp apart found) hq
  | flushBuckets i => exact (works_flushBuckets h apart hb).consistent h
  | flushBaseline i => exact (works_flushBaseline h hb).consistent h
  | flushOpen i => exact (works_flushOpen h apart hb).consistent h
  | flushData i => exact (works_flushData h hb).consistent h
  | flushRename i => exact consistent_flushRename h hb
  | flushFail i left => exact (works_flushFail h hb).consistent h
  | drain t =>
    simp only [agentStep, bind_eq_bind, bind_eq_some_iff] at hb
    obtain ⟨p, hp, hb⟩ := hb
    cases hb
    have works : Works a { a with tmp := a.tmp, proc := some (p.drain t) } :=
      .intro hp (fun c before => sound_drain before t) (fun _ _ _ saved => saved_drain saved t)
        (h.writer p hp)
    exact works.consistent h
  | crash =>
    cases hb
    exact consistent_crash h apart
  | start =>
    simp only [agentStep] at hb
    split at hb
    next stopped =>
      cases hb
      exact consistent_start h stopped
    · cases hb

end

/-- **The traffic file is a consistent cut.** In every state of a run all of whose steps are
untorn, and for every counter: the running process's reloaded bytes, those drained before it
started and the differences collected since add up to the counter the collector read last, which is
Xray's when nothing was counted since; and so do the bytes in the file, and those drained when its
buckets were read, to the baseline in it. -/
theorem accounted_of_untorn (cfg : Config) (ls : List Action) (a : Agent)
    (h : Runs.run (agentStep cfg) Agent.init ls = some a)
    (along : Runs.Along (agentStep cfg) (fun a l => untorn a l = true) Agent.init ls)
    (c : Counter) :
    (∀ p, a.proc = some p → p.accounted c = readBaseline p.baseline c ∧
      (p.baseline = some a.xray → p.accounted c = a.xray.read c)) ∧
    (∀ data, a.file = .whole data →
      (boot cfg a.file a.drained a.fileDrains).reloaded c + a.fileDrained c =
        readBaseline data.baseline c) := by
  have consistent : Consistent a :=
    Runs.run_inv_along (consistent_step cfg) consistent_init along h
  have sound := consistent.counters c
  refine ⟨fun p hp => ?_, fun data hd => ?_⟩
  · have accounts := (sound.proc p hp).1.accounts
    refine ⟨accounts, fun last => ?_⟩
    rw [accounts, last]
    rfl
  · rcases sound.file with ⟨missing, -⟩ | ⟨s, b, file, cut, -⟩
    · cases missing.symm.trans hd
    · cases file.symm.trans hd
      rw [file, ← cut.sums]
      have same := @loadFromDisk_getAll s
        { bucketDuration := cfg.bucketDuration, retention := cfg.retention } cut.keyed rfl b
      simp only [boot, MemoryStore.sum, same]

/-! ## Runs -/

def hourly : Config := ⟨3600, 604800, fun data => 12 + 80 * data.buckets.length⟩

/-- The uplink of one subscription's user. -/
def someUser : Counter := .userUplink "sub-1@remote-nodes"

/-- A flush by itself. -/
def wholeFlush (i : Nat) : List Action :=
  [.flushBuckets i, .flushBaseline i, .flushOpen i, .flushData i, .flushRename i]

/-- Xray counts five bytes and a tick collects them. -/
def fiveCollected : List Action :=
  [.start, .traffic someUser 5, .tickRead, .tickStore 7200, .tickBaseline]

/-- A whole tick, a whole flush, a drain and its flush, a crash and a restart, and one more tick. -/
def crashAndRestart : List Action :=
  fiveCollected ++ wholeFlush 0 ++ [.drain 7200] ++ wholeFlush 0 ++
    [.traffic someUser 3, .crash, .start, .tickRead]

/-- What a run accounts for and what Xray counted. -/
def outcome (ls : List Action) (c : Counter) : Option (Int × Int) := do
  let a ← Runs.run (agentStep hourly) Agent.init ls
  return ((← a.proc).accounted c, a.xray.read c)

/-- Eight bytes: five drained before, three collected since the restart. -/
theorem accounted_crashAndRestart :
    outcome crashAndRestart someUser = some (8, 8) ∧
      ∃ a, Runs.run (agentStep hourly) Agent.init crashAndRestart = some a ∧
        ∀ p, a.proc = some p → p.accounted someUser = readBaseline p.baseline someUser := by
  refine ⟨by decide +kernel, ?_⟩
  obtain ⟨a, ha⟩ : ∃ a, Runs.run (agentStep hourly) Agent.init crashAndRestart = some a :=
    isSome_iff_exists.mp (by decide +kernel)
  have checked : Runs.checkAlong (agentStep hourly) untorn Agent.init crashAndRestart = true := by
    decide +kernel
  exact ⟨a, ha, fun p hp => ((accounted_of_untorn hourly crashAndRestart a ha
    (Runs.along_of_check checked) someUser).1 p hp).1⟩

/-- **A torn flush miscounts.** Five bytes of one user. Read between a tick's two calls, the file
holds them with no baseline and the restart collects them again; with the baseline set between
the flush's two reads, the file holds the baseline without them. A crash between a drain and its
flush loads what was drained; and where a drain's flush opens the `.tmp` of another, a short text
over a long one, the restart finds a corrupt file and collects all of it again. -/
theorem torn_flush_miscounts :
    outcome ([.start, .traffic someUser 5, .tickRead, .tickStore 7200] ++ wholeFlush 0 ++
      [.crash, .start, .tickRead]) someUser = some (10, 5) ∧
    outcome [.start, .flushBuckets 0, .traffic someUser 5, .tickRead, .tickStore 7200,
        .tickBaseline, .flushBaseline 0, .flushOpen 0, .flushData 0, .flushRename 0, .crash,
        .start, .tickRead] someUser = some (0, 5) ∧
    outcome (fiveCollected ++ wholeFlush 0 ++ [.drain 7200, .crash, .start, .tickRead]) someUser =
      some (10, 5) ∧
    outcome (fiveCollected ++ [.flushBuckets 0, .flushBaseline 0, .flushOpen 0, .drain 7200,
        .flushBuckets 1, .flushBaseline 1, .flushOpen 1, .flushData 0, .flushData 1,
        .flushRename 1, .flushRename 0, .crash, .start, .tickRead]) someUser = some (10, 5) := by
  decide +kernel

end NasnetPanel.Traffic
