import NasnetPanel.Usage.History

/-!
# Usage.Collector — the hub's collector

`usage/usage.go` and `usage/collect.go`, one definition for each critical section: what a poll takes
in (`foldLocked`), the two halves of `write` under the lock (`prepare`, `stamp`), whom to
acknowledge (`jobs`), `forget`, `forgetSubscription`, `load`, and the lifetime that is read.

A node object is known by its number `ref`: a poll that was under way when its node was forgotten
finds another object, or none, under the id. Left out: rates, the chart, who is online and whether
a node is live, and what is logged.

`View` is what a collector or a file says has been counted. A file that was written says what the
collector said (`docView_encodeDoc`), and taking in an answer counts the records that are new and
have a newer one after them, each once (`hist_fold`).
-/

namespace NasnetPanel.Usage
open GoMap Traffic List Option

/-! ## Nodes -/

/-- The newest bucket as the last poll found it, still growing: shown and not counted. -/
structure Partial where
  ts : Int
  b : Bucket

/-- What the collector holds for one node. `src` is whether a poll has said whom to acknowledge
through. -/
structure Node where
  ref : Nat
  hist : NodeHist := {}
  diskThrough : Int := 0
  src : Bool := false
  acked : Int := 0
  staleSeen : Bool := false
  growing : Option Partial := none

/-- Where the loop over an answer's records is. -/
structure Fold where
  hist : NodeHist
  stale : Bool
  live : Option Partial

def NodeHist.count (h : NodeHist) (r : Record) : NodeHist := { h.add r.ts r.b with through := r.ts }

/-- One record of an answer: counted already, complete, or still growing. -/
def foldRecord (diskThrough newest : Int) (f : Fold) (r : Record) : Fold :=
  if r.ts ≤ f.hist.through then { f with stale := f.stale || decide (r.ts ≤ diskThrough) }
  else if r.ts < newest then { f with hist := f.hist.count r }
  else { f with live := some ⟨r.ts, r.b⟩ }

def newestOf (recs : List Record) : Int :=
  match recs.getLast? with
  | some r => r.ts
  | none => 0

namespace Node

/-- Takes in the records of an answer. The second part is the mark to acknowledge at once, when the
agent was found holding buckets the file counts; zero otherwise. -/
def fold (n : Node) (recs : List Record) (noWrite : Bool) : Node × Int :=
  let f := recs.foldl (foldRecord n.diskThrough (newestOf recs)) ⟨n.hist, false, none⟩
  ({ n with hist := f.hist, staleSeen := n.staleSeen || f.stale, growing := f.live },
    if f.stale && !noWrite then n.diskThrough else 0)

/-- What a subscription has in the bucket that is still growing. -/
def share (n : Node) (sub : Nat) : Totals :=
  match n.growing with
  | some p => p.b.subs.getD sub 0
  | none => 0

end Node

/-! ## The collector -/

/-- The collector: its nodes, the totals of removed ones, the history as the file holds it as far as
it knows, and whether the file is a newer release's. `made` counts the node objects. -/
structure Collector where
  nodes : GoMap Nat Node := ∅
  retired : GoMap Nat Totals := ∅
  enc : FileDoc
  noWrite : Bool := false
  made : Nat := 1

open Collector

/-- The history's file: not there, not readable, or whole. -/
inductive HubFile where
  | missing
  | unreadable
  | whole (doc : FileDoc)

/-- How far past the hub's clock a bucket may be dated. -/
def maxAhead : Int := 24 * 60 * 60

/-- A node to acknowledge, and up to where. -/
structure Job where
  id : Nat
  ref : Nat
  through : Int

namespace Collector

def hists (c : Collector) : GoMap Nat NodeHist := c.nodes.map fun _ n => n.hist

def setNode (c : Collector) (id : Nat) (n : Node) : Collector :=
  { c with nodes := c.nodes.insert id n }

def nodeAt (c : Collector) (id ref : Nat) : Option Node :=
  c.nodes[id]?.filter fun n => n.ref == ref

/-- The start of a poll: the node, made if it is new, and whom to acknowledge through. Returns the
node object's number. -/
def nodeLocked (c : Collector) (id : Nat) : Collector × Nat :=
  match c.nodes[id]? with
  | some n => (c.setNode id { n with src := true }, n.ref)
  | none => ({ c.setNode id { ref := c.made, src := true } with made := c.made + 1 }, c.made)

/-- Takes in an answer that came at `now`. -/
def foldLocked (c : Collector) (id : Nat) (n : Node) (buffered : List TrafficBucket) (now : Int) :
    Collector × Int :=
  let taken := n.fold (records buffered id (now + maxAhead)).1 c.noWrite
  (c.setNode id taken.1, taken.2)

/-- Drops the days that are out of the window. -/
def pruneLocked (c : Collector) (now : Int) : Collector :=
  let keepFrom := dayOf now - (keepDays - 1)
  { c with nodes := c.nodes.map fun _ n => { n with hist := n.hist.prune keepFrom } }

/-- The first half of a write: the document, and each node's mark. -/
def prepare (c : Collector) (now : Int) : Collector × FileDoc × GoMap Nat Int :=
  let c := c.pruneLocked now
  (c, encodeDoc c.hists c.retired, c.nodes.map fun _ n => n.hist.through)

/-- The second half of a write: each node's mark as it is on disk now, by the node's id. -/
def stamp (c : Collector) (marks : GoMap Nat Int) : Collector :=
  { c with
    nodes := c.nodes.map fun id n =>
      match marks[id]? with
      | some m => { n with diskThrough := max n.diskThrough m }
      | none => n }

/-- The nodes whose agents are told to drop buckets, by id. -/
def jobs (c : Collector) : List Job :=
  (c.nodes.toList.filter fun e => e.2.src && decide (0 < e.2.diskThrough) &&
    (decide (e.2.acked < e.2.diskThrough) || e.2.staleSeen)).map fun e =>
      ⟨e.1, e.2.ref, e.2.diskThrough⟩

/-- An acknowledgement went through; a node object that was replaced notes it for nobody. -/
def noteAck (c : Collector) (id ref : Nat) (through : Int) : Collector :=
  match c.nodeAt id ref with
  | some n => c.setNode id { n with acked := max n.acked through, staleSeen := false }
  | none => c

/-- Drops everything about a node, except what the subscriptions moved through it. -/
def forget (c : Collector) (id : Nat) : Collector :=
  match c.nodes[id]? with
  | some n =>
    { c with retired := GoMap.addAll (· + ·) 0 c.retired n.hist.life, nodes := c.nodes.erase id }
  | none => c

def forgetSubscription (c : Collector) (sub : Nat) : Collector :=
  { c with
    retired := c.retired.erase sub
    nodes := c.nodes.map fun _ n =>
      { n with
        hist := { n.hist with life := n.hist.life.erase sub, subs := n.hist.subs.erase sub }
        growing := n.growing.map fun p =>
          { p with b := { p.b with subs := p.b.subs.erase sub } } } }

def subscriptionLifetime (c : Collector) (sub : Nat) : Totals :=
  c.retired.getD sub 0 + GoMap.total (fun _ n => n.hist.life.getD sub 0 + n.share sub) c.nodes

/-- The collector with these histories, all of them as the file has them. -/
def holding (hists : GoMap Nat NodeHist) (retired : GoMap Nat Totals) : Collector where
  nodes := hists.map fun _ h => { ref := 0, hist := h, diskThrough := h.through }
  retired := retired
  enc := encodeDoc hists retired

/-- The collector a file loads as, and the file as that leaves it: a newer release's is left alone,
and one that cannot be used is moved aside. -/
def load : HubFile → Collector × HubFile
  | .missing => (holding ∅ ∅, .missing)
  | .unreadable => (holding ∅ ∅, .missing)
  | .whole doc =>
    match decodeDoc doc with
    | .ok (hists, retired) => (holding hists retired, .whole doc)
    | .error (.newer _) => ({ holding ∅ ∅ with noWrite := true }, .whole doc)
    | .error _ => (holding ∅ ∅, .missing)

/-- `Open`: what the file holds, and then the old days dropped. -/
def openOn (file : HubFile) (now : Int) : Collector × HubFile :=
  let loaded := load file
  (loaded.1.pruneLocked now, loaded.2)

end Collector

/-! ## What has been counted -/

/-- What a collector or a file says has been counted: each node's mark, each subscription's lifetime
on a node, and its lifetime over all of them, removed ones included. -/
@[ext] structure View where
  through : Nat → Int
  life : Nat → Nat → Totals
  total : Nat → Totals

def viewOf (hists : GoMap Nat NodeHist) (retired : GoMap Nat Totals) : View where
  through id := (hists[id]?.map NodeHist.through).getD 0
  life id sub := (hists[id]?.map fun h => h.life.getD sub 0).getD 0
  total sub := retired.getD sub 0 + GoMap.total (fun _ h => h.life.getD sub 0) hists

def Collector.view (c : Collector) : View := viewOf c.hists c.retired

def docView (doc : FileDoc) : View :=
  match decodeDoc doc with
  | .ok (hists, retired) => viewOf hists retired
  | .error _ => viewOf ∅ ∅

def fileView : HubFile → View
  | .whole doc => docView doc
  | _ => viewOf ∅ ∅

/-- What a collector has to be for the file to hold it. -/
structure Storable (hists : GoMap Nat NodeHist) (retired : GoMap Nat Totals) : Prop where
  nodes : ∀ id h, hists[id]? = some h → 0 < id ∧ h.Valid
  retired : ∀ sub t, retired[sub]? = some t → 0 < sub

variable {retired : GoMap Nat Totals} {id sub : Nat} {r : Record} {h : NodeHist} {l : List Record}

/-- **A document says what it was made of.** -/
theorem docView_encodeDoc {hists : GoMap Nat NodeHist}
    (storable : Storable hists retired) :
    docView (encodeDoc hists retired) = viewOf hists retired := by
  rw [docView, decode_encode storable.nodes storable.retired]
  have found : ∀ id : Nat, ((hists.filter fun _ h => !h.empty).map fun _ h => h.restored)[id]? =
      (hists[id]?.filter fun h => !h.empty).map NodeHist.restored := by
    intro id
    rw [Std.ExtTreeMap.getElem?_map, GoMap.getElem?_filter]
  refine View.ext (funext fun id => ?_) (funext fun id => funext fun sub => ?_)
    (funext fun sub => ?_)
  · dsimp only [viewOf]
    rw [found]
    cases hists[id]? with
    | none => rfl
    | some h =>
      cases empty : h.empty with
      | true => simp [Option.filter, empty, (h.of_empty empty 0).1]
      | false => simp [Option.filter, empty, NodeHist.restored]
  · dsimp only [viewOf]
    rw [found]
    cases hists[id]? with
    | none => rfl
    | some h =>
      cases empty : h.empty with
      | true => simp [Option.filter, empty, (h.of_empty empty sub).2]
      | false => simp [Option.filter, empty, h.life_restored]
  · have kept : (retired.filter fun _ t => !t.isZero).getD sub 0 = retired.getD sub 0 := by
      rw [GoMap.getD_eq, GoMap.getElem?_filter, GoMap.getD_eq]
      cases retired[sub]? with
      | none => rfl
      | some t =>
        cases zero : t.isZero with
        | true =>
          rw [show t = 0 from beq_iff_eq.mp zero]
          rfl
        | false => simp [Option.filter, zero]
    have dropped : total (fun _ h => h.life.getD sub 0)
        (hists.filter fun _ h => !(!h.empty)) = 0 := by
      refine total_eq_zero fun id h here => ?_
      rw [GoMap.getElem?_filter, filter_eq_some_iff, Bool.not_not] at here
      exact (h.of_empty here.2 sub).2
    have split := total_filter_add (f := fun _ h => h.life.getD sub 0) hists fun _ h => !h.empty
    rw [dropped, add_zero] at split
    dsimp only [viewOf]
    rw [kept, total_map, ← split]
    exact congrArg _ (total_congr fun _ h _ => h.life_restored sub)

theorem storable_empty : Storable ∅ ∅ :=
  ⟨fun id h found => by simp at found, fun sub t found => by simp at found⟩

theorem Storable.loaded {hists : GoMap Nat NodeHist} (stored : Storable hists retired) :
    Storable ((hists.filter fun _ h => !h.empty).map fun _ h => h.restored)
      (retired.filter fun _ t => !t.isZero) := by
  refine ⟨fun id hist found => ?_, fun sub t found => ?_⟩
  · obtain ⟨h, here, rfl⟩ := of_map found
    obtain ⟨pos, valid⟩ := stored.nodes id h (of_filter here).1
    exact ⟨pos, valid.restored⟩
  · exact stored.retired sub t (of_filter found).1

/-- A file that was written, or none. -/
def Stored : HubFile → Prop
  | .missing => True
  | .unreadable => False
  | .whole doc => ∃ hists retired, Storable hists retired ∧ doc = encodeDoc hists retired

/-- **What `Open` finds**: the histories the file says, which can be written again, and the file
left as it is. -/
theorem load_stored {file : HubFile} (stored : Stored file) :
    ∃ hists retired, Collector.load file = (Collector.holding hists retired, file) ∧
      Storable hists retired ∧ viewOf hists retired = fileView file := by
  cases file with
  | missing => exact ⟨∅, ∅, rfl, storable_empty, rfl⟩
  | unreadable => exact stored.elim
  | whole doc =>
    obtain ⟨hists, retired, storable, rfl⟩ := stored
    have read := decode_encode storable.nodes storable.retired
    refine ⟨_, _, ?_, storable.loaded, ?_⟩
    · rw [load, read]
    · rw [fileView, docView, read]

theorem getElem?_hists (c : Collector) (id : Nat) : c.hists[id]? = c.nodes[id]?.map Node.hist := by
  rw [hists, Std.ExtTreeMap.getElem?_map]

variable {c : Collector} {recs : List Record}

theorem view_through : c.view.through id = (c.nodes[id]?.map fun n => n.hist.through).getD 0 := by
  rw [view, viewOf]
  dsimp only
  rw [getElem?_hists, Option.map_map]
  rfl

theorem view_life :
    c.view.life id sub = (c.nodes[id]?.map fun n => n.hist.life.getD sub 0).getD 0 := by
  rw [view, viewOf]
  dsimp only
  rw [getElem?_hists, Option.map_map]
  rfl

theorem view_total :
    c.view.total sub = c.retired.getD sub 0 +
      GoMap.total (fun _ n => n.hist.life.getD sub 0) c.nodes := by
  rw [view, viewOf]
  dsimp only
  rw [hists, total_map]

theorem view_mapNodes (c : Collector) {g : Nat → Node → Node}
    (through : ∀ id n, (g id n).hist.through = n.hist.through)
    (life : ∀ id n, (g id n).hist.life = n.hist.life) :
    ({ c with nodes := c.nodes.map g } : Collector).view = c.view := by
  refine View.ext (funext fun id => ?_) (funext fun id => funext fun sub => ?_)
    (funext fun sub => ?_)
  · rw [view_through, view_through, Std.ExtTreeMap.getElem?_map, Option.map_map]
    exact congrArg (fun f => (Option.map f c.nodes[id]?).getD 0) (funext (through id))
  · rw [view_life, view_life, Std.ExtTreeMap.getElem?_map, Option.map_map]
    exact congrArg (fun f => (Option.map f c.nodes[id]?).getD 0)
      (funext fun n => by rw [Function.comp, life])
  · rw [view_total, view_total, total_map]
    exact congrArg _ (total_congr fun id n _ => by rw [life])

theorem view_prune (c : Collector) (now : Int) : (c.pruneLocked now).view = c.view :=
  view_mapNodes c (fun _ _ => rfl) fun _ _ => rfl

theorem hists_holding (hists : GoMap Nat NodeHist) (retired : GoMap Nat Totals) :
    (Collector.holding hists retired).hists = hists := by
  refine Std.ExtTreeMap.ext_getElem? fun id => ?_
  rw [getElem?_hists, holding, Std.ExtTreeMap.getElem?_map, Option.map_map]
  exact congrFun Option.map_id _

/-! ## Taking in an answer -/

/-- The records of an answer that get counted: new, and with a newer one after them. -/
def freshRecords (through : Int) (recs : List Record) : List Record :=
  recs.filter fun r => decide (through < r.ts ∧ r.ts < newestOf recs)

/-- Records as an agent answers them: each after the one before. -/
abbrev Rising (recs : List Record) : Prop := recs.Pairwise fun a b => a.ts < b.ts

theorem freshRecords_sorted (sorted : Rising recs) (through : Int) :
    Rising (freshRecords through recs) :=
  sorted.filter _

theorem mem_freshRecords {through : Int} :
    r ∈ freshRecords through recs ↔ r ∈ recs ∧ through < r.ts ∧ r.ts < newestOf recs := by
  rw [freshRecords, mem_filter, decide_eq_true_iff]

theorem past_of_fresh {through : Int} (r : Record) (hr : r ∈ freshRecords through recs) :
    through < r.ts :=
  (mem_freshRecords.mp hr).2.1

theorem newestOf_mem (hr : r ∈ recs) : ∃ a ∈ recs, a.ts = newestOf recs := by
  rw [newestOf]
  cases last : recs.getLast? with
  | none =>
    rw [getLast?_eq_none_iff.mp last] at hr
    cases hr
  | some a => exact ⟨a, mem_of_getLast? last, rfl⟩

@[simp] theorem through_count (h : NodeHist) (r : Record) : (h.count r).through = r.ts := rfl

theorem life_count (h : NodeHist) (r : Record) (sub : Nat) :
    (h.count r).life.getD sub 0 = h.life.getD sub 0 + r.b.subs.getD sub 0 :=
  h.life_add r.ts r.b sub

theorem hist_foldRecords (sorted : Rising recs)
    (diskThrough newest : Int) (f : Fold) :
    (recs.foldl (foldRecord diskThrough newest) f).hist =
      (recs.filter fun r => decide (f.hist.through < r.ts ∧ r.ts < newest)).foldl
        NodeHist.count f.hist := by
  induction recs generalizing f with
  | nil => rfl
  | cons r recs ih =>
    obtain ⟨later, sorted⟩ := pairwise_cons.mp sorted
    rw [foldl_cons, ih sorted, foldRecord, filter_cons]
    split
    next counted =>
      have skipped : ¬ (f.hist.through < r.ts ∧ r.ts < newest) := by omega
      rw [decide_eq_false skipped]
      rfl
    · split
      next new complete =>
        have kept : f.hist.through < r.ts ∧ r.ts < newest := by omega
        rw [decide_eq_true kept, if_pos rfl, foldl_cons, through_count]
        -- Past this record the mark is its timestamp, which the later ones are past too.
        congr 1
        refine filter_congr fun a ha => ?_
        have past := later a ha
        rw [decide_eq_decide]
        omega
      next new growing =>
        have skipped : ¬ (f.hist.through < r.ts ∧ r.ts < newest) := by omega
        rw [decide_eq_false skipped]
        rfl

/-- **An answer counts its fresh records**, and nothing else. -/
theorem hist_fold (n : Node) (sorted : Rising recs) (noWrite : Bool) :
    (n.fold recs noWrite).1.hist =
      (freshRecords n.hist.through recs).foldl NodeHist.count n.hist :=
  hist_foldRecords sorted _ _ _

theorem Node.ack_fold {n : Node} {noWrite : Bool}
    (pos : 0 < (n.fold recs noWrite).2) : (n.fold recs noWrite).2 = n.diskThrough := by
  rw [Node.fold] at pos ⊢
  split at pos
  next stale => rw [if_pos stale]
  · cases pos

theorem life_counts (h : NodeHist) (l : List Record) (sub : Nat) :
    (l.foldl NodeHist.count h).life.getD sub 0 =
      h.life.getD sub 0 + (l.map fun r => r.b.subs.getD sub 0).sum := by
  exact foldl_add (·.life.getD sub 0) _ (fun h r => life_count h r sub) l h

theorem through_counts (sorted : Rising l)
    (past : ∀ r ∈ l, h.through < r.ts) :
    h.through ≤ (l.foldl NodeHist.count h).through ∧
      (∀ r ∈ l, r.ts ≤ (l.foldl NodeHist.count h).through) ∧
      ((l.foldl NodeHist.count h).through = h.through ∨
        ∃ r ∈ l, r.ts = (l.foldl NodeHist.count h).through) := by
  induction l generalizing h with
  | nil => exact ⟨le_rfl, nofun, .inl rfl⟩
  | cons r l ih =>
    obtain ⟨later, sorted⟩ := pairwise_cons.mp sorted
    have here := past r mem_cons_self
    obtain ⟨grows, bounds, mark⟩ := ih (h := h.count r) sorted later
    rw [through_count] at grows mark
    rw [foldl_cons]
    refine ⟨by omega, forall_mem_cons.mpr ⟨grows, bounds⟩, .inr ?_⟩
    rcases mark with same | ⟨a, ha, same⟩
    · exact ⟨r, mem_cons_self, same.symm⟩
    · exact ⟨a, mem_cons_of_mem _ ha, same⟩

theorem valid_counts (valid : h.Valid)
    (pos : ∀ r ∈ l, 0 < r.ts ∧ ∀ sub t, r.b.subs[sub]? = some t → 0 < sub) :
    (l.foldl NodeHist.count h).Valid := by
  refine foldlRecOn l _ valid fun g valid r hr => ?_
  obtain ⟨ts, subs⟩ := pos r hr
  have added := valid.add r.ts subs
  exact ⟨ts.le, added.subs, added.life⟩

theorem live_foldRecords {diskThrough newest : Int} (older : ∀ r ∈ recs, r.ts < newest) (f : Fold) :
    (recs.foldl (foldRecord diskThrough newest) f).live = f.live := by
  refine foldlRecOn (motive := (Fold.live · = f.live)) recs _ rfl fun g same r hr => ?_
  rw [foldRecord]
  split
  · exact same
  · rw [if_pos (older r hr), same]

/-- **An answer shows its newest record**, unless that is counted already. -/
theorem growing_fold (n : Node) (sorted : Rising recs) (noWrite : Bool) :
    (n.fold recs noWrite).1.growing =
      match recs.getLast? with
      | some r => if r.ts ≤ n.hist.through then none else some ⟨r.ts, r.b⟩
      | none => none := by
  rcases eq_nil_or_concat recs with rfl | ⟨front, last, rfl⟩
  · rfl
  rw [concat_eq_append] at sorted ⊢
  rw [Rising, pairwise_append] at sorted
  have older : ∀ r ∈ front, r.ts < last.ts := fun r hr =>
    sorted.2.2 r hr last (mem_singleton_self last)
  have newest : newestOf (front ++ [last]) = last.ts := by rw [newestOf, getLast?_concat]
  -- The records before the last leave the mark below it, or where it was.
  have counted : last.ts ≤ (front.foldl (foldRecord n.diskThrough last.ts)
      ⟨n.hist, false, none⟩).hist.through ↔ last.ts ≤ n.hist.through := by
    rw [hist_foldRecords sorted.1 n.diskThrough last.ts ⟨n.hist, false, none⟩]
    have past : ∀ r ∈ front.filter fun r => decide (n.hist.through < r.ts ∧ r.ts < last.ts),
        n.hist.through < r.ts := fun r hr => (of_decide_eq_true (mem_filter.mp hr).2).1
    obtain ⟨grows, -, same | ⟨r, hr, same⟩⟩ := through_counts (sorted.1.filter _) past
    · exact iff_of_eq (congrArg (last.ts ≤ ·) same)
    · have below := older r (mem_of_mem_filter hr)
      constructor <;> intro reached <;> dsimp only at * <;> omega
  have step : (foldRecord n.diskThrough last.ts (front.foldl (foldRecord n.diskThrough last.ts)
      ⟨n.hist, false, none⟩) last).live =
      if last.ts ≤ n.hist.through then none else some ⟨last.ts, last.b⟩ := by
    rw [foldRecord]
    by_cases known : last.ts ≤ n.hist.through
    · rw [if_pos (counted.mpr known), if_pos known]
      exact live_foldRecords older _
    · rw [if_neg (mt counted.mp known), if_neg known, if_neg (Int.lt_irrefl _)]
  rw [getLast?_concat]
  show Fold.live _ = _
  rw [newest, foldl_append, foldl_cons, foldl_nil, step]

end NasnetPanel.Usage
