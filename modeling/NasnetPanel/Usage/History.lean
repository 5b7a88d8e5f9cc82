import NasnetPanel.Usage.Records

/-!
# Usage.History — what is kept of a node, and the file

`usage/history.go` and `usage/file.go`. A node's history is a pair of counts a day, for the node and
for each subscription, the bridge's totals, the subscriptions' lifetime totals and the mark up to
which buckets are counted. The file holds the histories and the totals of removed nodes.

The file is modelled as the document that is marshalled, with a day as its number; the JSON text and
the text of a day are left out. `decode_encode` says what a file that was written loads as: the
histories that are not empty, with the same days, totals and mark. Whatever file loads, written
anew it stays as it is (`encodeDoc_stable`).
-/

namespace NasnetPanel.Usage
open List Std.ExtTreeMap GoMap

/-! ## A node's history -/

def keepDays : Int := 31

def secondsPerDay : Int := 24 * 60 * 60

/-- The UTC day of a time, counted from 1970-01-01. -/
def dayOf (unix : Int) : Int :=
  let d := unix.tdiv secondsPerDay
  if unix.tmod secondsPerDay < 0 then d - 1 else d

/-- What is kept of one node. `life` is never pruned; `through` is the timestamp of the newest
bucket counted. -/
structure NodeHist where
  days : GoMap Int Totals := ∅
  subs : GoMap Nat (GoMap Int Totals) := ∅
  bridge : Totals := 0
  life : GoMap Nat Totals := ∅
  through : Int := 0

namespace NodeHist

/-- Counts one subscription's bytes under a day, and in its lifetime. -/
def addSub (d : Int) (h : NodeHist) (id : Nat) (t : Totals) : NodeHist :=
  if t.isZero then h
  else
    let m := h.subs.getD id ∅
    { h with
      subs := h.subs.insert id (m.insert d (m.getD d 0 + t))
      life := h.life.insert id (h.life.getD id 0 + t) }

/-- Counts a bucket under the day its timestamp falls in. -/
def add (h : NodeHist) (ts : Int) (b : Bucket) : NodeHist :=
  let d := dayOf ts
  let n := b.node
  let days := if n.isZero then h.days else h.days.insert d (h.days.getD d 0 + n)
  let counted := b.subs.foldl (addSub d) { h with days := days }
  { counted with bridge := counted.bridge + b.bridge }

/-- Drops the days before `keepFrom`, and a subscription with none left. -/
def prune (h : NodeHist) (keepFrom : Int) : NodeHist :=
  { h with
    days := h.days.filter fun d _ => !decide (d < keepFrom)
    subs := h.subs.filterMap fun _ m =>
      let kept := m.filter fun d _ => !decide (d < keepFrom)
      if kept.isEmpty then none else some kept }

/-- A node with nothing worth a place in the file. -/
def empty (h : NodeHist) : Bool :=
  h.days.isEmpty && h.subs.isEmpty && h.life.isEmpty && h.bridge.isZero && h.through == 0

end NodeHist

/-! ## The file -/

structure FileSub where
  id : Nat
  days : List (Int × Totals)
  total : Option Totals
deriving DecidableEq

structure FileNode where
  id : Nat
  ackedThrough : Int
  bridge : Totals
  days : List (Int × Totals)
  subscriptions : List FileSub
deriving DecidableEq

structure FileTotal where
  id : Nat
  total : Totals
deriving DecidableEq

structure FileDoc where
  version : Int
  nodes : List FileNode
  retired : List FileTotal
deriving DecidableEq

def schemaVersion : Int := 1

def NodeHist.subIDs (h : NodeHist) : GoMap Nat Unit :=
  GoMap.addAll (fun _ _ => ()) () (GoMap.addAll (fun _ _ => ()) () ∅ h.subs) h.life

def encodeNode (id : Nat) (h : NodeHist) : FileNode where
  id := id
  ackedThrough := h.through
  bridge := h.bridge
  days := h.days.toList
  subscriptions := h.subIDs.toList.map fun e =>
    ⟨e.1, (h.subs.getD e.1 ∅).toList, some (h.life.getD e.1 0)⟩

/-- The file's form of the nodes and the retired totals: the same document for the same history. -/
def encodeDoc (nodes : GoMap Nat NodeHist) (retired : GoMap Nat Totals) : FileDoc where
  version := schemaVersion
  nodes := (nodes.filter fun _ h => !h.empty).toList.map fun e => encodeNode e.1 e.2
  retired := (retired.filter fun _ t => !t.isZero).toList.map fun e => ⟨e.1, e.2⟩

/-- Why a file cannot be used; `newer` leaves it alone. -/
inductive FileError where
  | newer (version : Int)
  | noVersion
  | nodeID (id : Nat)
  | negativeMark (node : Nat)
  | subscriptionID (node id : Nat)
  | retiredID
deriving DecidableEq, Repr

def parseDays (days : List (Int × Totals)) : GoMap Int Totals :=
  days.foldl (fun out e => out.insert e.1 e.2) ∅

/-- The series and the lifetime a subscription's entry gives; where the entry has no total, the days
stand in for it. -/
def restoreSub (h : NodeHist) (sub : FileSub) : NodeHist :=
  let series := parseDays sub.days
  { h with
    subs := if series.isEmpty then h.subs else h.subs.insert sub.id series
    life :=
      match sub.total with
      | some t => h.life.insert sub.id t
      | none =>
        if series.isEmpty then h.life
        else h.life.insert sub.id (GoMap.total (fun _ t => t) series) }

/-- One subscription's entry; the ids seen so far, and the history. -/
def decodeSub (node : Nat) (acc : GoMap Nat Unit × NodeHist) (sub : FileSub) :
    Except FileError (GoMap Nat Unit × NodeHist) :=
  if sub.id = 0 ∨ acc.1[sub.id]? ≠ none then .error (.subscriptionID node sub.id)
  else .ok (acc.1.insert sub.id (), restoreSub acc.2 sub)

def decodeNode (out : GoMap Nat NodeHist) (fn : FileNode) : Except FileError (GoMap Nat NodeHist) :=
  if fn.id = 0 ∨ out[fn.id]?.isSome then .error (.nodeID fn.id)
  else if fn.ackedThrough < 0 then .error (.negativeMark fn.id)
  else do
    let h : NodeHist :=
      { through := fn.ackedThrough, bridge := fn.bridge, days := parseDays fn.days }
    let (_, h) ← fn.subscriptions.foldlM (decodeSub fn.id) (∅, h)
    return out.insert fn.id h

def decodeRetired (retired : GoMap Nat Totals) (r : FileTotal) :
    Except FileError (GoMap Nat Totals) :=
  if r.id = 0 then .error .retiredID
  else .ok (retired.insert r.id (retired.getD r.id 0 + r.total))

/-- Reads what `encodeDoc` wrote. -/
def decodeDoc (doc : FileDoc) : Except FileError (GoMap Nat NodeHist × GoMap Nat Totals) :=
  if schemaVersion < doc.version then .error (.newer doc.version)
  else if doc.version < 1 then .error .noVersion
  else do
    let nodes ← doc.nodes.foldlM decodeNode ∅
    let retired ← doc.retired.foldlM decodeRetired ∅
    return (nodes, retired)

/-! ## Laws of a history -/

namespace NodeHist

theorem life_addSub (d : Int) (h : NodeHist) (id : Nat) (t : Totals) (sub : Nat) :
    (addSub d h id t).life.getD sub 0 = h.life.getD sub 0 + if id = sub then t else 0 := by
  rw [addSub]
  split
  next zero =>
    rw [Totals.isZero, beq_iff_eq] at zero
    rw [zero, ite_self, add_zero]
  · rw [GoMap.getD_eq, GoMap.getElem?_insert]
    by_cases same : sub = id
    · rw [if_pos same, if_pos same.symm, Option.getD_some, same]
    · rw [if_neg same, if_neg (Ne.symm same), add_zero, ← getD_eq]

/-- **Counting a bucket adds its bytes to each subscription's lifetime.** -/
theorem life_add (h : NodeHist) (ts : Int) (b : Bucket) (sub : Nat) :
    (h.add ts b).life.getD sub 0 = h.life.getD sub 0 + b.subs.getD sub 0 := by
  have sum := total_single b.subs sub
  rw [total] at sum
  rw [add, foldl_eq_foldl_toList]
  have counts := foldl_add (NodeHist.life · |>.getD sub 0)
    (fun e : Nat × Totals => if e.1 = sub then e.2 else 0)
    fun g e => life_addSub (dayOf ts) g e.1 e.2 sub
  rw [counts, sum]

/-- What a history has to be for the file to hold it: a mark that is not negative, and ids that
start at one. -/
structure Valid (h : NodeHist) : Prop where
  through : 0 ≤ h.through
  subs : ∀ (sub : Nat) (m : GoMap Int Totals), h.subs[sub]? = some m → 0 < sub
  life : ∀ (sub : Nat) (t : Totals), h.life[sub]? = some t → 0 < sub

theorem valid_new : ({} : NodeHist).Valid where
  through := Int.le_refl 0
  subs sub m found := by simp at found
  life sub t found := by simp at found

variable {h : NodeHist}

theorem Valid.addSub (valid : h.Valid) (d : Int) {id : Nat} (pos : 0 < id)
    (t : Totals) : (addSub d h id t).Valid := by
  rw [NodeHist.addSub]
  split
  · exact valid
  · exact ⟨valid.through, forall_insert pos valid.subs, forall_insert pos valid.life⟩

theorem Valid.add (valid : h.Valid) (ts : Int) {b : Bucket}
    (pos : ∀ id t, b.subs[id]? = some t → 0 < id) : (h.add ts b).Valid := by
  rw [NodeHist.add, foldl_eq_foldl_toList]
  have counted : ∀ days, (b.subs.toList.foldl
      (fun g e => NodeHist.addSub (dayOf ts) g e.1 e.2) { h with days := days }).Valid := by
    intro days
    refine foldlRecOn _ _ { valid with } fun g valid e he => ?_
    exact valid.addSub _ (pos e.1 e.2 (mem_toList_iff_getElem?_eq_some.mp he)) _
  exact { counted _ with }

theorem Valid.prune (valid : h.Valid) (keepFrom : Int) : (h.prune keepFrom).Valid := by
  refine { valid with subs := fun sub m found => ?_ }
  rw [NodeHist.prune, getElem?_filterMap', Option.bind_eq_some_iff] at found
  obtain ⟨old, found, -⟩ := found
  exact valid.subs sub old found

/-! ## What a file loads as -/

/-- A history as the file gives it back: without empty series, and with a lifetime for every
subscription it names. -/
def restored (h : NodeHist) : NodeHist where
  days := h.days
  subs := h.subs.filter fun _ m => !m.isEmpty
  bridge := h.bridge
  life := h.subIDs.map fun sub _ => h.life.getD sub 0
  through := h.through

theorem getElem?_subIDs (h : NodeHist) (sub : Nat) :
    h.subIDs[sub]? =
      if h.life[sub]?.isSome ∨ h.subs[sub]?.isSome then some () else none := by
  rw [subIDs, getElem?_addAll, getElem?_addAll]
  cases h.life[sub]? <;> cases h.subs[sub]? <;> simp

theorem life_restored (h : NodeHist) (sub : Nat) :
    h.restored.life.getD sub 0 = h.life.getD sub 0 := by
  rw [restored, getD_eq, Std.ExtTreeMap.getElem?_map, getElem?_subIDs]
  split
  · rfl
  next neither =>
    rw [not_or, Option.not_isSome_iff_eq_none] at neither
    rw [getD_eq, neither.1]
    rfl

theorem Valid.subIDs (valid : h.Valid) {sub : Nat} {u : Unit}
    (found : h.subIDs[sub]? = some u) : 0 < sub := by
  rw [getElem?_subIDs] at found
  split at found
  next known =>
    rw [Option.isSome_iff_exists, Option.isSome_iff_exists] at known
    rcases known with ⟨t, here⟩ | ⟨m, here⟩
    · exact valid.life sub t here
    · exact valid.subs sub m here
  · cases found

theorem Valid.restored (valid : h.Valid) : h.restored.Valid := by
  refine ⟨valid.through, fun sub m found => ?_, fun sub t found => ?_⟩
  · exact valid.subs sub m (of_filter found).1
  · obtain ⟨u, here, -⟩ := of_map found
    exact valid.subIDs here

theorem of_empty (empty : h.empty = true) (sub : Nat) : h.through = 0 ∧ h.life.getD sub 0 = 0 := by
  simp only [NodeHist.empty, Bool.and_eq_true, beq_iff_eq, Std.ExtTreeMap.isEmpty_iff] at empty
  obtain ⟨⟨⟨-, life⟩, -⟩, through⟩ := empty
  refine ⟨through, ?_⟩
  rw [life]
  simp

end NodeHist

theorem parseDays_toList (m : GoMap Int Totals) : parseDays m.toList = m :=
  foldl_insert_toList m

/-- A loop that can fail does not, on entries that are each new when their turn comes. -/
theorem foldlM_ok {S A : Type} {f : S → A → Except FileError S} {g : S → A → S}
    (new : S → A → Prop) (differ : A → A → Prop) (ok : ∀ s a, new s a → f s a = .ok (g s a))
    (keeps : ∀ s a b, differ a b → new s b → new (g s a) b) {l : List A}
    (apart : l.Pairwise differ) {s : S} (fresh : ∀ a ∈ l, new s a) :
    l.foldlM f s = .ok (l.foldl g s) := by
  induction l generalizing s with
  | nil => rfl
  | cons a l ih =>
    obtain ⟨first, apart⟩ := pairwise_cons.mp apart
    rw [foldlM_cons, ok s a (fresh a mem_cons_self)]
    exact ih apart fun b hb => keeps s a b (first b hb) (fresh b (mem_cons_of_mem _ hb))

namespace NodeHist

def fileSub (h : NodeHist) (e : Nat × Unit) : FileSub :=
  ⟨e.1, (h.subs.getD e.1 ∅).toList, some (h.life.getD e.1 0)⟩

theorem life_restoreSubs (h g : NodeHist) (l : List (Nat × Unit)) :
    ((l.map h.fileSub).foldl restoreSub g).life =
      l.foldl (fun acc e => acc.insert e.1 (h.life.getD e.1 0)) g.life := by
  induction l generalizing g with
  | nil => rfl
  | cons e l ih => exact ih _

theorem subs_restoreSubs (h g : NodeHist) (l : List (Nat × Unit)) :
    ((l.map h.fileSub).foldl restoreSub g).subs =
      l.foldl (fun acc e => if (h.subs.getD e.1 ∅).isEmpty then acc
        else acc.insert e.1 (h.subs.getD e.1 ∅)) g.subs := by
  induction l generalizing g with
  | nil => rfl
  | cons e l ih =>
    rw [map_cons, foldl_cons, ih, foldl_cons, restoreSub, fileSub]
    rw [parseDays_toList]

theorem rest_restoreSubs (g : NodeHist) (l : List FileSub) :
    (l.foldl restoreSub g).days = g.days ∧ (l.foldl restoreSub g).bridge = g.bridge ∧
      (l.foldl restoreSub g).through = g.through := by
  induction l generalizing g with
  | nil => exact ⟨rfl, rfl, rfl⟩
  | cons sub l ih => exact ih _

theorem restoreSubs (h : NodeHist) :
    (h.subIDs.toList.map h.fileSub).foldl restoreSub
      { through := h.through, bridge := h.bridge, days := h.days } = h.restored := by
  have life := foldl_insert_toList (h.subIDs.map fun sub _ => h.life.getD sub 0)
  rw [toList_map, foldl_map] at life
  have subs := foldl_insert_toList
    ((h.subIDs.map fun sub _ => h.subs.getD sub ∅).filter fun _ m => !m.isEmpty)
  rw [toList_filter, toList_map, foldl_filter, foldl_map] at subs
  have same : ((h.subIDs.map fun sub _ => h.subs.getD sub ∅).filter fun _ m => !m.isEmpty) =
      h.subs.filter fun _ m => !m.isEmpty := by
    refine Std.ExtTreeMap.ext_getElem? fun sub => ?_
    rw [GoMap.getElem?_filter, GoMap.getElem?_filter, Std.ExtTreeMap.getElem?_map, getElem?_subIDs,
      getD_eq]
    cases h.subs[sub]? <;> cases h.life[sub]? <;> simp
  obtain ⟨days, bridge, through⟩ := rest_restoreSubs
    { through := h.through, bridge := h.bridge, days := h.days } (h.subIDs.toList.map h.fileSub)
  have ext : ∀ a b : NodeHist, a.days = b.days → a.subs = b.subs → a.bridge = b.bridge →
      a.life = b.life → a.through = b.through → a = b := by
    rintro ⟨⟩ ⟨⟩ rfl rfl rfl rfl rfl
    rfl
  refine ext _ _ days ?_ bridge ?_ through
  · rw [subs_restoreSubs, restored]
    rw [← same, ← subs]
    congr
    funext acc e
    cases (h.subs.getD e.1 ∅).isEmpty <;> rfl
  · rw [life_restoreSubs, restored]
    exact life

end NodeHist

/-- What one subscription's entry does when it is accepted. -/
def acceptSub (acc : GoMap Nat Unit × NodeHist) (sub : FileSub) : GoMap Nat Unit × NodeHist :=
  (acc.1.insert sub.id (), restoreSub acc.2 sub)

theorem snd_acceptSubs (l : List FileSub) (acc : GoMap Nat Unit × NodeHist) :
    (l.foldl acceptSub acc).2 = l.foldl restoreSub acc.2 := by
  exact (foldl_hom Prod.snd fun _ _ => rfl).symm

theorem decodeSubs_ok {h : NodeHist} (valid : h.Valid) (node : Nat) (g : NodeHist) :
    (h.subIDs.toList.map h.fileSub).foldlM (decodeSub node) (∅, g) =
      .ok ((h.subIDs.toList.map h.fileSub).foldl acceptSub (∅, g)) := by
  refine foldlM_ok (fun acc sub => 0 < sub.id ∧ acc.1[sub.id]? = none) (fun a b => a.id ≠ b.id)
    ?_ ?_ ?_ ?_
  · rintro acc sub ⟨pos, new⟩
    have accepted : ¬ (sub.id = 0 ∨ acc.1[sub.id]? ≠ none) := by
      rintro (zero | seen)
      · exact pos.ne' zero
      · exact seen new
    rw [decodeSub, if_neg accepted, acceptSub]
  · rintro acc a b differ ⟨pos, new⟩
    refine ⟨pos, ?_⟩
    rw [acceptSub, GoMap.getElem?_insert, if_neg (Ne.symm differ), new]
  · exact pairwise_map.mpr (distinct_toList h.subIDs)
  · refine forall_mem_map.mpr fun e he => ?_
    exact ⟨valid.subIDs (mem_toList_iff_getElem?_eq_some.mp he), by simp⟩

theorem decodeNode_encodeNode {id : Nat} {h : NodeHist} (pos : 0 < id) (valid : h.Valid)
    {out : GoMap Nat NodeHist} (new : out[id]? = none) :
    decodeNode out (encodeNode id h) = .ok (out.insert id h.restored) := by
  have accepted : ¬ (id = 0 ∨ out[id]?.isSome) := by
    rw [new]
    rintro (zero | seen)
    · exact pos.ne' zero
    · cases seen
  have subs := decodeSubs_ok valid id { through := h.through, bridge := h.bridge, days := h.days }
  rw [decodeNode, encodeNode, if_neg accepted, if_neg (Int.not_lt.mpr valid.through),
    parseDays_toList]
  refine (congrArg (fun r => r >>= fun p => pure (out.insert id p.2)) subs).trans ?_
  have restores := snd_acceptSubs (h.subIDs.toList.map h.fileSub)
    (∅, { through := h.through, bridge := h.bridge, days := h.days })
  rw [h.restoreSubs] at restores
  rw [← restores]
  rfl

theorem decodeNodes_encodeNodes {nodes : GoMap Nat NodeHist}
    (valid : ∀ id h, nodes[id]? = some h → 0 < id ∧ h.Valid) :
    (nodes.toList.map fun e => encodeNode e.1 e.2).foldlM decodeNode ∅ =
      .ok (nodes.map fun _ h => h.restored) := by
  have read := foldlM_ok (f := fun out (e : Nat × NodeHist) => decodeNode out (encodeNode e.1 e.2))
    (fun out e => (0 < e.1 ∧ e.2.Valid) ∧ out[e.1]? = none) (fun a b => a.1 ≠ b.1)
    (fun out e new => decodeNode_encodeNode new.1.1 new.1.2 new.2)
    (fun out a b differ new =>
      ⟨new.1, by rw [GoMap.getElem?_insert, if_neg (Ne.symm differ), new.2]⟩)
    (distinct_toList nodes) (s := ∅)
    fun e he => ⟨valid e.1 e.2 (mem_toList_iff_getElem?_eq_some.mp he), by simp⟩
  have rebuilt := foldl_insert_toList (nodes.map fun _ h => h.restored)
  rw [toList_map, foldl_map] at rebuilt
  rw [foldlM_map, read, rebuilt]

theorem decodeRetired_totals {retired : GoMap Nat Totals}
    (pos : ∀ id t, retired[id]? = some t → 0 < id) :
    (retired.toList.map fun e => (⟨e.1, e.2⟩ : FileTotal)).foldlM decodeRetired ∅ =
      .ok retired := by
  have read := foldlM_ok (f := fun out (e : Nat × Totals) => decodeRetired out ⟨e.1, e.2⟩)
    (fun _ e => 0 < e.1) (fun _ _ => True)
    (fun out e new => if_neg new.ne') (fun _ _ _ _ new => new)
    (pairwise_of_forall fun _ _ => trivial) (s := ∅)
    fun e he => pos e.1 e.2 (mem_toList_iff_getElem?_eq_some.mp he)
  rw [foldlM_map, read]
  refine congrArg Except.ok (Std.ExtTreeMap.ext_getElem? fun sub => ?_)
  have merged := @GoMap.getElem?_addAll Nat Totals Totals _ _ _ _ (· + ·) 0 ∅ retired sub
  rw [addAll, foldl_eq_foldl_toList] at merged
  rw [merged]
  cases retired[sub]? with
  | none => simp
  | some t => simp

/-- **What a file that was written loads as**: the histories that are not empty, restored, and the
retired totals that are not zero. -/
theorem decode_encode {nodes : GoMap Nat NodeHist} {retired : GoMap Nat Totals}
    (valid : ∀ id h, nodes[id]? = some h → 0 < id ∧ h.Valid)
    (pos : ∀ id t, retired[id]? = some t → 0 < id) :
    decodeDoc (encodeDoc nodes retired) =
      .ok ((nodes.filter fun _ h => !h.empty).map fun _ h => h.restored,
        retired.filter fun _ t => !t.isZero) := by
  rw [decodeDoc, encodeDoc]
  dsimp only
  rw [if_neg (by decide), if_neg (by decide),
    decodeNodes_encodeNodes fun id h found => valid id h (of_filter found).1,
    decodeRetired_totals fun id t found => pos id t (of_filter found).1]
  rfl

/-! ## Every file that is accepted -/

namespace NodeHist
variable {h : NodeHist}

theorem subIDs_restored (h : NodeHist) : h.restored.subIDs = h.subIDs := by
  refine Std.ExtTreeMap.ext_getElem? fun sub => ?_
  rw [getElem?_subIDs, restored]
  rw [Std.ExtTreeMap.getElem?_map, GoMap.getElem?_filter, getElem?_subIDs]
  cases h.life[sub]? <;> cases h.subs[sub]? <;> simp

theorem series_restored (h : NodeHist) (sub : Nat) :
    h.restored.subs.getD sub ∅ = h.subs.getD sub ∅ := by
  rw [restored, getD_eq, GoMap.getElem?_filter, getD_eq]
  cases h.subs[sub]? with
  | none => rfl
  | some m =>
    rw [Option.filter_some]
    split
    · rfl
    next empty =>
      rw [Bool.not_eq_true', Bool.not_eq_false, Std.ExtTreeMap.isEmpty_iff] at empty
      rw [empty]
      rfl

theorem encodeNode_restored (id : Nat) (h : NodeHist) :
    encodeNode id h.restored = encodeNode id h := by
  rw [encodeNode, subIDs_restored]
  simp only [series_restored, life_restored]
  rfl

theorem empty_of_restored (empty : h.restored.empty = true) : h.empty = true := by
  simp only [NodeHist.empty, restored, Bool.and_eq_true, Std.ExtTreeMap.isEmpty_iff,
    map_eq_empty_iff] at empty ⊢
  obtain ⟨⟨⟨⟨days, -⟩, ids⟩, bridge⟩, through⟩ := empty
  have none (sub : Nat) : h.life[sub]? = none ∧ h.subs[sub]? = none := by
    have here := h.getElem?_subIDs sub
    rw [ids] at here
    cases life : h.life[sub]? <;> cases subs : h.subs[sub]? <;> simp_all
  refine ⟨⟨⟨⟨days, ?_⟩, ?_⟩, bridge⟩, through⟩
  · exact Std.ExtTreeMap.ext_getElem? fun sub => (none sub).2
  · exact Std.ExtTreeMap.ext_getElem? fun sub => (none sub).1

theorem Valid.restoreSub (valid : h.Valid) {sub : FileSub} (pos : 0 < sub.id) :
    (restoreSub h sub).Valid := by
  refine ⟨valid.through, ?_, ?_⟩
  · rw [Usage.restoreSub]
    dsimp only
    split
    · exact valid.subs
    · exact forall_insert pos valid.subs
  · rw [Usage.restoreSub]
    dsimp only
    split
    · exact forall_insert pos valid.life
    · split
      · exact valid.life
      · exact forall_insert pos valid.life

end NodeHist

theorem of_bind {A B : Type} {r : Except FileError A} {f : A → Except FileError B} {b : B}
    (ok : r >>= f = .ok b) : ∃ a, r = .ok a ∧ f a = .ok b := by
  cases r with
  | error e => cases ok
  | ok a => exact ⟨a, rfl, ok⟩

theorem of_foldlM {S A : Type} {f : S → A → Except FileError S} {P : S → Prop}
    (keeps : ∀ s a t, P s → f s a = .ok t → P t) {l : List A} {s t : S} (start : P s)
    (read : l.foldlM f s = .ok t) : P t := by
  induction l generalizing s with
  | nil =>
    cases read
    exact start
  | cons a l ih =>
    obtain ⟨s', first, rest⟩ := of_bind (foldlM_cons.symm.trans read)
    exact ih (keeps s a s' start first) rest

theorem valid_decodeNode {out out' : GoMap Nat NodeHist} {fn : FileNode}
    (valid : ∀ id h, out[id]? = some h → 0 < id ∧ h.Valid)
    (read : decodeNode out fn = .ok out') : ∀ id h, out'[id]? = some h → 0 < id ∧ h.Valid := by
  rw [decodeNode] at read
  split at read
  · cases read
  next named =>
  split at read
  · cases read
  next mark =>
  obtain ⟨acc, subs, read⟩ := of_bind read
  cases read
  refine forall_insert ⟨Nat.pos_of_ne_zero (not_or.mp named).1, ?_⟩ valid
  refine of_foldlM (P := fun acc => acc.2.Valid) (fun acc sub acc' valid read => ?_) ?_ subs
  · rw [decodeSub] at read
    split at read
    · cases read
    next accepted =>
      cases read
      exact valid.restoreSub (Nat.pos_of_ne_zero (not_or.mp accepted).1)
  · exact { NodeHist.valid_new with through := Int.not_lt.mp mark }

theorem valid_decodeDoc {doc : FileDoc} {nodes : GoMap Nat NodeHist} {retired : GoMap Nat Totals}
    (read : decodeDoc doc = .ok (nodes, retired)) :
    (∀ id h, nodes[id]? = some h → 0 < id ∧ h.Valid) ∧
      ∀ id t, retired[id]? = some t → 0 < id := by
  rw [decodeDoc] at read
  split at read
  · cases read
  split at read
  · cases read
  obtain ⟨nodes', first, read⟩ := of_bind read
  obtain ⟨retired', second, read⟩ := of_bind read
  cases read
  constructor
  · refine of_foldlM (fun _ _ _ => valid_decodeNode) ?_ first
    simp
  · refine of_foldlM (P := fun m => ∀ id t, m[id]? = some t → 0 < id)
      (fun m r m' pos read => ?_) ?_ second
    · rw [decodeRetired] at read
      split at read
      · cases read
      next named =>
        cases read
        exact forall_insert (Nat.pos_of_ne_zero named) pos
    · simp

/-- **Whatever a file loads as is written as a file that loads, and is written as the same again**,
with every lifetime total and mark. -/
theorem encodeDoc_stable {doc : FileDoc} {nodes : GoMap Nat NodeHist} {retired : GoMap Nat Totals}
    (read : decodeDoc doc = .ok (nodes, retired)) : ∃ nodes' retired',
      decodeDoc (encodeDoc nodes retired) = .ok (nodes', retired') ∧
      encodeDoc nodes' retired' = encodeDoc nodes retired ∧ ∀ id sub,
        (nodes'.getD id {}).life.getD sub 0 = (nodes.getD id {}).life.getD sub 0 ∧
        (nodes'.getD id {}).through = (nodes.getD id {}).through := by
  obtain ⟨valid, pos⟩ := valid_decodeDoc read
  refine ⟨_, _, decode_encode valid pos, ?_, fun id sub => ?_⟩
  · have full : ∀ (id : Nat) (h : NodeHist),
        ((nodes.filter fun _ h => !h.empty).map fun _ h => h.restored)[id]? = some h →
          (!h.empty) = true := by
      intro id h found
      obtain ⟨old, here, rfl⟩ := of_map found
      cases empty : old.restored.empty
      · rfl
      · exact absurd (of_filter here).2 (by simp [NodeHist.empty_of_restored empty])
    rw [encodeDoc, filter_of_forall full, filter_of_forall fun id t found => (of_filter found).2,
      toList_map, List.map_map]
    simp only [Function.comp_def, NodeHist.encodeNode_restored]
    rfl
  · rw [getD_eq (Std.ExtTreeMap.map _ _), getD_eq nodes, Std.ExtTreeMap.getElem?_map,
      GoMap.getElem?_filter]
    cases nodes[id]? with
    | none => exact ⟨rfl, rfl⟩
    | some h =>
      rw [Option.filter_some]
      split
      · exact ⟨h.life_restored sub, rfl⟩
      next empty =>
        rw [Bool.not_eq_true', Bool.not_eq_false] at empty
        obtain ⟨through, life⟩ := NodeHist.of_empty empty sub
        exact ⟨life.symm, through.symm⟩

/-- A file of a release that kept no totals. -/
def daysOnly : FileDoc := ⟨1, [⟨1, 9, 0, [], [⟨2, [(0, ⟨3, 4⟩)], none⟩]⟩], []⟩

theorem encodeDoc_stable_daysOnly : ∃ nodes retired nodes' retired',
    decodeDoc daysOnly = .ok (nodes, retired) ∧
    decodeDoc (encodeDoc nodes retired) = .ok (nodes', retired') ∧
      encodeDoc nodes' retired' = encodeDoc nodes retired :=
  have ⟨_, _, loads, same, _⟩ := @encodeDoc_stable daysOnly _ _ rfl
  ⟨_, _, _, _, rfl, loads, same⟩

end NasnetPanel.Usage
