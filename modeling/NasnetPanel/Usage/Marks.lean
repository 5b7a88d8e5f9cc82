import NasnetPanel.Usage.Views

/-!
# Usage.Marks — where marks and shown buckets go

A node's mark is made in one place, when an answer is taken in. From there it is copied: into a
document and its list of marks, into the file, into the node's mark on disk, into the flush's jobs,
a poll's acknowledgement and what has left the hub, and back into a node when a hub opens. So what
is true of zero and of every mark made is true of every mark there is (`Marks`).

The steps that are neither of an agent nor a poll's and remove nothing also show what was shown, and
leave every lifetime alone: they are *quiet* (`quiet_step`).
-/

namespace NasnetPanel.Usage
open Collector GoMap Hub Traffic

/-! ## Marks -/

section Marks
variable (P : Nat → Int → Prop)

def FlushMarks : FlushPhase → Prop
  | .prepared doc marks _ => (∀ id, P id ((docView doc).through id)) ∧
      ∀ (id : Nat) (m : Int), marks[id]? = some m → P id m
  | .written marks => ∀ (id : Nat) (m : Int), marks[id]? = some m → P id m
  | .acking jobs => ∀ j ∈ jobs, P j.id j.through
  | .acked _ jobs => ∀ j ∈ jobs, P j.id j.through
  | _ => True

structure HubMarks (h : Hub) : Prop where
  nodes : ∀ (id : Nat) (n : Node), h.c.nodes[id]? = some n →
    P id n.hist.through ∧ P id n.diskThrough
  flush : FlushMarks P h.flush
  polls : ∀ (tid : Nat) (p : Poll) (t : Int), h.polls[tid]? = some p → p.phase = .acking t →
    P p.id t

/-- `P` holds of every mark there is. -/
structure Marks (s : System) : Prop where
  wire : ∀ id t, (id, t) ∈ s.wire → P id t
  file : ∀ id, P id ((fileView s.file).through id)
  hub : ∀ h, s.hub = some h → HubMarks P h

end Marks

section Mono
variable {P Q : Nat → Int → Prop} (weaker : ∀ id m, P id m → Q id m)
include weaker

theorem FlushMarks.mono {f : FlushPhase} (marks : FlushMarks P f) : FlushMarks Q f := by
  cases f with
  | prepared doc _ l =>
    exact ⟨fun id => weaker id _ (marks.1 id), fun id m here => weaker id m (marks.2 id m here)⟩
  | written _ => exact fun id m here => weaker id m (marks id m here)
  | acking | acked => exact fun j hj => weaker j.id _ (marks j hj)
  | _ => trivial

theorem HubMarks.mono {h : Hub} (marks : HubMarks P h) : HubMarks Q h :=
  ⟨fun id n here => ⟨weaker id _ (marks.nodes id n here).1, weaker id _ (marks.nodes id n here).2⟩,
    marks.flush.mono weaker, fun tid p t here phase =>
      weaker p.id t (marks.polls tid p t here phase)⟩

end Mono

/-! ## What is shown -/

/-- One bucket has at most what another has, of every subscription. -/
instance : Preorder Bucket := Preorder.lift fun b sub => b.subs.getD sub 0

theorem Bucket.le_def {b b' : Bucket} :
    b ≤ b' ↔ ∀ sub, b.subs.getD sub 0 ≤ b'.subs.getD sub 0 := Iff.rfl

/-- The hub shows and polls nothing it did not: its nodes are the same objects with no larger
buckets shown, and its polls are no earlier than they were. -/
structure Within (h h' : Hub) : Prop where
  nodes : ∀ (id : Nat) (n' : Node), h'.c.nodes[id]? = some n' → ∃ n, h.c.nodes[id]? = some n ∧
    n'.ref = n.ref ∧ ∀ q', n'.growing = some q' →
      ∃ q, n.growing = some q ∧ q'.ts = q.ts ∧ q'.b ≤ q.b
  polls : ∀ (tid : Nat) (p' : Poll), h'.polls[tid]? = some p' → ∃ p, h.polls[tid]? = some p ∧
    p'.id = p.id ∧ p'.ref = p.ref ∧ (p'.holds = true → p.holds = true) ∧
      ∀ buffered, p'.phase = .answered buffered → p.phase = .answered buffered
  made : h'.c.made = h.c.made

open Within

/-- The hub's marks are copies of those it had, and it shows nothing it did not. -/
structure Moves (h h' : Hub) : Prop where
  marks : ∀ P : Nat → Int → Prop, (∀ id, P id 0) → HubMarks P h → HubMarks P h'
  within : Within h h'

/-- Besides, no lifetime changes. -/
structure Quiet (h h' : Hub) : Prop extends Moves h h' where
  lifetime : ∀ sub, h'.c.subscriptionLifetime sub = h.c.subscriptionLifetime sub

section Compose
variable {h h' h'' : Hub}

theorem Within.refl (h : Hub) : Within h h :=
  ⟨fun _ n here => ⟨n, here, rfl, fun q shown => ⟨q, shown, rfl, le_refl _⟩⟩,
    fun _ p here => ⟨p, here, rfl, rfl, id, fun _ phase => phase⟩, rfl⟩

theorem Within.trans (first : Within h h') (second : Within h' h'') : Within h h'' := by
  refine ⟨fun id n'' here => ?_, fun tid p'' here => ?_, second.made.trans first.made⟩
  · obtain ⟨n', here', ref', shown'⟩ := second.nodes id n'' here
    obtain ⟨n, here, ref, shown⟩ := first.nodes id n' here'
    refine ⟨n, here, ref'.trans ref, fun q'' hq'' => ?_⟩
    obtain ⟨q', hq', ts', le'⟩ := shown' q'' hq''
    obtain ⟨q, hq, ts, le⟩ := shown q' hq'
    exact ⟨q, hq, ts'.trans ts, le'.trans le⟩
  · obtain ⟨p', here', id', ref', holds', answered'⟩ := second.polls tid p'' here
    obtain ⟨p, here, same, ref, holds, answered⟩ := first.polls tid p' here'
    exact ⟨p, here, id'.trans same, ref'.trans ref, fun lock => holds (holds' lock),
      fun buffered phase => answered buffered (answered' buffered phase)⟩

theorem Quiet.refl (h : Hub) : Quiet h h :=
  ⟨⟨fun _ _ marks => marks, Within.refl h⟩, fun _ => rfl⟩

theorem Quiet.trans (first : Quiet h h') (second : Quiet h' h'') : Quiet h h'' :=
  ⟨⟨fun P zero marks => second.marks P zero (first.marks P zero marks),
    first.within.trans second.within⟩,
    fun sub => (second.lifetime sub).trans (first.lifetime sub)⟩

end Compose

/-! ## Lifetimes -/

variable {g : Nat → Node → Node}

section Lifetime
variable {c : Collector} {id : Nat} {n : Node} {sub : Nat}

def Node.lifetime (n : Node) (sub : Nat) : Totals := n.hist.life.getD sub 0 + n.share sub

theorem lifetime_setNode (c : Collector) (id : Nat) (n : Node) (sub : Nat) :
    (c.setNode id n).subscriptionLifetime sub =
      n.lifetime sub + { c with nodes := c.nodes.erase id }.subscriptionLifetime sub := by
  rw [subscriptionLifetime, subscriptionLifetime, setNode]
  rw [total_insert, Node.lifetime, add_left_comm]

theorem lifetime_of_node (found : c.nodes[id]? = some n) (sub : Nat) :
    c.subscriptionLifetime sub =
      n.lifetime sub + { c with nodes := c.nodes.erase id }.subscriptionLifetime sub := by
  rw [subscriptionLifetime, subscriptionLifetime]
  rw [total_erase found, Node.lifetime, add_left_comm]

theorem lifetime_eq (c : Collector) (sub : Nat) :
    c.subscriptionLifetime sub =
      c.view.total sub + GoMap.total (fun _ n => n.share sub) c.nodes := by
  rw [view_total, subscriptionLifetime, add_assoc]
  rw [total, total, total, ← List.sum_map_add]

theorem lifetime_mapNodes (c : Collector)
    (same : ∀ id n, (g id n).lifetime sub = n.lifetime sub) :
    { c with nodes := c.nodes.map g }.subscriptionLifetime sub = c.subscriptionLifetime sub := by
  rw [subscriptionLifetime, subscriptionLifetime]
  rw [total_map]
  exact congrArg _ (total_congr fun id n _ => same id n)

theorem share_of_growing {n n' : Node} (same : n'.growing = n.growing) (sub : Nat) :
    n'.share sub = n.share sub := by
  rw [Node.share, Node.share, same]

theorem lifetime_forget (found : c.nodes[id]? = some n) (sub : Nat) :
    c.subscriptionLifetime sub = (c.forget id).subscriptionLifetime sub + n.share sub := by
  have total := total_forget c id sub
  rw [lifetime_eq, lifetime_eq, total, forget, found, total_erase found]
  rw [add_comm (n.share sub), add_assoc]

theorem lifetime_forgetSubscription (c : Collector) {other : Nat} (differ : sub ≠ other) :
    (c.forgetSubscription other).subscriptionLifetime sub = c.subscriptionLifetime sub := by
  have kept : ∀ m : GoMap Nat Totals, (m.erase other).getD sub 0 = m.getD sub 0 := by
    intro m
    rw [getD_eq, getElem?_erase, if_neg differ, ← getD_eq]
  rw [lifetime_eq, lifetime_eq, total_forgetSubscription c differ, forgetSubscription]
  rw [total_map]
  refine congrArg _ (total_congr fun id n _ => ?_)
  rw [Node.share, Node.share]
  cases n.growing with
  | none => rfl
  | some q => exact kept q.b.subs

end Lifetime

/-! ## Changes of a hub -/

section Changes
variable {h : Hub}

theorem quiet_dropPoll (h : Hub) (tid : Nat) : Quiet h { h with polls := h.polls.erase tid } := by
  refine ⟨⟨fun P _ marks => ?_, ?_⟩, fun _ => rfl⟩
  · exact { marks with polls := fun k p t here => marks.polls k p t (of_erase here).2 }
  · exact ⟨(refl h).nodes, fun k p here => (refl h).polls k p (of_erase here).2, rfl⟩

theorem quiet_setNode {id : Nat} {n n' : Node} (found : h.c.nodes[id]? = some n)
    (ref : n'.ref = n.ref) (hist : n'.hist = n.hist) (disk : n'.diskThrough = n.diskThrough)
    (growing : n'.growing = n.growing) : Quiet h { h with c := h.c.setNode id n' } := by
  refine ⟨⟨fun P _ marks => ?_, ?_⟩, fun sub => ?_⟩
  · refine { marks with nodes := forall_insert ?_ marks.nodes }
    rw [hist, disk]
    exact marks.nodes _ n found
  · exact ⟨forall_insert
      ⟨n, found, ref, fun q shown => ⟨q, growing ▸ shown, rfl, le_refl _⟩⟩ (refl h).nodes,
      (refl h).polls, rfl⟩
  · rw [lifetime_setNode, lifetime_of_node found, Node.lifetime, Node.lifetime, hist,
      share_of_growing growing]

theorem quiet_noteAck (h : Hub) (id ref : Nat) (t : Int) :
    Quiet h { h with c := h.c.noteAck id ref t } := by
  rw [noteAck]
  cases found : h.c.nodeAt id ref with
  | none => exact Quiet.refl h
  | some n => exact quiet_setNode (nodeAt_eq found).1 rfl rfl rfl rfl

theorem moves_mapNodes {c : Collector} (nodes : c.nodes = h.c.nodes.map g)
    (made : c.made = h.c.made)
    (marks : ∀ P : Nat → Int → Prop, HubMarks P h → ∀ id n,
      P id n.hist.through ∧ P id n.diskThrough →
        P id (g id n).hist.through ∧ P id (g id n).diskThrough)
    (ref : ∀ id n, (g id n).ref = n.ref)
    (growing : ∀ id n q', (g id n).growing = some q' →
      ∃ q, n.growing = some q ∧ q'.ts = q.ts ∧ q'.b ≤ q.b) : Moves h { h with c := c } := by
  have found : ∀ (id : Nat) (m : Node), c.nodes[id]? = some m →
      ∃ n, h.c.nodes[id]? = some n ∧ g id n = m := by
    intro id m here
    rw [nodes] at here
    exact of_map here
  refine ⟨fun P _ old => { old with nodes := fun id m here => ?_ },
    ⟨fun id m here => ?_, (refl h).polls, made⟩⟩
  · obtain ⟨n, was, rfl⟩ := found id m here
    exact marks P old id n (old.nodes id n was)
  · obtain ⟨n, was, rfl⟩ := found id m here
    exact ⟨n, was, ref id n, growing id n⟩

theorem quiet_prune (h : Hub) (now : Int) : Quiet h { h with c := h.c.pruneLocked now } :=
  ⟨moves_mapNodes rfl rfl (fun _ _ _ _ old => old) (fun _ _ => rfl)
    fun _ _ q shown => ⟨q, shown, rfl, le_refl _⟩, fun _ => lifetime_mapNodes h.c fun _ _ => rfl⟩

theorem quiet_setFlush {f : FlushPhase}
    (marks : ∀ P : Nat → Int → Prop, (∀ id, P id 0) → HubMarks P h → FlushMarks P f) :
    Quiet h { h with flush := f } :=
  ⟨⟨fun P zero old => { old with flush := marks P zero old },
    { refl h with made := rfl }⟩, fun _ => rfl⟩

theorem moves_forget (h : Hub) (id : Nat) : Moves h { h with c := h.c.forget id } := by
  rw [forget]
  cases found : h.c.nodes[id]? with
  | none => exact (Quiet.refl h).toMoves
  | some n =>
    refine ⟨fun P _ marks => { marks with nodes := fun k m here => ?_ },
      ⟨fun k m here => ?_, (refl h).polls, rfl⟩⟩
    · exact marks.nodes k m (of_erase here).2
    · exact (refl h).nodes k m (of_erase here).2

theorem moves_forgetSubscription (h : Hub) (sub : Nat) :
    Moves h { h with c := h.c.forgetSubscription sub } := by
  refine moves_mapNodes rfl rfl (fun _ _ _ _ old => old) (fun _ _ => rfl) fun _ n q' shown => ?_
  obtain ⟨q, here, rfl⟩ := Option.map_eq_some_iff.mp shown
  refine ⟨q, here, rfl, Bucket.le_def.mpr fun k => ?_⟩
  rw [getD_eq, getElem?_erase]
  split
  · exact zero_le
  · rw [← getD_eq]

end Changes

/-! ## Quiet steps -/

/-- A step of the hub that moves marks, and changes neither the agents nor a lifetime. -/
structure QuietStep (s t : System) : Prop where
  hub : ∃ h h', s.hub = some h ∧ t.hub = some h' ∧ Quiet h h'
  agents : t.agents = s.agents
  marks : ∀ P : Nat → Int → Prop, (∀ id, P id 0) → Marks P s → Marks P t

open QuietStep

section Steps
variable {s t : System}

theorem QuietStep.onHub {f : Hub → Option Hub}
    (quiet : ∀ h h', s.hub = some h → f h = some h' → Quiet h h') (ht : s.onHub f = some t) :
    QuietStep s t := by
  obtain ⟨h, h', running, hf, rfl⟩ := System.onHub_eq ht
  have same := quiet h h' running hf
  refine ⟨⟨h, h', running, rfl, same⟩, rfl, fun P zero marks => { marks with hub := ?_ }⟩
  intro k hk
  cases hk
  exact same.marks P zero (marks.hub h running)

theorem QuietStep.sending {f : Hub → Option (Hub × Nat × Int)}
    (quiet : ∀ h h' id u, f h = some (h', id, u) → Quiet h h' ∧
      ∀ P : Nat → Int → Prop, HubMarks P h → P id u)
    (ht : s.sending f = some t) : QuietStep s t := by
  obtain ⟨h, h', id, u, running, hf, rfl⟩ := System.sending_eq ht
  obtain ⟨same, sent⟩ := quiet h h' id u hf
  refine ⟨⟨h, h', running, rfl, same⟩, rfl, fun P zero marks => ⟨fun k v hv => ?_, marks.file, ?_⟩⟩
  · rcases List.mem_cons.mp hv with new | hv
    · cases new
      exact sent P (marks.hub h running)
    · exact marks.wire k v hv
  · intro k hk
    cases hk
    exact same.marks P zero (marks.hub h running)

variable {outcome : WriteOutcome}

section Hub
variable {h h' : Hub} {tid id : Nat} {u : Int} {ok : Bool}

theorem quiet_missed (hs : h.missed tid = some h') : Quiet h h' := by
  rw [missed_cases hs]
  exact quiet_dropPoll h tid

theorem quiet_sendAck (hs : h.sendAck tid = some (h', id, u)) :
    Quiet h h' ∧ ∀ P : Nat → Int → Prop, HubMarks P h → P id u := by
  obtain ⟨p, found, phase, rfl, rfl⟩ := sendAck_cases hs
  refine ⟨⟨⟨fun P _ marks => { marks with polls := fun k q w here acking => ?_ },
    ⟨(refl h).nodes, forall_insert ?_ (refl h).polls, rfl⟩⟩, fun _ => rfl⟩,
    fun P marks => marks.polls tid p u found phase⟩
  · rcases insert_cases here with ⟨-, rfl⟩ | ⟨-, here⟩
    · cases acking
    · exact marks.polls k q w here acking
  · exact ⟨p, found, rfl, rfl, fun _ => by rw [Poll.holds, phase],
      fun _ answered => by cases answered⟩

theorem quiet_ackReply (hs : h.ackReply tid ok = some h') : Quiet h h' := by
  obtain ⟨p, u, rfl⟩ := ackReply_cases hs
  cases ok with
  | false => exact quiet_dropPoll h tid
  | true => exact (quiet_noteAck h p.id p.ref u).trans (quiet_dropPoll _ tid)

theorem quiet_prepare {now : Int} (storable : Storable (h.c.pruneLocked now).hists h.c.retired)
    (hs : h.prepare now = some h') : Quiet h h' := by
  rw [Hub.prepare] at hs
  split at hs
  · obtain ⟨-, rfl⟩ := Runs.of_unless hs
    have pruned := quiet_prune h now
    refine pruned.trans (quiet_setFlush fun P zero marks => ⟨fun id => ?_, fun id m here => ?_⟩)
    · have said := docView_encodeDoc storable
      show P id ((docView (encodeDoc (h.c.pruneLocked now).hists h.c.retired)).through id)
      rw [said]
      show P id ((h.c.pruneLocked now).view.through id)
      rw [view_through]
      cases found : (h.c.pruneLocked now).nodes[id]? with
      | none => exact zero id
      | some n => exact (marks.nodes id n found).1
    · obtain ⟨n, found, rfl⟩ := of_map here
      exact (marks.nodes id n found).1
  · cases hs

theorem quiet_stamp (hs : h.stamp = some h') : Quiet h h' := by
  rw [Hub.stamp] at hs
  split at hs
  next marks phase =>
    cases hs
    have stamped : Moves h { h with c := h.c.stamp marks } := by
      refine moves_mapNodes rfl rfl (fun P old id n both => ?_)
        (fun id n => ?_) fun id n q shown => ?_
      · have flush := old.flush
        rw [phase] at flush
        cases here : marks[id]? with
        | none => exact both
        | some m =>
          refine ⟨both.1, ?_⟩
          show P id (max n.diskThrough m)
          rcases max_choice n.diskThrough m with same | same
          · exact same.symm ▸ both.2
          · exact same.symm ▸ flush id m here
      · cases marks[id]? <;> rfl
      · refine ⟨q, ?_, rfl, le_refl _⟩
        cases here : marks[id]? <;> rw [here] at shown <;> exact shown
    have lifetime : ∀ sub, (h.c.stamp marks).subscriptionLifetime sub =
        h.c.subscriptionLifetime sub := fun sub =>
      lifetime_mapNodes h.c fun id n => by cases marks[id]? <;> rfl
    exact (Quiet.mk stamped lifetime).trans (quiet_setFlush fun _ _ _ => trivial)
  · cases hs

theorem quiet_collectJobs (hs : h.collectJobs = some h') : Quiet h h' := by
  rw [collectJobs] at hs
  split at hs
  · cases hs
    refine quiet_setFlush fun P _ marks => List.forall_mem_map.mpr fun e he => ?_
    rw [List.mem_filter, Std.ExtTreeMap.mem_toList_iff_getElem?_eq_some] at he
    exact (marks.nodes e.1 e.2 he.1).2
  · cases hs

theorem quiet_sendJob (hs : h.sendJob = some (h', id, u)) :
    Quiet h h' ∧ ∀ P : Nat → Int → Prop, HubMarks P h → P id u := by
  rw [sendJob] at hs
  split at hs
  next j js phase =>
    cases hs
    have jobs : ∀ P : Nat → Int → Prop, HubMarks P h → ∀ k ∈ j :: js, P k.id k.through := by
      intro P marks
      have flush := marks.flush
      rwa [phase] at flush
    exact ⟨quiet_setFlush fun P _ marks k hk => jobs P marks k (List.mem_cons_of_mem _ hk),
      fun P marks => jobs P marks j List.mem_cons_self⟩
  · cases hs

theorem quiet_jobReply (hs : h.jobReply ok = some h') : Quiet h h' := by
  rw [jobReply] at hs
  split at hs
  next j js phase =>
    cases hs
    have rest : Quiet h { h with flush := .acking js } := quiet_setFlush fun P _ marks => by
      have flush := marks.flush
      rwa [phase] at flush
    cases ok with
    | false => exact rest
    | true => exact rest.trans (quiet_noteAck _ j.id j.ref j.through)
  · cases hs

theorem quiet_flushEnds (hs : h.flushEnds = some h') : Quiet h h' := by
  rw [flushEnds] at hs
  split at hs
  · cases hs
    exact quiet_setFlush fun _ _ _ => trivial
  · cases hs

theorem quiet_write {file file' : HubFile} {l l' : List Entry}
    (hs : h.write outcome file l = some (h', file', l')) :
    Quiet h h' ∧ ∀ P : Nat → Int → Prop, HubMarks P h → (∀ id, P id ((fileView file).through id)) →
      ∀ id, P id ((fileView file').through id) := by
  rw [write] at hs
  split at hs
  next doc marks _ phase =>
    have flush : ∀ P : Nat → Int → Prop, HubMarks P h →
        (∀ id, P id ((docView doc).through id)) ∧
          ∀ (id : Nat) (m : Int), marks[id]? = some m → P id m := by
      intro P old
      have flush := old.flush
      rwa [phase] at flush
    have written : Quiet h { h with flush := .written marks } :=
      quiet_setFlush fun P _ old => (flush P old).2
    have idle : Quiet h { h with flush := .idle } := quiet_setFlush fun _ _ _ => trivial
    split at hs
    · cases hs
      exact ⟨written, fun _ _ old => old⟩
    cases outcome with
    | done =>
      cases hs
      refine ⟨⟨⟨fun P zero old => ?_, ?_⟩, fun _ => rfl⟩, fun P old _ => (flush P old).1⟩
      · have marked := written.marks P zero old
        exact { marked with }
      · exact { written.within with made := rfl }
    | failedOld =>
      cases hs
      exact ⟨idle, fun _ _ old => old⟩
    | failedNew =>
      cases hs
      exact ⟨idle, fun P old _ => (flush P old).1⟩
  · cases hs

end Hub

theorem QuietStep.write (ht : step s (.write outcome) = some t) :
    QuietStep s t := by
  obtain ⟨h, h', file, written, running, hw, rfl⟩ := write_eq ht
  obtain ⟨same, stored⟩ := quiet_write hw
  refine ⟨⟨h, h', running, rfl, same⟩, rfl, fun P zero marks => ⟨marks.wire, ?_, fun k hk => ?_⟩⟩
  · exact stored P (marks.hub h running) marks.file
  · cases hk
    exact same.marks P zero (marks.hub h running)

def Action.quiet : Action → Bool
  | .missed _ => true
  | .sendAck _ => true
  | .ackReply _ _ => true
  | .prepare _ => true
  | .write _ => true
  | .stamp => true
  | .collectJobs => true
  | .sendJob => true
  | .jobReply _ => true
  | .flushEnds => true
  | _ => false

/-- Acknowledgements and the steps of a flush are quiet. -/
theorem quiet_step {a : Action} (sound : Sound s) (quiet : a.quiet = true)
    (ht : step s a = some t) : QuietStep s t := by
  cases a with
  | missed tid => exact onHub (fun _ _ _ => quiet_missed) ht
  | sendAck tid => exact sending (fun _ _ _ _ => quiet_sendAck) ht
  | ackReply tid ok => exact onHub (fun _ _ _ => quiet_ackReply) ht
  | prepare now =>
    exact onHub (fun h _ running => quiet_prepare ((sound.hub h running).prune now).storable) ht
  | write outcome => exact write ht
  | stamp => exact onHub (fun _ _ _ => quiet_stamp) ht
  | collectJobs => exact onHub (fun _ _ _ => quiet_collectJobs) ht
  | sendJob => exact sending (fun _ _ _ _ => quiet_sendJob) ht
  | jobReply ok => exact onHub (fun _ _ _ => quiet_jobReply) ht
  | flushEnds => exact onHub (fun _ _ _ => quiet_flushEnds) ht
  | _ => cases quiet

end Steps

end NasnetPanel.Usage
