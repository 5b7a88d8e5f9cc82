import NasnetPanel.Usage.Ledger

/-!
# Usage.Views — what is counted agrees with the ledgers

Three views say what has been counted: the collector's, a prepared document's and the file's, and
each has its ledger. A relation between a view and its ledger that the collector's steps keep holds
of all three along every orderly run: a document says what the collector said when it was prepared,
and a hub that opens says what its file says (`agrees_step`). Most steps leave the collector's view
alone; taking in an answer, `Forget` and `ForgetSubscription` are the ones a relation has to answer
for.

`balanced_step` is the first use: the totals over all nodes, removed ones included, are the sums
over the ledger.
-/

namespace NasnetPanel.Usage
open Collector GoMap Hub Traffic

/-! ## Changes of a collector's view -/

section View
variable {c : Collector} {id : Nat} {n : Node}

theorem through_setNode (k : Nat) :
    (c.setNode id n).view.through k = if k = id then n.hist.through else c.view.through k := by
  rw [view_through, setNode, getElem?_insert]
  split
  · rfl
  · exact view_through.symm

theorem life_setNode (k sub : Nat) :
    (c.setNode id n).view.life k sub =
      if k = id then n.hist.life.getD sub 0 else c.view.life k sub := by
  rw [view_life, setNode, getElem?_insert]
  split
  · rfl
  · exact view_life.symm

variable {sub : Nat}

theorem total_setNode {x : Totals} (gain : n.hist.life.getD sub 0 = c.view.life id sub + x) :
    (c.setNode id n).view.total sub = c.view.total sub + x := by
  rw [view_life] at gain
  rw [view_total, view_total, setNode]
  rw [total_insert, gain]
  cases found : c.nodes[id]? with
  | some m =>
    rw [total_erase found, Option.map_some, Option.getD_some]
    abel
  | none =>
    rw [erase_of_none found, Option.map_none, Option.getD_none]
    abel

theorem view_setNode (through : n.hist.through = c.view.through id)
    (life : ∀ sub, n.hist.life.getD sub 0 = c.view.life id sub) :
    (c.setNode id n).view = c.view := by
  refine View.ext (funext fun k => ?_) (funext fun k => funext fun sub => ?_) (funext fun sub => ?_)
  · rw [through_setNode]
    split
    next same => rw [same, through]
    · rfl
  · rw [life_setNode]
    split
    next same => rw [same, life]
    · rfl
  · rw [total_setNode (by rw [life, add_zero]), add_zero]

theorem view_setNode_of_hist {m : Node} (found : c.nodes[id]? = some m) (same : n.hist = m.hist) :
    (c.setNode id n).view = c.view := by
  refine view_setNode ?_ fun sub => ?_
  · rw [view_through, found, same]
    rfl
  · rw [view_life, found, same]
    rfl

theorem view_nodeLocked (c : Collector) (id : Nat) : (c.nodeLocked id).1.view = c.view := by
  rw [nodeLocked]
  cases found : c.nodes[id]? with
  | some m => exact view_setNode_of_hist found rfl
  | none =>
    refine view_setNode ?_ fun sub => ?_
    · rw [view_through, found]
      rfl
    · rw [view_life, found]
      exact getD_eq _ _ _

theorem view_noteAck (c : Collector) (id ref : Nat) (t : Int) :
    (c.noteAck id ref t).view = c.view := by
  rw [noteAck]
  cases found : c.nodeAt id ref with
  | none => rfl
  | some m => exact view_setNode_of_hist (nodeAt_eq found).1 rfl

theorem view_stamp (c : Collector) (marks : GoMap Nat Int) : (c.stamp marks).view = c.view := by
  refine view_mapNodes c (fun id n => ?_) fun id n => ?_
  · cases marks[id]? <;> rfl
  · cases marks[id]? <;> rfl

theorem view_holding (hists : GoMap Nat NodeHist) (retired : GoMap Nat Totals) :
    (Collector.holding hists retired).view = viewOf hists retired := by
  rw [view, hists_holding]
  rfl

theorem total_forget (c : Collector) (id sub : Nat) :
    (c.forget id).view.total sub = c.view.total sub := by
  rw [forget]
  cases found : c.nodes[id]? with
  | none => rfl
  | some m =>
    have moved : (addAll (· + ·) 0 c.retired m.hist.life).getD sub 0 =
        c.retired.getD sub 0 + m.hist.life.getD sub 0 := by
      rw [getD_addAll, getD_eq m.hist.life]
      cases m.hist.life[sub]? with
      | some t => rfl
      | none => exact (add_zero _).symm
    rw [view_total, view_total, total_erase found]
    rw [moved, add_assoc]

theorem total_forgetSubscription (c : Collector) {other : Nat} (differ : other ≠ sub) :
    (c.forgetSubscription sub).view.total other = c.view.total other := by
  have kept : ∀ m : GoMap Nat Totals, (m.erase sub).getD other 0 = m.getD other 0 := by
    intro m
    rw [getD_eq, getElem?_erase, if_neg differ, ← getD_eq]
  rw [view_total, view_total, forgetSubscription]
  rw [kept, total_map]
  exact congrArg _ (total_congr fun _ n _ => kept n.hist.life)

end View

/-! ## Agreement -/

/-- The relation holds of the document being written. -/
def FlushAgrees (R : View → List Entry → Prop) : FlushPhase → Prop
  | .prepared doc _ l => R (docView doc) l
  | _ => True

/-- The relation holds of every view and its ledger. -/
structure Agrees (R : View → List Entry → Prop) (s : System) : Prop where
  file : R (fileView s.file) s.written
  hub : ∀ h, s.hub = some h → R h.c.view h.counted ∧ FlushAgrees R h.flush

section Agree
variable {R : View → List Entry → Prop} {s t : System} {f : Hub → Option Hub}

theorem Agrees.onHub (agrees : Agrees R s)
    (keeps : ∀ h h', s.hub = some h → f h = some h' → R h.c.view h.counted →
      FlushAgrees R h.flush → R h'.c.view h'.counted ∧ FlushAgrees R h'.flush)
    (ht : s.onHub f = some t) : Agrees R t := by
  obtain ⟨h, h', running, hf, rfl⟩ := System.onHub_eq ht
  refine ⟨agrees.file, fun k hk => ?_⟩
  cases hk
  exact keeps h h' running hf (agrees.hub h running).1 (agrees.hub h running).2

/-- A step of the hub that counts nothing: the view and the ledger stay, and no document is
prepared. -/
structure Unchanged (h h' : Hub) : Prop where
  view : h'.c.view = h.c.view
  counted : h'.counted = h.counted
  flush : h'.flush = h.flush ∨ ∀ doc marks l, h'.flush ≠ .prepared doc marks l

theorem Unchanged.agrees {h h' : Hub} (same : Unchanged h h') (view : R h.c.view h.counted)
    (flush : FlushAgrees R h.flush) : R h'.c.view h'.counted ∧ FlushAgrees R h'.flush := by
  rw [same.view, same.counted]
  refine ⟨view, ?_⟩
  rcases same.flush with kept | other
  · exact kept.symm ▸ flush
  cases phase : h'.flush with
  | prepared doc marks l => exact absurd phase (other doc marks l)
  | _ => trivial

theorem Agrees.unchanged (agrees : Agrees R s)
    (same : ∀ h h', f h = some h' → Unchanged h h') (ht : s.onHub f = some t) : Agrees R t :=
  agrees.onHub (fun h h' _ hf view flush => (same h h' hf).agrees view flush) ht

theorem Agrees.sending (agrees : Agrees R s) {f : Hub → Option (Hub × Nat × Int)}
    (same : ∀ h h' id u, f h = some (h', id, u) → Unchanged h h') (ht : s.sending f = some t) :
    Agrees R t := by
  obtain ⟨h, h', id, u, running, hf, rfl⟩ := System.sending_eq ht
  refine ⟨agrees.file, fun k hk => ?_⟩
  cases hk
  exact (same h h' id u hf).agrees (agrees.hub h running).1 (agrees.hub h running).2

end Agree

section Unchanged
variable {h h' : Hub} {tid id : Nat}

theorem unchanged_poll (hs : h.poll tid id = some h') : Unchanged h h' := by
  obtain ⟨-, rfl⟩ := Runs.of_guard hs
  exact ⟨view_nodeLocked h.c id, rfl, .inl rfl⟩

theorem unchanged_fetch {agents : Nat → Box} (hs : h.fetch tid agents = some h') :
    Unchanged h h' := by
  obtain ⟨p, -, -, rfl⟩ := fetch_cases hs
  exact ⟨rfl, rfl, .inl rfl⟩

theorem unchanged_missed (hs : h.missed tid = some h') : Unchanged h h' := by
  rw [missed_cases hs]
  exact ⟨rfl, rfl, .inl rfl⟩

variable {u : Int} {ok : Bool}

theorem unchanged_sendAck (hs : h.sendAck tid = some (h', id, u)) : Unchanged h h' := by
  obtain ⟨p, -, -, -, rfl⟩ := sendAck_cases hs
  exact ⟨rfl, rfl, .inl rfl⟩

theorem unchanged_ackReply (hs : h.ackReply tid ok = some h') : Unchanged h h' := by
  obtain ⟨p, u, rfl⟩ := ackReply_cases hs
  cases ok with
  | false => exact ⟨rfl, rfl, .inl rfl⟩
  | true => exact ⟨view_noteAck h.c p.id p.ref u, rfl, .inl rfl⟩

theorem unchanged_stamp (hs : h.stamp = some h') : Unchanged h h' := by
  rw [Hub.stamp] at hs
  split at hs
  next marks _ =>
    cases hs
    exact ⟨view_stamp h.c marks, rfl, .inr fun _ _ _ same => by cases same⟩
  · cases hs

theorem unchanged_collectJobs (hs : h.collectJobs = some h') : Unchanged h h' := by
  rw [collectJobs] at hs
  split at hs
  · cases hs
    exact ⟨rfl, rfl, .inr fun _ _ _ same => by cases same⟩
  · cases hs

theorem unchanged_sendJob (hs : h.sendJob = some (h', id, u)) : Unchanged h h' := by
  rw [sendJob] at hs
  split at hs
  · cases hs
    exact ⟨rfl, rfl, .inr fun _ _ _ same => by cases same⟩
  · cases hs

theorem unchanged_jobReply (hs : h.jobReply ok = some h') : Unchanged h h' := by
  rw [jobReply] at hs
  split at hs
  next j _ _ =>
    cases hs
    cases ok with
    | false => exact ⟨rfl, rfl, .inr fun _ _ _ same => by cases same⟩
    | true =>
      exact ⟨view_noteAck h.c j.id j.ref j.through, rfl, .inr fun _ _ _ same => by cases same⟩
  · cases hs

theorem unchanged_flushEnds (hs : h.flushEnds = some h') : Unchanged h h' := by
  rw [flushEnds] at hs
  split at hs
  · cases hs
    exact ⟨rfl, rfl, .inr fun _ _ _ same => by cases same⟩
  · cases hs

end Unchanged

section Agree
variable {R : View → List Entry → Prop} {s t : System}

theorem agrees_prepare (sound : Sound s) (agrees : Agrees R s) {now : Int}
    (ht : s.onHub (fun h => h.prepare now) = some t) : Agrees R t := by
  refine agrees.onHub (fun h h' running hf view _ => ?_) ht
  rw [Hub.prepare] at hf
  split at hf
  · obtain ⟨-, rfl⟩ := Runs.of_unless hf
    have said := docView_encodeDoc ((sound.hub h running).prune now).storable
    have pruned := view_prune h.c now
    refine ⟨pruned.symm ▸ view, ?_⟩
    show R (docView _) h.counted
    exact (said.trans pruned).symm ▸ view
  · cases hf

theorem agrees_write (agrees : Agrees R s) {outcome : WriteOutcome}
    (ht : step s (.write outcome) = some t) : Agrees R t := by
  obtain ⟨h, h', file, written, running, hw, rfl⟩ := write_eq ht
  obtain ⟨view, flush⟩ := agrees.hub h running
  rw [write] at hw
  split at hw
  next doc marks l phase =>
    rw [phase] at flush
    split at hw
    · cases hw
      exact ⟨agrees.file, fun k hk => by cases hk; exact ⟨view, trivial⟩⟩
    cases outcome with
    | done | failedNew =>
      cases hw
      exact ⟨flush, fun k hk => by cases hk; exact ⟨view, trivial⟩⟩
    | failedOld =>
      cases hw
      exact ⟨agrees.file, fun k hk => by cases hk; exact ⟨view, trivial⟩⟩
  · cases hw

theorem agrees_start (sound : Sound s) (agrees : Agrees R s) {now : Int}
    (ht : step s (.start now) = some t) : Agrees R t := by
  obtain ⟨-, rfl⟩ := start_eq ht
  obtain ⟨hists, retired, loaded, -, view⟩ := load_stored sound.stored
  have opened : (openOn s.file now).1.view = fileView s.file := by
    rw [openOn, loaded]
    exact (view_prune _ now).trans ((view_holding hists retired).trans view)
  have same := openOn_stored sound.stored now
  refine ⟨same.symm ▸ agrees.file, fun k hk => ?_⟩
  cases hk
  exact ⟨opened.symm ▸ agrees.file, trivial⟩

/-- **A relation between a view and its ledger holds of all of them along a run**, if taking in an
answer, forgetting a node and forgetting a subscription keep it. -/
theorem agrees_step {a : Action} (sound : Sound s) (agrees : Agrees R s)
    (fold : ∀ h h' tid now, a = .fold tid now → s.hub = some h → h.fold tid now = some h' →
      R h.c.view h.counted → R h'.c.view h'.counted)
    (forget : ∀ (h : Hub) (id : Nat), a = .forget id → R h.c.view h.counted →
      R (h.c.forget id).view h.counted)
    (forgetSubscription : ∀ (h : Hub) (sub : Nat), a = .forgetSubscription sub →
      R h.c.view h.counted → R (h.c.forgetSubscription sub).view h.counted)
    (ht : step s a = some t) : Agrees R t := by
  cases a with
  | accumulate id delta now =>
    cases ht
    exact { agrees with }
  | deliver id u =>
    obtain ⟨-, rfl⟩ := Runs.of_guard ht
    exact { agrees with }
  | poll tid id => exact agrees.unchanged (fun _ _ => unchanged_poll) ht
  | fetch tid => exact agrees.unchanged (fun _ _ => unchanged_fetch) ht
  | missed tid => exact agrees.unchanged (fun _ _ => unchanged_missed) ht
  | fold tid now =>
    refine agrees.onHub (fun h h' running hf view flush => ?_) ht
    refine ⟨fold h h' tid now rfl running hf view, ?_⟩
    obtain ⟨_, _, _, _, ⟨_, rfl⟩ | ⟨_, _, _, _, rfl⟩⟩ := fold_cases hf
    · exact flush
    · exact flush
  | sendAck tid => exact agrees.sending (fun _ _ _ _ => unchanged_sendAck) ht
  | ackReply tid ok => exact agrees.unchanged (fun _ _ => unchanged_ackReply) ht
  | prepare now => exact agrees_prepare sound agrees ht
  | write outcome => exact agrees_write agrees ht
  | stamp => exact agrees.unchanged (fun _ _ => unchanged_stamp) ht
  | collectJobs => exact agrees.unchanged (fun _ _ => unchanged_collectJobs) ht
  | sendJob => exact agrees.sending (fun _ _ _ _ => unchanged_sendJob) ht
  | jobReply ok => exact agrees.unchanged (fun _ _ => unchanged_jobReply) ht
  | flushEnds => exact agrees.unchanged (fun _ _ => unchanged_flushEnds) ht
  | forget id =>
    refine agrees.onHub (fun h h' _ hf view flush => ?_) ht
    cases hf
    exact ⟨forget h id rfl view, flush⟩
  | forgetSubscription sub =>
    refine agrees.onHub (fun h h' _ hf view flush => ?_) ht
    cases hf
    exact ⟨forgetSubscription h sub rfl view, flush⟩
  | crash =>
    cases ht
    exact ⟨agrees.file, fun k hk => by cases hk⟩
  | start now => exact agrees_start sound agrees ht

end Agree

/-! ## Totals -/

def sumOf (sub : Nat) (l : List Entry) : Totals := (l.map fun e => e.b.subs.getD sub 0).sum

theorem sumOf_append (sub : Nat) (l l' : List Entry) :
    sumOf sub (l ++ l') = sumOf sub l + sumOf sub l' := by
  rw [sumOf, List.map_append, List.sum_append]
  rfl

/-- The lifetime over all nodes, removed ones included, is what the ledger has. -/
def Balanced (sub : Nat) (v : View) (l : List Entry) : Prop := v.total sub = sumOf sub l

theorem life_fold (n : Node) (id : Nat) (buffered : List TrafficBucket) (now : Int) (noWrite : Bool)
    (sub : Nat) :
    (n.fold (records buffered id (now + maxAhead)).1 noWrite).1.hist.life.getD sub 0 =
      n.hist.life.getD sub 0 + sumOf sub (freshEntries n id buffered now) := by
  rw [hist_fold n (records_sorted _ _ _), life_counts, sumOf, freshEntries, List.map_map]
  rfl

variable {sub : Nat}

theorem balanced_fold {h h' : Hub} {tid : Nat} {now : Int}
    (hs : h.fold tid now = some h') (balanced : Balanced sub h.c.view h.counted) :
    Balanced sub h'.c.view h'.counted := by
  obtain ⟨p, buffered, -, -, ⟨-, rfl⟩ | ⟨n, taken, at_, rfl, rfl⟩⟩ := fold_cases hs
  · exact balanced
  have gain : (n.fold (records buffered p.id (now + maxAhead)).1
      h.c.noWrite).1.hist.life.getD sub 0 =
        h.c.view.life p.id sub + sumOf sub (freshEntries n p.id buffered now) := by
    rw [life_fold, view_life, (nodeAt_eq at_).1]
    rfl
  rw [Balanced] at balanced ⊢
  rw [total_setNode gain, balanced, sumOf_append]

/-- One step keeps a subscription's lifetime what the ledger has. -/
theorem balanced_step {s t : System} {a : Action} (sound : Sound s)
    (kept : a ≠ .forgetSubscription sub) (balanced : Agrees (Balanced sub) s)
    (ht : step s a = some t) : Agrees (Balanced sub) t := by
  refine agrees_step sound balanced (fun _ _ _ _ _ _ hf => balanced_fold hf) ?_ ?_ ht
  · intro h id _ balanced
    exact (total_forget h.c id sub).trans balanced
  rintro h other rfl balanced
  have differ : sub ≠ other := fun same => kept (congrArg Action.forgetSubscription same.symm)
  exact (total_forgetSubscription h.c differ).trans balanced

theorem balanced_init (agents : Nat → MemoryStore) (sub : Nat) :
    Agrees (Balanced sub) (System.init agents) := by
  refine ⟨?_, fun k hk => by cases hk⟩
  show (viewOf ∅ ∅).total sub = 0
  simp [viewOf]

end NasnetPanel.Usage
