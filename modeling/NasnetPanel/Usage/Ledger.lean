import NasnetPanel.Usage.System

/-!
# Usage.Ledger — no agent is told to drop what the file has not counted

The marks of a node (what the collector has counted, what the file has, what a write under way or an
acknowledgement carries) are each *safe* for a ledger: every bucket of the agent up to the mark is
in the ledger, and the agent has a later bucket, so none of them grows any more. Safety only needs
the ledger to grow, and survives every later step of the agent as long as its timestamps do not go
back. Each critical section moves a mark from one place to another together with the ledger that
makes it safe: that is the whole argument, and a node object replaced between the two halves of a
write does not enter it.

`sound_step` is the result: every step keeps the system sound, where the agents' timestamps never go
back and nothing is evicted (`orderly`).
-/

namespace NasnetPanel.Usage
open GoMap Collector Hub Traffic Option Std.ExtTreeMap Function

/-! ## What an agent is given -/

namespace Box

/-- The bucket the agent adds to is no older than any it ever had. -/
def inOrder (a : Box) (now : Int) : Bool :=
  a.held.buckets.toList.all fun e => decide (e.1 ≤ a.store.truncateTime now)

/-- Nothing is past the retention. -/
def keepsAll (a : Box) (delta : XrayStatsSnapshot) (now : Int) : Bool :=
  (a.store.add delta now).buckets.toList.all fun e => decide (now - a.store.retention ≤ e.1)

end Box

/-- Agents add to their newest bucket or a newer one, and evict nothing. -/
def orderly (s : System) : Action → Bool
  | .accumulate id delta now => (s.agents id).inOrder now && (s.agents id).keepsAll delta now
  | _ => true

namespace Box
variable {a : Box} {delta : XrayStatsSnapshot} {now : Int}

theorem inOrder_iff : a.inOrder now = true ↔
    ∀ (ts : Int) (b : TrafficBucket), a.held.buckets[ts]? = some b →
      ts ≤ a.store.truncateTime now := by
  rw [inOrder, List.all_eq_true]
  constructor
  · intro h ts b found
    exact of_decide_eq_true (h (ts, b) (mem_toList_iff_getElem?_eq_some.mpr found))
  · intro h e he
    exact decide_eq_true (h e.1 e.2 (mem_toList_iff_getElem?_eq_some.mp he))

theorem fresh_of_keepsAll (h : a.keepsAll delta now = true) :
    (a.store.add delta now).Fresh now := by
  intro ts b found
  rw [keepsAll, List.all_eq_true] at h
  exact of_decide_eq_true (h (ts, b) (mem_toList_iff_getElem?_eq_some.mpr found))

theorem truncateTime_held (a : Box) (t : Int) : a.held.truncateTime t = a.store.truncateTime t := by
  have width : ∀ (l : List (XrayStatsSnapshot × Int)) (s : MemoryStore),
      (l.foldr (fun e s => s.add e.1 e.2) s).bucketDuration = s.bucketDuration := by
    intro l s
    induction l with
    | nil => rfl
    | cons e l ih => exact ih
  rw [MemoryStore.truncateTime, MemoryStore.truncateTime, held, width]

theorem held_accumulate (a : Box) (delta : XrayStatsSnapshot) (now : Int) :
    (a.accumulate delta now).held = a.held.add delta now := rfl

theorem held_drain (a : Box) (t : Int) : (a.drain t).held = a.held := rfl

end Box

/-! ## Marks -/

def Known (l : List Entry) (id : Nat) (ts : Int) : Prop := ∃ b, (⟨id, ts, b⟩ : Entry) ∈ l

variable {id : Nat} {s t : System}

theorem Known.mono {l l' : List Entry} {ts : Int} (h : Known l id ts)
    (more : ∀ e ∈ l, e ∈ l') : Known l' id ts := by
  obtain ⟨b, hb⟩ := h
  exact ⟨b, more _ hb⟩

/-- Every bucket up to the mark is in the ledger, and there is a later one. -/
structure Safe (held : GoMap Int TrafficBucket) (l : List Entry) (id : Nat) (t : Int) : Prop where
  later : 0 < t → ∃ (ts : Int) (b : TrafficBucket), held[ts]? = some b ∧ t < ts
  known : ∀ (ts : Int) (b : TrafficBucket), held[ts]? = some b → 0 < ts → ts ≤ t → Known l id ts

/-- The node's entries are buckets the agent had, complete. -/
def Honest (held : GoMap Int TrafficBucket) (l : List Entry) (id : Nat) : Prop :=
  ∀ e ∈ l, e.node = id → 0 < e.ts ∧
    (∃ b, held[e.ts]? = some b ∧ reading id b.toXrayStatsSnapshot = e.b) ∧
      ∃ (ts : Int) (b : TrafficBucket), held[ts]? = some b ∧ e.ts < ts

/-- What an answer has: buckets the agent had, of which all but the newest are complete, and every
bucket up to the newest that is not in the ledger. -/
structure Answer (held : GoMap Int TrafficBucket) (l : List Entry) (id : Nat)
    (m : GoMap Int TrafficBucket) : Prop where
  had : ∀ (ts : Int) (b : TrafficBucket), m[ts]? = some b → ∃ c, held[ts]? = some c
  complete : ∀ (ts : Int) (b : TrafficBucket) (ts' : Int) (b' : TrafficBucket),
    m[ts]? = some b → m[ts']? = some b' → ts < ts' → held[ts]? = some b
  rest : ∀ (ts : Int) (b : TrafficBucket) (ts' : Int) (b' : TrafficBucket),
    held[ts]? = some b → 0 < ts → m[ts']? = some b' → ts ≤ ts' →
      (∃ c, m[ts]? = some c) ∨ Known l id ts

section Marks
variable {held : GoMap Int TrafficBucket} {l l' : List Entry} {id : Nat} {t : Int}

theorem Safe.mono (h : Safe held l id t) (more : ∀ e ∈ l, e ∈ l') : Safe held l' id t :=
  ⟨h.later, fun ts b found pos le => (h.known ts b found pos le).mono more⟩

theorem safe_of_nonpos (h : t ≤ 0) : Safe held l id t :=
  ⟨fun pos => by omega, fun ts b _ pos le => by omega⟩

theorem Safe.max {u : Int} (ht : Safe held l id t) (hu : Safe held l id u) :
    Safe held l id (max t u) := by
  rcases max_choice t u with same | same
  · rw [same]
    exact ht
  · rw [same]
    exact hu

theorem Answer.mono {m : GoMap Int TrafficBucket} (h : Answer held l id m)
    (more : ∀ e ∈ l, e ∈ l') : Answer held l' id m :=
  ⟨h.had, h.complete, fun ts b ts' b' found pos there le =>
    (h.rest ts b ts' b' found pos there le).imp_right fun known => known.mono more⟩

/-- `top` is at least every timestamp the agent ever had. -/
def Newest (held : GoMap Int TrafficBucket) (top : Int) : Prop :=
  ∀ (ts : Int) (b : TrafficBucket), held[ts]? = some b → ts ≤ top

section Growth
variable {top : Int} {grown : TrafficBucket} (newest : Newest held top)
include newest

variable {ts : Int} {b : TrafficBucket}

theorem getElem?_of_later {ts' : Int} {b' : TrafficBucket} (found : held[ts]? = some b)
    (later : held[ts']? = some b') (lt : ts < ts') : (held.insert top grown)[ts]? = some b := by
  have le := newest ts' b' later
  rw [GoMap.getElem?_insert, if_neg (by omega), found]

omit newest in
theorem had_of_had (found : held[ts]? = some b) : ∃ c, (held.insert top grown)[ts]? = some c := by
  rw [GoMap.getElem?_insert]
  split
  · exact ⟨grown, rfl⟩
  · exact ⟨b, found⟩

theorem later_of_later {t : Int}
    (h : ∃ (ts : Int) (b : TrafficBucket), held[ts]? = some b ∧ t < ts) :
    ∃ (ts : Int) (b : TrafficBucket), (held.insert top grown)[ts]? = some b ∧ t < ts := by
  obtain ⟨ts, b, found, lt⟩ := h
  have le := newest ts b found
  exact ⟨top, grown, by rw [GoMap.getElem?_insert, if_pos rfl], by omega⟩

theorem Safe.grow (h : Safe held l id t) : Safe (held.insert top grown) l id t := by
  refine ⟨fun pos => later_of_later newest (h.later pos), fun ts b found pos le => ?_⟩
  rcases insert_cases found with ⟨same, -⟩ | ⟨-, found⟩
  · -- The newest bucket is past every mark.
    obtain ⟨ts', b', later, lt⟩ := h.later (by omega)
    have := newest ts' b' later
    omega
  · exact h.known ts b found pos le

theorem Honest.grow (h : Honest held l id) : Honest (held.insert top grown) l id := by
  intro e he here
  obtain ⟨pos, ⟨b, found, read⟩, later⟩ := h e he here
  obtain ⟨ts', b', there, lt⟩ := later
  exact ⟨pos, ⟨b, getElem?_of_later newest found there lt, read⟩,
    later_of_later newest ⟨ts', b', there, lt⟩⟩

theorem Answer.grow {m : GoMap Int TrafficBucket} (h : Answer held l id m) :
    Answer (held.insert top grown) l id m := by
  refine ⟨fun ts b found => ?_, fun ts b ts' b' found there lt => ?_,
    fun ts b ts' b' found pos there le => ?_⟩
  · obtain ⟨c, hc⟩ := h.had ts b found
    exact had_of_had hc
  · obtain ⟨c, hc⟩ := h.had ts' b' there
    exact getElem?_of_later newest (h.complete ts b ts' b' found there lt) hc lt
  rcases insert_cases found with ⟨same, -⟩ | ⟨-, found⟩
  · obtain ⟨c, hc⟩ := h.had ts' b' there
    have := newest ts' c hc
    exact .inl ⟨b', by rw [show ts = ts' by omega, there]⟩
  · exact h.rest ts b ts' b' found pos there le

end Growth
end Marks

/-! ## Agents -/

/-- An agent still has every bucket the file does not count, and its newest. -/
structure Kept (a : Box) (written : List Entry) (id : Nat) : Prop where
  keyed : a.store.Keyed
  had : ∀ (ts : Int) (b : TrafficBucket), a.store.buckets[ts]? = some b →
    a.held.buckets[ts]? = some b
  gone : ∀ (ts : Int) (b : TrafficBucket), a.held.buckets[ts]? = some b → 0 < ts →
    a.store.buckets[ts]? = none → Known written id ts
  newest : ∀ (ts : Int) (b : TrafficBucket), a.held.buckets[ts]? = some b →
    Newest a.held.buckets ts → ∃ c, a.store.buckets[ts]? = some c

section Agents
variable {a : Box} {written written' : List Entry} {id : Nat}

theorem Kept.mono (h : Kept a written id) (more : ∀ e ∈ written, e ∈ written') :
    Kept a written' id :=
  { h with gone := fun ts b found pos none => (h.gone ts b found pos none).mono more }

theorem Kept.bucketAt (h : Kept a written id) {top : Int} (newest : Newest a.held.buckets top) :
    a.held.bucketAt top = a.store.bucketAt top := by
  rw [MemoryStore.bucketAt, MemoryStore.bucketAt, getD_eq, getD_eq]
  cases found : a.held.buckets[top]? with
  | some b =>
    obtain ⟨c, hc⟩ := h.newest _ b found newest
    rw [hc, (h.had _ c hc).symm.trans found]
  | none =>
    cases here : a.store.buckets[top]? with
    | none => rfl
    | some c => cases found.symm.trans (h.had _ c here)

theorem Kept.accumulate (h : Kept a written id) {delta : XrayStatsSnapshot} {now : Int}
    (newest : Newest a.held.buckets (a.store.truncateTime now))
    (fresh : (a.store.add delta now).Fresh now) :
    Kept (a.accumulate delta now) written id ∧
      (a.accumulate delta now).held.buckets =
        a.held.buckets.insert (a.store.truncateTime now) (a.store.grown delta now) := by
  have store : (a.accumulate delta now).store = a.store.add delta now :=
    MemoryStore.evict_of_fresh fresh
  have held : (a.accumulate delta now).held.buckets =
      a.held.buckets.insert (a.store.truncateTime now) (a.store.grown delta now) := by
    rw [Box.held_accumulate, MemoryStore.add]
    rw [a.truncateTime_held, h.bucketAt newest]
    rfl
  refine ⟨⟨?_, fun ts b found => ?_, fun ts b found pos none => ?_, fun ts b found top => ?_⟩, held⟩
  · rw [store]
    exact h.keyed.add delta now
  · rw [store, MemoryStore.getElem?_add] at found
    rw [held, GoMap.getElem?_insert]
    split at found
    next same => rw [if_pos same, found]
    next other => rw [if_neg other, h.had ts b found]
  · rw [store, MemoryStore.getElem?_add] at none
    rw [held, GoMap.getElem?_insert] at found
    split at none
    · cases none
    next other =>
      rw [if_neg other] at found
      exact h.gone ts b found pos none
  · have le := top (a.store.truncateTime now) (a.store.grown delta now) (by
      rw [held, GoMap.getElem?_insert, if_pos rfl])
    rw [store, MemoryStore.getElem?_add]
    split
    · exact ⟨_, rfl⟩
    next other =>
      rw [held, GoMap.getElem?_insert, if_neg other] at found
      have := newest ts b found
      omega

theorem Kept.drain (h : Kept a written id) {t : Int} (pos : 0 < t)
    (safe : Safe a.held.buckets written id t) : Kept (a.drain t) written id := by
  refine ⟨h.keyed.filter _, fun ts b found => ?_, fun ts b found pos none => ?_,
    fun ts b found top => ?_⟩
  · rw [Box.drain, MemoryStore.getElem?_drain] at found
    split at found
    · cases found
    · exact h.had ts b found
  · rw [Box.drain, MemoryStore.getElem?_drain] at none
    split at none
    next le => exact safe.known ts b found pos le
    · exact h.gone ts b found pos none
  · rw [Box.drain, MemoryStore.getElem?_drain]
    split
    next le =>
      obtain ⟨ts', b', later, lt⟩ := safe.later pos
      have := top ts' b' later
      omega
    · exact h.newest ts b found top

end Agents

/-! ## The hub -/

/-- What an agent ever held, by node. -/
abbrev Holdings := Nat → GoMap Int TrafficBucket

/-- A mark that may leave the hub. -/
structure Sendable (held : Holdings) (written : List Entry) (id : Nat) (t : Int) : Prop where
  pos : 0 < t
  safe : Safe (held id) written id t

/-- A document ready to be written, and the ledger it goes with. -/
structure Prepared (held : Holdings) (written counted : List Entry) (doc : FileDoc)
    (marks : GoMap Nat Int) (l : List Entry) : Prop where
  stored : ∃ hists retired, Storable hists retired ∧ doc = encodeDoc hists retired
  more : ∀ e ∈ written, e ∈ l
  within : ∀ e ∈ l, e ∈ counted
  safe : ∀ id, Safe (held id) l id ((docView doc).through id)
  marks : ∀ (id : Nat) (m : Int), marks[id]? = some m → m = (docView doc).through id

def FlushSound (held : Holdings) (written counted : List Entry) : FlushPhase → Prop
  | .idle => True
  | .prepared doc marks l => Prepared held written counted doc marks l
  | .written marks => ∀ (id : Nat) (m : Int), marks[id]? = some m → Safe (held id) written id m
  | .stamped => True
  | .acking jobs => ∀ j ∈ jobs, Sendable held written j.id j.through
  | .acked _ jobs => ∀ j ∈ jobs, Sendable held written j.id j.through

def PollSound (held : Holdings) (written counted : List Entry) (p : Poll) : Prop :=
  match p.phase with
  | .waiting => True
  | .answered buffered => ∃ s : MemoryStore, s.Keyed ∧ buffered = s.getAll ∧
      Answer (held p.id) counted p.id s.buckets
  | .acking t => Sendable held written p.id t
  | .acked _ => True

/-- A node the file can hold, with safe marks. -/
structure NodeSound (held : Holdings) (written counted : List Entry) (id : Nat) (n : Node) :
    Prop where
  pos : 0 < id
  valid : n.hist.Valid
  through : Safe (held id) counted id n.hist.through
  disk : Safe (held id) written id n.diskThrough

structure HubSound (held : Holdings) (written : List Entry) (h : Hub) : Prop where
  retired : ∀ (sub : Nat) (t : Totals), h.c.retired[sub]? = some t → 0 < sub
  more : ∀ e ∈ written, e ∈ h.counted
  honest : ∀ id, Honest (held id) h.counted id
  nodes : ∀ (id : Nat) (n : Node), h.c.nodes[id]? = some n → NodeSound held written h.counted id n
  enc : ∀ id, Safe (held id) written id ((docView h.c.enc).through id)
  flush : FlushSound held written h.counted h.flush
  polls : ∀ (tid : Nat) (p : Poll), h.polls[tid]? = some p → PollSound held written h.counted p

structure Sound (s : System) : Prop where
  kept : ∀ id, Kept (s.agents id) s.written id
  honest : ∀ id, Honest (s.agents id).held.buckets s.written id
  file : ∀ id, Safe (s.agents id).held.buckets s.written id ((fileView s.file).through id)
  stored : Stored s.file
  wire : ∀ id t, (id, t) ∈ s.wire →
    Sendable (fun id => (s.agents id).held.buckets) s.written id t
  hub : ∀ h, s.hub = some h → HubSound (fun id => (s.agents id).held.buckets) s.written h

/-! ### The agents' steps -/

section Grow
variable {held : Holdings} {written counted : List Entry} {id : Nat} {top : Int}
  {grown : TrafficBucket}

/-- One agent's newest bucket set. -/
def Holdings.grow (held : Holdings) (id : Nat) (top : Int) (grown : TrafficBucket) : Holdings :=
  Function.update held id ((held id).insert top grown)

variable {k : Nat}

theorem Holdings.grow_cases {P : GoMap Int TrafficBucket → Nat → Prop}
    (newest : Newest (held id) top)
    (grows : ∀ k m, Newest m top → P m k → P (m.insert top grown) k) (h : P (held k) k) :
    P (held.grow id top grown k) k := by
  rw [Holdings.grow]
  by_cases same : k = id
  · subst same
    rw [update_self]
    exact grows k _ newest h
  · rw [update_of_ne same]
    exact h

variable (newest : Newest (held id) top)
include newest

theorem safe_grow {l : List Entry} {t : Int} (h : Safe (held k) l k t) :
    Safe (held.grow id top grown k) l k t :=
  Holdings.grow_cases (P := fun m k => Safe m l k t) newest (fun _ _ n s => s.grow n) h

theorem sendable_grow {t : Int} (h : Sendable held written k t) :
    Sendable (held.grow id top grown) written k t := ⟨h.pos, safe_grow newest h.safe⟩

theorem hubSound_grow {h : Hub} (sound : HubSound held written h) :
    HubSound (held.grow id top grown) written h where
  retired := sound.retired
  more := sound.more
  honest k := Holdings.grow_cases (P := fun m k => Honest m h.counted k) newest
    (fun _ _ n s => s.grow n) (sound.honest k)
  nodes k n found :=
    have node := sound.nodes k n found
    ⟨node.pos, node.valid, safe_grow newest node.through, safe_grow newest node.disk⟩
  enc k := safe_grow newest (sound.enc k)
  flush := by
    have flush := sound.flush
    cases phase : h.flush with
    | idle | stamped => trivial
    | prepared doc marks l =>
      rw [phase] at flush
      exact { flush with safe := fun k => safe_grow newest (flush.safe k) }
    | written marks =>
      rw [phase] at flush
      exact fun k m found => safe_grow newest (flush k m found)
    | acking jobs | acked j jobs =>
      rw [phase] at flush
      exact fun j hj => sendable_grow newest (flush j hj)
  polls tid p found := by
    have poll := sound.polls tid p found
    rw [PollSound] at poll ⊢
    cases phase : p.phase with
    | waiting => trivial
    | answered buffered =>
      rw [phase] at poll
      obtain ⟨s, keyed, all, answer⟩ := poll
      exact ⟨s, keyed, all, Holdings.grow_cases (P := fun m k => Answer m h.counted k s.buckets)
        newest (fun _ _ n s => s.grow n) answer⟩
    | acking t =>
      rw [phase] at poll
      exact sendable_grow newest poll
    | acked t => trivial

end Grow

/-! ### The hub's steps -/

section Steps
variable {held : Holdings} {written : List Entry} {h : Hub}

theorem HubSound.storable (sound : HubSound held written h) : Storable h.c.hists h.c.retired := by
  refine ⟨fun id hist found => ?_, sound.retired⟩
  rw [getElem?_hists] at found
  obtain ⟨n, here, rfl⟩ := map_eq_some_iff.mp found
  exact ⟨(sound.nodes id n here).pos, (sound.nodes id n here).valid⟩

theorem HubSound.setPoll (sound : HubSound held written h) (tid : Nat) {p : Poll}
    (poll : PollSound held written h.counted p) :
    HubSound held written { h with polls := h.polls.insert tid p } :=
  { sound with polls := forall_insert poll sound.polls }

theorem HubSound.dropPoll (sound : HubSound held written h) (tid : Nat) :
    HubSound held written { h with polls := h.polls.erase tid } :=
  { sound with polls := fun k q found => sound.polls k q (of_erase found).2 }

variable {f : FlushPhase} {n : Node} {l : List Entry} {ok : Bool}

theorem HubSound.setFlush (sound : HubSound held written h)
    (flush : FlushSound held written h.counted f) : HubSound held written { h with flush := f } :=
  { sound with flush := flush }

variable {id tid : Nat} {h' : Hub}

section
variable (sound : HubSound held written h)
include sound

theorem HubSound.setNode
    (node : NodeSound held written h.counted id n) :
    HubSound held written { h with c := h.c.setNode id n } :=
  { sound with nodes := forall_insert node sound.nodes }

theorem HubSound.mapNodes {g : Nat → Node → Node}
    (keeps : ∀ id n, NodeSound held written h.counted id n →
      NodeSound held written h.counted id (g id n)) :
    HubSound held written { h with c := { h.c with nodes := h.c.nodes.map g } } := by
  refine { sound with nodes := ?_ }
  intro k m found
  obtain ⟨n, here, rfl⟩ := of_map found
  exact keeps k n (sound.nodes k n here)

omit sound in
theorem nodeAt_eq {c : Collector} {ref : Nat} (h : c.nodeAt id ref = some n) :
    c.nodes[id]? = some n ∧ n.ref = ref := by
  rw [nodeAt, filter_eq_some_iff, beq_iff_eq] at h
  exact h

theorem HubSound.noteAck (id ref : Nat) (t : Int) :
    HubSound held written { h with c := h.c.noteAck id ref t } := by
  rw [Collector.noteAck]
  cases found : h.c.nodeAt id ref with
  | none => exact sound
  | some n =>
    have node := sound.nodes id n (nodeAt_eq found).1
    exact sound.setNode { node with }

theorem HubSound.prune (now : Int) :
    HubSound held written { h with c := h.c.pruneLocked now } :=
  sound.mapNodes fun _ _ node => { node with valid := node.valid.prune _ }

theorem HubSound.count (honest : ∀ id, Honest (held id) l id) :
    HubSound held written { h with counted := h.counted ++ l } := by
  have more : ∀ e ∈ h.counted, e ∈ h.counted ++ l := fun e he => List.mem_append_left l he
  refine ⟨sound.retired, fun e he => more e (sound.more e he),
    fun id => List.forall_mem_append.mpr ⟨sound.honest id, honest id⟩,
    fun id n found => ?_, sound.enc, ?_, fun tid p found => ?_⟩
  · have node := sound.nodes id n found
    exact { node with through := node.through.mono more }
  · have flush := sound.flush
    cases phase : h.flush with
    | prepared doc marks l' =>
      rw [phase] at flush
      exact { flush with within := fun e he => more e (flush.within e he) }
    | idle | stamped => trivial
    | written | acking | acked => rwa [phase] at flush
  · have poll := sound.polls tid p found
    rw [PollSound] at poll ⊢
    cases phase : p.phase with
    | answered buffered =>
      rw [phase] at poll
      obtain ⟨s, keyed, all, answer⟩ := poll
      exact ⟨s, keyed, all, answer.mono more⟩
    | waiting | acked => trivial
    | acking t => rwa [phase] at poll

/-- A poll begins. -/
theorem hubSound_poll (hs : h.poll tid id = some h') : HubSound held written h' := by
  obtain ⟨pos, n, ⟨found, rfl⟩ | ⟨-, rfl, rfl⟩⟩ := poll_cases hs
  · have node := sound.nodes id n found
    have set := sound.setNode (n := { n with src := true })
      { node with }
    exact set.setPoll tid trivial
  · have zero : ∀ l, Safe (held id) l id 0 := fun _ => safe_of_nonpos le_rfl
    have set := sound.setNode (n := { ref := h.c.made, src := true })
      ⟨pos, NodeHist.valid_new, zero _, zero _⟩
    have made : HubSound held written
        { h with
          c := { h.c.setNode id { ref := h.c.made, src := true } with made := h.c.made + 1 } } :=
      { set with }
    exact made.setPoll tid trivial

end

/-- The agent answers a poll. -/
theorem hubSound_fetch {agents : Nat → Box} {written : List Entry} {h : Hub}
    (kept : ∀ id, Kept (agents id) written id)
    (sound : HubSound (fun id => (agents id).held.buckets) written h)
    (hs : h.fetch tid agents = some h') :
    HubSound (fun id => (agents id).held.buckets) written h' := by
  obtain ⟨p, -, -, rfl⟩ := fetch_cases hs
  refine sound.setPoll tid ⟨(agents p.id).store, (kept p.id).keyed, rfl, ?_⟩
  refine ⟨fun ts b here => ⟨b, (kept p.id).had ts b here⟩,
    fun ts b _ _ here _ _ => (kept p.id).had ts b here, fun ts b _ _ here pos _ _ => ?_⟩
  cases there : (agents p.id).store.buckets[ts]? with
  | some c => exact .inl ⟨c, rfl⟩
  | none => exact .inr (((kept p.id).gone ts b here pos there).mono sound.more)

section Taking
variable {m : GoMap Int TrafficBucket} {l : List Entry} {id : Nat} {store : MemoryStore}
  {limit through : Int} (keyed : store.Keyed) (answer : Answer m l id store.buckets)
include keyed answer

theorem fresh_complete {r : Record}
    (hr : r ∈ freshRecords through (records store.getAll id limit).1) :
    0 < r.ts ∧ (∃ b, m[r.ts]? = some b ∧ reading id b.toXrayStatsSnapshot = r.b) ∧
      ∃ (ts : Int) (b : TrafficBucket), m[ts]? = some b ∧ r.ts < ts := by
  obtain ⟨mem, -, lt⟩ := mem_freshRecords.mp hr
  obtain ⟨⟨pos, -⟩, b, found, read⟩ := (mem_records keyed).mp mem
  obtain ⟨a, ha, newest⟩ := newestOf_mem mem
  obtain ⟨-, b', there, -⟩ := (mem_records keyed).mp ha
  rw [← newest] at lt
  obtain ⟨c, hc⟩ := answer.had a.ts b' there
  exact ⟨pos, ⟨b, answer.complete r.ts b a.ts b' found there lt, read⟩, a.ts, c, hc, lt⟩

theorem safe_counts {h : NodeHist} (safe : Safe m l id h.through) :
    Safe m (l ++ (freshRecords h.through (records store.getAll id limit).1).map
      fun r => ⟨id, r.ts, r.b⟩) id
      ((freshRecords h.through (records store.getAll id limit).1).foldl
        NodeHist.count h).through := by
  have sorted := records_sorted store.getAll id limit
  have old := safe.mono fun e (he : e ∈ l) => List.mem_append_left
    ((freshRecords h.through (records store.getAll id limit).1).map fun r => ⟨id, r.ts, r.b⟩) he
  obtain ⟨-, -, same | ⟨r, hr, mark⟩⟩ :=
    through_counts (freshRecords_sorted sorted _) past_of_fresh
  · exact same.symm ▸ old
  rw [← mark]
  refine ⟨fun _ => (fresh_complete keyed answer hr).2.2, fun ts b found pos le => ?_⟩
  obtain ⟨mem, -, lt⟩ := mem_freshRecords.mp hr
  obtain ⟨⟨-, within⟩, -⟩ := (mem_records keyed).mp mem
  obtain ⟨a, ha, newest⟩ := newestOf_mem mem
  obtain ⟨-, b', there, -⟩ := (mem_records keyed).mp ha
  rcases answer.rest ts b a.ts b' found pos there (by omega) with ⟨c, here⟩ | known
  · by_cases counted : ts ≤ h.through
    · exact old.known ts b found pos counted
    · -- In the answer, past the mark and before the newest: counted now.
      have record : (⟨ts, reading id c.toXrayStatsSnapshot⟩ : Record) ∈
          freshRecords h.through (records store.getAll id limit).1 :=
        mem_freshRecords.mpr ⟨(mem_records keyed).mpr ⟨⟨pos, by dsimp only; omega⟩, c, here, rfl⟩,
          by dsimp only; omega, by dsimp only; omega⟩
      exact ⟨_, List.mem_append_right _ (List.mem_map.mpr ⟨_, record, rfl⟩)⟩
  · exact known.mono fun e he => List.mem_append_left _ he

end Taking

section
variable (sound : HubSound held written h)
include sound

/-- The answer is taken in. -/
theorem hubSound_fold {now : Int} (hs : h.fold tid now = some h') : HubSound held written h' := by
  obtain ⟨p, buffered, found, phase, ⟨-, rfl⟩ | ⟨n, taken, at_, rfl, rfl⟩⟩ := fold_cases hs
  · exact sound.dropPoll tid
  have poll := sound.polls tid p found
  rw [PollSound, phase] at poll
  obtain ⟨store, keyed, rfl, answer⟩ := poll
  have node := sound.nodes p.id n (nodeAt_eq at_).1
  have sorted := records_sorted store.getAll p.id (now + maxAhead)
  have honest : ∀ id, Honest (held id) (freshEntries n p.id store.getAll now) id := by
    refine fun id => List.forall_mem_map.mpr fun r hr here => ?_
    subst here
    exact fresh_complete keyed answer hr
  have grown : NodeSound held written (h.counted ++ freshEntries n p.id store.getAll now) p.id
      (n.fold (records store.getAll p.id (now + maxAhead)).1 h.c.noWrite).1 := by
    refine ⟨node.pos, ?_, ?_, node.disk⟩
    · rw [hist_fold n sorted]
      refine valid_counts node.valid fun r hr => ⟨(fresh_complete keyed answer hr).1, ?_⟩
      obtain ⟨-, ⟨b, -, read⟩, -⟩ := fresh_complete keyed answer hr
      rw [← read]
      exact reading_pos p.id b.toXrayStatsSnapshot
    · rw [hist_fold n sorted]
      exact safe_counts keyed answer node.through
  have taken := (sound.count honest).setNode grown
  split
  next pos => exact taken.setPoll tid ⟨pos, (n.ack_fold pos).symm ▸ node.disk⟩
  · exact taken.dropPoll tid

theorem HubSound.safe_view (id : Nat) : Safe (held id) h.counted id (h.c.view.through id) := by
  rw [view_through]
  cases found : h.c.nodes[id]? with
  | none => exact safe_of_nonpos le_rfl
  | some n => exact (sound.nodes id n found).through

/-- A flush begins. -/
theorem hubSound_prepare {now : Int} (hs : h.prepare now = some h') : HubSound held written h' := by
  rw [Hub.prepare] at hs
  split at hs
  · obtain ⟨-, rfl⟩ := Runs.of_unless hs
    have pruned := sound.prune now
    have said := docView_encodeDoc pruned.storable
    refine pruned.setFlush
      ⟨⟨_, _, pruned.storable, rfl⟩, sound.more, fun _ he => he, fun id => ?_, fun id m found => ?_⟩
    · exact said ▸ pruned.safe_view id
    rw [getElem?_map] at found
    rw [said]
    exact (congrArg (fun o => Option.getD o 0) found).symm.trans view_through.symm
  · cases hs

theorem HubSound.publish
    (more : ∀ e ∈ written, e ∈ l) (within : ∀ e ∈ l, e ∈ h.counted)
    (flush : FlushSound held l h.counted f) : HubSound held l { h with flush := f } := by
  refine ⟨sound.retired, within, sound.honest, fun id n found => ?_,
    fun id => (sound.enc id).mono more, flush, fun tid p found => ?_⟩
  · have node := sound.nodes id n found
    exact { node with disk := node.disk.mono more }
  have poll := sound.polls tid p found
  rw [PollSound] at poll ⊢
  cases phase : p.phase with
  | acking t =>
    rw [phase] at poll
    exact ⟨poll.pos, poll.safe.mono more⟩
  | waiting => trivial
  | answered buffered => rwa [phase] at poll
  | acked t => trivial

/-- **What a write leaves**: a file whose marks are safe for its ledger, which has only grown. -/
theorem hubSound_write {outcome : WriteOutcome} {file : HubFile} {file' : HubFile}
    {written' : List Entry} (hs : h.write outcome file written = some (h', file', written')) :
    HubSound held written' h' ∧ (∀ e ∈ written, e ∈ written') ∧
      (∀ id, Honest (held id) written id → Honest (held id) written' id) ∧
      (file' = file ∧ written' = written ∨
        Stored file' ∧ ∀ id, Safe (held id) written' id ((fileView file').through id)) := by
  have flush := sound.flush
  rw [write] at hs
  split at hs
  next doc marks l phase =>
    rw [phase] at flush
    have honest : ∀ id, Honest (held id) l id := fun id e he here =>
      sound.honest id e (flush.within e he) here
    split at hs
    next same =>
      cases hs
      refine ⟨sound.setFlush fun id m found => ?_, fun _ he => he, fun _ hl => hl, .inl ⟨rfl, rfl⟩⟩
      -- The file holds this document already, so its marks are the ones of the file.
      rw [flush.marks id m found, same]
      exact sound.enc id
    · have marked : ∀ (id : Nat) (m : Int), marks[id]? = some m → Safe (held id) l id m :=
        fun id m found => flush.marks id m found ▸ flush.safe id
      cases outcome with
      | done =>
        cases hs
        have published := sound.publish (f := .written marks) flush.more flush.within marked
        exact ⟨{ published with enc := flush.safe }, flush.more, fun id _ => honest id,
          .inr ⟨flush.stored, flush.safe⟩⟩
      | failedOld =>
        cases hs
        exact ⟨sound.setFlush trivial, fun _ he => he, fun _ hl => hl, .inl ⟨rfl, rfl⟩⟩
      | failedNew =>
        cases hs
        exact ⟨sound.publish flush.more flush.within trivial, flush.more,
          fun id _ => honest id, .inr ⟨flush.stored, flush.safe⟩⟩
  · cases hs

/-- The marks that were written are stamped. -/
theorem hubSound_stamp (hs : h.stamp = some h') : HubSound held written h' := by
  have flush := sound.flush
  rw [Hub.stamp] at hs
  split at hs
  next marks phase =>
    rw [phase] at flush
    cases hs
    refine HubSound.setFlush (sound.mapNodes fun id n node => ?_) trivial
    cases found : marks[id]? with
    | none => exact node
    | some m => exact { node with disk := node.disk.max (flush id m found) }
  · cases hs

/-- The flush's acknowledgements are collected. -/
theorem hubSound_collectJobs (hs : h.collectJobs = some h') : HubSound held written h' := by
  rw [collectJobs] at hs
  split at hs
  · cases hs
    refine sound.setFlush (List.forall_mem_map.mpr fun e he => ?_)
    rw [List.mem_filter, mem_toList_iff_getElem?_eq_some] at he
    simp only [Bool.and_eq_true, decide_eq_true_eq] at he
    exact ⟨he.2.1.2, (sound.nodes e.1 e.2 he.1).disk⟩
  · cases hs

theorem hubSound_sendJob {t : Int} (hs : h.sendJob = some (h', id, t)) :
    HubSound held written h' ∧ Sendable held written id t := by
  have flush := sound.flush
  rw [sendJob] at hs
  split at hs
  next j js phase =>
    rw [phase] at flush
    cases hs
    exact ⟨sound.setFlush fun k hk => flush k (List.mem_cons_of_mem _ hk),
      flush j List.mem_cons_self⟩
  · cases hs

theorem hubSound_sendAck {t : Int} (hs : h.sendAck tid = some (h', id, t)) :
    HubSound held written h' ∧ Sendable held written id t := by
  obtain ⟨p, found, phase, rfl, rfl⟩ := sendAck_cases hs
  have poll := sound.polls tid p found
  rw [PollSound, phase] at poll
  exact ⟨sound.setPoll tid trivial, poll⟩

theorem hubSound_ackReply (hs : h.ackReply tid ok = some h') : HubSound held written h' := by
  obtain ⟨p, t, rfl⟩ := ackReply_cases hs
  cases ok with
  | false => exact sound.dropPoll tid
  | true => exact (sound.noteAck p.id p.ref t).dropPoll tid

theorem hubSound_jobReply (hs : h.jobReply ok = some h') : HubSound held written h' := by
  have flush := sound.flush
  rw [jobReply] at hs
  split at hs
  next j js phase =>
    rw [phase] at flush
    cases hs
    cases ok with
    | false => exact sound.setFlush flush
    | true => exact (sound.noteAck j.id j.ref j.through).setFlush flush
  · cases hs

theorem hubSound_missed (hs : h.missed tid = some h') : HubSound held written h' := by
  rw [missed_cases hs]
  exact sound.dropPoll tid

theorem hubSound_flushEnds (hs : h.flushEnds = some h') : HubSound held written h' := by
  rw [flushEnds] at hs
  split at hs
  · cases hs
    exact sound.setFlush trivial
  · cases hs

theorem hubSound_forget (id : Nat) :
    HubSound held written { h with c := h.c.forget id } := by
  rw [forget]
  cases found : h.c.nodes[id]? with
  | none => exact sound
  | some n =>
    refine { sound with retired := fun sub t here => ?_, nodes := fun k m here => ?_ }
    · rw [getElem?_addAll] at here
      cases life : n.hist.life[sub]? with
      | some u => exact (sound.nodes id n found).valid.life sub u life
      | none =>
        rw [life] at here
        exact sound.retired sub t here
    · exact sound.nodes k m (of_erase here).2

theorem hubSound_forgetSubscription (sub : Nat) :
    HubSound held written { h with c := h.c.forgetSubscription sub } := by
  refine { sound with
    retired := fun k t here => sound.retired k t (of_erase here).2
    nodes := fun k m here => ?_ }
  obtain ⟨n, found, rfl⟩ := of_map here
  have node := sound.nodes k n found
  exact { node with
    valid := { node.valid with
      subs := fun j m here => node.valid.subs j m (of_erase here).2
      life := fun j t here => node.valid.life j t (of_erase here).2 } }

end

theorem openOn_stored {file : HubFile} (stored : Stored file) (now : Int) :
    (Collector.openOn file now).2 = file := by
  obtain ⟨hists, retired, loaded, -, -⟩ := load_stored stored
  rw [openOn, loaded]

/-- The hub starts from its file. -/
theorem hubSound_start {file : HubFile} (stored : Stored file)
    (honest : ∀ id, Honest (held id) written id)
    (safe : ∀ id, Safe (held id) written id ((fileView file).through id)) (now : Int) :
    HubSound held written { c := (Collector.openOn file now).1, counted := written } := by
  obtain ⟨hists, retired, loaded, storable, view⟩ := load_stored stored
  have zero : HubSound held written
      { c := holding hists retired, counted := written } := by
    refine ⟨storable.retired, fun _ he => he, honest, fun id n found => ?_, fun id => ?_,
      trivial, fun tid p found => by simp at found⟩
    · obtain ⟨h, here, rfl⟩ := of_map found
      have mark : (fileView file).through id = h.through := by
        rw [← view, viewOf]
        dsimp only
        rw [here]
        rfl
      have node := storable.nodes id h here
      exact ⟨node.1, node.2, mark ▸ safe id, mark ▸ safe id⟩
    · exact (docView_encodeDoc storable).trans view ▸ safe id
  rw [openOn, loaded]
  exact zero.prune now

end Steps

/-! ### Every step -/

theorem Sound.onHub (sound : Sound s) {f : Hub → Option Hub}
    (keeps : ∀ h h', HubSound (fun id => (s.agents id).held.buckets) s.written h → f h = some h' →
      HubSound (fun id => (s.agents id).held.buckets) s.written h')
    (ht : s.onHub f = some t) : Sound t := by
  obtain ⟨h, h', running, hf, rfl⟩ := System.onHub_eq ht
  refine { sound with hub := fun k hk => ?_ }
  cases hk
  exact keeps h h' (sound.hub h running) hf

theorem Sound.sending (sound : Sound s) {f : Hub → Option (Hub × Nat × Int)}
    (keeps : ∀ h h' id u, HubSound (fun id => (s.agents id).held.buckets) s.written h →
      f h = some (h', id, u) → HubSound (fun id => (s.agents id).held.buckets) s.written h' ∧
        Sendable (fun id => (s.agents id).held.buckets) s.written id u)
    (ht : s.sending f = some t) : Sound t := by
  obtain ⟨h, h', id, u, running, hf, rfl⟩ := System.sending_eq ht
  obtain ⟨hub, sendable⟩ := keeps h h' id u (sound.hub h running) hf
  refine { sound with wire := fun k v hv => ?_, hub := fun k hk => ?_ }
  · rcases List.mem_cons.mp hv with same | hv
    · cases same
      exact sendable
    · exact sound.wire k v hv
  · cases hk
    exact hub

theorem holdings_setAgent (s : System) (id : Nat) (a : Box) :
    (fun k => ((s.setAgent id a).agents k).held.buckets) =
      Function.update (fun k => (s.agents k).held.buckets) id a.held.buckets := by
  funext k
  by_cases same : k = id
  · rw [same, s.agents_self, update_self]
  · rw [s.agents_of_ne same, update_of_ne same]

/-- **An orderly agent's step keeps the system sound.** -/
theorem sound_accumulate (sound : Sound s) {delta : XrayStatsSnapshot}
    {now : Int} (ok : orderly s (.accumulate id delta now) = true) :
    Sound (s.setAgent id ((s.agents id).accumulate delta now)) := by
  rw [orderly, Bool.and_eq_true] at ok
  have newest : Newest (s.agents id).held.buckets ((s.agents id).store.truncateTime now) :=
    Box.inOrder_iff.mp ok.1
  obtain ⟨kept, held⟩ := (sound.kept id).accumulate newest (Box.fresh_of_keepsAll ok.2)
  have holdings := holdings_setAgent s id ((s.agents id).accumulate delta now)
  rw [held] at holdings
  have grows := fun k => congrFun holdings k
  refine ⟨s.forall_setAgent (P := fun k a => Kept a s.written k) kept sound.kept, fun k => ?_,
    fun k => ?_, sound.stored, fun k t hk => ?_, fun h hh => ?_⟩
  · exact grows k ▸ Holdings.grow_cases (P := fun m k => Honest m s.written k) newest
      (fun _ _ n h => h.grow n) (sound.honest k)
  · exact grows k ▸ safe_grow newest (sound.file k)
  · exact holdings ▸ sendable_grow newest (sound.wire k t hk)
  · exact holdings ▸ hubSound_grow newest (sound.hub h hh)

theorem sound_deliver (sound : Sound s) {t : Int} (sent : (id, t) ∈ s.wire) :
    Sound (s.setAgent id ((s.agents id).drain t)) := by
  have holdings : (fun k => ((s.setAgent id ((s.agents id).drain t)).agents k).held.buckets) =
      fun k => (s.agents k).held.buckets := by
    rw [holdings_setAgent, Box.held_drain]
    exact update_eq_self id (fun k => (s.agents k).held.buckets)
  have same := fun k => congrFun holdings k
  have ack := sound.wire id t sent
  refine ⟨s.forall_setAgent (P := fun k a => Kept a s.written k)
    ((sound.kept id).drain ack.pos ack.safe) sound.kept, fun k => ?_, fun k => ?_, sound.stored,
    fun k u hk => ?_, fun h hh => ?_⟩
  · exact same k ▸ sound.honest k
  · exact same k ▸ sound.file k
  · exact holdings ▸ sound.wire k u hk
  · exact holdings ▸ sound.hub h hh

/-- A write keeps the system sound, whatever its outcome. -/
theorem sound_write (sound : Sound s) {outcome : WriteOutcome}
    (ht : step s (.write outcome) = some t) : Sound t := by
  obtain ⟨h, h', file, written, running, hw, rfl⟩ := write_eq ht
  obtain ⟨hub, more, honest, file⟩ := hubSound_write (sound.hub h running) hw
  refine ⟨fun id => (sound.kept id).mono more, fun id => honest id (sound.honest id), ?_, ?_,
    fun id t sent => ⟨(sound.wire id t sent).pos, (sound.wire id t sent).safe.mono more⟩,
    fun k hk => by cases hk; exact hub⟩
  · rcases file with ⟨rfl, rfl⟩ | ⟨-, safe⟩
    · exact sound.file
    · exact safe
  · rcases file with ⟨rfl, rfl⟩ | ⟨stored, -⟩
    · exact sound.stored
    · exact stored

theorem sound_start (sound : Sound s) {now : Int}
    (ht : step s (.start now) = some t) : Sound t := by
  obtain ⟨-, rfl⟩ := start_eq ht
  have same := openOn_stored sound.stored now
  refine ⟨sound.kept, sound.honest, fun id => ?_, ?_, sound.wire, fun h hh => ?_⟩
  · exact same.symm ▸ sound.file id
  · exact same.symm ▸ sound.stored
  · cases hh
    exact hubSound_start sound.stored sound.honest sound.file now

/-- **Every orderly step keeps the system sound.** -/
theorem sound_step (s : System) (a : Action) (t : System) (sound : Sound s)
    (ok : orderly s a = true) (ht : step s a = some t) : Sound t := by
  cases a with
  | accumulate id delta now =>
    cases ht
    exact sound_accumulate sound ok
  | deliver id u =>
    obtain ⟨sent, rfl⟩ := Runs.of_guard ht
    exact sound_deliver sound sent
  | poll tid id => exact sound.onHub (fun _ _ h => hubSound_poll h) ht
  | fetch tid => exact sound.onHub (fun _ _ h => hubSound_fetch sound.kept h) ht
  | missed tid => exact sound.onHub (fun _ _ h => hubSound_missed h) ht
  | fold tid now => exact sound.onHub (fun _ _ h => hubSound_fold h) ht
  | sendAck tid => exact sound.sending (fun _ _ _ _ h => hubSound_sendAck h) ht
  | ackReply tid ok => exact sound.onHub (fun _ _ h => hubSound_ackReply h) ht
  | prepare now => exact sound.onHub (fun _ _ h => hubSound_prepare h) ht
  | write outcome => exact sound_write sound ht
  | stamp => exact sound.onHub (fun _ _ h => hubSound_stamp h) ht
  | collectJobs => exact sound.onHub (fun _ _ h => hubSound_collectJobs h) ht
  | sendJob => exact sound.sending (fun _ _ _ _ h => hubSound_sendJob h) ht
  | jobReply ok => exact sound.onHub (fun _ _ h => hubSound_jobReply h) ht
  | flushEnds => exact sound.onHub (fun _ _ h => hubSound_flushEnds h) ht
  | forget id => exact sound.onHub (fun _ _ h hf => by cases hf; exact hubSound_forget h id) ht
  | forgetSubscription sub =>
    exact sound.onHub (fun _ _ h hf => by cases hf; exact hubSound_forgetSubscription h sub) ht
  | crash =>
    cases ht
    exact { sound with hub := fun k hk => by cases hk }
  | start now => exact sound_start sound ht

/-- The system starts sound. -/
theorem sound_init (agents : Nat → MemoryStore) : Sound (System.init agents) where
  kept id := ⟨fun ts b found => by simp [System.init] at found,
    fun ts b found => by simp [System.init] at found,
    fun ts b found => by simp [System.init, Box.held] at found,
    fun ts b found => by simp [System.init, Box.held] at found⟩
  honest id e he := by cases he
  file id := safe_of_nonpos (by simp [System.init, fileView, viewOf])
  stored := trivial
  wire id t ht := by cases ht
  hub h hh := by cases hh

end NasnetPanel.Usage
