import NasnetPanel.Lib.Keyed

/-!
# RemoteNodes.State — the subscriptions of the remote nodes, and the edits to them

The part of `remotenodes/model` that says which subscription's client belongs on which node, and the
edits the manager makes to it (`manager/subs.go`, `manager/limits.go`). A client belongs on a node
when the subscription is running and switched on there (`State.wants`).

The store keeps an edit only if the state it leads to passes `Validate`, so every state there is
passes it. The laws say what each edit does to the two searches by id, which is all the rest of the
development uses.

Names, the settings of nodes and of the hub, the certificates and the caps are not modelled; an edit
the store refuses because of them is one it does not keep.
-/

namespace NasnetPanel.RemoteNodes
open List Option Keyed

/-! ## The state -/

/-- Why the hub takes a subscription off the nodes. -/
inductive StopReason where
  | limit | expired
deriving DecidableEq, Repr

structure Subscription where
  id : Nat
  /-- The bytes it may move; zero is no limit. -/
  trafficLimit : UInt64 := 0
  trafficBase : UInt64 := 0
  trafficCarried : UInt64 := 0
  expiresAt : Option Int := none
  /-- `none` is running. -/
  stopped : Option StopReason := none
deriving DecidableEq, Repr

def maxTrafficLimit : UInt64 := 1125899906842624

namespace Subscription

def running (s : Subscription) : Bool := s.stopped.isNone

/-- Why the subscription should not run, if it should not. The date wins. -/
def stopReason (s : Subscription) (used : UInt64) (now : Int) : Option StopReason :=
  if s.expiresAt.any (· ≤ now) then some .expired
  else if 0 < s.trafficLimit ∧ s.trafficLimit ≤ used then some .limit
  else none

end Subscription

/-- A sum that stays at the largest value. -/
def sat (a b : UInt64) : UInt64 := if a ≤ a + b then a + b else 18446744073709551615

/-- What a subscription moved since its count was last reset. -/
def trafficUsed (sub : Subscription) (lifetime : UInt64) : UInt64 :=
  let total := sat lifetime sub.trafficCarried
  if total ≤ sub.trafficBase then 0 else total - sub.trafficBase

/-- The form of a client id: hex digits in five groups. -/
def uuidForm (digit : Char → Bool) (s : String) : Bool :=
  s.toList.length == 36 && s.toList.zipIdx.all fun (c, i) =>
    if i = 8 ∨ i = 13 ∨ i = 18 ∨ i = 23 then c == '-' else digit c

def lowerHex (c : Char) : Bool := ('0' ≤ c && c ≤ '9') || ('a' ≤ c && c ≤ 'f')

def validUUID (s : String) : Bool := uuidForm lowerHex s

/-- A subscription's client on one node. Switched off, it keeps its id. -/
structure Enablement where
  subscriptionID : Nat
  nodeID : Nat
  clientUUID : String
  enabled : Bool
deriving DecidableEq, Repr

open Enablement

def Enablement.pair (e : Enablement) : Nat × Nat := (e.subscriptionID, e.nodeID)

structure Node where
  id : Nat
  registered : Bool := true
deriving DecidableEq, Repr

structure State where
  nextSubscriptionID : Nat := 1
  nodes : List Node := []
  subscriptions : List Subscription := []
  enablements : List Enablement := []
deriving DecidableEq, Repr

namespace State

def findNode (s : State) (id : Nat) : Option Node := Keyed.find Node.id s.nodes id

def findSubscription (s : State) (id : Nat) : Option Subscription :=
  Keyed.find Subscription.id s.subscriptions id

def findEnablement (s : State) (subscriptionID nodeID : Nat) : Option Enablement :=
  Keyed.find Enablement.pair s.enablements (subscriptionID, nodeID)

/-- What `Validate` asks of the subscriptions and of what is switched on where. -/
structure Valid (s : State) : Prop where
  ids : (s.subscriptions.map (·.id)).Nodup
  numbered : ∀ x ∈ s.subscriptions, x.id ≠ 0
  below : ∀ x ∈ s.subscriptions, x.id < s.nextSubscriptionID
  limits : ∀ x ∈ s.subscriptions, x.trafficLimit ≤ maxTrafficLimit
  forms : ∀ e ∈ s.enablements, e.subscriptionID ≠ 0 ∧ e.nodeID ≠ 0 ∧ validUUID e.clientUUID = true
  refers : ∀ e ∈ s.enablements,
    (s.findSubscription e.subscriptionID).isSome ∧ (s.findNode e.nodeID).isSome
  pairs : (s.enablements.map Enablement.pair).Nodup
  uuids : (s.enablements.map (·.clientUUID)).Nodup

/-- The executable form of `Valid`. -/
def validate (s : State) : Bool :=
  decide (s.subscriptions.map (·.id)).Nodup &&
    s.subscriptions.all (fun x => decide (x.id ≠ 0) &&
      decide (x.id < s.nextSubscriptionID) && decide (x.trafficLimit ≤ maxTrafficLimit)) &&
    s.enablements.all (fun e =>
      decide (e.subscriptionID ≠ 0) && decide (e.nodeID ≠ 0) && validUUID e.clientUUID) &&
    s.enablements.all (fun e =>
      (s.findSubscription e.subscriptionID).isSome && (s.findNode e.nodeID).isSome) &&
    decide (s.enablements.map Enablement.pair).Nodup &&
    decide (s.enablements.map (·.clientUUID)).Nodup

theorem valid_of_validate {s : State} (h : s.validate = true) : s.Valid := by
  simp only [validate, Bool.and_eq_true, decide_eq_true_eq, List.all_eq_true] at h
  obtain ⟨⟨⟨⟨⟨ids, subs⟩, forms⟩, refers⟩, pairs⟩, uuids⟩ := h
  exact
    { ids, refers, pairs, uuids
      numbered := fun x mem => (subs x mem).1.1
      below := fun x mem => (subs x mem).1.2
      limits := fun x mem => (subs x mem).2
      forms := fun e mem => ⟨(forms e mem).1.1, (forms e mem).1.2, (forms e mem).2⟩ }

theorem validate_of_valid {s : State} (h : s.Valid) : s.validate = true := by
  simp only [validate, Bool.and_eq_true, decide_eq_true_eq, List.all_eq_true]
  exact ⟨⟨⟨⟨⟨h.ids, fun x mem => ⟨⟨h.numbered x mem, h.below x mem⟩, h.limits x mem⟩⟩,
    fun e mem => ⟨⟨(h.forms e mem).1, (h.forms e mem).2.1⟩, (h.forms e mem).2.2⟩⟩,
    h.refers⟩, h.pairs⟩, h.uuids⟩

/-- The edit is kept where the state it makes is valid and is written. -/
def update (kept : Bool) (edited : Option State) : Option State :=
  edited.filter fun t => kept && t.validate

def isOn (s : State) (sub node : Nat) : Bool := (s.findEnablement sub node).any (·.enabled)

def isRunning (s : State) (sub : Nat) : Bool := (s.findSubscription sub).any (·.running)

/-- **What belongs on a node**: the clients of the subscriptions that run and are on there. -/
def wants (s : State) (sub node : Nat) : Bool := s.isRunning sub && s.isOn sub node

def onNodes (s : State) (sub : Nat) : List Nat :=
  (s.enablements.filter fun e => e.subscriptionID = sub ∧ e.enabled).map (·.nodeID)

def nodesOf (s : State) (sub : Nat) : List Nat :=
  (s.enablements.filter fun e => e.subscriptionID = sub).map (·.nodeID)

def clientsOf (s : State) (node : Nat) : List (Nat × String) :=
  (s.enablements.filter fun e => e.nodeID = node ∧ e.enabled ∧
    !(s.subscriptions.any fun x => x.id = e.subscriptionID ∧ !x.running)).map
      fun e => (e.subscriptionID, e.clientUUID)

/-! ## The edits -/

def registered (s : State) (node : Nat) : Bool := (s.findNode node).any (·.registered)

/-- `CreateSubscription`: a subscription of the next id, on at the nodes. -/
def create (s : State) (nodes : List Nat) (limit : UInt64) (expires : Option Int)
    (uuid : Nat → String) : Option State :=
  if nodes.all s.registered then
    some { s with
      nextSubscriptionID := s.nextSubscriptionID + 1
      subscriptions := s.subscriptions ++
        [{ id := s.nextSubscriptionID, trafficLimit := limit, expiresAt := expires }]
      enablements := s.enablements ++ nodes.map fun n => ⟨s.nextSubscriptionID, n, uuid n, true⟩ }
  else none

def changeEnablement (s : State) (sub node : Nat) (f : Enablement → Enablement) : State :=
  { s with enablements := Keyed.change Enablement.pair (sub, node) f s.enablements }

def setEnabled (s : State) (sub node : Nat) (enabled : Bool) (fresh : String) : Option State :=
  if (s.findSubscription sub).isNone || !s.registered node then none
  else match s.findEnablement sub node with
    | none =>
      if enabled then some { s with enablements := s.enablements ++ [⟨sub, node, fresh, true⟩] }
      else some s
    | some _ => some (s.changeEnablement sub node fun e => { e with enabled := enabled })

def removeSubscription (s : State) (sub : Nat) : Option State :=
  if (s.findSubscription sub).isNone then none
  else some { s with
    subscriptions := Keyed.remove Subscription.id sub s.subscriptions
    enablements := s.enablements.filter fun e => e.subscriptionID ≠ sub }

/-- A new client id, while the subscription is on at the node. -/
def setUUID (s : State) (sub node : Nat) (fresh : String) : Option State :=
  if s.isOn sub node then some (s.changeEnablement sub node fun e => { e with clientUUID := fresh })
  else none

def changeSubscription (s : State) (sub : Nat) (f : Subscription → Subscription) : State :=
  { s with subscriptions := Keyed.change Subscription.id sub f s.subscriptions }

/-- The mark is set unless the reason is lifted by now. -/
def stop (s : State) (sub : Nat) (reason : StopReason) (lifetime : UInt64) (now : Int) : State :=
  match s.findSubscription sub with
  | none => s
  | some x =>
    if x.stopped = some reason then s
    else if x.stopReason (trafficUsed x lifetime) now = none then s
    else s.changeSubscription sub fun x => { x with stopped := some reason }

/-- A change of the limit or of the date; `some none` lifts it. -/
structure Patch where
  trafficLimit : Option (Option UInt64) := none
  expiresAt : Option (Option Int) := none
deriving DecidableEq, Repr

def Patch.limitsAsked (p : Patch) : Bool := p.trafficLimit.isSome || p.expiresAt.isSome

def Patch.apply (p : Patch) (x : Subscription) (lifetime : UInt64) (now : Int) : Subscription :=
  let next := { x with
    trafficLimit := p.trafficLimit.elim x.trafficLimit (·.getD 0)
    expiresAt := p.expiresAt.getD x.expiresAt }
  if p.limitsAsked then { next with stopped := next.stopReason (trafficUsed next lifetime) now }
  else next

/-- `UpdateSubscription`. A new date has to be in the future, or the one there is. -/
def patch (s : State) (sub : Nat) (p : Patch) (lifetime : UInt64) (now : Int) : Option State :=
  match s.findSubscription sub with
  | none => none
  | some x =>
    if (p.expiresAt.any fun e => e.any fun t => t ≤ now ∧ x.expiresAt ≠ some t) then none
    else some (s.changeSubscription sub fun x => p.apply x lifetime now)

/-- `ResetUsage`. -/
def reset (s : State) (sub : Nat) (lifetime : UInt64) (now : Int) : Option State :=
  match s.findSubscription sub with
  | none => none
  | some _ => some (s.changeSubscription sub fun x =>
    { x with trafficBase := sat lifetime x.trafficCarried, stopped := x.stopReason 0 now })

/-! ## What the edits do to the searches -/

variable {s t : State} {edited : Option State}

theorem update_eq_some {kept : Bool} (h : update kept edited = some t) :
    edited = some t ∧ t.Valid := by
  obtain ⟨made, checks⟩ := filter_eq_some_iff.mp h
  exact ⟨made, valid_of_validate (Bool.and_eq_true_iff.mp checks).2⟩

theorem of_map_update {A : Type} {kept : Bool} {f : State → A} {a : A}
    (h : (update kept edited).map f = some a) : ∃ t, edited = some t ∧ t.Valid ∧ f t = a := by
  obtain ⟨t, made, rfl⟩ := Option.map_eq_some_iff.mp h
  exact ⟨t, (update_eq_some made).1, (update_eq_some made).2, rfl⟩

theorem Valid.findSubscription_next (h : s.Valid) :
    s.findSubscription s.nextSubscriptionID = none :=
  find_eq_none_iff.mpr fun x hx => Nat.ne_of_lt (h.below x hx)

variable {sub : Nat} {e : Enablement} {limit : UInt64} {expires : Option Int} {uuid : Nat → String}
  {f : Subscription → Subscription} {node : Nat}

theorem Valid.isSome_of_findEnablement (h : s.Valid)
    (found : s.findEnablement sub node = some e) : (s.findSubscription sub).isSome := by
  obtain ⟨mem, pair⟩ := of_find found
  have there := (h.refers e mem).1
  rwa [show e.subscriptionID = sub from congrArg Prod.fst pair] at there

theorem Valid.findEnablement_of_none (h : s.Valid)
    (gone : s.findSubscription sub = none) (node : Nat) : s.findEnablement sub node = none := by
  cases found : s.findEnablement sub node with
  | none => rfl
  | some e =>
    have there := h.isSome_of_findEnablement found
    rw [gone] at there
    cases there

theorem Valid.mem_onNodes (h : s.Valid) :
    node ∈ s.onNodes sub ↔ s.isOn sub node = true := by
  unfold onNodes isOn findEnablement
  constructor
  · intro listed
    obtain ⟨e, kept, rfl⟩ := List.mem_map.mp listed
    obtain ⟨mem, own⟩ := mem_filter.mp kept
    obtain ⟨rfl, on⟩ : e.subscriptionID = sub ∧ e.enabled = true := by simpa using own
    have found := (find_eq_some_iff h.pairs).mpr ⟨mem, show e.pair = _ from rfl⟩
    rw [show ((e.subscriptionID, e.nodeID) : Nat × Nat) = e.pair from rfl, found]
    exact on
  · intro isOn
    obtain ⟨e, found, on⟩ := (Option.any_eq_true _ _).mp isOn
    obtain ⟨mem, pair⟩ := of_find found
    cases pair
    exact List.mem_map.mpr ⟨e, mem_filter.mpr ⟨mem, by simpa using on⟩, rfl⟩

theorem mem_nodesOf_of_find
    (found : s.findEnablement sub node = some e) : node ∈ s.nodesOf sub := by
  obtain ⟨mem, pair⟩ := of_find found
  cases pair
  exact List.mem_map.mpr ⟨e, mem_filter.mpr ⟨mem, by simp⟩, rfl⟩

theorem Valid.mem_clientsOf (h : s.Valid) {uuid : String} :
    (sub, uuid) ∈ s.clientsOf node ↔ s.isRunning sub = true ∧
      ∃ e, s.findEnablement sub node = some e ∧ e.enabled = true ∧ e.clientUUID = uuid := by
  unfold clientsOf isRunning
  constructor
  · intro listed
    obtain ⟨e, kept, same⟩ := List.mem_map.mp listed
    cases same
    obtain ⟨mem, own⟩ := mem_filter.mp kept
    simp only [decide_eq_true_eq, Bool.not_eq_true'] at own
    obtain ⟨rfl, on, runs⟩ := own
    obtain ⟨x, found⟩ := isSome_iff_exists.mp (h.refers e mem).1
    refine ⟨?_, e, (find_eq_some_iff h.pairs).mpr ⟨mem, rfl⟩, on, rfl⟩
    obtain ⟨memx, idx⟩ := of_find found
    have running := List.any_eq_false.mp runs x memx
    rw [found]
    simpa [idx] using running
  · rintro ⟨running, e, found, on, rfl⟩
    obtain ⟨mem, pair⟩ := of_find found
    cases pair
    refine List.mem_map.mpr ⟨e, mem_filter.mpr ⟨mem, ?_⟩, rfl⟩
    have runs : ∀ x ∈ s.subscriptions, x.id = e.subscriptionID → x.running = true := by
      intro x memx idx
      rw [findSubscription, (find_eq_some_iff h.ids).mpr ⟨memx, idx⟩] at running
      exact running
    simpa [on] using runs

variable {nodes : List Nat}

theorem findSubscription_create
    (h : s.Valid) (made : s.create nodes limit expires uuid = some t)
    (sub : Nat) : t.findSubscription sub =
      if sub = s.nextSubscriptionID then
        some { id := s.nextSubscriptionID, trafficLimit := limit, expiresAt := expires }
      else s.findSubscription sub := by
  unfold create at made
  split at made
  case isFalse => cases made
  cases made
  show find Subscription.id (s.subscriptions ++ [_]) sub = _
  rw [find_append, find_cons, find_nil]
  by_cases new : sub = s.nextSubscriptionID
  · rw [if_pos new, if_pos new.symm, new]
    rw [show find Subscription.id s.subscriptions s.nextSubscriptionID = none from
      h.findSubscription_next]
    rfl
  · rw [if_neg new, if_neg (Ne.symm new), or_none]
    rfl

theorem findEnablement_create
    (h : s.Valid) (made : s.create nodes limit expires uuid = some t) (sub node : Nat) :
    t.findEnablement sub node =
      if sub = s.nextSubscriptionID ∧ node ∈ nodes then
        some ⟨s.nextSubscriptionID, node, uuid node, true⟩
      else s.findEnablement sub node := by
  unfold create at made
  split at made
  case isFalse => cases made
  cases made
  show find pair (s.enablements ++ nodes.map _) (sub, node) = _
  rw [find_append]
  have added : find pair
      (nodes.map fun n => (⟨s.nextSubscriptionID, n, uuid n, true⟩ : Enablement)) (sub, node) =
      if sub = s.nextSubscriptionID ∧ node ∈ nodes then
        some ⟨s.nextSubscriptionID, node, uuid node, true⟩ else none := by
    clear * -
    induction nodes with
    | nil => simp
    | cons n nodes ih =>
      rw [map_cons, find_cons, ih]
      show (if (s.nextSubscriptionID, n) = (sub, node) then _ else _) = _
      by_cases here : (s.nextSubscriptionID, n) = (sub, node)
      · cases here
        rw [if_pos rfl, if_pos ⟨rfl, mem_cons_self⟩]
      rw [if_neg here]
      refine if_congr ?_ rfl rfl
      rw [mem_cons]
      refine and_congr_right fun new => ?_
      have other : node ≠ n := fun same => here (by rw [new, same])
      exact (or_iff_right other).symm
  rw [added]
  by_cases new : sub = s.nextSubscriptionID ∧ node ∈ nodes
  · rw [if_pos new, if_pos new, new.1]
    rw [show find pair s.enablements (s.nextSubscriptionID, node) = none from
      h.findEnablement_of_none h.findSubscription_next node]
    rfl
  · rw [if_neg new, if_neg new, or_none]
    rfl

theorem findEnablement_changeEnablement {f : Enablement → Enablement}
    (keeps : ∀ e, (f e).pair = e.pair) (x n : Nat) :
    (s.changeEnablement sub node f).findEnablement x n =
      if x = sub ∧ n = node then (s.findEnablement sub node).map f else s.findEnablement x n := by
  rw [findEnablement, changeEnablement, find_change keeps]
  exact if_congr (by rw [Prod.mk.injEq]) rfl rfl

variable {fresh : String}

theorem findEnablement_setEnabled {enabled : Bool}
    (made : s.setEnabled sub node enabled fresh = some t) (x n : Nat) :
    t.findEnablement x n =
      if x = sub ∧ n = node then
        match s.findEnablement sub node with
        | none => if enabled then some ⟨sub, node, fresh, true⟩ else none
        | some e => some { e with enabled := enabled }
      else s.findEnablement x n := by
  unfold setEnabled at made
  split at made
  · cases made
  cases found : s.findEnablement sub node with
  | none =>
    rw [found] at made
    cases enabled with
    | false =>
      cases made
      by_cases here : x = sub ∧ n = node
      · rw [if_pos here, here.1, here.2]
        exact found
      · rw [if_neg here]
    | true =>
      cases made
      show find pair (s.enablements ++ [_]) (x, n) = _
      rw [find_append, find_cons, find_nil]
      show Option.or _ (if (sub, node) = (x, n) then _ else _) = _
      by_cases here : x = sub ∧ n = node
      · obtain ⟨rfl, rfl⟩ := here
        rw [if_pos rfl, if_pos ⟨rfl, rfl⟩]
        rw [show find pair s.enablements (x, n) = none from found]
        rfl
      · rw [if_neg here, if_neg fun same => here (by cases same; exact ⟨rfl, rfl⟩), or_none]
        rfl
  | some e =>
    rw [found] at made
    cases made
    rw [findEnablement_changeEnablement (f := fun e => { e with enabled := enabled })
      (fun _ => rfl), found]
    rfl

theorem findSubscription_setEnabled {enabled : Bool}
    (made : s.setEnabled sub node enabled fresh = some t) (x : Nat) :
    t.findSubscription x = s.findSubscription x := by
  unfold setEnabled at made
  split at made
  · cases made
  split at made
  · split at made <;> cases made <;> rfl
  · cases made
    rfl

theorem findSubscription_removeSubscription (h : s.Valid)
    (made : s.removeSubscription sub = some t) (x : Nat) :
    t.findSubscription x = if x = sub then none else s.findSubscription x := by
  unfold removeSubscription at made
  split at made
  · cases made
  · cases made
    exact find_remove h.ids sub x

theorem findEnablement_removeSubscription (made : s.removeSubscription sub = some t)
    (x n : Nat) : t.findEnablement x n = if x = sub then none else s.findEnablement x n := by
  unfold removeSubscription at made
  split at made
  · cases made
  cases made
  show find pair (s.enablements.filter fun e => decide (e.pair.1 ≠ sub)) (x, n) = _
  rw [find_filter fun k : Nat × Nat => decide (k.1 ≠ sub)]
  by_cases same : x = sub
  · simp [same]
  · simp [same, findEnablement]

theorem findSubscription_changeSubscription (keeps : ∀ x, (f x).id = x.id) (x : Nat) :
    (s.changeSubscription sub f).findSubscription x =
      if x = sub then (s.findSubscription sub).map f else s.findSubscription x :=
  find_change keeps sub x

theorem Valid.changeSubscription (h : s.Valid)
    (ids : ∀ x, (f x).id = x.id) (limits : ∀ x, (f x).trafficLimit = x.trafficLimit) :
    (s.changeSubscription sub f).Valid := by
  -- what holds of the ids and limits there were holds of those there are
  have each : ∀ y ∈ (s.changeSubscription sub f).subscriptions,
      ∃ x ∈ s.subscriptions, y.id = x.id ∧ y.trafficLimit = x.trafficLimit := by
    intro y mem
    rcases mem_change mem with there | ⟨x, there, rfl⟩
    · exact ⟨y, there, rfl, rfl⟩
    · exact ⟨x, there, ids x, limits x⟩
  refine
    { forms := h.forms, pairs := h.pairs, uuids := h.uuids
      ids := (congrArg List.Nodup (map_change ids sub)).mpr h.ids
      numbered := ?_, below := ?_, limits := ?_, refers := ?_ }
  · intro y mem
    obtain ⟨x, there, id, -⟩ := each y mem
    exact id ▸ h.numbered x there
  · intro y mem
    obtain ⟨x, there, id, -⟩ := each y mem
    exact id ▸ h.below x there
  · intro y mem
    obtain ⟨x, there, -, limit⟩ := each y mem
    exact limit ▸ h.limits x there
  intro e mem
  obtain ⟨found, node⟩ := h.refers e mem
  refine ⟨?_, node⟩
  rw [findSubscription_changeSubscription ids]
  split
  next same =>
    rw [same] at found
    rwa [isSome_map]
  · exact found

theorem Valid.stop (h : s.Valid) (sub : Nat) (reason : StopReason) (lifetime : UInt64)
    (now : Int) : (s.stop sub reason lifetime now).Valid := by
  unfold State.stop
  split
  · exact h
  split
  · exact h
  split
  · exact h
  · exact h.changeSubscription (fun _ => rfl) fun _ => rfl

theorem update_of_valid (h : t.Valid) : update true (some t) = some t := by
  rw [update, filter_some_pos]
  exact validate_of_valid h

/-- The edits of a subscription's limits and of its mark change it and nothing else. -/
def Marks (s t : State) (sub : Nat) : Prop :=
  ∃ f : Subscription → Subscription, t = s.changeSubscription sub f ∧ ∀ x, (f x).id = x.id

variable {lifetime : UInt64} {now : Int}

theorem marks_patch {p : Patch} (made : s.patch sub p lifetime now = some t) : s.Marks t sub := by
  unfold patch at made
  split at made
  · cases made
  split at made
  · cases made
  refine ⟨_, (Option.some.inj made).symm, fun x => ?_⟩
  unfold Patch.apply
  split <;> rfl

theorem marks_reset (made : s.reset sub lifetime now = some t) : s.Marks t sub := by
  unfold reset at made
  split at made
  · cases made
  · exact ⟨_, (Option.some.inj made).symm, fun _ => rfl⟩

theorem marks_stop {reason : StopReason}
    (changed : s.stop sub reason lifetime now ≠ s) :
    s.Marks (s.stop sub reason lifetime now) sub := by
  unfold stop at changed ⊢
  split
  next gone =>
    rw [gone] at changed
    exact absurd rfl changed
  next found =>
    rw [found] at changed
    dsimp only at changed
    split
    next already =>
      rw [if_pos already] at changed
      exact absurd rfl changed
    next unmarked =>
      rw [if_neg unmarked] at changed
      split
      next lifted =>
        rw [if_pos lifted] at changed
        exact absurd rfl changed
      · exact ⟨_, rfl, fun _ => rfl⟩

theorem Marks.findEnablement (h : s.Marks t sub) (x n : Nat) :
    t.findEnablement x n = s.findEnablement x n := by
  obtain ⟨f, rfl, -⟩ := h
  rfl

theorem findEnablement_setUUID
    (made : s.setUUID sub node fresh = some t) (x n : Nat) :
    t.findEnablement x n =
      if x = sub ∧ n = node then
        (s.findEnablement sub node).map fun e => { e with clientUUID := fresh }
      else s.findEnablement x n := by
  unfold setUUID at made
  split at made
  · cases made
    exact findEnablement_changeEnablement (f := fun e => { e with clientUUID := fresh })
      (fun _ => rfl) x n
  · cases made

end State

end NasnetPanel.RemoteNodes
