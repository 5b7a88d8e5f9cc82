import NasnetPanel.Lib.Runs

/-!
# WireGuard.Devices — the device limit and revocation under concurrency

`wireguard/usecase/device_usecase.go`, for one subscription. `CreateDevice` counts the active peers,
checks the limit and inserts a row; `RotateDevice` reads a row and saves it whole with status
active; `RemoveDevice` deletes it; `DeactivateSubscription` and `ActivateSubscription` write one
status to all rows. Calls run at once, and each database statement and each push is a step of its
own: what a call read may be out of date when it writes.

Nothing ties the write to the read. `limit_and_revocation` names what the calls have to keep to: a
`CreateDevice` inserts only while the subscription has no more peers than it counted, a
`RotateDevice` saves only a row that is still there, and neither writes while the subscription is
deactivated. `limit_broken` has runs that do not.

`deactivated` records which of the two status writes came last. It is not in the source.
-/

namespace NasnetPanel.WireGuard
open List

inductive PeerStatus where
  | active | disabled
deriving DecidableEq, Repr

/-- A row of `wg_peers`, of the subscription. -/
structure Peer where
  id : Nat
  publicKey : Nat
  status : PeerStatus
deriving DecidableEq, Repr

inductive Request where
  | create
  | rotate (device : Nat)
  | remove (device : Nat)
  | setStatus (status : PeerStatus)
deriving DecidableEq, Repr

/-- Where a call is: the next thing it does, with what it has read. -/
inductive Call where
  | count
  | insert (counted : Nat)
  | pushCreated (peer : Nat)
  | undo (peer : Nat)
  | readToRotate (device : Nat)
  | save (peer : Peer)
  | readToRemove (device : Nat)
  | delete (device : Nat)
  | list (status : PeerStatus)
  | write (status : PeerStatus)
  | push
  | returned
deriving DecidableEq, Repr

def Request.begin : Request → Call
  | .create => .count
  | .rotate device => .readToRotate device
  | .remove device => .readToRemove device
  | .setStatus status => .list status

structure State where
  limit : Nat
  peers : List Peer
  nextID : Nat
  nextKey : Nat
  calls : List Call
  deactivated : Bool
deriving DecidableEq, Repr

/-- `CountActiveBySubscription`. -/
def activePeers (peers : List Peer) : Nat := peers.countP fun p => p.status = .active

/-- `Save`: the row under the peer's id is overwritten, or inserted where there is none. -/
def savePeer (peers : List Peer) (p : Peer) : List Peer :=
  if peers.any (·.id = p.id) then peers.map fun q => if q.id = p.id then p else q else peers ++ [p]

def setStatusBySubscription (peers : List Peer) (status : PeerStatus) : List Peer :=
  peers.map fun p => { p with status := status }

/-- The next thing a call does, and where it is then. `ok` is whether the statement or push
succeeds. -/
def proceed (s : State) (ok : Bool) : Call → State × Call
  | .count =>
    if !ok then (s, .returned)
    else if 0 < s.limit ∧ s.limit ≤ activePeers s.peers then (s, .returned)
    else (s, .insert (activePeers s.peers))
  | .insert _ =>
    if !ok then (s, .returned)
    else
      ({ s with
        peers := s.peers ++ [⟨s.nextID, s.nextKey, .active⟩]
        nextID := s.nextID + 1, nextKey := s.nextKey + 1 }, .pushCreated s.nextID)
  | .pushCreated peer => (s, if ok then .returned else .undo peer)
  | .undo peer =>
    (if ok then { s with peers := s.peers.filter (·.id ≠ peer) } else s, .returned)
  | .readToRotate device =>
    match s.peers.find? (·.id = device) with
    | none => (s, .returned)
    | some p =>
      if !ok then (s, .returned)
      else
        ({ s with nextKey := s.nextKey + 1 },
          .save { p with publicKey := s.nextKey, status := .active })
  | .save peer =>
    if !ok then (s, .returned) else ({ s with peers := savePeer s.peers peer }, .push)
  | .readToRemove device =>
    if !ok then (s, .returned)
    else if s.peers.any (·.id = device) then (s, .delete device) else (s, .returned)
  | .delete device =>
    if !ok then (s, .returned)
    else ({ s with peers := s.peers.filter (·.id ≠ device) }, .push)
  | .list status => (s, if ok then .write status else .returned)
  | .write status =>
    if !ok then (s, .returned)
    else
      ({ s with
        peers := setStatusBySubscription s.peers status
        deactivated := decide (status = .disabled) }, .push)
  | .push => (s, .returned)
  | .returned => (s, .returned)

inductive Label where
  | begin (r : Request)
  | advance (i : Nat) (ok : Bool)
deriving DecidableEq, Repr

def step (s : State) : Label → Option State
  | .begin r => some { s with calls := s.calls ++ [r.begin] }
  | .advance i ok =>
    match s.calls[i]? with
    | none => none
    | some c =>
      let (t, next) := proceed s ok c
      some { t with calls := t.calls.set i next }

/-! ## What the calls have to keep to -/

/-- A `CreateDevice` inserts while there are no more peers than it counted, a `RotateDevice` saves a
row that is there, and both while the subscription is not deactivated. -/
def InTurn (s : State) : Call → Prop
  | .insert counted => s.peers.length ≤ counted ∧ s.deactivated = false
  | .save peer => (∃ p ∈ s.peers, p.id = peer.id) ∧ s.deactivated = false
  | _ => True

instance (s : State) (c : Call) : Decidable (InTurn s c) := by
  cases c <;> unfold InTurn <;> infer_instance

def Orderly (s : State) : Label → Prop
  | .begin _ => True
  | .advance i _ => ∀ c, s.calls[i]? = some c → InTurn s c

/-- The executable form of `Orderly`. -/
def orderlyCheck (s : State) : Label → Bool
  | .begin _ => true
  | .advance i _ => s.calls[i]?.all fun c => decide (InTurn s c)

theorem orderly_of_check {s : State} {l : Label} (h : orderlyCheck s l = true) : Orderly s l := by
  cases l with
  | begin r => trivial
  | advance i ok =>
    intro c here
    rw [orderlyCheck, here, Option.all_some] at h
    exact of_decide_eq_true h

/-- The invariant: all rows together are within the limit, no call inserts past it, and a
deactivated subscription has no active peer. -/
structure Bounded (s : State) : Prop where
  positive : 0 < s.limit
  within : s.peers.length ≤ s.limit
  counted : ∀ n, .insert n ∈ s.calls → n < s.limit
  revoked : s.deactivated = true → ∀ p ∈ s.peers, p.status = .disabled

section
variable {s : State} {peers : List Peer} {peer : Peer} {c : Call}

theorem Bounded.shrink (h : Bounded s) (sub : peers.Sublist s.peers) :
    Bounded { s with peers := peers } :=
  ⟨h.positive, Nat.le_trans sub.length_le h.within, h.counted,
    fun off p hp => h.revoked off p (sub.subset hp)⟩

theorem length_savePeer (there : ∃ p ∈ peers, p.id = peer.id) :
    (savePeer peers peer).length = peers.length := by
  obtain ⟨p, hp, same⟩ := there
  have found : peers.any (·.id = peer.id) = true :=
    any_eq_true.mpr ⟨p, hp, decide_eq_true same⟩
  rw [savePeer, if_pos found, length_map]

def Call.inserts : Call → Bool
  | .insert _ => true
  | _ => false

/-- The call kept the invariant, and goes on to insert only below the limit. -/
def Kept (s : State) (r : State × Call) : Prop :=
  Bounded r.1 ∧ r.1.limit = s.limit ∧ ∀ n, r.2 = .insert n → n < s.limit

theorem Bounded.kept {t : State} (h : Bounded t) (limit : t.limit = s.limit)
    (other : c.inserts = false) : Kept s (t, c) := by
  refine ⟨h, limit, fun n same => ?_⟩
  rw [show c = _ from same] at other
  cases other

section
variable (h : Bounded s)
include h

theorem Bounded.stays (other : c.inserts = false) : Kept s (s, c) := h.kept rfl other

theorem Bounded.rows (on : s.deactivated = false)
    (within : peers.length ≤ s.limit) (nextID nextKey : Nat) :
    Bounded { s with peers := peers, nextID := nextID, nextKey := nextKey } :=
  ⟨h.positive, within, h.counted, fun off => absurd (on.symm.trans off) (by decide)⟩

theorem kept_insert (ok : Bool) {counted : Nat} (inTurn : InTurn s (.insert counted))
    (below : counted < s.limit) : Kept s (proceed s ok (.insert counted)) := by
  dsimp only [proceed]
  split
  · exact h.stays rfl
  obtain ⟨few, on⟩ := inTurn
  refine (h.rows on ?_ _ _).kept rfl rfl
  rw [length_append, length_singleton]
  omega

theorem kept_save (ok : Bool) (inTurn : InTurn s (.save peer)) :
    Kept s (proceed s ok (.save peer)) := by
  dsimp only [proceed]
  split
  · exact h.stays rfl
  obtain ⟨there, on⟩ := inTurn
  refine (h.rows on ?_ _ _).kept rfl rfl
  rw [length_savePeer there]
  exact h.within

theorem kept_write (ok : Bool) (status : PeerStatus) : Kept s (proceed s ok (.write status)) := by
  dsimp only [proceed]
  split
  · exact h.stays rfl
  refine Bounded.kept { h with within := ?_, revoked := fun off p hp => ?_ } rfl rfl
  · show (s.peers.map _).length ≤ s.limit
    rw [length_map]
    exact h.within
  · obtain ⟨q, -, rfl⟩ := mem_map.mp hp
    exact of_decide_eq_true off

theorem kept_proceed (ok : Bool) (inTurn : InTurn s c)
    (below : ∀ n, c = .insert n → n < s.limit) : Kept s (proceed s ok c) := by
  cases c with
  | insert counted => exact kept_insert h ok inTurn (below counted rfl)
  | save peer => exact kept_save h ok inTurn
  | write status => exact kept_write h ok status
  | count =>
    dsimp only [proceed]
    split
    · exact h.stays rfl
    split
    · exact h.stays rfl
    case isFalse free =>
      refine ⟨h, rfl, fun n same => ?_⟩
      cases same
      have positive := h.positive
      omega
  | pushCreated peer => cases ok <;> exact h.stays rfl
  | undo peer =>
    cases ok with
    | true => exact (h.shrink filter_sublist).kept rfl rfl
    | false => exact h.stays rfl
  | readToRotate device =>
    dsimp only [proceed]
    split
    · exact h.stays rfl
    split
    · exact h.stays rfl
    · exact Bounded.kept { h with } rfl rfl
  | readToRemove device =>
    dsimp only [proceed]
    split
    · exact h.stays rfl
    split <;> exact h.stays rfl
  | delete device =>
    dsimp only [proceed]
    split
    · exact h.stays rfl
    · exact (h.shrink filter_sublist).kept rfl rfl
  | list status => cases ok <;> exact h.stays rfl
  | push => exact h.stays rfl
  | returned => exact h.stays rfl

end

/-- One step in turn keeps the rows within the limit. -/
theorem bounded_step (s : State) (l : Label) (t : State) (h : Bounded s) (orderly : Orderly s l)
    (ht : step s l = some t) : Bounded t := by
  cases l with
  | begin r =>
    cases ht
    refine { h with counted := fun n hn => ?_ }
    rcases mem_append.mp hn with old | new
    · exact h.counted n old
    · have same := mem_singleton.mp new
      cases r <;> cases same
  | advance i ok =>
    dsimp only [step] at ht
    split at ht
    · cases ht
    case h_2 c here =>
      cases ht
      obtain ⟨kept, limit, next⟩ := kept_proceed h ok (orderly c here)
        fun n same => h.counted n (same ▸ mem_of_getElem? here)
      refine { kept with counted := fun n hn => ?_ }
      rcases mem_or_eq_of_mem_set hn with old | new
      · exact kept.counted n old
      · rw [limit]
        exact next n new.symm

end

/-- **The device limit and revocation hold**, over every interleaving whose inserts and saves are in
turn, starting with at most the limit's number of peers: never more active peers than the limit,
and no active peer from a deactivation until the next activation. -/
theorem limit_and_revocation {limit nextID nextKey : Nat} {peers : List Peer} (positive : 0 < limit)
    (within : peers.length ≤ limit) {ls : List Label} {t : State}
    (orderly : Runs.Along step Orderly ⟨limit, peers, nextID, nextKey, [], false⟩ ls)
    (h : Runs.run step ⟨limit, peers, nextID, nextKey, [], false⟩ ls = some t) :
    activePeers t.peers ≤ t.limit ∧
      (t.deactivated = true → ∀ p ∈ t.peers, p.status ≠ .active) := by
  have start : Bounded ⟨limit, peers, nextID, nextKey, [], false⟩ :=
    ⟨positive, within, (fun n hn => by cases hn), (fun off => by cases off)⟩
  have bounded := Runs.run_inv_along bounded_step start orderly h
  refine ⟨Nat.le_trans countP_le_length bounded.within, fun off p hp active => ?_⟩
  rw [bounded.revoked off p hp] at active
  cases active

/-- No peers yet, and a limit of one. -/
def oneDevice : State := ⟨1, [], 1, 1, [], false⟩

/-- A device is created and rotated, and the account deactivated, one call at a time. -/
def oneAtATime : List Label :=
  [.begin .create, .advance 0 true, .advance 0 true, .advance 0 true,
    .begin (.rotate 1), .advance 1 true, .advance 1 true, .advance 1 true,
    .begin (.setStatus .disabled), .advance 2 true, .advance 2 true, .advance 2 true]

theorem limit_and_revocation_oneAtATime :
    ∃ t, Runs.run step oneDevice oneAtATime = some t ∧ t.deactivated = true ∧ t.peers ≠ [] ∧
      activePeers t.peers ≤ t.limit ∧
      (t.deactivated = true → ∀ p ∈ t.peers, p.status ≠ .active) := by
  have checked : Runs.checkAlong step orderlyCheck oneDevice oneAtATime = true := by decide
  have orderly := (Runs.along_of_check checked).mono fun _ _ => orderly_of_check
  exact ⟨_, rfl, rfl, by decide, limit_and_revocation (by decide) (by decide) orderly rfl⟩

/-- Two calls count before either inserts. -/
def twoCreates : List Label :=
  [.begin .create, .begin .create, .advance 0 true, .advance 1 true, .advance 0 true,
    .advance 1 true, .advance 0 true, .advance 1 true]

/-- A deactivation is completed, and a device is created after it. -/
def createDeactivated : List Label :=
  [.begin (.setStatus .disabled), .advance 0 true, .advance 0 true, .advance 0 true,
    .begin .create, .advance 1 true, .advance 1 true, .advance 1 true]

/-- **Two creates at once pass the limit, and a create after a deactivation is active**: in both
runs every call has returned. -/
theorem limit_broken :
    ((Runs.run step oneDevice twoCreates).any fun t =>
      t.calls.all (· == .returned) && decide (t.limit < activePeers t.peers)) = true ∧
    ((Runs.run step oneDevice createDeactivated).any fun t =>
      t.calls.all (· == .returned) && t.deactivated && decide (0 < activePeers t.peers)) =
        true := by
  decide

end NasnetPanel.WireGuard
