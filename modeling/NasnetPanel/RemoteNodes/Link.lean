import NasnetPanel.Lib.Runs
import NasnetPanel.RemoteNodes.Entry

/-!
# RemoteNodes.Link — the link handed out is the one that works

A link carries the client id the state has for a subscription on a node. The node's agent does not
say what id a client has, so a reconcile cannot tell a client of an old id from one that is right.
The ids have to agree at every moment: each client on the node has the id the state has
(`Fits`, `current_link_works`).

Calls come one after another, each with the connection it finds and with calls of the agent that
fail in any way. A new id goes to the node first and is saved once the node has it (`ReplaceLink`).
That leaves the ids apart in three cases, which the law excludes (`careful`): the answer to the add
is lost, so the old id is kept (`lost_answer`); saving fails and the node cannot be given the old
one back; and the subscription is stopped but its client is still on the node, where only the state
is changed.
-/

namespace NasnetPanel.RemoteNodes.Link
open State Entry Option

/-- The state, and the clients on the entry of one node. -/
structure World where
  state : State
  users : List Client
deriving DecidableEq, Repr

def clientOf (sub : Nat) (uuid : String) : Client := ⟨subscriptionEmail sub, uuid⟩

/-- A change the state holds already, over the connection there is. -/
def applyTo (link : Option Net) (change : Net → Conn → Option Err × Conn) (users : List Client) :
    List Client :=
  match link with
  | none => users
  | some net => (change net { users := users }).2.users

def want (st : State) (node : Nat) : List Client :=
  ((st.clientsOf node).insertionSort fun a b => a.1 ≤ b.1).map fun (sub, uuid) => clientOf sub uuid

/-! ## The calls -/

section
variable (node : Nat)

def setEnabled (w : World) (sub : Nat) (enabled : Bool) (fresh : String) (kept : Bool)
    (link : Option Net) : World :=
  match State.update kept (w.state.setEnabled sub node enabled fresh) with
  | none => w
  | some t =>
    match t.findEnablement sub node with
    | none => { w with state := t }
    | some e =>
      { state := t
        users :=
          if enabled then
            if t.isRunning sub then applyTo link (enable · (clientOf sub e.clientUUID) ·) w.users
            else w.users
          else applyTo link (disable · (subscriptionEmail sub) ·) w.users }

def syncClients (w : World) (sub : Nat) (link : Option Net) : World :=
  match w.state.findSubscription sub, w.state.findEnablement sub node with
  | some x, some e =>
    if e.enabled then
      { w with users :=
          if x.running then applyTo link (enable · (clientOf sub e.clientUUID) ·) w.users
          else applyTo link (disable · (subscriptionEmail sub) ·) w.users }
    else w
  | _, _ => w

def stop (w : World) (sub : Nat) (reason : StopReason) (lifetime : UInt64) (now : Int) (kept : Bool)
    (link : Option Net) : World :=
  match State.update kept (some (w.state.stop sub reason lifetime now)) with
  | none => w
  | some t => if t = w.state then w else syncClients node { w with state := t } sub link

def afterLimitChange (w : World) (sub : Nat) (was : Option StopReason) (link : Option Net) :
    World :=
  match w.state.findSubscription sub with
  | none => w
  | some x => if x.stopped = was then w else syncClients node w sub link

def changeLimits (w : World) (sub : Nat) (edited : Option State) (kept : Bool) (link : Option Net) :
    World :=
  match State.update kept edited with
  | none => w
  | some t =>
    afterLimitChange node { w with state := t } sub
      ((w.state.findSubscription sub).bind (·.stopped)) link

def updateSubscription (w : World) (sub : Nat) (p : State.Patch) (lifetime : UInt64) (now : Int)
    (kept : Bool) (link : Option Net) : World :=
  changeLimits node w sub (w.state.patch sub p lifetime now) kept link

def resetUsage (w : World) (sub : Nat) (lifetime : UInt64) (now : Int) (kept : Bool)
    (link : Option Net) : World :=
  changeLimits node w sub (w.state.reset sub lifetime now) kept link

/-- `ReplaceLink`. The connection is looked for again when the node gets its old id back. -/
def replaceLink (w : World) (sub : Nat) (fresh : String) (kept : Bool) (link restore : Option Net) :
    World :=
  match w.state.findSubscription sub, w.state.findEnablement sub node with
  | some x, some was =>
    if !w.state.registered node || !was.enabled then w
    else if x.running then
      match link with
      | none => w
      | some net =>
        match replace net (clientOf sub fresh) { users := w.users } with
        | (some _, n) => { w with users := n.users }
        | (none, n) =>
          match State.update kept (w.state.setUUID sub node fresh) with
          | some t => ⟨t, n.users⟩
          | none =>
            { w with users := applyTo restore (replace · (clientOf sub was.clientUUID) ·) n.users }
    else
      -- A stopped subscription should have no client on the node.
      match State.update kept (w.state.setUUID sub node fresh) with
      | some t => { w with state := t }
      | none => w
  | _, _ => w

/-- A pass over the node's clients. The agent reports no ids. -/
def reconcile (w : World) (net : Net) : Pass :=
  Entry.reconcile net false (want w.state node) { users := w.users }

inductive Op where
  | setEnabled (sub : Nat) (enabled : Bool) (fresh : String) (kept : Bool) (link : Option Net)
  | replaceLink (sub : Nat) (fresh : String) (kept : Bool) (link restore : Option Net)
  | stop (sub : Nat) (reason : StopReason) (lifetime : UInt64) (now : Int) (kept : Bool)
      (link : Option Net)
  | updateSubscription (sub : Nat) (p : State.Patch) (lifetime : UInt64) (now : Int) (kept : Bool)
      (link : Option Net)
  | resetUsage (sub : Nat) (lifetime : UInt64) (now : Int) (kept : Bool) (link : Option Net)
  | reconcile (net : Net)

def step (w : World) : Op → Option World
  | .setEnabled sub enabled fresh kept link => some (setEnabled node w sub enabled fresh kept link)
  | .replaceLink sub fresh kept link restore =>
    some (replaceLink node w sub fresh kept link restore)
  | .stop sub reason lifetime now kept link => some (stop node w sub reason lifetime now kept link)
  | .updateSubscription sub p lifetime now kept link =>
    some (updateSubscription node w sub p lifetime now kept link)
  | .resetUsage sub lifetime now kept link => some (resetUsage node w sub lifetime now kept link)
  | .reconcile net => some { w with users := (reconcile node w net).conn.users }

end

/-! ## The ids agree -/

/-- **Each subscription's client on the node has the id the state has.** -/
def Fits (node : Nat) (st : State) (users : List Client) : Prop :=
  ∀ u ∈ users, ∀ sub, u.email = subscriptionEmail sub →
    ∃ e, st.findEnablement sub node = some e ∧ e.clientUUID = u.uuid

section
variable {node : Nat} {st st' : State} {users : List Client} {link : Option Net}
  {sub : Nat} {e : Enablement}

section
variable (h : Fits node st users)
include h

theorem Fits.put (found : st.findEnablement sub node = some e) :
    Fits node st (put (clientOf sub e.clientUUID) users) := by
  intro u mem x same
  rcases mem_put mem with mem | rfl
  · exact h u mem x same
  · cases subscriptionEmail_inj same
    exact ⟨e, found, rfl⟩

theorem Fits.take (email : String) : Fits node st (take email users) :=
  fun u mem => h u (mem_take.mp mem).1

theorem Fits.edit
    (ids : ∀ sub e, st.findEnablement sub node = some e →
      ∃ e', st'.findEnablement sub node = some e' ∧ e'.clientUUID = e.clientUUID) :
    Fits node st' users := by
  intro u mem sub same
  obtain ⟨e, found, id⟩ := h u mem sub same
  obtain ⟨e', found', id'⟩ := ids sub e found
  exact ⟨e', found', id'.trans id⟩

theorem Fits.enable (found : st.findEnablement sub node = some e) :
    Fits node st (applyTo link (enable · (clientOf sub e.clientUUID) ·) users) := by
  unfold applyTo
  split
  · exact h
  · exact enable_inv _ (fun _ h => h.put found) h

theorem Fits.disable (email : String) : Fits node st (applyTo link (disable · email ·) users) := by
  unfold applyTo
  split
  · exact h
  · exact disable_inv _ (fun _ h => h.take email) h

omit h in
theorem mem_want (valid : st.Valid) {c : Client} :
    c ∈ want st node ↔ ∃ sub e, st.isRunning sub = true ∧ st.findEnablement sub node = some e ∧
      e.enabled = true ∧ c = clientOf sub e.clientUUID := by
  unfold want
  rw [List.mem_map]
  constructor
  · rintro ⟨⟨sub, uuid⟩, mem, rfl⟩
    rw [List.mem_insertionSort] at mem
    obtain ⟨running, e, found, on, rfl⟩ := valid.mem_clientsOf.mp mem
    exact ⟨sub, e, running, found, on, rfl⟩
  · rintro ⟨sub, e, running, found, on, rfl⟩
    refine ⟨(sub, e.clientUUID), ?_, rfl⟩
    rw [List.mem_insertionSort]
    exact valid.mem_clientsOf.mpr ⟨running, e, found, on, rfl⟩

theorem Fits.reconcile (valid : st.Valid) {net : Net} {ids : Bool} :
    Fits node st (Entry.reconcile net ids (want st node) { users := users }).conn.users := by
  refine reconcile_inv net (fun c wanted users h => ?_) (fun email _ h => h.take email) h
  obtain ⟨sub, e, -, found, -, rfl⟩ := (mem_want valid).mp wanted
  exact h.put found

end

end

/-! ## Every call keeps them so -/

structure Inv (node : Nat) (w : World) : Prop where
  valid : w.state.Valid
  fits : Fits node w.state w.users

variable {fresh : String}

section
variable {node : Nat} {w : World} {sub : Nat} {kept : Bool} {link : Option Net}

theorem Inv.setEnabled (h : Inv node w) (enabled : Bool) (fresh : String) :
    Inv node (setEnabled node w sub enabled fresh kept link) := by
  unfold Link.setEnabled
  split
  · exact h
  next t made =>
    obtain ⟨made, valid⟩ := update_eq_some made
    have fits : Fits node t w.users := h.fits.edit fun x e found => by
      rw [findEnablement_setEnabled made]
      by_cases here : x = sub ∧ node = node
      · rw [if_pos here, ← here.1, found]
        exact ⟨_, rfl, rfl⟩
      · rw [if_neg here]
        exact ⟨e, found, rfl⟩
    split
    · exact ⟨valid, fits⟩
    next e found =>
      refine ⟨valid, ?_⟩
      split
      · split
        · exact fits.enable found
        · exact fits
      · exact fits.disable _

/-- The clients are sent again. -/
theorem Inv.syncClients (h : Inv node w) : Inv node (syncClients node w sub link) := by
  unfold Link.syncClients
  split
  next x e _ found =>
    split
    · refine ⟨h.valid, ?_⟩
      split
      · exact h.fits.enable found
      · exact h.fits.disable _
    · exact h
  · exact h

variable {t st : State} {users' : List Client}

theorem Inv.marks (h : Inv node w) (valid : t.Valid) (marks : w.state.Marks t sub) :
    Inv node { w with state := t } :=
  ⟨valid, h.fits.edit fun x e found => ⟨e, (marks.findEnablement x node).trans found, rfl⟩⟩

/-- A subscription is stopped. -/
theorem Inv.stop (h : Inv node w) (reason : StopReason) (lifetime : UInt64) (now : Int) :
    Inv node (stop node w sub reason lifetime now kept link) := by
  unfold Link.stop
  split
  · exact h
  next t made =>
    obtain ⟨edited, valid⟩ := update_eq_some made
    cases edited
    split
    · exact h
    next changed => exact (h.marks valid (marks_stop changed)).syncClients

/-- The limits of a subscription change. -/
theorem Inv.changeLimits (h : Inv node w) {edited : Option State}
    (marks : ∀ t, edited = some t → w.state.Marks t sub) :
    Inv node (changeLimits node w sub edited kept link) := by
  unfold Link.changeLimits
  split
  · exact h
  next t made =>
    obtain ⟨edited, valid⟩ := update_eq_some made
    have marked := h.marks valid (marks t edited)
    unfold afterLimitChange
    split
    · exact marked
    split
    · exact marked
    · exact marked.syncClients

/-- The client of one subscription is replaced, or is not there; the others stay. -/
def Swapped (sub : Nat) (uuid : String) (users users' : List Client) : Prop :=
  ∀ u ∈ users', u ∈ users ∧ u.email ≠ subscriptionEmail sub ∨ u = clientOf sub uuid

theorem Fits.setUUID {users : List Client}
    (h : Fits node st users) (made : st.setUUID sub node fresh = some t)
    (swapped : Swapped sub fresh users users') : Fits node t users' := by
  intro u mem x same
  rw [findEnablement_setUUID made]
  rcases swapped u mem with ⟨mem, other⟩ | rfl
  · have ne : x ≠ sub := fun here => other (here ▸ same)
    rw [if_neg fun here => ne here.1]
    exact h u mem x same
  cases subscriptionEmail_inj same
  unfold State.setUUID at made
  split at made
  next on =>
    obtain ⟨e, found, -⟩ := (any_eq_true _ _).mp on
    rw [if_pos ⟨rfl, rfl⟩, found]
    exact ⟨_, rfl, rfl⟩
  · cases made

theorem Fits.swapped {users : List Client} {e : Enablement}
    (h : Fits node st users) (found : st.findEnablement sub node = some e)
    (swapped : Swapped sub e.clientUUID users users') : Fits node st users' := by
  intro u mem x same
  rcases swapped u mem with ⟨mem, -⟩ | rfl
  · exact h u mem x same
  · cases subscriptionEmail_inj same
    exact ⟨e, found, rfl⟩

theorem Swapped.trans {users users'' : List Client} {a b : String}
    (first : Swapped sub a users users') (second : Swapped sub b users' users'') :
    Swapped sub b users users'' := by
  intro u mem
  rcases second u mem with ⟨mem, other⟩ | new
  · rcases first u mem with kept | rfl
    · exact .inl kept
    · exact absurd rfl other
  · exact .inr new

end

/-- **The condition** on the replacing of links. -/
def careful (node : Nat) (w : World) : Op → Bool
  | .replaceLink sub fresh kept link restore =>
    if w.state.isRunning sub then
      link.all fun net =>
        -- The answer to the add is not lost.
        !(decide (net.outcome 0 = .answered) && (net.outcome 1).lost) &&
        -- If the new id cannot be saved, it is taken off the node.
        ((replace net (clientOf sub fresh) { users := w.users }).1.isSome ||
          (State.update kept (w.state.setUUID sub node fresh)).isSome ||
          restore.any fun net => (net.outcome 0).took)
    -- The node does not have the client of a stopped subscription.
    else !w.users.any (·.email = subscriptionEmail sub)
  | _ => true

section
variable {node : Nat} {w : World} {sub : Nat} {kept : Bool} {link : Option Net}

/-- The id the state has passes the checks of the node's calls, as the new one does. -/
theorem Inv.check_was (h : Inv node w) {was : Enablement}
    (found : w.state.findEnablement sub node = some was)
    (check : (clientOf sub fresh).check = none) : (clientOf sub was.clientUUID).check = none := by
  have form := (h.valid.forms was (Keyed.of_find found).1).2.2
  refine or_eq_none_iff.mpr ⟨(or_eq_none_iff.mp check).1, ?_⟩
  exact if_pos (uuidRe_of_validUUID form)

/-- A new link takes the old one's place. -/
theorem Inv.replaceLink (h : Inv node w) {restore : Option Net}
    (guard : careful node w (.replaceLink sub fresh kept link restore) = true) :
    Inv node (replaceLink node w sub fresh kept link restore) := by
  unfold Link.replaceLink
  split
  case h_2 => exact h
  next x was foundX found =>
  split
  · exact h
  have runs : w.state.isRunning sub = x.running := by
    rw [isRunning, foundX]
    rfl
  dsimp only [careful] at guard
  rw [runs] at guard
  split
  next running =>
    rw [if_pos running] at guard
    split
    · exact h
    next net =>
      obtain ⟨answered, saved⟩ := Bool.and_eq_true_iff.mp (all_some.symm.trans guard)
      split
      next n called =>
        have err : (replace net (clientOf sub fresh) { users := w.users }).1 ≠ none := by
          rw [called]
          exact some_ne_none _
        refine ⟨h.valid, fun u mem => h.fits u (mem_replace_err err ?_ ?_)⟩
        · intro first
          have lost : (net.outcome 1).lost = false := by simpa [first] using answered
          exact lost
        · rw [called]
          exact mem
      next n called =>
        have nil : (replace net (clientOf sub fresh) { users := w.users }).1 = none := by
          rw [called]
        obtain ⟨check, took⟩ := replace_nil nil
        have swapped : Swapped sub fresh w.users n.users := by
          intro u mem
          refine mem_replace check took ?_
          rw [called]
          exact mem
        split
        next t made =>
          obtain ⟨made, valid⟩ := update_eq_some made
          exact ⟨valid, h.fits.setUUID made swapped⟩
        next failed =>
          rw [called, failed] at saved
          obtain ⟨net, rfl, took⟩ := (any_eq_true _ _).mp saved
          refine ⟨h.valid, h.fits.swapped found (swapped.trans fun u mem => ?_)⟩
          exact mem_replace (n := { users := n.users }) (h.check_was found check) took mem
  next stopped =>
    rw [if_neg stopped] at guard
    split
    next t made =>
      obtain ⟨made, valid⟩ := update_eq_some made
      refine ⟨valid, h.fits.setUUID made fun u mem => .inl ⟨mem, ?_⟩⟩
      simpa using List.any_eq_false.mp (Bool.not_eq_true' _ |>.mp guard) u mem
    · exact h

/-- One careful call keeps the node's users those of the state's links. -/
theorem Inv.step {w' : World} {op : Op} (h : Inv node w) (guard : careful node w op = true)
    (stepped : Link.step node w op = some w') : Inv node w' := by
  cases op with
  | setEnabled sub enabled fresh kept link =>
    cases stepped
    exact h.setEnabled enabled fresh
  | replaceLink sub fresh kept link restore =>
    cases stepped
    exact h.replaceLink guard
  | stop sub reason lifetime now kept link =>
    cases stepped
    exact h.stop reason lifetime now
  | updateSubscription sub p lifetime now kept link =>
    cases stepped
    exact h.changeLimits fun _ => marks_patch
  | resetUsage sub lifetime now kept link =>
    cases stepped
    exact h.changeLimits fun _ => marks_reset
  | reconcile net =>
    cases stepped
    exact ⟨h.valid, h.fits.reconcile h.valid⟩

end

/-- **The link handed out is the one that works.** After any careful run and a reconcile without an
error, the node has a client of each subscription that runs and is on there, and its id is the one
the state has, whatever failed on the way. -/
theorem current_link_works {node : Nat} {w w' : World} {ops : List Op} (valid : w.state.Valid)
    (fits : Fits node w.state w.users)
    (careful : Runs.Along (step node) (fun w op => careful node w op = true) w ops)
    (ran : Runs.run (step node) w ops = some w') {net : Net}
    (reconciled : (reconcile node w' net).errs = []) {sub : Nat} {e : Enablement}
    (running : w'.state.isRunning sub = true)
    (found : w'.state.findEnablement sub node = some e) (on : e.enabled = true) :
    Holds (reconcile node w' net).conn.users (subscriptionEmail sub) ∧
      ∀ u ∈ (reconcile node w' net).conn.users, u.email = subscriptionEmail sub →
        u.uuid = e.clientUUID := by
  have inv : Inv node w' :=
    Runs.run_inv_along (fun _ _ _ h guard => h.step guard) ⟨valid, fits⟩ careful ran
  constructor
  · exact holds_of_reconcile reconciled ((mem_want inv.valid).mpr ⟨sub, e, running, found, on, rfl⟩)
  intro u mem same
  obtain ⟨e', found', id⟩ := inv.fits.reconcile inv.valid u mem sub same
  rw [found] at found'
  cases found'
  exact id.symm

/-! ## A node that is away, and an answer that is lost -/

def oldID : String := "0a000000-0000-4000-8000-000000000000"

def freshID : String := "0b000000-0000-4000-8000-000000000000"

/-- A subscription of ten bytes, on at the node and with its client there. -/
def connected : World where
  state :=
    { nextSubscriptionID := 2
      nodes := [{ id := 1 }]
      subscriptions := [{ id := 1, trafficLimit := 10 }]
      enablements := [⟨1, 1, oldID, true⟩] }
  users := [clientOf 1 oldID]

theorem fits_connected : Fits 1 connected.state connected.users := by
  intro u mem sub same
  cases List.mem_singleton.mp mem
  cases subscriptionEmail_inj same
  exact ⟨_, rfl, rfl⟩

/-- The one call fails, after the node has done what it was asked or before. -/
def failing (call : Nat) (took : Bool) : Net where
  outcome k := if k = call then .failed took .agent else .answered

/-- The subscription is stopped while the node is away. A reconcile takes its client off and the
answer is lost, its link is replaced, and putting the client back fails. -/
def awayWhileStopped : List Op :=
  [.stop 1 .limit 10 0 true none, .reconcile (failing 1 true),
   .replaceLink 1 freshID true none none, .resetUsage 1 10 0 true (some (failing 0 false))]

theorem current_link_works_awayWhileStopped :
    ∃ w', Runs.run (step 1) connected awayWhileStopped = some w' ∧ w'.users = [] ∧
      (reconcile 1 w' {}).errs = [] ∧
      Holds (reconcile 1 w' {}).conn.users (subscriptionEmail 1) ∧
      ∀ u ∈ (reconcile 1 w' {}).conn.users, u.email = subscriptionEmail 1 → u.uuid = freshID := by
  have ends : (Runs.runChecked (step 1) (careful 1) connected awayWhileStopped).map
      (fun w => (w.users, (reconcile 1 w {}).errs, w.state.isRunning 1,
        w.state.findEnablement 1 1)) =
      some ([], [], true, some ⟨1, 1, freshID, true⟩) := by
    decide
  obtain ⟨w', checked, ends⟩ := map_eq_some_iff.mp ends
  obtain ⟨ran, along⟩ := Runs.of_runChecked checked
  simp only [Prod.mk.injEq] at ends
  obtain ⟨away, reconciled, running, found⟩ := ends
  exact ⟨w', ran, away, reconciled,
    current_link_works (valid_of_validate (by decide)) fits_connected
      along ran reconciled running found rfl⟩

/-- **A link that does not work**: the node has the new id, the answer is lost, and the state keeps
the old one. A reconcile finds nothing to do. -/
theorem lost_answer :
    ∃ w', Runs.run (step 1) connected
        [.replaceLink 1 freshID true (some (failing 1 true)) none] = some w' ∧
      connected.state.Valid ∧ Fits 1 connected.state connected.users ∧
      (reconcile 1 w' {}).errs = [] ∧ w'.state.isRunning 1 = true ∧
      w'.state.findEnablement 1 1 = some ⟨1, 1, oldID, true⟩ ∧
      (reconcile 1 w' {}).conn.users = [clientOf 1 freshID] ∧ freshID ≠ oldID := by
  have ends : (Runs.run (step 1) connected
        [.replaceLink 1 freshID true (some (failing 1 true)) none]).map
      (fun w => ((reconcile 1 w {}).errs, w.state.isRunning 1, w.state.findEnablement 1 1,
        (reconcile 1 w {}).conn.users)) =
      some ([], true, some ⟨1, 1, oldID, true⟩, [clientOf 1 freshID]) := by
    decide
  obtain ⟨w', ran, ends⟩ := map_eq_some_iff.mp ends
  simp only [Prod.mk.injEq] at ends
  obtain ⟨reconciled, running, found, users⟩ := ends
  exact ⟨w', ran, valid_of_validate (by decide), fits_connected, reconciled, running,
    found, users, by decide⟩

end NasnetPanel.RemoteNodes.Link
