import NasnetPanel.Lib.Runs
import NasnetPanel.RemoteNodes.State

/-!
# RemoteNodes.Limits — the count of a subscription across resets, stops and backups

What a subscription has used is its lifetime count on this install, plus what it brought from a
backup, less what the count stood at when it was last reset; a limit is on that
(`manager/limits.go`, `manager/backup.go`). Here the calls of a person and the periodic check run
against growing counts and a clock that does not go back: `enforceLimits` reads the state once and
then looks at one subscription after the other, and anything may happen in between. A backup holds
the state with what each subscription used, and an import moves to another install, whose counts
start at zero.

`did` is what a step comes to for one subscription, from which all the rest is read off. Below
saturation, what is used is what was moved since the last reset (`Exact`).

The hub's restart, after which the bucket an agent is still filling is missing from the counts for a
moment, is not modelled, nor what the marks do to the nodes (`Agreed`, `Converge`).
-/

namespace NasnetPanel.RemoteNodes.Limits
open List Option State

/-! ## Installs -/

structure Totals where
  up : UInt64 := 0
  down : UInt64 := 0
deriving DecidableEq, Repr

def Totals.plus (a b : Totals) : Totals := ⟨sat a.up b.up, sat a.down b.down⟩

/-- What `ExportBackup` seals. -/
structure Backup where
  state : State
  /-- The true counts at that time. Not in the source. -/
  moved : Nat → Nat

structure World where
  state : State := {}
  usage : Nat → Totals := fun _ => {}
  now : Int := 0
  /-- A check under way: when it began, and the subscriptions it has yet to look at. -/
  checking : Option (Int × List Subscription) := none
  backups : List Backup := []
  /-- The bytes each subscription moved since its last reset. Not in the source. -/
  moved : Nat → Nat := fun _ => 0

open World

namespace World

def find (w : World) (sub : Nat) : Option Subscription := w.state.findSubscription sub

def lifetime (w : World) (sub : Nat) : UInt64 := sat (w.usage sub).up (w.usage sub).down

/-- `Manager.trafficUsed`. -/
def used (w : World) (x : Subscription) : UInt64 := trafficUsed x (w.lifetime x.id)

def due (w : World) (x : Subscription) : Option StopReason := x.stopReason (w.used x) w.now

/-- The state as a backup holds it: each subscription takes what it has used with it. -/
def carried (w : World) : State :=
  { w.state with
    subscriptions := w.state.subscriptions.map fun x =>
      { x with trafficCarried := w.used x, trafficBase := 0 } }

/-- One subscription of a check that began at `began`. -/
def look (w : World) (began : Int) (x : Subscription) (kept : Bool) : State :=
  if x.running then
    match x.stopReason (w.used x) began with
    | some reason =>
      (State.update kept (some (w.state.stop x.id reason (w.lifetime x.id) w.now))).getD w.state
    | none => w.state
  else w.state

end World

inductive Label where
  | grow (sub : Nat) (moved : Totals)
  | elapse (d : Nat)
  | create (nodes : List Nat) (limit : UInt64) (expires : Option Int) (uuid : Nat → String)
      (kept : Bool)
  | remove (sub : Nat) (kept : Bool)
  | patch (sub : Nat) (p : State.Patch) (kept : Bool)
  | reset (sub : Nat) (kept : Bool)
  /-- `enforceLimits` begins. -/
  | enforce
  /-- It looks at the next subscription. -/
  | look (kept : Bool)
  | exportBackup
  /-- An empty install, where the counter of ids stands at `next`, takes over from a backup. -/
  | importBackup (k next : Nat) (kept : Bool)

/-- A call the store refuses is no step, but a check goes on. -/
def step (w : World) : Label → Option World
  | .grow sub t =>
    if (w.find sub).isSome then
      some { w with
        usage := fun s => if s = sub then (w.usage sub).plus t else w.usage s
        moved := fun s => if s = sub then w.moved sub + t.up.toNat + t.down.toNat else w.moved s }
    else none
  | .elapse d => some { w with now := w.now + d }
  | .create nodes limit expires uuid kept =>
    (State.update kept (w.state.create nodes limit expires uuid)).map fun t =>
      { w with
        state := t
        moved := fun s => if s = w.state.nextSubscriptionID then 0 else w.moved s }
  | .remove sub kept =>
    (State.update kept (w.state.removeSubscription sub)).map fun t => { w with state := t }
  | .patch sub p kept =>
    (State.update kept (w.state.patch sub p (w.lifetime sub) w.now)).map fun t =>
      { w with state := t }
  | .reset sub kept =>
    (State.update kept (w.state.reset sub (w.lifetime sub) w.now)).map fun t =>
      { w with state := t, moved := fun s => if s = sub then 0 else w.moved s }
  | .enforce =>
    if w.checking.isNone then some { w with checking := some (w.now, w.state.subscriptions) }
    else none
  | .look kept =>
    match w.checking with
    | none => none
    | some (_, []) => some { w with checking := none }
    | some (began, x :: rest) =>
      some { w with state := w.look began x kept, checking := some (began, rest) }
  | .exportBackup => some { w with backups := w.backups ++ [⟨w.carried, w.moved⟩] }
  | .importBackup k next kept =>
    w.backups[k]?.bind fun b =>
      (State.update kept (some { b.state with
        nextSubscriptionID := max b.state.nextSubscriptionID next })).map fun t =>
        { w with state := t, usage := fun _ => {}, checking := none, moved := b.moved }

def installed (now : Int) : World := { now := now }

/-! ## Counts -/

theorem toNat_sat (a b : UInt64) :
    (sat a b).toNat = min (a.toNat + b.toNat) 18446744073709551615 := by
  unfold sat
  have hb := b.toNat_lt
  have sum := UInt64.toNat_add a b
  split
  case isTrue h =>
    rw [UInt64.le_iff_toNat_le] at h
    omega
  case isFalse h =>
    rw [UInt64.le_iff_toNat_le] at h
    have max : (18446744073709551615 : UInt64).toNat = 18446744073709551615 := rfl
    omega

theorem toNat_trafficUsed (x : Subscription) (lifetime : UInt64) :
    (trafficUsed x lifetime).toNat =
      min (lifetime.toNat + x.trafficCarried.toNat) 18446744073709551615 - x.trafficBase.toNat := by
  unfold trafficUsed
  rw [← toNat_sat]
  dsimp only
  split
  case isTrue h =>
    rw [UInt64.le_iff_toNat_le] at h
    have zero : (0 : UInt64).toNat = 0 := rfl
    omega
  case isFalse h =>
    rw [UInt64.le_iff_toNat_le] at h
    exact UInt64.toNat_sub_of_le _ _ (UInt64.le_iff_toNat_le.mpr (by omega))

/-! ## What a step does to a subscription -/

def Label.imports : Label → Bool
  | .importBackup .. => true
  | _ => false

/-- Its counts and the clock stand. -/
structure Still (w w' : World) (sub : Nat) : Prop where
  usage : w'.usage sub = w.usage sub
  moved : w'.moved sub = w.moved sub
  now : w'.now = w.now

/-- What a step comes to for one subscription. -/
inductive Did (w w' : World) (sub : Nat) : Label → Prop where
  | kept {l : Label} (here : l.imports = false) (find : w'.find sub = w.find sub)
      (still : Still w w' sub) : Did w w' sub l
  | grew {t : Totals} (there : (w.find sub).isSome) (find : w'.find sub = w.find sub)
      (usage : w'.usage sub = (w.usage sub).plus t)
      (moved : w'.moved sub = w.moved sub + t.up.toNat + t.down.toNat) (now : w'.now = w.now) :
      Did w w' sub (.grow sub t)
  | elapsed {d : Nat} (find : w'.find sub = w.find sub) (usage : w'.usage sub = w.usage sub)
      (moved : w'.moved sub = w.moved sub) (now : w'.now = w.now + d) : Did w w' sub (.elapse d)
  | marked {kept : Bool} {x : Subscription} {reason : StopReason} (found : w.find sub = some x)
      (find : w'.find sub = some { x with stopped := some reason }) (still : Still w w' sub) :
      Did w w' sub (.look kept)
  | patched {x : Subscription} {p : State.Patch} {kept : Bool} (found : w.find sub = some x)
      (find : w'.find sub = some (p.apply x (w.lifetime sub) w.now)) (still : Still w w' sub) :
      Did w w' sub (.patch sub p kept)
  | reset {x : Subscription} {kept : Bool} (found : w.find sub = some x)
      (find : w'.find sub = some { x with
        trafficBase := sat (w.lifetime sub) x.trafficCarried, stopped := x.stopReason 0 w.now })
      (usage : w'.usage sub = w.usage sub) (moved : w'.moved sub = 0) (now : w'.now = w.now) :
      Did w w' sub (.reset sub kept)
  | created {nodes : List Nat} {limit : UInt64} {expires : Option Int} {uuid : Nat → String}
      {kept : Bool} (fresh : sub = w.state.nextSubscriptionID)
      (find : w'.find sub = some { id := sub, trafficLimit := limit, expiresAt := expires })
      (usage : w'.usage sub = w.usage sub) (moved : w'.moved sub = 0) (now : w'.now = w.now) :
      Did w w' sub (.create nodes limit expires uuid kept)
  | removed {kept : Bool} (find : w'.find sub = none) (still : Still w w' sub) :
      Did w w' sub (.remove sub kept)
  | imported {b : Backup} {k next : Nat} {kept : Bool} (there : w.backups[k]? = some b)
      (find : w'.find sub = b.state.findSubscription sub) (usage : w'.usage sub = {})
      (moved : w'.moved sub = b.moved sub) : Did w w' sub (.importBackup k next kept)

variable {w w' : World} {sub : Nat} {x : Subscription} {s t : State} {l : Label}

theorem id_of_find (found : w.find sub = some x) : x.id = sub := (Keyed.of_find found).2

theorem find_stop (s : State) (sub i : Nat) (reason : StopReason) (lifetime : UInt64) (now : Int) :
    (s.stop i reason lifetime now).findSubscription sub = s.findSubscription sub ∨
      ∃ x, i = sub ∧ s.findSubscription sub = some x ∧
        (s.stop i reason lifetime now).findSubscription sub =
          some { x with stopped := some reason } := by
  unfold stop
  split
  · exact .inl rfl
  next x found =>
    split
    · exact .inl rfl
    split
    · exact .inl rfl
    rw [findSubscription_changeSubscription (by simp)]
    by_cases same : sub = i
    · subst same
      rw [if_pos rfl, found]
      exact .inr ⟨x, rfl, rfl, rfl⟩
    · exact .inl (if_neg same)

theorem find_look (w : World) (sub : Nat) (began : Int) (x : Subscription) (kept : Bool) :
    (w.look began x kept).findSubscription sub = w.find sub ∨
      ∃ y reason, w.find sub = some y ∧
        (w.look began x kept).findSubscription sub = some { y with stopped := some reason } := by
  unfold look
  split
  · split
    next reason _ =>
      cases written : update kept (some (w.state.stop x.id reason (w.lifetime x.id) w.now)) with
      | none => exact .inl rfl
      | some t =>
        obtain ⟨made, -⟩ := update_eq_some written
        rw [getD_some, ← Option.some.inj made]
        rcases find_stop w.state sub x.id reason (w.lifetime x.id) w.now with
          same | ⟨y, -, found, marked⟩
        · exact .inl same
        · exact .inr ⟨y, reason, found, marked⟩
    · exact .inl rfl
  · exact .inl rfl

theorem find_of_marks {i : Nat} (marks : s.Marks t i) (other : sub ≠ i) :
    t.findSubscription sub = s.findSubscription sub := by
  obtain ⟨f, rfl, keeps⟩ := marks
  rw [findSubscription_changeSubscription keeps, if_neg other]

theorem find_patch {p : State.Patch} {lifetime : UInt64} {now : Int}
    (made : s.patch sub p lifetime now = some t) : ∃ x, s.findSubscription sub = some x ∧
      t.findSubscription sub = some (p.apply x lifetime now) := by
  unfold patch at made
  split at made
  · cases made
  next x found =>
    obtain ⟨-, rfl⟩ := Runs.of_unless made
    refine ⟨x, found, ?_⟩
    rw [findSubscription_changeSubscription, if_pos rfl, found]
    · rfl
    intro y
    unfold State.Patch.apply
    split <;> rfl

theorem find_reset {lifetime : UInt64} {now : Int}
    (made : s.reset sub lifetime now = some t) : ∃ x, s.findSubscription sub = some x ∧
      t.findSubscription sub = some { x with
        trafficBase := sat lifetime x.trafficCarried, stopped := x.stopReason 0 now } := by
  unfold reset at made
  split at made
  · cases made
  next x found =>
    cases made
    refine ⟨x, found, ?_⟩
    rw [findSubscription_changeSubscription (by simp), if_pos rfl, found]
    rfl

/-- **Every step does one of these to a subscription.** -/
theorem did (valid : w.state.Valid) (ht : step w l = some w') (sub : Nat) : Did w w' sub l := by
  cases l with
  | grow s t =>
    obtain ⟨there, rfl⟩ := Runs.of_guard ht
    by_cases same : sub = s
    · subst same
      exact .grew there rfl (if_pos rfl) (if_pos rfl) rfl
    · exact .kept rfl rfl ⟨if_neg same, if_neg same, rfl⟩
  | elapse d =>
    cases ht
    exact .elapsed rfl rfl rfl rfl
  | create nodes limit expires uuid kept =>
    obtain ⟨t, edited, -, rfl⟩ := of_map_update ht
    have find := findSubscription_create valid edited sub
    by_cases fresh : sub = w.state.nextSubscriptionID
    · rw [if_pos fresh, ← fresh] at find
      exact .created fresh find rfl (if_pos fresh) rfl
    · rw [if_neg fresh] at find
      exact .kept rfl find ⟨rfl, if_neg fresh, rfl⟩
  | remove s kept =>
    obtain ⟨t, edited, -, rfl⟩ := of_map_update ht
    have find := findSubscription_removeSubscription valid edited sub
    by_cases same : sub = s
    · subst same
      rw [if_pos rfl] at find
      exact .removed find ⟨rfl, rfl, rfl⟩
    · rw [if_neg same] at find
      exact .kept rfl find ⟨rfl, rfl, rfl⟩
  | patch s p kept =>
    obtain ⟨t, edited, -, rfl⟩ := of_map_update ht
    by_cases same : sub = s
    · subst same
      obtain ⟨x, found, find⟩ := find_patch edited
      exact .patched found find ⟨rfl, rfl, rfl⟩
    · exact .kept rfl (find_of_marks (marks_patch edited) same) ⟨rfl, rfl, rfl⟩
  | reset s kept =>
    obtain ⟨t, edited, -, rfl⟩ := of_map_update ht
    by_cases same : sub = s
    · subst same
      obtain ⟨x, found, find⟩ := find_reset edited
      exact .reset found find rfl (if_pos rfl) rfl
    · exact .kept rfl (find_of_marks (marks_reset edited) same) ⟨rfl, if_neg same, rfl⟩
  | enforce =>
    obtain ⟨-, rfl⟩ := Runs.of_guard ht
    exact .kept rfl rfl ⟨rfl, rfl, rfl⟩
  | look kept =>
    dsimp only [step] at ht
    split at ht
    · cases ht
    · cases ht
      exact .kept rfl rfl ⟨rfl, rfl, rfl⟩
    next began x rest _ =>
      cases ht
      rcases find_look w sub began x kept with same | ⟨y, reason, found, marked⟩
      · exact .kept rfl same ⟨rfl, rfl, rfl⟩
      · exact .marked found marked ⟨rfl, rfl, rfl⟩
  | exportBackup =>
    cases ht
    exact .kept rfl rfl ⟨rfl, rfl, rfl⟩
  | importBackup k next kept =>
    obtain ⟨b, there, restored⟩ := bind_eq_some_iff.mp ht
    obtain ⟨t, ⟨⟩, -, rfl⟩ := of_map_update restored
    exact .imported there rfl rfl rfl

/-! ## Invariants -/

theorem next_stop (s : State) (sub : Nat) (reason : StopReason) (lifetime : UInt64) (now : Int) :
    (s.stop sub reason lifetime now).nextSubscriptionID = s.nextSubscriptionID := by
  unfold stop
  repeat' split
  all_goals rfl

theorem state_look (w : World) (began : Int) (x : Subscription) (kept : Bool) :
    w.look began x kept = w.state ∨ (w.look began x kept).Valid ∧
      (w.look began x kept).nextSubscriptionID = w.state.nextSubscriptionID := by
  unfold look
  split
  · split
    next reason _ =>
      cases written : update kept (some (w.state.stop x.id reason (w.lifetime x.id) w.now)) with
      | none => exact .inl rfl
      | some t =>
        obtain ⟨made, valid⟩ := update_eq_some written
        exact .inr ⟨valid, Option.some.inj made ▸ next_stop ..⟩
    · exact .inl rfl
  · exact .inl rfl

/-- A step leaves the state, or the store checked the next one; the counter of ids does not go
back on an install. -/
theorem state_step (ht : step w l = some w') :
    w'.state = w.state ∨ w'.state.Valid ∧ (l.imports = false →
      w.state.nextSubscriptionID ≤ w'.state.nextSubscriptionID) := by
  cases l with
  | grow | enforce =>
    obtain ⟨-, rfl⟩ := Runs.of_guard ht
    exact .inl rfl
  | elapse | exportBackup =>
    cases ht
    exact .inl rfl
  | create nodes limit expires uuid kept =>
    obtain ⟨t, edited, valid, rfl⟩ := of_map_update ht
    refine .inr ⟨valid, fun _ => ?_⟩
    obtain ⟨-, rfl⟩ := Runs.of_guard edited
    exact Nat.le_succ _
  | remove sub kept =>
    obtain ⟨t, edited, valid, rfl⟩ := of_map_update ht
    refine .inr ⟨valid, fun _ => ?_⟩
    obtain ⟨-, rfl⟩ := Runs.of_unless edited
    exact Nat.le_refl _
  | patch sub p kept =>
    obtain ⟨t, edited, valid, rfl⟩ := of_map_update ht
    obtain ⟨f, rfl, -⟩ := marks_patch edited
    exact .inr ⟨valid, fun _ => Nat.le_refl _⟩
  | reset sub kept =>
    obtain ⟨t, edited, valid, rfl⟩ := of_map_update ht
    obtain ⟨f, rfl, -⟩ := marks_reset edited
    exact .inr ⟨valid, fun _ => Nat.le_refl _⟩
  | look kept =>
    dsimp only [step] at ht
    split at ht
    · cases ht
    · cases ht
      exact .inl rfl
    next began x rest _ =>
      cases ht
      rcases state_look w began x kept with same | ⟨valid, next⟩
      · exact .inl same
      · exact .inr ⟨valid, fun _ => Nat.le_of_eq next.symm⟩
  | importBackup k next kept =>
    obtain ⟨b, -, restored⟩ := bind_eq_some_iff.mp ht
    obtain ⟨t, -, valid, rfl⟩ := of_map_update restored
    refine .inr ⟨valid, fun here => ?_⟩
    cases here

/-- One step keeps the state valid. -/
theorem valid_step (valid : w.state.Valid) (ht : step w l = some w') : w'.state.Valid := by
  rcases state_step ht with same | ⟨checked, -⟩
  · rwa [same]
  · exact checked

/-- Only an import takes the next id back. -/
theorem next_step (here : l.imports = false)
    (ht : step w l = some w') : w.state.nextSubscriptionID ≤ w'.state.nextSubscriptionID := by
  rcases state_step ht with same | ⟨-, next⟩
  · exact Nat.le_of_eq (by rw [same])
  · exact next here

theorem below_of_find (valid : w.state.Valid)
    (found : w.find sub = some x) : sub < w.state.nextSubscriptionID := by
  obtain ⟨mem, rfl⟩ := Keyed.of_find found
  exact valid.below x mem

/-- What holds of every install: the state is valid, and an id not given out has no counts. -/
structure Sound (w : World) : Prop where
  valid : w.state.Valid
  unused : ∀ sub, w.state.nextSubscriptionID ≤ sub → w.usage sub = {}

theorem sound_installed (now : Int) : Sound (installed now) :=
  ⟨valid_of_validate (s := {}) (by decide), fun _ _ => rfl⟩

/-- One step keeps ids that were not given out without counts. -/
theorem sound_step (h : Sound w) (ht : step w l = some w') : Sound w' := by
  refine ⟨valid_step h.valid ht, fun sub out => ?_⟩
  have before (here : l.imports = false) : w.usage sub = {} :=
    h.unused sub (Nat.le_trans (next_step here ht) out)
  cases did h.valid ht sub with
  | kept here _ still => exact still.usage.trans (before here)
  | grew there =>
    -- counts are of a subscription there is
    obtain ⟨x, found⟩ := isSome_iff_exists.mp there
    have given := below_of_find h.valid found
    have next := next_step rfl ht
    omega
  | elapsed _ usage | reset _ _ usage | created _ _ usage => exact usage.trans (before rfl)
  | marked _ _ still | patched _ _ still | removed _ still => exact still.usage.trans (before rfl)
  | imported _ _ usage => exact usage

/-! ## The count is what was moved -/

def World.counted (w : World) (x : Subscription) : Nat :=
  (w.usage x.id).up.toNat + (w.usage x.id).down.toNat + x.trafficCarried.toNat

/-- No sum passes the largest value. -/
def unsaturated (w : World) : Label → Bool
  | .grow sub t => (w.find sub).all fun x =>
    w.counted x + t.up.toNat + t.down.toNat < 18446744073709551616
  | _ => true

theorem room_of_unsaturated {t : Totals}
    (found : w.find sub = some x) (below : unsaturated w (.grow sub t) = true) :
    w.counted x + t.up.toNat + t.down.toNat < 18446744073709551616 := by
  rw [unsaturated, found] at below
  exact of_decide_eq_true below

/-- Base and moved bytes are the bytes counted, here and in every backup. -/
structure Exact (w : World) : Prop where
  here : ∀ sub x, w.find sub = some x →
    x.trafficBase.toNat + w.moved sub = w.counted x ∧ w.counted x < 18446744073709551616
  backups : ∀ b ∈ w.backups, ∀ sub x, b.state.findSubscription sub = some x →
    x.trafficBase = 0 ∧ x.trafficCarried.toNat = b.moved sub

theorem toNat_used (w : World) (x : Subscription) (below : w.counted x < 18446744073709551616) :
    (w.used x).toNat = w.counted x - x.trafficBase.toNat := by
  unfold used lifetime
  unfold counted at below ⊢
  rw [toNat_trafficUsed, toNat_sat]
  omega

theorem Exact.used (h : Exact w)
    (found : w.find sub = some x) : (w.used x).toNat = w.moved sub := by
  obtain ⟨sum, below⟩ := h.here sub x found
  rw [toNat_used w x below]
  omega

theorem find_carried (w : World) (sub : Nat) :
    w.carried.findSubscription sub = (w.find sub).map fun x =>
      { x with trafficCarried := w.used x, trafficBase := 0 } :=
  Keyed.find_map
    (f := fun x : Subscription => { x with trafficCarried := w.used x, trafficBase := 0 })
    (fun _ => rfl) sub

theorem apply_base (p : State.Patch) (x : Subscription) (lifetime : UInt64) (now : Int) :
    (p.apply x lifetime now).id = x.id ∧ (p.apply x lifetime now).trafficBase = x.trafficBase ∧
      (p.apply x lifetime now).trafficCarried = x.trafficCarried := by
  unfold State.Patch.apply
  split <;> exact ⟨rfl, rfl, rfl⟩

/-- Only an export adds a backup. -/
theorem backups_step (ht : step w l = some w') :
    w'.backups = w.backups ∨
      w'.backups = w.backups ++ [⟨w.carried, w.moved⟩] ∧ l = .exportBackup := by
  cases l with
  | grow | enforce =>
    obtain ⟨-, rfl⟩ := Runs.of_guard ht
    exact .inl rfl
  | elapse =>
    cases ht
    exact .inl rfl
  | create | remove | patch | reset =>
    obtain ⟨t, -, rfl⟩ := map_eq_some_iff.mp ht
    exact .inl rfl
  | look kept =>
    dsimp only [step] at ht
    split at ht
    · cases ht
    · cases ht
      exact .inl rfl
    · cases ht
      exact .inl rfl
  | exportBackup =>
    cases ht
    exact .inr ⟨rfl, rfl⟩
  | importBackup k next kept =>
    obtain ⟨b, -, restored⟩ := bind_eq_some_iff.mp ht
    obtain ⟨t, -, rfl⟩ := map_eq_some_iff.mp restored
    exact .inl rfl

/-- One step keeps base and moved bytes at the bytes counted, while nothing saturates. -/
theorem exact_step (sound : Sound w) (h : Exact w)
    (below : unsaturated w l = true) (ht : step w l = some w') : Exact w' := by
  constructor
  · intro sub y found'
    have id := id_of_find found'
    -- what the counts come to where record and counts stay
    have same {x : Subscription} (found : w.find sub = some x)
        (base : y.trafficBase = x.trafficBase) (carried : y.trafficCarried = x.trafficCarried)
        (usage : w'.usage sub = w.usage sub) (moved : w'.moved sub = w.moved sub) :
        y.trafficBase.toNat + w'.moved sub = w'.counted y ∧
          w'.counted y < 18446744073709551616 := by
      have counted : w'.counted y = w.counted x := by
        rw [counted, counted, id, id_of_find found, usage, carried]
      rw [counted, base, moved]
      exact h.here sub x found
    cases did sound.valid ht sub with
    | kept _ find still => exact same (find ▸ found') rfl rfl still.usage still.moved
    | grew there find usage moved =>
      have found : w.find sub = some y := find ▸ found'
      obtain ⟨sum, -⟩ := h.here sub y found
      have room := room_of_unsaturated found below
      unfold counted at sum room ⊢
      rw [id] at sum room ⊢
      rw [usage, moved]
      dsimp only [Totals.plus]
      rw [toNat_sat, toNat_sat]
      omega
    | elapsed find usage moved => exact same (find ▸ found') rfl rfl usage moved
    | marked found find still =>
      rw [find] at found'
      cases found'
      exact same found rfl rfl still.usage still.moved
    | patched found find still =>
      rw [find] at found'
      cases found'
      obtain ⟨-, base, carried⟩ := apply_base _ _ (w.lifetime sub) w.now
      exact same found base carried still.usage still.moved
    | reset found find usage moved =>
      rw [find] at found'
      cases found'
      obtain ⟨-, room⟩ := h.here sub _ found
      unfold counted at room ⊢
      dsimp only at id ⊢
      rw [id] at room ⊢
      rw [usage, moved, toNat_sat, lifetime, toNat_sat]
      omega
    | created fresh find usage moved =>
      rw [find] at found'
      cases found'
      unfold counted
      dsimp only
      rw [usage, moved, sound.unused sub (fresh ▸ Nat.le_refl _)]
      decide
    | removed find =>
      rw [find] at found'
      cases found'
    | imported there find usage moved =>
      rw [find] at found'
      obtain ⟨base, carried⟩ := h.backups _ (mem_of_getElem? there) sub y found'
      unfold counted
      rw [id, usage, moved, base, ← carried]
      have bound := y.trafficCarried.toNat_lt
      have zero : (0 : UInt64).toNat = 0 := rfl
      dsimp only
      omega
  · intro b mem sub y found
    rcases backups_step ht with same | ⟨added, -⟩
    · exact h.backups b (same ▸ mem) sub y found
    rw [added, mem_append, mem_singleton] at mem
    rcases mem with old | rfl
    · exact h.backups b old sub y found
    rw [find_carried] at found
    obtain ⟨x, there, rfl⟩ := map_eq_some_iff.mp found
    exact ⟨rfl, h.used there⟩

end NasnetPanel.RemoteNodes.Limits
