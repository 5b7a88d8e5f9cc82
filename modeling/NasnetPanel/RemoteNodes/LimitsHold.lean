import NasnetPanel.RemoteNodes.Limits

/-!
# RemoteNodes.LimitsHold — traffic limits hold across resets, stops and backups

`Limits` says what a step comes to for a subscription. Here it is followed along a run:

* a subscription that stays has used no less (`Grown`), unless its count starts again,
* during a check one that was due when it began is marked, or is running and yet to be looked at
  (`Watched`), since no call about it changes more than its mark,
* a mark goes only by `UpdateSubscription` and `ResetUsage`, which both leave none where no reason
  is left (`clears_step`),
* a backup takes count and mark along.

* `limits_hold`: all of it, from a new install.
-/

namespace NasnetPanel.RemoteNodes.Limits
open Runs World Option

/-! ## What is used does not go down -/

/-- The count starts again: a reset, or another install. -/
def Label.restarts (sub : Nat) : Label → Bool
  | .reset s _ => s = sub
  | .importBackup .. => true
  | _ => false

variable {x y : Subscription} {w w' : World} {sub : Nat} {l : Label} {began : Int}
  {a b : UInt64} {ls : List Label}

theorem trafficUsed_mono
    (base : y.trafficBase = x.trafficBase) (carried : y.trafficCarried = x.trafficCarried)
    (grown : a ≤ b) : trafficUsed x a ≤ trafficUsed y b := by
  rw [UInt64.le_iff_toNat_le] at grown ⊢
  rw [toNat_trafficUsed, toNat_trafficUsed, base, carried]
  omega

theorem lifetime_congr (usage : w'.usage sub = w.usage sub) : w'.lifetime sub = w.lifetime sub := by
  rw [lifetime, lifetime, usage]

/-- Counts and clock go on. -/
theorem lifetime_step (sound : Sound w) (ht : step w l = some w')
    (here : l.imports = false) (sub : Nat) : w.lifetime sub ≤ w'.lifetime sub ∧ w.now ≤ w'.now := by
  have stands (usage : w'.usage sub = w.usage sub) (now : w'.now = w.now) :
      w.lifetime sub ≤ w'.lifetime sub ∧ w.now ≤ w'.now := by
    rw [lifetime_congr usage, now]
    exact ⟨UInt64.le_refl _, Int.le_refl _⟩
  cases did sound.valid ht sub with
  | kept _ _ still | marked _ _ still | patched _ _ still | removed _ still =>
    exact stands still.usage still.now
  | grew _ _ usage _ now =>
    rw [now, lifetime, lifetime, usage, UInt64.le_iff_toNat_le]
    dsimp only [Totals.plus]
    rw [toNat_sat, toNat_sat, toNat_sat, toNat_sat]
    omega
  | elapsed _ usage _ now =>
    rw [lifetime_congr usage, now]
    exact ⟨UInt64.le_refl _, by omega⟩
  | reset _ _ usage _ now | created _ _ usage _ now => exact stands usage now
  | imported => cases here

/-- A subscription there is has its count from before, unless the count starts again. -/
theorem used_step (sound : Sound w) (ht : step w l = some w')
    (goes : l.restarts sub = false) (given : sub < w.state.nextSubscriptionID)
    (found' : w'.find sub = some y) : ∃ x, w.find sub = some x ∧ w.used x ≤ w'.used y := by
  have id := id_of_find found'
  have same {x : Subscription} (found : w.find sub = some x) (here : l.imports = false)
      (base : y.trafficBase = x.trafficBase) (carried : y.trafficCarried = x.trafficCarried) :
      ∃ x, w.find sub = some x ∧ w.used x ≤ w'.used y := by
    refine ⟨x, found, trafficUsed_mono base carried ?_⟩
    rw [id, id_of_find found]
    exact (lifetime_step sound ht here sub).1
  cases did sound.valid ht sub with
  | kept here find => exact same (find ▸ found') here rfl rfl
  | grew _ find | elapsed find => exact same (find ▸ found') rfl rfl rfl
  | marked found find =>
    rw [find] at found'
    cases found'
    exact same found rfl rfl rfl
  | patched found find =>
    rw [find] at found'
    cases found'
    obtain ⟨-, base, carried⟩ := apply_base _ _ (w.lifetime sub) w.now
    exact same found rfl base carried
  | reset => simp [Label.restarts] at goes
  | created fresh => exact absurd fresh (Nat.ne_of_lt given)
  | removed find =>
    rw [find] at found'
    cases found'
  | imported => cases goes

/-- A subscription that has been there has used no less by now. -/
structure Grown (sub : Nat) (w w' : World) : Prop where
  sound : Sound w'
  given : sub < w'.state.nextSubscriptionID
  used : ∀ y, w'.find sub = some y → ∃ x, w.find sub = some x ∧ w.used x ≤ w'.used y

theorem imports_of_restarts (goes : l.restarts sub = false) : l.imports = false := by
  cases l <;> first | rfl | cases goes

/-- One step that does not restart the count leaves no less used. -/
theorem grown_step {m t : World} (h : Grown sub w m)
    (goes : l.restarts sub = false) (ht : step m l = some t) : Grown sub w t where
  sound := sound_step h.sound ht
  given := Nat.lt_of_lt_of_le h.given (next_step (imports_of_restarts goes) ht)
  used y found := by
    obtain ⟨z, there, le⟩ := used_step h.sound ht goes h.given found
    obtain ⟨x, before, le'⟩ := h.used z there
    exact ⟨x, before, UInt64.le_trans le' le⟩

/-! ## A check marks what is due -/

/-- A person's call about the subscription, or another install. -/
def Label.touches (sub : Nat) : Label → Bool
  | .patch s _ _ | .reset s _ | .remove s _ => s = sub
  | .importBackup .. => true
  | _ => false

/-- The mark is written, where the check sets one. -/
def Label.written : Label → Bool
  | .look kept => kept
  | _ => true

theorem imports_of_touches (apart : l.touches sub = false) : l.imports = false := by
  cases l <;> first | rfl | cases apart

theorem stopReason_mono {now : Int}
    (limit : y.trafficLimit = x.trafficLimit) (expires : y.expiresAt = x.expiresAt)
    (grown : a ≤ b) (later : began ≤ now) (due : (x.stopReason a began).isSome) :
    (y.stopReason b now).isSome := by
  unfold Subscription.stopReason at due ⊢
  rw [limit, expires]
  split
  · rfl
  next valid =>
    have before : ¬(x.expiresAt.any fun d => decide (d ≤ began)) = true := by
      intro past
      obtain ⟨d, dated, le⟩ := (any_eq_true _ _).mp past
      exact valid ((any_eq_true _ _).mpr ⟨d, dated, by simp at le ⊢; omega⟩)
    rw [if_neg before] at due
    split at due
    next reached =>
      rw [if_pos ⟨reached.1, UInt64.le_trans reached.2 grown⟩]
      rfl
    · cases due

/-- No call about it changes more than its mark, and that only to a reason. -/
theorem record_step (sound : Sound w) (ht : step w l = some w') (apart : l.touches sub = false)
    (found : w.find sub = some x) :
    ∃ m, w'.find sub = some { x with stopped := m } ∧ (x.stopped.isSome → m.isSome) := by
  cases did sound.valid ht sub with
  | kept _ find | grew _ find | elapsed find => exact ⟨x.stopped, find.trans found, id⟩
  | marked there find =>
    rw [found] at there
    cases there
    exact ⟨_, find, fun _ => rfl⟩
  | created fresh => exact absurd fresh (Nat.ne_of_lt (below_of_find sound.valid found))
  | patched | reset | removed => simp [Label.touches] at apart
  | imported => cases apart

theorem look_marks (sound : Sound w)
    {m : Option StopReason} (found : w.find sub = some { x with stopped := m })
    (running : x.running = true) (due : (x.stopReason (w.used x) began).isSome)
    (later : began ≤ w.now) : ∃ reason,
      (w.look began x true).findSubscription sub = some { x with stopped := some reason } := by
  obtain ⟨reason, stops⟩ := isSome_iff_exists.mp due
  have id : x.id = sub := id_of_find (x := { x with stopped := m }) found
  have still : (({ x with stopped := m } : Subscription).stopReason
      (trafficUsed { x with stopped := m } (w.lifetime x.id)) w.now).isSome :=
    stopReason_mono rfl rfl (UInt64.le_refl _) later due
  refine ⟨reason, ?_⟩
  rw [look, if_pos running, stops]
  dsimp only
  rw [State.update_of_valid (sound.valid.stop ..), getD_some]
  rw [← id] at found ⊢
  rw [State.stop, show w.state.findSubscription x.id = some { x with stopped := m } from found]
  dsimp only
  split
  next already =>
    rw [← already]
    exact found
  · rw [if_neg (isSome_iff_ne_none.mp still),
      State.findSubscription_changeSubscription (by simp), if_pos rfl]
    rw [show w.state.findSubscription x.id = some { x with stopped := m } from found]
    rfl

/-- A check under way goes on, until it has looked. -/
theorem checking_step (ht : step w l = some w')
    (here : l.imports = false) {rest : List Subscription}
    (checks : w.checking = some (began, rest)) :
    w'.checking = some (began, rest) ∨ ∃ kept, l = .look kept := by
  cases l with
  | grow =>
    obtain ⟨-, rfl⟩ := of_guard ht
    exact .inl checks
  | enforce =>
    dsimp only [step] at ht
    rw [checks] at ht
    cases ht
  | elapse | exportBackup =>
    cases ht
    exact .inl checks
  | create | remove | patch | reset =>
    obtain ⟨t, -, rfl⟩ := map_eq_some_iff.mp ht
    exact .inl checks
  | look kept => exact .inr ⟨kept, rfl⟩
  | importBackup => cases here

/-- During a check: the subscription is marked, or is running and yet to be looked at. -/
structure Watched (sub : Nat) (x : Subscription) (start w : World) : Prop where
  sound : Sound w
  lifetime : start.lifetime sub ≤ w.lifetime sub
  now : start.now ≤ w.now
  record : ∃ m, w.find sub = some { x with stopped := m } ∧ (m.isSome ∨
    x.running = true ∧ ∃ rest, w.checking = some (start.now, rest) ∧ x ∈ rest)

/-- One step of a check leaves a due subscription marked or yet to be looked at. -/
theorem watched_step {start : World} (due : (start.due x).isSome) (h : Watched sub x start w)
    (apart : l.touches sub = false ∧ l.written = true) (ht : step w l = some w') :
    Watched sub x start w' := by
  have here := imports_of_touches apart.1
  obtain ⟨grown, later⟩ := lifetime_step h.sound ht here sub
  obtain ⟨m, found, state⟩ := h.record
  obtain ⟨m', found', marked⟩ := record_step h.sound ht apart.1 found
  refine ⟨sound_step h.sound ht, UInt64.le_trans h.lifetime grown, Int.le_trans h.now later, ?_⟩
  rcases state with set | ⟨running, rest, checks, listed⟩
  · exact ⟨m', found', .inl (marked set)⟩
  rcases checking_step ht here checks with same | ⟨kept, rfl⟩
  · exact ⟨m', found', .inr ⟨running, rest, same, listed⟩⟩
  obtain rfl : kept = true := apart.2
  dsimp only [step] at ht
  rw [checks] at ht
  cases rest with
  | nil => cases listed
  | cons y rest =>
    cases ht
    rcases List.mem_cons.mp listed with rfl | listed
    · have id : x.id = sub := id_of_find (x := { x with stopped := m }) found
      have reached : (x.stopReason (w.used x) start.now).isSome := by
        refine stopReason_mono rfl rfl (trafficUsed_mono rfl rfl ?_) (Int.le_refl _) due
        rw [id]
        exact h.lifetime
      obtain ⟨reason, set⟩ := look_marks h.sound found running reached h.now
      exact ⟨some reason, set, .inl rfl⟩
    · exact ⟨m', found', .inr ⟨running, rest, rfl, listed⟩⟩

theorem looks_end (rest : List Subscription) (checks : w.checking = some (began, rest)) :
    ∃ w', Runs.run step w (List.replicate (rest.length + 1) (.look true)) = some w' ∧
      w'.checking = none := by
  induction rest generalizing w with
  | nil =>
    refine ⟨{ w with checking := none }, run_cons.mpr ⟨_, ?_, rfl⟩, rfl⟩
    dsimp only [step]
    rw [checks]
  | cons x rest ih =>
    obtain ⟨w', ran, done⟩ := ih (w := { w with
      state := w.look began x true, checking := some (began, rest) }) rfl
    refine ⟨w', run_cons.mpr ⟨_, ?_, ran⟩, done⟩
    dsimp only [step]
    rw [checks]

/-! ## The limits hold -/

/-- `UpdateSubscription` or `ResetUsage` of the subscription. -/
def Label.lifts (sub : Nat) : Label → Bool
  | .patch s _ _ | .reset s _ => s = sub
  | _ => false

/-- What holds of an install and of the runs that go on from it. -/
structure Upheld (w : World) : Prop where
  /-- Used bytes never go down, a reset and another install apart. -/
  grows : ∀ sub ls w' x y, Runs.run step w ls = some w' → (∀ l ∈ ls, l.restarts sub = false) →
    w.find sub = some x → w'.find sub = some y → w.used x ≤ w'.used y
  /-- A check comes to its end. -/
  ends : w.checking = none → ∃ n w',
    Runs.run step w (.enforce :: List.replicate n (.look true)) = some w' ∧ w'.checking = none
  /-- What is due when a check begins is marked at its end, whatever else goes on. -/
  stops : ∀ sub ls w' x, w.find sub = some x → (w.due x).isSome → w.checking = none →
    Runs.run step w (.enforce :: ls) = some w' →
    (∀ l ∈ ls, l.touches sub = false ∧ l.written = true) → w'.checking = none →
    ∃ y, w'.find sub = some y ∧ y.stopped.isSome
  /-- The mark is cleared by a person's call only, and no reason is left then. -/
  clears : ∀ sub l w' x y, step w l = some w' → l.imports = false → w.find sub = some x →
    x.stopped.isSome → w'.find sub = some y → y.stopped = none →
    l.lifts sub = true ∧ w'.due y = none
  /-- An install restored from a backup has the count, the mark and the limits of its export. -/
  moves : ∀ sub ls w' x next kept, w.find sub = some x →
    Runs.run step w (.exportBackup :: ls ++ [.importBackup w.backups.length next kept]) = some w' →
    ∃ y, w'.find sub = some y ∧ w'.used y = w.used x ∧ y.stopped = x.stopped ∧
      y.trafficLimit = x.trafficLimit ∧ y.expiresAt = x.expiresAt

theorem used_eq (found : w.find sub = some x) : w.used x = trafficUsed x (w.lifetime sub) := by
  rw [used, id_of_find found]

theorem apply_unmarked {p : State.Patch} {lifetime : UInt64} {now : Int}
    (marked : x.stopped.isSome) (cleared : (p.apply x lifetime now).stopped = none) :
    (p.apply x lifetime now).stopReason
      (trafficUsed (p.apply x lifetime now) lifetime) now = none := by
  unfold State.Patch.apply at cleared ⊢
  split at cleared
  next asked =>
    rw [if_pos asked]
    exact cleared
  · rw [cleared] at marked
    cases marked

theorem used_reset (x : Subscription) (lifetime : UInt64) (m : Option StopReason) :
    trafficUsed { x with trafficBase := sat lifetime x.trafficCarried, stopped := m } lifetime =
      0 := by
  unfold trafficUsed
  rw [if_pos (UInt64.le_refl _)]

/-- A mark is cleared only by a call that lifts the stop, and then nothing is due. -/
theorem clears_step (sound : Sound w) (ht : step w l = some w')
    (here : l.imports = false) (found : w.find sub = some x)
    (marked : x.stopped.isSome) (found' : w'.find sub = some y) (cleared : y.stopped = none) :
    l.lifts sub = true ∧ w'.due y = none := by
  have apart {m : Option StopReason} (find : w'.find sub = some { x with stopped := m })
      (set : m.isSome) : False := by
    rw [find] at found'
    cases found'
    rw [show m = none from cleared] at set
    cases set
  cases did sound.valid ht sub with
  | kept _ find | grew _ find | elapsed find => exact (apart (find.trans found) marked).elim
  | marked there find =>
    rw [found] at there
    cases there
    exact (apart find rfl).elim
  | patched there find still =>
    rw [found] at there
    cases there
    refine ⟨by simp [Label.lifts], ?_⟩
    rw [due, used_eq found', lifetime_congr still.usage, still.now]
    rw [find] at found'
    cases found'
    exact apply_unmarked marked cleared
  | reset there find usage _ now =>
    refine ⟨by simp [Label.lifts], ?_⟩
    rw [due, used_eq found', lifetime_congr usage, now]
    rw [find] at found'
    cases found'
    rw [used_reset]
    exact cleared
  | created fresh => exact absurd fresh (Nat.ne_of_lt (below_of_find sound.valid found))
  | removed find =>
    rw [find] at found'
    cases found'
  | imported => cases here

/-- A backup stays where it is. -/
theorem backups_run {k : Nat} {b : Backup}
    (kept : w.backups[k]? = some b) (ran : Runs.run step w ls = some w') :
    w'.backups[k]? = some b := by
  have keeps : ∀ m l t, m.backups[k]? = some b → step m l = some t → t.backups[k]? = some b := by
    intro m l t there ht
    rcases backups_step ht with same | ⟨added, -⟩
    · rw [same]
      exact there
    · rw [added, List.getElem?_append_left (List.getElem?_eq_some_iff.mp there).1]
      exact there
  exact run_inv keeps kept ran

theorem used_carried (x : Subscription) (used : UInt64) :
    trafficUsed { x with trafficCarried := used, trafficBase := 0 } (sat 0 0) = used := by
  apply UInt64.toNat_inj.mp
  rw [toNat_trafficUsed, toNat_sat]
  have bound := used.toNat_lt
  have zero : (0 : UInt64).toNat = 0 := rfl
  dsimp only
  omega

/-- Every run of an install is sound. -/
theorem sound_run {now : Int} (ran : Runs.run step (installed now) ls = some w) : Sound w :=
  run_inv (fun _ _ _ h ht => sound_step h ht) (sound_installed now) ran

theorem upheld (sound : Sound w) : Upheld w where
  grows sub ls w' x y ran goes found found' := by
    have start : Grown sub w w :=
      ⟨sound, below_of_find sound.valid found, fun z there => ⟨z, there, UInt64.le_refl _⟩⟩
    have h := run_inv_mem (fun _ _ _ h goes ht => grown_step h goes ht) start goes ran
    obtain ⟨z, there, le⟩ := h.used y found'
    rw [found] at there
    cases there
    exact le
  ends idle := by
    obtain ⟨w', ran, done⟩ := looks_end w.state.subscriptions
      (w := { w with checking := some (w.now, w.state.subscriptions) }) rfl
    refine ⟨_, w', run_cons.mpr ⟨_, ?_, ran⟩, done⟩
    dsimp only [step]
    rw [idle]
    rfl
  stops sub ls w' x found due idle ran apart done := by
    obtain ⟨m, began, ran⟩ := run_cons.mp ran
    have begun : m = { w with checking := some (w.now, w.state.subscriptions) } := by
      dsimp only [step] at began
      rw [idle] at began
      cases began
      rfl
    have start : Watched sub x w m := by
      refine ⟨sound_step sound began, ?_, ?_, x.stopped, ?_, ?_⟩
      · rw [begun]
        exact UInt64.le_refl _
      · exact Int.le_of_eq (by rw [begun])
      · rw [begun]
        exact found
      cases stands : x.stopped with
      | some reason => exact .inl rfl
      | none =>
        refine .inr ⟨by rw [Subscription.running, stands]; rfl, w.state.subscriptions, ?_,
          (Keyed.of_find found).1⟩
        rw [begun]
    have h := run_inv_mem (fun _ _ _ h apart ht => watched_step due h apart ht) start apart ran
    obtain ⟨mark, there, set | ⟨-, rest, checks, -⟩⟩ := h.record
    · exact ⟨_, there, set⟩
    · rw [done] at checks
      cases checks
  clears sub l w' x y ht here found marked found' cleared :=
    clears_step sound ht here found marked found' cleared
  moves sub ls w' x next kept found ran := by
    obtain ⟨m, before, last⟩ := run_append.mp ran
    obtain ⟨e, exported, between⟩ := run_cons.mp before
    obtain ⟨t, imported, ended⟩ := run_cons.mp last
    cases ended
    have reached : m.state.Valid := (run_inv (fun _ _ _ h ht => sound_step h ht)
      (sound_step sound exported) between).valid
    cases exported
    have there := backups_run (k := w.backups.length) (b := ⟨w.carried, w.moved⟩) (by simp) between
    cases did reached imported sub with
    | kept here => cases here
    | imported held find usage =>
      rw [there] at held
      cases held
      rw [find_carried, found] at find
      refine ⟨_, find, ?_, rfl, rfl, rfl⟩
      rw [used_eq find, lifetime, usage]
      exact used_carried x (w.used x)

/-- **Traffic limits hold across resets, stops and backups.** From a new install, over every run of
growth, checks, calls and backups: below saturation what is used is what was moved since the last
reset; and what `Upheld` says. -/
theorem limits_hold {now : Int} {ls : List Label} {w : World}
    (ran : Runs.run step (installed now) ls = some w) :
    (Runs.Along step (fun w l => unsaturated w l = true) (installed now) ls →
      ∀ sub x, w.find sub = some x → (w.used x).toNat = w.moved sub) ∧ Upheld w := by
  refine ⟨fun along sub x found => ?_, upheld (sound_run ran)⟩
  have start : Sound (installed now) ∧ Exact (installed now) := by
    refine ⟨sound_installed now, fun sub x found => ?_, fun b mem => ?_⟩
    · cases found
    · cases mem
  have keeps : ∀ w l t, Sound w ∧ Exact w → unsaturated w l = true → step w l = some t →
      Sound t ∧ Exact t :=
    fun _ _ _ h below ht => ⟨sound_step h.1 ht, exact_step h.1 h.2 below ht⟩
  exact (run_inv_along keeps start along ran).2.used found

/-- A subscription of ten bytes that moves eleven, is stopped, and moves to another install. -/
def movedOn : List Label :=
  [.create [] 10 none (fun _ => "") true, .grow 1 ⟨6, 0⟩, .grow 1 ⟨4, 1⟩, .enforce, .look true,
    .look true, .exportBackup, .importBackup 0 1 true]

theorem limits_hold_movedOn : ∃ w, Runs.run step (installed 100) movedOn = some w ∧
    (w.find 1).map (·.stopped) = some (some .limit) ∧
    (∀ sub x, w.find sub = some x → (w.used x).toNat = w.moved sub) ∧ Upheld w := by
  have ends : ((runChecked step unsaturated (installed 100) movedOn).map fun w =>
      (w.find 1).map (·.stopped)) = some (some (some .limit)) := by decide
  obtain ⟨w, checked, stopped⟩ := map_eq_some_iff.mp ends
  obtain ⟨ran, along⟩ := of_runChecked checked
  exact ⟨w, ran, stopped, (limits_hold ran).1 along, (limits_hold ran).2⟩

end NasnetPanel.RemoteNodes.Limits
