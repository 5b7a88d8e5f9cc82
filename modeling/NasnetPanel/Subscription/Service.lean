import NasnetPanel.Lib.Runs
import NasnetPanel.Subscription.Domain

/-!
# Subscription.Service — giving service back

The operations that move a subscription to active or restore its tunnel access: `AddData` and
`SetCustomDataLimit` (through `reactivateSubscription`), `SetCustomEndDate`, and the admin's
`ExtendSubscription` and `ResumeSubscription`. Each reads the row first and writes afterwards; a
write that fails ends the operation there.

Only `SetCustomEndDate` looks at both the end date and the data limit. `given_due` says under which
calls the others give service back to a subscription that is due it, over every run with usage
growing, time passing and other code taking service away.

`given` records each moment at which a status of active was written or access was restored. It is
not in the source.
-/

namespace NasnetPanel.Subscriptions
open Subscription

/-- A moment at which service was given back, with the row as it was written then. -/
structure Given where
  sub : Subscription
  now : Int
deriving DecidableEq, Repr

def Given.due (g : Given) : Bool := g.sub.due g.now

/-- One subscription, its tunnel access, the clock and what was given back so far. -/
structure Service where
  sub : Subscription
  access : Bool
  now : Int
  given : List Given := []
deriving DecidableEq, Repr

open Service

/-- Whether an operation's first write and its status write succeed. -/
structure Writes where
  first : Bool := true
  status : Bool := true
deriving DecidableEq, Repr

namespace Service

def write (s : Service) (f : Subscription → Subscription) : Service := { s with sub := f s.sub }

def updateStatus (s : Service) (status : Status) : Service :=
  let sub := { s.sub with status := status }
  { s with
    sub := sub
    given := if status = .active then s.given ++ [⟨sub, s.now⟩] else s.given }

/-- A pause does not overwrite a pause. -/
def updateStatusWithPauseReason (s : Service) (status : Status) (reason : String) : Service :=
  if status = .paused ∧ s.sub.status = .paused then s
  else (s.write fun r => { r with pauseReason := reason }).updateStatus status

/-- Accounts, WireGuard peers and tunnels on or off. -/
def setTunnelAccess (s : Service) (enabled : Bool) : Service :=
  { s with
    access := enabled
    given := if enabled then s.given ++ [⟨s.sub, s.now⟩] else s.given }

def reactivateSubscription (s : Service) (w : Writes) : Service :=
  if w.status then (s.updateStatus .active).setTunnelAccess true else s

/-- What `AddData` and `SetCustomDataLimit` write. -/
def setLimit (limit : Option Int64) (r : Subscription) : Subscription :=
  { r with customDataLimit := limit }

def setCustomDataLimit (s : Service) (w : Writes) (limit : Option Int64) : Service :=
  if !w.first then s
  else
    let sub := s.sub
    let s := s.write (setLimit limit)
    if sub.status = .trafficExhausted then
      let effectiveLimit := limit.getD sub.dataLimit
      if effectiveLimit = 0 ∨ sub.dataUsed < effectiveLimit then s.reactivateSubscription w else s
    else if sub.status = .active then s.setTunnelAccess true
    else s

/-- `AddData`; the bytes are the source's `int64(additionalGB * GB)`. -/
def addData (s : Service) (w : Writes) (additionalBytes : Int64) : Service :=
  let sub := s.sub
  if sub.effectiveDataLimit = 0 then s
  else
    let newLimit := sub.effectiveDataLimit + additionalBytes
    if !w.first then s
    else
      let s := s.write (setLimit (some newLimit))
      if sub.status = .trafficExhausted then
        if sub.dataUsed < newLimit then s.reactivateSubscription w else s
      else if sub.status = .active then s.setTunnelAccess true
      else s

def setEndDate (endDate : Option Int) (isCustom : Bool) (r : Subscription) : Subscription :=
  { r with customEndDate := endDate, isEndDateCustom := isCustom }

def setCustomEndDate (s : Service) (w : Writes) (endDate : Option Int) (isCustom : Bool) :
    Service :=
  if !w.first then s
  else
    let s := s.write (setEndDate endDate isCustom)
    if s.sub.isExpired s.now ∧ s.sub.status = .active then
      if w.status then (s.updateStatus .expired).setTunnelAccess false else s
    else if ¬ s.sub.isExpired s.now ∧ s.sub.status = .expired then
      if s.sub.isDataExhausted then
        if w.status then s.updateStatus .trafficExhausted else s
      else if w.status then (s.updateStatus .active).setTunnelAccess true
      else s
    else s

/-- A date that is not set stays so. This is the sum of Postgres: on SQLite the modifier built for
negative days is `'+-n days'`, which is none, and both dates are cleared. -/
def extendDays (days : Int) (r : Subscription) : Subscription :=
  { r with
    endDate := r.endDate.map (· + days * 86400)
    customEndDate := r.customEndDate.map (· + days * 86400) }

def extendSubscription (s : Service) (w : Writes) (days : Int) : Service :=
  if !w.first then s
  else
    let sub := s.sub
    let s := s.write (extendDays days)
    if sub.status = .expired ∨ sub.status = .active then
      if w.status then (s.updateStatus .active).setTunnelAccess true else s
    else s

def pauseSubscriptionFor (s : Service) (w : Writes) (reason : String) : Service :=
  let s := s.setTunnelAccess false
  if w.status then s.updateStatusWithPauseReason .paused reason else s

def resumeSubscription (s : Service) (w : Writes) : Service :=
  if s.sub.isExpired s.now then s
  else if w.status then (s.updateStatusWithPauseReason .active "").setTunnelAccess true
  else s

end Service

/-! ## Runs -/

inductive Op where
  | addData (w : Writes) (bytes : Int64)
  | setCustomDataLimit (w : Writes) (limit : Option Int64)
  | setCustomEndDate (w : Writes) (endDate : Option Int) (isCustom : Bool)
  | extendSubscription (w : Writes) (days : Int)
  | pause (w : Writes) (reason : String)
  | resume (w : Writes)
  /-- Usage grows. -/
  | use (bytes : Int64)
  /-- Time passes. -/
  | pass (seconds : Nat)
  /-- Other code takes service away: the sweeps and a cancel. -/
  | revoke (status : Status)
deriving DecidableEq, Repr

def step (s : Service) : Op → Option Service
  | .addData w bytes => some (s.addData w bytes)
  | .setCustomDataLimit w limit => some (s.setCustomDataLimit w limit)
  | .setCustomEndDate w endDate isCustom => some (s.setCustomEndDate w endDate isCustom)
  | .extendSubscription w days => some (s.extendSubscription w days)
  | .pause w reason => some (s.pauseSubscriptionFor w reason)
  | .resume w => some (s.resumeSubscription w)
  | .use bytes => some (s.write fun r => { r with dataUsed := r.dataUsed + bytes })
  | .pass seconds => some { s with now := s.now + seconds }
  | .revoke status =>
    if status = .active then none else some ((s.updateStatus status).setTunnelAccess false)

/-- Which calls are made only where service is due: a change of the data limit while the end date
has not passed, and of an active subscription's limit only to one it is within; an extension only
of a subscription within its data limit and past its end date no more; a resume only of one within
its data limit. -/
def Fits (s : Service) : Op → Prop
  | .addData _ bytes =>
    let limit := s.sub.effectiveDataLimit + bytes
    (s.sub.status = .trafficExhausted → s.sub.isExpired s.now = false) ∧
      (s.sub.status = .active → (Service.setLimit (some limit) s.sub).due s.now = true)
  | .setCustomDataLimit _ limit =>
    (s.sub.status = .trafficExhausted → s.sub.isExpired s.now = false) ∧
      (s.sub.status = .active → (Service.setLimit limit s.sub).due s.now = true)
  | .extendSubscription _ days =>
    s.sub.status = .expired ∨ s.sub.status = .active →
      (Service.extendDays days s.sub).due s.now = true
  | .resume _ => s.sub.isDataExhausted = false
  | _ => True

instance (s : Service) (op : Op) : Decidable (Fits s op) := by
  cases op <;> unfold Fits <;> infer_instance

/-! ## What each write gives -/

def GivenDue (s : Service) : Prop := ∀ g ∈ s.given, g.due = true

section
variable {s : Service}

section
variable (h : GivenDue s)
include h

theorem GivenDue.write (f : Subscription → Subscription) :
    GivenDue (s.write f) := h

omit h in
theorem GivenDue.append {given : List Given} {g : Given} (h : ∀ g ∈ given, g.due = true)
    (due : g.due = true) : ∀ x ∈ given ++ [g], x.due = true :=
  List.forall_mem_append.mpr ⟨h, List.forall_mem_singleton.mpr due⟩

theorem GivenDue.updateStatus {status : Status}
    (due : status = .active → s.sub.due s.now = true) : GivenDue (s.updateStatus status) := by
  unfold GivenDue Service.updateStatus
  split
  case isTrue active => exact GivenDue.append h (due active)
  case isFalse => exact h

theorem GivenDue.setTunnelAccess {enabled : Bool}
    (due : enabled = true → s.sub.due s.now = true) : GivenDue (s.setTunnelAccess enabled) := by
  unfold GivenDue Service.setTunnelAccess
  split
  case isTrue on => exact GivenDue.append h (due on)
  case isFalse => exact h

theorem GivenDue.giveBack (due : s.sub.due s.now = true) :
    GivenDue ((s.updateStatus .active).setTunnelAccess true) :=
  (h.updateStatus fun _ => due).setTunnelAccess fun _ => due

theorem GivenDue.reactivate (due : s.sub.due s.now = true) (w : Writes) :
    GivenDue (s.reactivateSubscription w) := by
  unfold reactivateSubscription
  split
  · exact h.giveBack due
  · exact h

/-! ## What each operation gives -/

omit h in
theorem due_setLimit {r : Subscription} (limit : Option Int64) {now : Int}
    (enough : limit.getD r.dataLimit = 0 ∨ r.dataUsed < limit.getD r.dataLimit)
    (running : r.isExpired now = false) : (Service.setLimit limit r).due now = true := by
  refine due_iff.mpr ⟨running, ?_⟩
  have effective : (setLimit limit r).effectiveDataLimit = limit.getD r.dataLimit := rfl
  unfold isDataExhausted
  rw [effective, decide_eq_false_iff_not]
  rintro ⟨limited, used⟩
  exact Int64.not_le.mpr (enough.resolve_left limited) used

theorem givenDue_setCustomDataLimit (w : Writes) (limit : Option Int64)
    (fits : Fits s (.setCustomDataLimit w limit)) : GivenDue (s.setCustomDataLimit w limit) := by
  obtain ⟨exhausted, active⟩ := fits
  unfold setCustomDataLimit
  split
  · exact h
  dsimp only
  split
  case isTrue status =>
    split
    case isTrue enough =>
      exact (h.write _).reactivate (due_setLimit limit enough (exhausted status)) w
    case isFalse => exact h
  case isFalse =>
    split
    case isTrue status => exact (h.write _).setTunnelAccess fun _ => active status
    case isFalse => exact h

theorem givenDue_addData (w : Writes) (bytes : Int64)
    (fits : Fits s (.addData w bytes)) : GivenDue (s.addData w bytes) := by
  obtain ⟨exhausted, active⟩ := fits
  unfold addData
  dsimp only
  split
  · exact h
  split
  · exact h
  split
  case isTrue status =>
    split
    case isTrue enough =>
      exact (h.write _).reactivate (due_setLimit (some _) (.inr enough) (exhausted status)) w
    case isFalse => exact h
  case isFalse =>
    split
    case isTrue status => exact (h.write _).setTunnelAccess fun _ => active status
    case isFalse => exact h

theorem givenDue_setCustomEndDate (w : Writes) (endDate : Option Int)
    (isCustom : Bool) : GivenDue (s.setCustomEndDate w endDate isCustom) := by
  unfold setCustomEndDate
  split
  · exact h
  have h := h.write (setEndDate endDate isCustom)
  dsimp only
  split
  · split
    · refine (h.updateStatus ?_).setTunnelAccess ?_
      · intro active
        cases active
      · intro on
        cases on
    · exact h
  split
  case isTrue running =>
    split
    · split
      · refine h.updateStatus ?_
        intro active
        cases active
      · exact h
    case isFalse within =>
      split
      · exact h.giveBack (due_iff.mpr
          ⟨Bool.eq_false_iff.mpr running.1, Bool.eq_false_iff.mpr within⟩)
      · exact h
  case isFalse => exact h

theorem givenDue_extendSubscription (w : Writes) (days : Int)
    (fits : Fits s (.extendSubscription w days)) : GivenDue (s.extendSubscription w days) := by
  unfold extendSubscription
  split
  · exact h
  dsimp only
  split
  case isTrue status =>
    split
    · exact (h.write _).giveBack (fits status)
    · exact h
  case isFalse => exact h

theorem givenDue_resumeSubscription (w : Writes) (fits : Fits s (.resume w)) :
    GivenDue (s.resumeSubscription w) := by
  unfold resumeSubscription
  split
  · exact h
  case isFalse running =>
    split
    · have due : s.sub.due s.now = true :=
        due_iff.mpr ⟨Bool.eq_false_iff.mpr running, fits⟩
      unfold updateStatusWithPauseReason
      exact (h.write _).giveBack due
    · exact h

theorem givenDue_pauseSubscriptionFor (w : Writes) (reason : String) :
    GivenDue (s.pauseSubscriptionFor w reason) := by
  have off : GivenDue (s.setTunnelAccess false) := h.setTunnelAccess fun on => by cases on
  unfold pauseSubscriptionFor
  dsimp only
  split
  · unfold updateStatusWithPauseReason
    split
    · exact off
    · exact (off.write _).updateStatus fun active => by cases active
  · exact off

end

/-- One call that fits gives service only where it is due. -/
theorem givenDue_step (s : Service) (op : Op) (t : Service) (h : GivenDue s) (fits : Fits s op)
    (ht : step s op = some t) : GivenDue t := by
  cases op with
  | addData w bytes => cases ht; exact givenDue_addData h w bytes fits
  | setCustomDataLimit w limit => cases ht; exact givenDue_setCustomDataLimit h w limit fits
  | setCustomEndDate w endDate isCustom =>
    cases ht; exact givenDue_setCustomEndDate h w endDate isCustom
  | extendSubscription w days => cases ht; exact givenDue_extendSubscription h w days fits
  | pause w reason => cases ht; exact givenDue_pauseSubscriptionFor h w reason
  | resume w => cases ht; exact givenDue_resumeSubscription h w fits
  | use bytes => cases ht; exact h
  | pass seconds => cases ht; exact h
  | revoke status =>
    dsimp only [step] at ht
    split at ht
    · cases ht
    case isFalse other =>
      cases ht
      exact (h.updateStatus fun active => absurd active other).setTunnelAccess fun on => by cases on

end

/-- **Service is given back only where it is due**, in every run whose calls fit: at each moment a
status of active was written or tunnel access restored, the subscription was neither past its
effective end date nor out of its effective data limit. -/
theorem given_due {sub : Subscription} {access : Bool} {now : Int} {ops : List Op} {t : Service}
    (fits : Runs.Along step Fits ⟨sub, access, now, []⟩ ops)
    (h : Runs.run step ⟨sub, access, now, []⟩ ops = some t) :
    ∀ g ∈ t.given, g.sub.isExpired g.now = false ∧ g.sub.isDataExhausted = false := by
  have start : GivenDue ⟨sub, access, now, []⟩ := fun g hg => absurd hg List.not_mem_nil
  intro g hg
  exact due_iff.mp (Runs.run_inv_along givenDue_step start fits h g hg)

def tenBytes : Service := ⟨{ endDate := some 100, dataLimit := 10 }, true, 0, []⟩

/-- All ten bytes are used, the sweep takes service away, and ten more are added in time. -/
def toppedUp : List Op := [.use 10, .revoke .trafficExhausted, .pass 50, .addData {} 10]

theorem given_due_toppedUp :
    ∃ t, Runs.run step tenBytes toppedUp = some t ∧ t.sub.status = .active ∧ t.given ≠ [] ∧
      ∀ g ∈ t.given, g.sub.isExpired g.now = false ∧ g.sub.isDataExhausted = false := by
  have fits : Runs.Along step Fits tenBytes toppedUp := by
    have checked :
        Runs.checkAlong step (fun s op => decide (Fits s op)) tenBytes toppedUp = true := by
      decide
    exact (Runs.along_of_check checked).mono fun _ _ => of_decide_eq_true
  refine ⟨_, rfl, rfl, by decide, given_due fits rfl⟩

/-- The same, once the end date has passed. -/
def toppedUpLate : List Op := [.use 10, .revoke .trafficExhausted, .pass 200, .addData {} 10]

/-- **An expired subscription is given service back**: it ran out of data before its end date, and
more data is added after it. -/
theorem expired_reactivated :
    ∃ t, Runs.run step tenBytes toppedUpLate = some t ∧ t.sub.status = .active ∧
      t.access = true ∧ ∃ g ∈ t.given, g.sub.isExpired g.now = true := by
  exact ⟨_, rfl, rfl, rfl, by decide⟩

end NasnetPanel.Subscriptions
