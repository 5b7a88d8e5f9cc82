
/-!
# Subscription.Domain — a subscription and what it is due

`subscription/domain/subscription.go`: the row's status, its dates and its data limit, each with an
override. `GrantsAccess` is the authority for what a node is told about a user.

Times are whole seconds, byte counts the source's `int64`.
-/

namespace NasnetPanel.Subscriptions

inductive Status where
  | pending | active | paused | expired | cancelled | trafficExhausted
deriving DecidableEq, Repr

structure Subscription where
  status : Status := .active
  /-- Who paused it; empty unless paused. -/
  pauseReason : String := ""
  endDate : Option Int := none
  customEndDate : Option Int := none
  isEndDateCustom : Bool := false
  dataUsed : Int64 := 0
  dataLimit : Int64 := 0
  customDataLimit : Option Int64 := none
  /-- In Mbps. -/
  customBandwidthLimit : Option Int := none
deriving DecidableEq, Repr

namespace Subscription

/-- `GetEffectiveDataLimit`; 0 is unlimited. -/
def effectiveDataLimit (s : Subscription) : Int64 := s.customDataLimit.getD s.dataLimit

/-- `GetEffectiveEndDate`; none is unlimited. -/
def effectiveEndDate (s : Subscription) : Option Int :=
  if s.isEndDateCustom then s.customEndDate else s.endDate

/-- `GetEffectiveBandwidthLimit`; 0 is unlimited. -/
def effectiveBandwidthLimit (s : Subscription) : Int := s.customBandwidthLimit.getD 0

def isExpired (s : Subscription) (now : Int) : Bool :=
  match s.effectiveEndDate with
  | none => false
  | some endDate => endDate < now

def isDataExhausted (s : Subscription) : Bool :=
  s.effectiveDataLimit ≠ 0 ∧ s.effectiveDataLimit ≤ s.dataUsed

def grantsAccess (s : Subscription) (now : Int) : Bool :=
  match s.status with
  | .pending | .active => !s.isExpired now && !s.isDataExhausted
  | _ => false

/-- Neither past the effective end date nor out of the effective data limit. -/
def due (s : Subscription) (now : Int) : Bool := !s.isExpired now && !s.isDataExhausted

theorem due_iff {s : Subscription} {now : Int} :
    s.due now = true ↔ s.isExpired now = false ∧ s.isDataExhausted = false := by
  simp [due]

end Subscription

end NasnetPanel.Subscriptions
