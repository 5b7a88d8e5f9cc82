import NasnetPanel.Lib.Runs
import NasnetPanel.Network.Rules

/-!
# Network.Reconcile — the kernel's rules are made to match

`ReconcileRules` of `network/usecase/rules.go` against the kernel's rule table, one backend call a
step. Any call may fail; the reconcile then stops where it is. The table is a list, so leftovers may
be there twice. Adding a rule that is there changes nothing, and a delete takes away one rule.

**The law** (`reconcile_converges`): wherever a reconcile stands, no wanted rule that was there is
gone, and nothing is added after a removal; one that returned no error leaves just the wanted rules
beside the kernel's own, and another one changes nothing.
-/

namespace NasnetPanel.Network.Reconcile
open List

inductive Change where
  | added (r : Rule)
  | removed (r : Rule)

inductive Phase where
  | adding (left : List Rule)
  | deleting (left : List Rule)
  | returned (err : Option String)
deriving DecidableEq

structure State where
  kernel : List Rule
  phase : Phase
  /-- What was changed so far, the last change first. -/
  log : List Change := []

/-- One backend call, with the error it fails with, or one turn of a loop that makes none. -/
def step (want : List Rule) (s : State) (fault : Option String) : Option State :=
  match s.phase, fault with
  | .adding (r :: _), some e =>
    some { s with phase := .returned (some ("add rule pref " ++ toString r.pref ++ ": " ++ e)) }
  | .adding (r :: left), none =>
    if r ∈ s.kernel then some { s with phase := .adding left }
    else some { kernel := r :: s.kernel, phase := .adding left, log := .added r :: s.log }
  | .adding [], some e => some { s with phase := .returned (some ("list rules: " ++ e)) }
  | .adding [], none => some { s with phase := .deleting s.kernel }
  | .deleting [], _ => some { s with phase := .returned none }
  | .deleting (r :: left), fault =>
    if isStockRule r.pref || want.contains r then some { s with phase := .deleting left }
    else match fault with
      | none => some { kernel := s.kernel.erase r, phase := .deleting left
                       log := .removed r :: s.log }
      | some e =>
        some { s with
          phase := .returned (some ("delete stale rule pref " ++ toString r.pref ++ ": " ++ e)) }
  | .returned _, _ => none

def start (want kernel : List Rule) : State := { kernel := kernel, phase := .adding want }

def Stale (want : List Rule) (r : Rule) : Prop := isStockRule r.pref = false ∧ r ∉ want

/-! ## On the way -/

/-- What the phase has seen to: of the wanted rules those that are not left are there, and stale
ones are there no more often than they are left. -/
def Done (want kernel : List Rule) : Phase → Prop
  | .adding left => ∀ r ∈ want, r ∈ left ∨ r ∈ kernel
  | .deleting left => want ⊆ kernel ∧ ∀ r, Stale want r → kernel.count r ≤ left.count r
  | .returned none => want ⊆ kernel ∧ ∀ r, Stale want r → r ∉ kernel
  | .returned (some _) => True

structure Inv (want before : List Rule) (s : State) : Prop where
  kept : ∀ r ∈ want, r ∈ before → r ∈ s.kernel
  done : Done want s.kernel s.phase
  order : ∃ gone new : List Rule, s.log = gone.map .removed ++ new.map .added ∧
    ∀ left, s.phase = .adding left → gone = []

/-- A step of the loop that adds. -/
theorem inv_adding {want before kernel new left : List Rule} {fault : Option String} {t : State}
    (h : Inv want before ⟨kernel, .adding left, new.map .added⟩)
    (ht : step want ⟨kernel, .adding left, new.map .added⟩ fault = some t) : Inv want before t := by
  obtain ⟨kept, done, -⟩ := h
  cases left with
  | nil =>
    cases fault with
    | none =>
      cases ht
      refine ⟨kept, ⟨fun r hr => ?_, fun r _ => Nat.le_refl _⟩, [], new, rfl, by simp⟩
      simpa using done r hr
    | some e =>
      cases ht
      exact ⟨kept, trivial, [], new, rfl, by simp⟩
  | cons r left =>
    cases fault with
    | none =>
      have rest : ∀ q ∈ want, q ∈ left ∨ q ∈ r :: kernel := by
        intro q hq
        have := done q hq
        simp only [mem_cons] at this ⊢
        tauto
      dsimp only [step] at ht
      split at ht
      next there =>
        cases ht
        refine ⟨kept, fun q hq => (rest q hq).imp_right fun h => ?_, [], new, rfl, by simp⟩
        rcases mem_cons.mp h with rfl | here
        · exact there
        · exact here
      · cases ht
        exact ⟨fun q hq was => mem_cons_of_mem r (kept q hq was), rest, [], r :: new, rfl, by simp⟩
    | some e =>
      cases ht
      exact ⟨kept, trivial, [], new, rfl, by simp⟩

/-- A step of the loop that deletes. -/
theorem inv_deleting {want before kernel left : List Rule} {log : List Change}
    {fault : Option String} {t : State} (h : Inv want before ⟨kernel, .deleting left, log⟩)
    (ht : step want ⟨kernel, .deleting left, log⟩ fault = some t) : Inv want before t := by
  obtain ⟨kept, ⟨all, counts⟩, gone, new, rfl, -⟩ := h
  cases left with
  | nil =>
    cases ht
    refine ⟨kept, ⟨all, fun r stale there => ?_⟩, gone, new, rfl, by simp⟩
    have := counts r stale
    simp [count_eq_zero, there] at this
  | cons r left =>
    dsimp only [step] at ht
    split at ht
    next skip =>
      cases ht
      refine ⟨kept, ⟨all, fun q stale => ?_⟩, gone, new, rfl, by simp⟩
      have ne : r ≠ q := by
        rintro rfl
        simp [stale.1, stale.2] at skip
      simpa [count_cons, ne] using counts q stale
    next goes =>
      have unwanted : r ∉ want := by simp_all
      have stays : ∀ q ∈ want, q ∈ kernel → q ∈ kernel.erase r := by
        intro q hq there
        refine (mem_erase_of_ne ?_).mpr there
        rintro rfl
        exact unwanted hq
      cases fault with
      | none =>
        cases ht
        refine ⟨fun q hq was => stays q hq (kept q hq was), ⟨fun q hq => stays q hq (all hq), ?_⟩,
          r :: gone, new, rfl, by simp⟩
        intro q stale
        have := counts q stale
        rw [count_cons] at this
        rw [count_erase]
        split at this <;> simp_all
      | some e =>
        cases ht
        exact ⟨kept, trivial, gone, new, rfl, by simp⟩

/-- One step keeps the wanted rules there were, and removes only after it has added. -/
theorem inv_step {want before : List Rule} (s : State) (fault : Option String) (t : State)
    (h : Inv want before s) (ht : step want s fault = some t) : Inv want before t := by
  obtain ⟨kernel, phase, log⟩ := s
  cases phase with
  | adding left =>
    obtain ⟨gone, new, rfl, order⟩ := h.order
    cases order left rfl
    exact inv_adding h ht
  | deleting left => exact inv_deleting h ht
  | returned err => cases ht

/-! ## Once more -/

/-- Nothing was changed, and nothing will be. -/
structure Idle (want kernel : List Rule) (s : State) : Prop where
  same : s.kernel = kernel
  log : s.log = []
  adds : ∀ left, s.phase = .adding left → left ⊆ kernel
  deletes : ∀ left, s.phase = .deleting left → ∀ r ∈ left, ¬ Stale want r

/-- A step over rules that are right already changes nothing. -/
theorem idle_step {want kernel : List Rule} (clean : ∀ r ∈ kernel, ¬ Stale want r) (s : State)
    (fault : Option String) (t : State) (h : Idle want kernel s)
    (ht : step want s fault = some t) : Idle want kernel t := by
  obtain ⟨k, phase, log⟩ := s
  obtain ⟨rfl, rfl, adds, deletes⟩ := h
  cases phase with
  | adding left =>
    cases left with
    | nil =>
      cases fault <;> cases ht
      · exact ⟨rfl, rfl, by simp, by simpa using clean⟩
      · exact ⟨rfl, rfl, by simp, by simp⟩
    | cons r left =>
      obtain ⟨there, rest⟩ := cons_subset.mp (adds _ rfl)
      cases fault with
      | none =>
        dsimp only [step] at ht
        rw [if_pos there] at ht
        cases ht
        exact ⟨rfl, rfl, by simpa using rest, by simp⟩
      | some e =>
        cases ht
        exact ⟨rfl, rfl, by simp, by simp⟩
  | deleting left =>
    cases left with
    | nil =>
      cases ht
      exact ⟨rfl, rfl, by simp, by simp⟩
    | cons r left =>
      obtain ⟨here, rest⟩ := forall_mem_cons.mp (deletes _ rfl)
      have skip : (isStockRule r.pref || want.contains r) = true := by
        by_contra goes
        exact here (by simpa [Stale] using goes)
      dsimp only [step] at ht
      rw [if_pos skip] at ht
      cases ht
      exact ⟨rfl, rfl, by simp, by simpa using rest⟩
  | returned err => cases ht

/-! ## The reconcile -/

/-- The rules of some assigned uplinks and a pool, for the groups there are. -/
def wanted (us : Assigned) (vpn : VPNRouteState) : List Rule :=
  allRules defaultGroups us.links vpn

/-- **A reconcile converges and is safe on the way**, over any leftovers and whichever calls
fail. -/
theorem reconcile_converges {us : Assigned} {vpn : VPNRouteState} {before : List Rule}
    {faults : List (Option String)} {s : State}
    (h : Runs.run (step (wanted us vpn)) (start (wanted us vpn) before) faults = some s) :
    (∀ r ∈ wanted us vpn, r ∈ before → r ∈ s.kernel) ∧
    (∃ gone new : List Rule, s.log = gone.map .removed ++ new.map .added) ∧
    (s.phase = .returned none →
      (∀ r, r ∈ s.kernel ∧ isStockRule r.pref = false ↔ r ∈ wanted us vpn) ∧
      ∀ faults t, Runs.run (step (wanted us vpn)) (start (wanted us vpn) s.kernel) faults = some t →
        t.kernel = s.kernel ∧ t.log = []) := by
  have first : Inv (wanted us vpn) before (start (wanted us vpn) before) :=
    ⟨fun _ _ => id, fun r hr => .inl hr, [], [], rfl, by simp⟩
  have inv := Runs.run_inv inv_step first h
  obtain ⟨gone, new, log, -⟩ := inv.order
  refine ⟨inv.kept, ⟨gone, new, log⟩, fun ended => ?_⟩
  have done := inv.done
  rw [ended] at done
  obtain ⟨all, clean⟩ := done
  refine ⟨fun r => ⟨fun ⟨there, own⟩ => ?_, fun hr => ⟨all hr, isStockRule_of_mem hr⟩⟩,
    fun faults t ran => ?_⟩
  · by_contra unwanted
    exact clean r ⟨own, unwanted⟩ there
  have first : Idle (wanted us vpn) s.kernel (start (wanted us vpn) s.kernel) :=
    ⟨rfl, rfl, by simpa [start] using all, by simp [start]⟩
  have idle := Runs.run_inv (idle_step fun r there stale => clean r stale there) first ran
  exact ⟨idle.same, idle.log⟩

/-- The rules of a box without uplinks or tunnels. -/
def bare : List Rule := wanted ⟨[], by simp, by simp⟩ ⟨[], by simp⟩

/-- Leftovers of one preference, one of them wanted, and a rule of the kernel's. -/
theorem reconcile_converges_leftovers :
    ∃ s : State, ∀ r, r ∈ s.kernel ∧ isStockRule r.pref = false ↔ r ∈ bare := by
  have ran : (Runs.run (step bare) (start bare [mainSuppressRule, { pref := 45 }, { pref := 0 }])
      (replicate (2 * bare.length + 4) none)).map (·.phase) = some (.returned none) := by
    decide
  obtain ⟨s, ran, ended⟩ := Option.map_eq_some_iff.mp ran
  exact ⟨s, ((reconcile_converges ran).2.2 ended).1⟩

end NasnetPanel.Network.Reconcile
