import Mathlib.Data.List.Basic

/-!
# Lib.Runs — runs of a labelled step function

A system is a step function `step : σ → α → Option σ`: what one label does in a state, `none` where
the label is not enabled. `run` carries out a list of labels. A run is finite and executable, so a
concrete run is evaluated and a general one is reasoned about by induction, once, here:

* `run_inv`: what every step preserves holds in every state a run reaches,
* `run_inv_along`: the same for runs all of whose steps meet a guard (`Along`),
* `run_rel`: a reflexive and transitive relation that every step respects relates the ends of a
  run, which is how growth along a run is stated.

`noting` keeps a note beside the system, for guards that look back at the run so far.
-/

namespace Runs

universe u v
variable {σ : Type u} {α : Type v}

def run (step : σ → α → Option σ) : σ → List α → Option σ
  | s, [] => some s
  | s, a :: as => (step s a).bind fun t => run step t as

variable {step : σ → α → Option σ} {s t : σ} {as : List α}

theorem of_guard {p : Prop} [Decidable p] (h : (if p then some s else none) = some t) :
    p ∧ s = t := by
  simpa using h

theorem of_unless {p : Prop} [Decidable p] (h : (if p then none else some s) = some t) :
    ¬p ∧ s = t := by
  simpa using h

@[simp] theorem run_nil (s : σ) : run step s [] = some s := rfl

theorem run_cons {a : α} :
    run step s (a :: as) = some t ↔ ∃ m, step s a = some m ∧ run step m as = some t := by
  rw [run, Option.bind_eq_some_iff]

theorem run_append {bs : List α} :
    run step s (as ++ bs) = some t ↔ ∃ m, run step s as = some m ∧ run step m bs = some t := by
  induction as generalizing s with
  | nil => simp
  | cons a as ih =>
    rw [List.cons_append, run_cons]
    constructor
    · rintro ⟨m, hm, h⟩
      obtain ⟨k, hk, h⟩ := ih.mp h
      exact ⟨k, run_cons.mpr ⟨m, hm, hk⟩, h⟩
    · rintro ⟨k, hk, h⟩
      obtain ⟨m, hm, hk⟩ := run_cons.mp hk
      exact ⟨m, hm, ih.mpr ⟨k, hk, h⟩⟩

/-- Every step of the run meets the guard in the state before it. -/
def Along (step : σ → α → Option σ) (guard : σ → α → Prop) : σ → List α → Prop
  | _, [] => True
  | s, a :: as => guard s a ∧ ∀ t, step s a = some t → Along step guard t as

variable {guard : σ → α → Prop} {inv : σ → Prop}

theorem along_append {bs : List α} :
    Along step guard s (as ++ bs) ↔
      Along step guard s as ∧ ∀ m, run step s as = some m → Along step guard m bs := by
  induction as generalizing s with
  | nil => simp [Along]
  | cons a as ih =>
    simp only [List.cons_append, Along, ih, run_cons]
    constructor
    · rintro ⟨hg, h⟩
      refine ⟨⟨hg, fun t ht => (h t ht).1⟩, ?_⟩
      rintro m ⟨t, ht, hm⟩
      exact (h t ht).2 m hm
    · rintro ⟨⟨hg, h⟩, hb⟩
      exact ⟨hg, fun t ht => ⟨h t ht, fun m hm => hb m ⟨t, ht, hm⟩⟩⟩

theorem along_true (s : σ) (as : List α) : Along step (fun _ _ => True) s as := by
  induction as generalizing s with
  | nil => trivial
  | cons a as ih => exact ⟨trivial, fun t _ => ih t⟩

theorem along_and_mem {P : α → Prop} (along : Along step guard s as)
    (all : ∀ a ∈ as, P a) : Along step (fun s a => guard s a ∧ P a) s as := by
  induction as generalizing s with
  | nil => trivial
  | cons a as ih =>
    exact ⟨⟨along.1, all a List.mem_cons_self⟩,
      fun t ht => ih (along.2 t ht) fun b hb => all b (List.mem_cons_of_mem _ hb)⟩

theorem Along.mono {weaker : σ → α → Prop} (along : Along step guard s as)
    (h : ∀ s a, guard s a → weaker s a) : Along step weaker s as := by
  induction as generalizing s with
  | nil => trivial
  | cons a as ih => exact ⟨h s a along.1, fun t ht => ih (along.2 t ht)⟩

/-- The executable form of `Along`. -/
def checkAlong (step : σ → α → Option σ) (guard : σ → α → Bool) : σ → List α → Bool
  | _, [] => true
  | s, a :: as => guard s a &&
    match step s a with
    | none => true
    | some t => checkAlong step guard t as

theorem along_of_check {check : σ → α → Bool} (h : checkAlong step check s as = true) :
    Along step (fun s a => check s a = true) s as := by
  induction as generalizing s with
  | nil => trivial
  | cons a as ih =>
    rw [checkAlong, Bool.and_eq_true] at h
    refine ⟨h.1, fun t ht => ih ?_⟩
    have rest := h.2
    rw [ht] at rest
    exact rest

/-- Carry out the labels as long as each meets the guard. -/
def runChecked (step : σ → α → Option σ) (guard : σ → α → Bool) : σ → List α → Option σ
  | s, [] => some s
  | s, a :: as => if guard s a then (step s a).bind fun t => runChecked step guard t as else none

/-- A run that was checked on the way: one evaluation gives its end and its guard. -/
theorem of_runChecked {check : σ → α → Bool} (h : runChecked step check s as = some t) :
    run step s as = some t ∧ Along step (fun s a => check s a = true) s as := by
  induction as generalizing s with
  | nil => exact ⟨h, trivial⟩
  | cons a as ih =>
    unfold runChecked at h
    split at h
    next met =>
      obtain ⟨m, stepped, rest⟩ := Option.bind_eq_some_iff.mp h
      obtain ⟨ran, along⟩ := ih rest
      refine ⟨run_cons.mpr ⟨m, stepped, ran⟩, met, fun u hu => ?_⟩
      rw [stepped] at hu
      cases hu
      exact along
    · cases h

/-- **What every guarded step preserves holds in every state a guarded run reaches.** -/
theorem run_inv_along (preserved : ∀ s a t, inv s → guard s a → step s a = some t → inv t)
    {s t : σ} {as : List α} (start : inv s) (along : Along step guard s as)
    (h : run step s as = some t) : inv t := by
  induction as generalizing s with
  | nil =>
    cases h
    exact start
  | cons a as ih =>
    obtain ⟨m, hm, h⟩ := run_cons.mp h
    exact ih (preserved s a m start along.1 hm) (along.2 m hm) h

/-- **What every step preserves holds in every state a run reaches.** -/
theorem run_inv (preserved : ∀ s a t, inv s → step s a = some t → inv t) {s t : σ} {as : List α}
    (start : inv s) (h : run step s as = some t) : inv t :=
  run_inv_along (fun s a t inv _ => preserved s a t inv) start (along_true s as) h

/-- The same for the runs of some labels. -/
theorem run_inv_mem {P : α → Prop}
    (preserved : ∀ s a t, inv s → P a → step s a = some t → inv t) {s t : σ} {as : List α}
    (start : inv s) (all : ∀ a ∈ as, P a) (h : run step s as = some t) : inv t :=
  run_inv_along (fun s a t inv met => preserved s a t inv met.2) start
    (along_and_mem (along_true s as) all) h

theorem run_rel (rel : σ → σ → Prop) (refl : ∀ s, rel s s)
    (trans : ∀ r s t, rel r s → rel s t → rel r t)
    (respected : ∀ s a t, step s a = some t → rel s t)
    (h : run step s as = some t) : rel s t := by
  induction as generalizing s with
  | nil =>
    cases h
    exact refl _
  | cons a as ih =>
    obtain ⟨m, hm, h⟩ := run_cons.mp h
    exact trans s m t (respected s a m hm) (ih h)

/-! ## Notes -/

/-- The system beside a note that each step may add to. -/
def noting {η : Type v} (step : σ → α → Option σ) (note : σ → α → η → η) (s : σ × η) (a : α) :
    Option (σ × η) :=
  (step s.1 a).map fun t => (t, note s.1 a s.2)

theorem run_noting {η : Type v} (note : σ → α → η → η)
    (h : run step s as = some t) (d : η) : ∃ e, run (noting step note) (s, d) as = some (t, e) := by
  induction as generalizing s d with
  | nil =>
    cases h
    exact ⟨d, rfl⟩
  | cons a as ih =>
    obtain ⟨m, hm, h⟩ := run_cons.mp h
    obtain ⟨e, he⟩ := ih h (note s a d)
    exact ⟨e, run_cons.mpr ⟨(m, note s a d), by rw [noting, hm]; rfl, he⟩⟩

end Runs
