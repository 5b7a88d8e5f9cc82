import NasnetPanel.Lib.Runs

/-!
# Lib.CrashProg — programs over atomic calls that can fail or stop anywhere

`Prog C R α` is a program that makes calls `c : C`, gets a reply of type `R c` for each, and returns
an `α`. What a call does to the world is a parameter: `exec c a w` is the reply and the new world
when the environment answers with `a` (a fault, a clock reading, and whatever else the call leaves
open). A program is a well-founded tree, so it ends on every sequence of answers.

Two readings of a program:

* `Ends`: the outcomes of a complete run, over the answers a predicate allows,
* `System`: a process that starts programs one at a time and may stop between any two calls,
  keeping only the world.

`Safe` is the weakest precondition both use: at every call the node condition holds, and on return
the postcondition does. `safe_bind` composes it, `safe_of_only` gives it for what every call of a
program keeps, `post_of_ends` reads it off for complete runs, and `System.settled` turns it into an
invariant over every run of the process, stops included.
-/

namespace CrashProg

universe u v

/-- A program over calls `C` with replies `R`. -/
inductive Prog (C : Type u) (R : C → Type v) (α : Type v) where
  | ret (a : α)
  | call (c : C) (k : R c → Prog C R α)

namespace Prog
variable {C : Type u} {R : C → Type v} {α β : Type v}

def bind : Prog C R α → (α → Prog C R β) → Prog C R β
  | ret a, f => f a
  | call c k, f => call c fun r => (k r).bind f

instance : Monad (Prog C R) where
  pure := ret
  bind := bind

def perform (c : C) : Prog C R (R c) := call c ret

end Prog

open Prog

variable {C : Type u} {R : C → Type v} {A W : Type v} {α β : Type v}
  (exec : (c : C) → A → W → R c × W)

/-! ## Complete runs -/

/-- `Ends exec allowed p w a w'`: with allowed answers, `p` started in `w` returns `a` in `w'`. -/
def Ends (allowed : C → A → Prop) : Prog C R α → W → α → W → Prop
  | ret a, w, b, w' => a = b ∧ w = w'
  | call c k, w, b, w' => ∃ ans, allowed c ans ∧
      Ends allowed (k (exec c ans w).1) (exec c ans w).2 b w'

variable {allowed : C → A → Prop}

/-- A program ends, as long as every call has an allowed answer. -/
theorem ends_total (answered : ∀ c, ∃ ans, allowed c ans)
    (p : Prog C R α) (w : W) : ∃ a w', Ends exec allowed p w a w' := by
  induction p generalizing w with
  | ret a => exact ⟨a, w, rfl, rfl⟩
  | call c k ih =>
    obtain ⟨ans, ok⟩ := answered c
    obtain ⟨a, w', ends⟩ := ih (exec c ans w).1 (exec c ans w).2
    exact ⟨a, w', ans, ok, ends⟩

/-- The complete run in which every call gets the answer `ans`. -/
def complete (ans : A) : Prog C R α → W → α × W
  | ret a, w => (a, w)
  | call c k, w => complete ans (k (exec c ans w).1) (exec c ans w).2

theorem ends_complete (ans : A) (ok : ∀ c, allowed c ans) (p : Prog C R α) (w : W) :
    Ends exec allowed p w (complete exec ans p w).1 (complete exec ans p w).2 := by
  induction p generalizing w with
  | ret a => exact ⟨rfl, rfl⟩
  | call c k ih => exact ⟨ans, ok c, ih _ _⟩

theorem complete_bind {ans : A} {p : Prog C R α} {f : α → Prog C R β} {w : W} :
    complete exec ans (p >>= f) w =
      complete exec ans (f (complete exec ans p w).1) (complete exec ans p w).2 := by
  induction p generalizing w with
  | ret a => rfl
  | call c k ih => exact ih _

/-! ## The crash-safe precondition -/

/-- At every call `node` holds of the call and the world, whatever allowed answers came before, and
on return `post` holds. -/
def Safe (node : C → W → Prop) (allowed : C → A → Prop) (post : α → W → Prop) :
    Prog C R α → W → Prop
  | ret a, w => post a w
  | call c k, w => node c w ∧ ∀ ans, allowed c ans →
      Safe node allowed post (k (exec c ans w).1) (exec c ans w).2

section Safe
variable {exec} {node : C → W → Prop} {allowed : C → A → Prop}
  {post : α → W → Prop} {w : W} {p : Prog C R α} {f : α → Prog C R β} {q : C → Prop}

/-- Safety of a sequence is safety of its first part up to the point the second is safe from. -/
theorem safe_bind {post : β → W → Prop} :
    Safe exec node allowed post (p >>= f) w ↔
      Safe exec node allowed (fun a w' => Safe exec node allowed post (f a) w') p w := by
  induction p generalizing w with
  | ret a => rfl
  | call c k ih =>
    exact and_congr_right fun _ => forall_congr' fun ans => imp_congr_right fun _ => ih _

/-- The postcondition may be weakened. -/
theorem safe_mono {post' : α → W → Prop} (h : ∀ a w, post a w → post' a w)
    (safe : Safe exec node allowed post p w) : Safe exec node allowed post' p w := by
  induction p generalizing w with
  | ret a => exact h a w safe
  | call c k ih => exact ⟨safe.1, fun ans ha => ih _ (safe.2 ans ha)⟩

/-- So may the condition at every call. -/
theorem safe_weaken {node' : C → W → Prop} (h : ∀ c w, node c w → node' c w)
    (safe : Safe exec node allowed post p w) : Safe exec node' allowed post p w := by
  induction p generalizing w with
  | ret a => exact safe
  | call c k ih => exact ⟨h c w safe.1, fun ans ok => ih _ (safe.2 ans ok)⟩

/-- Every call the program can come to is one of `q`. -/
def Only (q : C → Prop) : Prog C R α → Prop
  | ret _ => True
  | call c k => q c ∧ ∀ r, Only q (k r)

theorem only_true (p : Prog C R α) : Only (fun _ => True) p := by
  induction p with
  | ret a => trivial
  | call c k ih => exact ⟨trivial, ih⟩

theorem only_bind (first : Only q p) (rest : ∀ a, Only q (f a)) : Only q (p >>= f) := by
  induction p with
  | ret a => exact rest a
  | call c k ih => exact ⟨first.1, fun r => ih r (first.2 r)⟩

/-- A program that only makes calls `q` keeps what those calls keep. -/
theorem safe_of_only {inv : W → Prop}
    (kept : ∀ c w, q c → inv w → node c w ∧ ∀ ans, allowed c ans → inv (exec c ans w).2)
    (only : Only q p) (start : inv w) : Safe exec node allowed (fun _ => inv) p w := by
  induction p generalizing w with
  | ret a => exact start
  | call c k ih =>
    obtain ⟨here, next⟩ := kept c w only.1 start
    exact ⟨here, fun ans ok => ih _ (only.2 _) (next ans ok)⟩

/-- What every call keeps holds on return too. -/
theorem safe_keeping {inv : W → Prop} (kept : ∀ c ans w, inv w → inv (exec c ans w).2)
    (safe : Safe exec node allowed post p w) (start : inv w) :
    Safe exec node allowed (fun a w' => post a w' ∧ inv w') p w := by
  induction p generalizing w with
  | ret a => exact ⟨safe, start⟩
  | call c k ih => exact ⟨safe.1, fun ans ok => ih _ (safe.2 ans ok) (kept c ans w start)⟩

/-- The postcondition may mention the run itself. -/
theorem safe_ends (safe : Safe exec node allowed post p w) :
    Safe exec node allowed (fun a w' => post a w' ∧ Ends exec allowed p w a w') p w := by
  induction p generalizing w with
  | ret a => exact ⟨safe, rfl, rfl⟩
  | call c k ih =>
    refine ⟨safe.1, fun ans ok => safe_mono ?_ (ih _ (safe.2 ans ok))⟩
    exact fun a w' h => ⟨h.1, ans, ok, h.2⟩

theorem post_of_ends {w' : W} {a : α}
    (safe : Safe exec node allowed post p w) (ends : Ends exec allowed p w a w') : post a w' := by
  induction p generalizing w with
  | ret b =>
    obtain ⟨rfl, rfl⟩ := ends
    exact safe
  | call c k ih =>
    obtain ⟨ans, ha, ends⟩ := ends
    exact ih _ (safe.2 ans ha) ends

end Safe

/-! ## Programs that may give up -/

section Except
variable {ε : Type v} {exec} {node : C → W → Prop} {allowed : C → A → Prop}

/-- A result, or the error the program gave up with. -/
def Gives (ok : α → W → Prop) (err : ε → W → Prop) : Except ε α → W → Prop
  | .ok a, w => ok a w
  | .error e, w => err e w

variable {ok : β → W → Prop} {err : ε → W → Prop} {w : W} {ans : A}
  {p : ExceptT ε (Prog C R) α} {f : α → ExceptT ε (Prog C R) β} {e : ε}
  {k : PUnit → ExceptT ε (Prog C R) β}

/-- A part of a program that may give up, by its spec. -/
theorem safe_seq {mid : α → W → Prop} (part : Safe exec node allowed (Gives mid err) p.run w)
    (rest : ∀ a w', mid a w' → Safe exec node allowed (Gives ok err) (f a).run w') :
    Safe exec node allowed (Gives ok err) (p >>= f).run w := by
  refine safe_bind.mpr (safe_mono ?_ part)
  intro r w' h
  cases r with
  | ok a => exact rest a w' h
  | error e => exact h

/-- The same, where the rest may use how the first part came to its result. -/
theorem safe_seq_ends {mid : α → W → Prop}
    (part : Safe exec node allowed (Gives mid err) p.run w)
    (rest : ∀ a w', mid a w' → Ends exec allowed p.run w (.ok a) w' →
      Safe exec node allowed (Gives ok err) (f a).run w') :
    Safe exec node allowed (Gives ok err) (p >>= f).run w := by
  refine safe_bind.mpr (safe_mono ?_ (safe_ends part))
  rintro (e | a) w' ⟨h, ends⟩
  · exact h
  · exact rest a w' h ends

/-- A call of a program that may give up. -/
def request (c : C) : ExceptT ε (Prog C R) (R c) := ExceptT.lift (perform c)

def ensure (b : Bool) (e : ε) : ExceptT ε (Prog C R) PUnit := if b then pure ⟨⟩ else throw e

theorem safe_request {c : C} {k : R c → ExceptT ε (Prog C R) β} (here : node c w)
    (next : ∀ ans, allowed c ans →
      Safe exec node allowed (Gives ok err) (k (exec c ans w).1).run (exec c ans w).2) :
    Safe exec node allowed (Gives ok err) (request c >>= k).run w :=
  ⟨here, next⟩

theorem safe_ensure {b : Bool} (failed : b = false → err e w)
    (next : b = true → Safe exec node allowed (Gives ok err) (k ⟨⟩).run w) :
    Safe exec node allowed (Gives ok err) (ensure b e >>= k).run w := by
  cases b with
  | true => exact next rfl
  | false => exact failed rfl

theorem complete_request {c : C} {k : R c → ExceptT ε (Prog C R) β} :
    complete exec ans (request c >>= k).run w =
      complete exec ans (k (exec c ans w).1).run (exec c ans w).2 := rfl

theorem complete_ensure :
    complete exec ans (ensure true e >>= k).run w = complete exec ans (k ⟨⟩).run w := rfl

/-- A part that ends well leaves the rest to run. -/
theorem complete_seq {a : α} (ok : (complete exec ans p.run w).1 = .ok a) :
    complete exec ans (p >>= f).run w =
      complete exec ans (f a).run (complete exec ans p.run w).2 := by
  refine (complete_bind exec).trans ?_
  change complete exec ans (ExceptT.bindCont f (complete exec ans p.run w).1) _ = _
  rw [ok]
  rfl

end Except

/-! ## A process that may stop anywhere -/

/-- The world, and the program that runs now, if one does. -/
structure System (C : Type u) (R : C → Type v) (W : Type v) where
  world : W
  running : Option (Prog C R PUnit)

/-- What can happen: a program starts, the running one makes its next call, or the process stops
where it is. -/
inductive Label (E : Type u) (A : Type v) where
  | start (e : E)
  | advance (ans : A)
  | crash

namespace System
variable {E : Type u} (entry : E → Prog C R PUnit)

/-- Programs start one at a time, as under a lock; a stop forgets the program and keeps the
world. -/
def step (s : System C R W) : Label E A → Option (System C R W)
  | .start e =>
    match s.running with
    | none => some { s with running := some (entry e) }
    | some _ => none
  | .advance ans =>
    match s.running with
    | none => none
    | some (.ret _) => some { s with running := none }
    | some (.call c k) =>
      let (reply, world) := exec c ans s.world
      some { world := world, running := some (k reply) }
  | .crash => some { s with running := none }

/-- The guard of a step: a call answers only as allowed, and the process stops only before calls
where it may. -/
def Guarded (mayStop : C → Prop) (allowed : C → A → Prop) (s : System C R W) :
    Label E A → Prop
  | .start _ => True
  | .advance ans => ∀ c k, s.running = some (.call c k) → allowed c ans
  | .crash => ∀ c k, s.running = some (.call c k) → mayStop c

/-- The same where it is the world that says whether the process may stop. -/
def GuardedIn (mayStop : W → Prop) (allowed : C → A → Prop) (s : System C R W) :
    Label E A → Prop
  | .start _ => True
  | .advance ans => ∀ c k, s.running = some (.call c k) → allowed c ans
  | .crash => mayStop s.world

/-- The invariant of the process: the world is settled, or the running program is safe and settles
it on return. -/
def Settled (node : C → W → Prop) (allowed : C → A → Prop) (inv : W → Prop)
    (s : System C R W) : Prop :=
  match s.running with
  | none => inv s.world
  | some p => Safe exec node allowed (fun _ => inv) p s.world

section
variable {exec entry} {node : C → W → Prop} {allowed : C → A → Prop} {mayStop : C → Prop}
  {inv : W → Prop} {s t : System C R W} {ls : List (Label E A)}

section
variable (safe : ∀ e w, inv w → Safe exec node allowed (fun _ => inv) (entry e) w)
include safe

/-- One step keeps the process settled, if it answers as allowed and stops only in a world that is
settled. -/
theorem settled_step_of {l : Label E A} (h : Settled exec node allowed inv s)
    (answers : ∀ ans, l = .advance ans → ∀ c k, s.running = some (.call c k) → allowed c ans)
    (stops : l = .crash → ∀ c k, s.running = some (.call c k) → node c s.world → inv s.world)
    (ht : step exec entry s l = some t) : Settled exec node allowed inv t := by
  obtain ⟨w, running⟩ := s
  cases l with
  | start e =>
    cases running with
    | none =>
      cases ht
      exact safe e w h
    | some p => cases ht
  | advance ans =>
    cases running with
    | none => cases ht
    | some p =>
      cases p with
      | ret _ =>
        cases ht
        exact h
      | call c k =>
        cases ht
        exact h.2 ans (answers ans rfl c k rfl)
  | crash =>
    cases ht
    cases running with
    | none => exact h
    | some p =>
      cases p with
      | ret _ => exact h
      | call c k => exact stops rfl c k rfl h.1

/-- One step keeps the system settled, if it stops only where stopping keeps the invariant. -/
theorem settled_step (stops : ∀ c w, node c w → mayStop c → inv w) (s : System C R W)
    (l : Label E A) (t : System C R W) (h : Settled exec node allowed inv s)
    (guarded : Guarded mayStop allowed s l) (ht : step exec entry s l = some t) :
    Settled exec node allowed inv t := by
  refine settled_step_of safe h ?_ ?_ ht
  · rintro ans rfl c k running
    exact guarded c k running
  · rintro rfl c k running here
    exact stops c s.world here (guarded c k running)

omit safe in
/-- **Every state a guarded run reaches is settled.** -/
theorem settled (safe : ∀ e w, inv w → Safe exec node allowed (fun _ => inv) (entry e) w)
    (stops : ∀ c w, node c w → mayStop c → inv w) {w : W} (start : inv w)
    (along : Runs.Along (step exec entry) (Guarded mayStop allowed) ⟨w, none⟩ ls)
    (h : Runs.run (step exec entry) ⟨w, none⟩ ls = some t) : Settled exec node allowed inv t := by
  have settledStart : Settled exec node allowed inv (⟨w, none⟩ : System C R W) := start
  exact Runs.run_inv_along (settled_step safe stops) settledStart along h

/-- The same from a program that runs already, where the world says when the process may stop. -/
theorem settled_in {mayStop : W → Prop} (stops : ∀ c w, node c w → mayStop w → inv w)
    (start : Settled exec node allowed inv s)
    (along : Runs.Along (step exec entry) (GuardedIn mayStop allowed) s ls)
    (h : Runs.run (step exec entry) s ls = some t) : Settled exec node allowed inv t := by
  refine Runs.run_inv_along
    (fun s l t h guarded ht => settled_step_of safe h ?_ ?_ ht) start along h
  · rintro ans rfl c k running
    exact guarded c k running
  · rintro rfl c k - here
    exact stops c s.world here guarded

end

theorem along_free :
    Runs.Along (step exec entry) (Guarded (fun _ => True) fun _ _ => True) s ls := by
  induction ls generalizing s with
  | nil => trivial
  | cons l ls ih =>
    refine ⟨?_, fun t _ => ih⟩
    cases l with
    | start e => trivial
    | advance ans => exact fun _ _ _ => trivial
    | crash => exact fun _ _ _ => trivial

/-- A settled state satisfies whatever both the invariant and every node condition give. -/
theorem of_settled {p : W → Prop} (ofInv : ∀ w, inv w → p w) (ofNode : ∀ c w, node c w → p w)
    (h : Settled exec node allowed inv s) : p s.world := by
  obtain ⟨w, running⟩ := s
  cases running with
  | none => exact ofInv w h
  | some q =>
    cases q with
    | ret _ => exact ofInv w h
    | call c k => exact ofNode c w h.1

theorem run_world_rel (rel : W → W → Prop) (refl : ∀ w, rel w w)
    (trans : ∀ r s t, rel r s → rel s t → rel r t) (respected : ∀ c ans w, rel w (exec c ans w).2)
    (h : Runs.run (step exec entry) s ls = some t) : rel s.world t.world := by
  refine Runs.run_rel (fun a b => rel a.world b.world) (fun s => refl s.world)
    (fun r s t => trans r.world s.world t.world) ?_ h
  rintro ⟨w, running⟩ l t ht
  cases l with
  | start e =>
    cases running with
    | none => cases ht; exact refl w
    | some p => cases ht
  | advance ans =>
    cases running with
    | none => cases ht
    | some p =>
      cases p with
      | ret _ => cases ht; exact refl w
      | call c k => cases ht; exact respected c ans w
  | crash => cases ht; exact refl w

end

end System

end CrashProg
