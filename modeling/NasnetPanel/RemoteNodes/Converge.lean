import NasnetPanel.RemoteNodes.Agreed

/-!
# RemoteNodes.Converge — the nodes end up with the clients that are wanted

Calls come between each other at every step, and a mark that stops or starts a subscription is set
without any lock. The law `wanted_clients` says that once all calls have returned, each node has the
clients the state wants there.

The argument looks ahead. `World.final` is what a node has once the thread that holds its lock has
sent what it has yet to send. That is agreed on for every subscription (`Inv`), whatever the others
do: nobody else sends to a locked node, so what the holder sends is not undone.

That nobody else does is the condition. `DeleteSubscription` and `syncClients` go to the nodes they
find when they hold their locks, which may be more than those they locked: `stray_client` is a run
in which a client is left on a node. The law is for the runs in which they find no others, and in
which no thread gives up telling the nodes of a change it has made.
-/

namespace NasnetPanel.RemoteNodes
open List
open Function (update update_self update_of_ne)

/-! ## Locks -/

/-- Code that can be run by a thread that holds the locks: what is sent goes to nodes whose locks
are held, nothing else is done while one is held, and in the end all are released. What `delete` and
`syncApply` send is not known from the code. -/
def Runnable : List Nat → List Instr → Prop
  | held, [] => held = []
  | held, .acquire n :: code => Runnable (n :: held) code
  | _, .release :: code => Runnable [] code
  | held, .create nodes _ _ :: code => (∀ n ∈ nodes, n ∈ held) ∧ Runnable held code
  | held, .setEnabled _ node _ :: code => node ∈ held ∧ Runnable held code
  | held, .beginPush node :: code => node ∈ held ∧ Runnable held code
  | held, .delete _ :: code | held, .syncApply _ :: code => Runnable held code
  | held, _ :: code => held = [] ∧ Runnable held code

open Runnable

theorem runnable_acquire (nodes held : List Nat) (code : List Instr) :
    Runnable held (nodes.map .acquire ++ code) ↔ Runnable (nodes.reverse ++ held) code := by
  induction nodes generalizing held with
  | nil => rfl
  | cons n nodes ih =>
    rw [reverse_cons, append_assoc]
    exact ih (n :: held)

theorem Call.runnable_code (call : Call) : Runnable [] call.code := by
  cases call with
  | createSubscription nodes limit expires =>
    refine (runnable_acquire _ _ _).mpr ⟨fun n mem => ?_, rfl⟩
    rw [append_nil, mem_reverse]
    exact mem
  | setEnabled sub node enabled => exact ⟨mem_cons_self, rfl⟩
  | deleteSubscription _ | updateSubscription _ _ | resetUsage _ | enforceLimits => exact ⟨rfl, rfl⟩

variable {held : List Nat} {code : List Instr}

theorem Runnable.append {first : List Instr} (h : Runnable held first)
    (rest : Runnable [] code) : Runnable held (first ++ code) := by
  induction first generalizing held with
  | nil =>
    cases h
    exact rest
  | cons x first ih =>
    cases x with
    | acquire _ | release | delete _ | syncApply _ => exact ih h
    | create _ _ _ | setEnabled _ _ _ | beginPush _ | deleteRead _ | patch _ _ | reset _ | check _ _
    | syncRead _ | limits | stop _ _ | cutOpen => exact ⟨h.1, ih h.2⟩

theorem runnable_flatMap {A : Type} {l : List A} {f : A → List Instr}
    (each : ∀ a ∈ l, Runnable [] (f a)) : Runnable [] (l.flatMap f) := by
  induction l with
  | nil => rfl
  | cons a l ih =>
    exact (each a mem_cons_self).append (ih fun b mem => each b (mem_cons_of_mem _ mem))

variable {x : Instr} {st : State} {w w' : World}

theorem runnable_lockNodes (nodes : List Nat) (under : ∀ held, Runnable held [x, .release]) :
    Runnable [] (lockNodes nodes ++ [x, .release]) :=
  (runnable_acquire _ _ _).mpr (under _)

variable {inp : Input} {m : Move} {i : Nat} {moves : List Move}

theorem Instr.runnable_next (h : Runnable held (x :: code))
    (acquire : ∀ n, x ≠ .acquire n) (release : x ≠ .release) :
    Runnable held ((x.run st inp).next ++ code) := by
  cases x with
  | acquire n => exact absurd rfl (acquire n)
  | release => exact absurd rfl release
  | create nodes limit expires | beginPush node =>
    dsimp only [run]
    split <;> exact h.2
  | setEnabled sub node enabled =>
    dsimp only [run]
    split
    · exact h.2
    · split <;> exact h.2
  | delete sub | syncApply sub =>
    dsimp only [run]
    split <;> exact h
  | deleteRead sub | syncRead sub =>
    obtain ⟨rfl, rest⟩ := h
    refine append ?_ rest
    dsimp only [run]
    split
    · rfl
    · exact runnable_lockNodes _ fun _ => rfl
  | patch sub p | reset sub =>
    obtain ⟨rfl, rest⟩ := h
    refine append ?_ rest
    dsimp only [run]
    split
    · rfl
    · exact ⟨rfl, rfl⟩
  | check sub was | stop sub reason =>
    obtain ⟨rfl, rest⟩ := h
    refine append ?_ rest
    dsimp only [run]
    split
    · rfl
    split
    · rfl
    · exact ⟨rfl, rfl⟩
  | limits =>
    obtain ⟨rfl, rest⟩ := h
    refine append (append ?_ ⟨rfl, rfl⟩) rest
    rw [filterMap_eq_flatMap_toList]
    refine runnable_flatMap fun s _ => ?_
    split
    · cases s.stopReason _ _ with
      | none => rfl
      | some reason => exact ⟨rfl, rfl⟩
    · rfl
  | cutOpen =>
    obtain ⟨rfl, rest⟩ := h
    refine append ?_ rest
    exact runnable_flatMap fun n _ => ⟨mem_cons_self, rfl⟩

/-- The instruction goes to nodes it finds in the state once it holds its locks. -/
def Instr.findsNodes : Instr → Bool
  | .delete _ | .syncApply _ => true
  | _ => false

/-- The others go to nodes whose locks are held. -/
theorem Instr.sends_held (h : Runnable held (x :: code)) (fixed : x.findsNodes = false) :
    ∀ a ∈ (x.run st inp).acts, a.node ∈ held := by
  intro a mem
  cases x with
  | delete _ | syncApply _ => cases fixed
  | acquire _ | release | limits | cutOpen => cases mem
  | create nodes limit expires =>
    dsimp only [run] at mem
    split at mem
    · cases mem
    · obtain ⟨n, named, rfl⟩ := mem_map.mp mem
      exact h.1 n named
  | setEnabled sub node enabled =>
    dsimp only [run] at mem
    split at mem
    · cases mem
    split at mem
    · cases mem
    have there : a.node = node := by
      split at mem
      · split at mem
        · rw [mem_singleton.mp mem]
          rfl
        · cases mem
      · rw [mem_singleton.mp mem]
        rfl
    rw [there]
    exact h.1
  | beginPush node =>
    dsimp only [run] at mem
    split at mem
    · rw [mem_singleton.mp mem]
      exact h.1
    · cases mem
  | deleteRead _ | patch _ _ | reset _ | check _ _ | syncRead _ | stop _ _ =>
    dsimp only [run] at mem
    split at mem <;> cases mem

theorem Runnable.dropWhile (h : Runnable held code)
    (holds : held ≠ []) (held' : List Nat) : Runnable held' (code.dropWhile (· ≠ .release)) := by
  induction code generalizing held with
  | nil => exact absurd h holds
  | cons x code ih =>
    cases x with
    | release => exact h
    | acquire n => exact ih h (cons_ne_nil n held)
    | delete _ | syncApply _ => exact ih h holds
    | create _ _ _ | setEnabled _ _ _ | beginPush _ => exact ih h.2 holds
    | deleteRead _ | patch _ _ | reset _ | check _ _ | syncRead _ | limits | stop _ _ | cutOpen =>
      exact absurd h.1 holds

/-! ## The invariant -/

/-- What a node has once what is on its way has arrived. -/
def World.final (w : World) (n : Nat) : Clients :=
  match w.locks n with
  | none => w.clients n
  | some i => settle (w.threads i).acts n (w.clients n)

open World

structure Thread.Ordered (t : Thread) : Prop where
  nodup : t.held.Nodup
  sends : ∀ a ∈ t.acts, a.node ∈ t.held
  runnable : Runnable t.held t.code

/-- Some thread is going to tell the nodes of the subscription. -/
def World.Covered (w : World) (sub : Nat) : Prop :=
  ∃ i, covered w.state sub (w.threads i).code = true

structure Inv (w : World) : Prop where
  valid : w.state.Valid
  owner : ∀ n i, w.locks n = some i ↔ n ∈ (w.threads i).held
  ordered : ∀ i, (w.threads i).Ordered
  agreed : ∀ n sub, Agreed w.state (w.final n sub).isSome sub n (w.Covered sub)

section
variable {w : World} {i : Nat} {n : Nat} {t : Thread}

theorem World.final_congr {w' : World} (locks : w'.locks n = w.locks n)
    (clients : w'.clients n = w.clients n)
    (acts : ∀ i, w.locks n = some i → (w'.threads i).acts = (w.threads i).acts) :
    w'.final n = w.final n := by
  unfold final
  rw [locks, clients]
  cases lock : w.locks n with
  | none => rfl
  | some i =>
    dsimp only
    rw [acts i lock]

theorem World.final_of_lock (lock : w.locks n = some i) :
    w.final n = settle (w.threads i).acts n (w.clients n) := by
  unfold final
  rw [lock]

theorem World.final_of_idle (idle : ∀ i, w.locks n = some i → (w.threads i).acts = []) :
    w.final n = w.clients n := by
  unfold final
  cases lock : w.locks n with
  | none => rfl
  | some i =>
    dsimp only
    rw [idle i lock]
    rfl

section
variable {n : Nat} {t : Thread} {st : State} {clients : Nat → Clients}

theorem World.final_other (lock : w.locks n ≠ some i) (same : clients n = w.clients n) :
    World.final ⟨st, clients, w.locks, update w.threads i t⟩ n = w.final n := by
  refine final_congr rfl same fun j held => ?_
  have other : j ≠ i := by
    rintro rfl
    exact lock held
  show (update w.threads i t j).acts = _
  rw [update_of_ne other]

theorem World.final_mine (lock : w.locks n = some i) :
    World.final ⟨st, clients, w.locks, update w.threads i t⟩ n =
      settle t.acts n (clients n) := by
  refine Eq.trans (final_of_lock lock) ?_
  show settle (update w.threads i t i).acts n _ = _
  rw [update_self]

end

variable {locks : Nat → Option Nat}

/-- A step of one thread that leaves the state, and what every node comes to, as it was. -/
theorem Inv.of_thread (h : Inv w) {clients : Nat → Clients}
    (owner : ∀ n j, locks n = some j ↔ n ∈ (update w.threads i t j).held)
    (ordered : t.Ordered) (final : ∀ n,
      World.final ⟨w.state, clients, locks, update w.threads i t⟩ n = w.final n)
    (covers : ∀ sub, covered w.state sub (w.threads i).code = true →
      covered w.state sub t.code = true) :
    Inv ⟨w.state, clients, locks, update w.threads i t⟩ where
  valid := h.valid
  owner := owner
  ordered := by
    rw [Function.forall_update_iff w.threads fun _ t => t.Ordered]
    exact ⟨ordered, fun j _ => h.ordered j⟩
  agreed n sub := by
    rw [final n]
    refine (h.agreed n sub).carry rfl rfl ?_
    rintro ⟨j, about⟩
    refine ⟨j, ?_⟩
    show covered w.state sub (update w.threads i t j).code = true
    by_cases same : j = i
    · subst same
      rw [update_self]
      exact covers sub about
    · rw [update_of_ne same]
      exact about

/-- A thread's locks stay those it holds. -/
theorem Inv.owner_update (h : Inv w) (held : t.held = (w.threads i).held) (n j : Nat) :
    w.locks n = some j ↔ n ∈ (update w.threads i t j).held := by
  rw [h.owner n j]
  by_cases same : j = i
  · rw [same, update_self, held]
  · rw [update_of_ne same]

/-- A thread starts a call. -/
theorem Inv.start (h : Inv w) (idle : w.threads i = {}) (call : Call) :
    Inv (w.setThread i { code := call.code }) := by
  have nothing : (w.threads i).held = [] := by rw [idle]
  refine h.of_thread (h.owner_update nothing.symm) ⟨nodup_nil, ?_, call.runnable_code⟩ ?_ ?_
  · intro a mem
    cases mem
  · intro n
    refine final_other (fun lock => ?_) rfl
    have mem := (h.owner n i).mp lock
    rw [nothing] at mem
    cases mem
  · intro sub covers
    rw [idle] at covers
    cases covers

/-- Nobody else sends to a node a thread holds. -/
theorem Inv.send (h : Inv w) {a : Act} {acts : List Act} (next : (w.threads i).acts = a :: acts) :
    Inv { w.setThread i { w.threads i with acts := acts } with
      clients := update w.clients a.node (a.apply (w.clients a.node)) } := by
  have ordered := h.ordered i
  have sends : ∀ b ∈ a :: acts, b.node ∈ (w.threads i).held := by
    rw [← next]
    exact ordered.sends
  refine h.of_thread (h.owner_update rfl)
    { ordered with sends := fun b mem => sends b (mem_cons_of_mem _ mem) } ?_
    fun _ covers => covers
  intro n
  have mine : w.locks a.node = some i := (h.owner a.node i).mpr (sends a mem_cons_self)
  have clients : update w.clients a.node (a.apply (w.clients a.node)) n =
      if a.node = n then a.apply (w.clients n) else w.clients n := by
    by_cases here : a.node = n
    · rw [← here, update_self, if_pos rfl]
    · rw [update_of_ne (Ne.symm here), if_neg here]
  by_cases lock : w.locks n = some i
  · rw [final_of_lock lock, next, settle_cons, ← clients]
    exact final_mine lock
  have elsewhere : a.node ≠ n := fun here => lock (here ▸ mine)
  rw [if_neg elsewhere] at clients
  exact final_other lock clients

theorem World.final_update {m : Nat} (idle : (w.threads i).acts = []) (sends : t.acts = [])
    (others : ∀ n, n ≠ m → locks n = w.locks n)
    (before : ∀ j, w.locks m = some j → j = i) (after : ∀ j, locks m = some j → j = i) (n : Nat) :
    World.final ⟨w.state, w.clients, locks, update w.threads i t⟩ n = w.final n := by
  have acts : ∀ j, (update w.threads i t j).acts = (w.threads j).acts := by
    intro j
    by_cases same : j = i
    · rw [same, update_self, sends, idle]
    · rw [update_of_ne same]
  by_cases here : n = m
  · subst here
    rw [final_of_idle, final_of_idle]
    · intro j lock
      rw [before j lock, idle]
    · intro j lock
      rw [acts, after j lock, idle]
  · exact final_congr (others n here) rfl fun j _ => acts j

theorem Inv.runnable (h : Inv w) (next : (w.threads i).code = code) :
    Runnable (w.threads i).held code := by
  rw [← next]
  exact (h.ordered i).runnable

/-- A thread takes a lock that is free. -/
theorem Inv.acquire (h : Inv w) (idle : (w.threads i).acts = [])
    (next : (w.threads i).code = .acquire n :: code) (free : w.locks n = none) :
    Inv { w.setThread i { w.threads i with held := n :: (w.threads i).held, code := code } with
      locks := update w.locks n (some i) } := by
  have ordered := h.ordered i
  have unheld : ∀ j, n ∉ (w.threads j).held := fun j mem => by
    rw [(h.owner n j).mpr mem] at free
    cases free
  refine h.of_thread ?_ ⟨nodup_cons.mpr ⟨unheld i, ordered.nodup⟩, ?_, h.runnable next⟩ ?_ ?_
  · intro m j
    by_cases here : m = n
    · subst here
      rw [update_self]
      by_cases same : j = i
      · rw [same, update_self]
        exact ⟨fun _ => mem_cons_self, fun _ => rfl⟩
      · rw [update_of_ne same]
        exact ⟨fun h => absurd (Option.some.inj h).symm same, fun mem => absurd mem (unheld j)⟩
    · rw [update_of_ne here, h.owner m j]
      by_cases same : j = i
      · rw [same, update_self]
        exact (mem_cons.trans (or_iff_right here)).symm
      · rw [update_of_ne same]
  · intro a mem
    exact mem_cons_of_mem _ (ordered.sends a mem)
  · refine final_update idle idle (fun m other => update_of_ne other _ _) ?_ ?_
    · intro j lock
      rw [free] at lock
      cases lock
    · intro j lock
      rw [update_self] at lock
      exact (Option.some.inj lock).symm
  · intro sub covers
    rw [next] at covers
    exact covers

/-- A thread gives back the lock it took last. -/
theorem Inv.release (h : Inv w) (idle : (w.threads i).acts = [])
    (next : (w.threads i).code = .release :: code)
    (holds : (w.threads i).held = n :: held) :
    Inv { w.setThread i { w.threads i with held := held } with
      locks := update w.locks n none } := by
  have ordered := h.ordered i
  have nodup := ordered.nodup
  rw [holds, nodup_cons] at nodup
  have mine : w.locks n = some i := (h.owner n i).mpr (by rw [holds]; exact mem_cons_self)
  refine h.of_thread ?_ ⟨nodup.2, ?_, ?_⟩ ?_ fun _ covers => covers
  · intro m j
    by_cases here : m = n
    · subst here
      rw [update_self]
      by_cases same : j = i
      · rw [same, update_self]
        exact ⟨fun h => (by cases h), fun mem => absurd mem nodup.1⟩
      rw [update_of_ne same]
      refine ⟨fun h => (by cases h), fun mem => ?_⟩
      rw [(h.owner m j).mpr mem] at mine
      exact absurd (Option.some.inj mine) same
    · rw [update_of_ne here, h.owner m j]
      by_cases same : j = i
      · rw [same, update_self, holds]
        exact mem_cons.trans (or_iff_right here)
      · rw [update_of_ne same]
  · intro a mem
    rw [idle] at mem
    cases mem
  · rw [next]
    exact h.runnable next
  · refine final_update idle idle (fun m other => update_of_ne other _ _) ?_ ?_
    · intro j lock
      rw [mine] at lock
      exact (Option.some.inj lock).symm
    · intro j lock
      rw [update_self] at lock
      cases lock

/-- A thread goes on with other code, which tells whom it was going to. -/
theorem Inv.setCode (h : Inv w)
    (runnable : Runnable (w.threads i).held code)
    (covers : ∀ sub, covered w.state sub (w.threads i).code = true →
      covered w.state sub code = true) :
    Inv (w.setThread i { w.threads i with code := code }) := by
  have ordered := h.ordered i
  refine h.of_thread (h.owner_update rfl) { ordered with runnable := runnable } ?_ covers
  intro n
  refine final_congr rfl rfl fun j _ => ?_
  show (update w.threads i _ j).acts = _
  by_cases same : j = i
  · rw [same, update_self]
  · rw [update_of_ne same]

def World.CoveredBeside (w : World) (i : Nat) (code : List Instr) (st : State) (sub : Nat) : Prop :=
  covered st sub code = true ∨ ∃ j, j ≠ i ∧ covered st sub (w.threads j).code = true

section
variable {x : Instr} {first : List Instr} {sub : Nat} {st st' : State}

theorem World.Covered.beside (next : (w.threads i).code = x :: code) (h : w.Covered sub) :
    x.covers w.state sub = true ∨ w.CoveredBeside i code w.state sub := by
  obtain ⟨j, about⟩ := h
  by_cases same : j = i
  · rw [same, next, covered, any_cons, Bool.or_eq_true] at about
    exact about.imp_right .inl
  · exact .inr (.inr ⟨j, same, about⟩)

theorem World.CoveredBeside.congr (stopped : st'.stoppedOf sub = st.stoppedOf sub)
    (h : w.CoveredBeside i code st sub) : w.CoveredBeside i code st' sub := by
  unfold World.CoveredBeside
  simp only [covered_congr stopped]
  exact h

theorem World.exists_covered {t : Thread} (next : t.code = first ++ code)
    (h : covered st sub first = true ∨ w.CoveredBeside i code st sub) :
    ∃ j, covered st sub (update w.threads i t j).code = true := by
  rw [Function.exists_update_iff w.threads fun _ t => covered st sub t.code = true, next, covered,
    any_append, Bool.or_eq_true, or_assoc]
  exact h

end

/-- Any other instruction, which sends only to nodes the thread holds. -/
theorem Inv.instr (h : Inv w) (idle : (w.threads i).acts = [])
    (next : (w.threads i).code = x :: code)
    (acquire : ∀ n, x ≠ .acquire n) (release : x ≠ .release)
    (sends : ∀ a ∈ (x.run w.state inp).acts, a.node ∈ (w.threads i).held) :
    Inv { w.setThread i { w.threads i with
            acts := (x.run w.state inp).acts, code := (x.run w.state inp).next ++ code } with
          state := (x.run w.state inp).state } where
  valid := x.run_valid h.valid
  owner := h.owner_update rfl
  ordered := by
    show ∀ j, (update w.threads i _ j).Ordered
    rw [Function.forall_update_iff w.threads fun _ t => t.Ordered]
    exact ⟨⟨(h.ordered i).nodup, sends, Instr.runnable_next (h.runnable next) acquire release⟩,
      fun j _ => h.ordered j⟩
  agreed n sub := by
    -- What the thread sends goes to nodes it holds, and those are as they were until now.
    have final : final { w.setThread i { w.threads i with
          acts := (x.run w.state inp).acts, code := (x.run w.state inp).next ++ code } with
        state := (x.run w.state inp).state } n =
        settle (x.run w.state inp).acts n (w.final n) := by
      by_cases lock : w.locks n = some i
      · rw [final_of_lock lock, idle, settle_nil]
        exact final_mine lock
      have elsewhere : ∀ a ∈ (x.run w.state inp).acts, a.node ≠ n := by
        rintro a mem rfl
        exact lock ((h.owner _ i).mpr (sends a mem))
      rw [settle_of_ne elsewhere]
      exact final_other lock rfl
    rw [final]
    have about : Agreed w.state (w.final n sub).isSome sub n
        (x.covers w.state sub = true ∨ w.CoveredBeside i code w.state sub) :=
      (h.agreed n sub).carry rfl rfl (World.Covered.beside next)
    have still : (x.run w.state inp).state.stoppedOf sub = w.state.stoppedOf sub →
        w.CoveredBeside i code w.state sub →
        w.CoveredBeside i code (x.run w.state inp).state sub := World.CoveredBeside.congr
    have agreed := x.agrees h.valid sub n (w.final n) _ _ still about
    exact agreed.carry rfl rfl (exists_covered rfl)

/-- A thread gives up on a lock, and drops code that tells nobody. -/
theorem Inv.giveUp (h : Inv w) (next : (w.threads i).code = .acquire n :: code)
    (tells : ∀ x ∈ dropped (w.threads i).code, x.tells = false) :
    Inv (w.setThread i { w.threads i with code := code.dropWhile (· ≠ .release) }) := by
  have runnable : Runnable (n :: (w.threads i).held) code := h.runnable next
  refine h.setCode (runnable.dropWhile (cons_ne_nil _ _) _) fun sub covers => ?_
  obtain ⟨x, mem, covers⟩ := any_eq_true.mp covers
  rw [← takeWhile_append_dropWhile (l := (w.threads i).code)] at mem
  rcases mem_append.mp mem with given | kept
  · have quiet := tells x given
    rw [Instr.tells_of_covers covers] at quiet
    cases quiet
  · rw [next] at kept
    exact any_eq_true.mpr ⟨x, kept, covers⟩

end

/-! ## Runs -/

/-- **The condition**: who goes to the nodes it finds under its locks finds none but those, and no
thread gives up telling the nodes of a change. -/
def orderly (w : World) : Move → Bool
  | .start _ _ => true
  | .run i inp =>
    match (w.threads i).acts, (w.threads i).code with
    | [], x :: _ => !x.findsNodes ||
      (x.run w.state inp).acts.all fun a => decide (a.node ∈ (w.threads i).held)
    | _, _ => true
  | .giveUp i => (dropped (w.threads i).code).all fun x => !x.tells

/-- One orderly step keeps each node agreed with the state, or somebody going to tell it. -/
theorem Inv.step (h : Inv w) (guard : orderly w m = true)
    (stepped : RemoteNodes.step w m = some w') : Inv w' := by
  cases m with
  | start i call =>
    obtain ⟨idle, rfl⟩ := Runs.of_guard stepped
    exact h.start idle call
  | giveUp i =>
    dsimp only [RemoteNodes.step] at stepped
    split at stepped
    next next =>
      cases stepped
      refine h.giveUp next fun x mem => ?_
      simpa using all_eq_true.mp guard x mem
    · cases stepped
  | run i inp =>
    dsimp only [RemoteNodes.step] at stepped
    split at stepped
    next next =>
      cases stepped
      exact h.send next
    · cases stepped
    next idle next =>
      split at stepped
      · cases stepped
      next free =>
        cases stepped
        exact h.acquire idle next free
    next idle next =>
      split at stepped
      next holds =>
        cases stepped
        refine h.setCode ?_ fun sub covers => ?_
        · rw [holds]
          exact h.runnable next
        · rw [next] at covers
          exact covers
      next holds =>
        cases stepped
        exact h.release idle next holds
    next x code acquire release idle next =>
      cases stepped
      refine h.instr idle next acquire release ?_
      dsimp only [orderly] at guard
      rw [idle, next] at guard
      dsimp only at guard
      cases finds : x.findsNodes with
      | false => exact Instr.sends_held (h.runnable next) finds
      | true =>
        rw [finds] at guard
        intro a mem
        simpa using all_eq_true.mp guard a mem

/-- Every call has returned, and every node has the clients that are wanted there. -/
structure World.InSync (w : World) : Prop where
  returned : ∀ i, w.threads i = {}
  valid : w.state.Valid
  free : ∀ n, w.locks n = none
  clients : ∀ n sub, (w.clients n sub).isSome = w.state.wants sub n

/-- The invariant holds where every call has returned. -/
theorem World.InSync.inv (h : w.InSync) : Inv w where
  valid := h.valid
  owner n i := by
    rw [h.free, h.returned]
    exact ⟨fun some => (by cases some), fun mem => (by cases mem)⟩
  ordered i := by
    rw [h.returned]
    exact ⟨nodup_nil, fun _ mem => (by cases mem), rfl⟩
  agreed n sub := by
    left
    rw [final_of_idle fun i lock => by rw [h.returned], h.clients]

/-- **The nodes end up with exactly the wanted clients.** The calls may come between each other in
any way that meets the condition. -/
theorem wanted_clients {w w' : World} {moves : List Move} (start : w.InSync)
    (orderly : Runs.Along step (fun w m => orderly w m = true) w moves)
    (ran : Runs.run step w moves = some w') (returned : ∀ i, w'.threads i = {}) (n sub : Nat) :
    (w'.clients n sub).isSome = w'.state.wants sub n := by
  have inv : Inv w' := Runs.run_inv_along (fun _ _ _ h guard => h.step guard) start.inv orderly ran
  have agreed := inv.agreed n sub
  rw [final_of_idle fun i _ => by rw [returned]] at agreed
  refine agreed.resolve_right ?_
  rintro ⟨-, i, covers⟩
  rw [returned] at covers
  cases covers

/-! ## Two calls at once -/

def World.pushed (st : State) : World where
  state := st
  clients n sub := (st.clientsOf n).lookup sub

theorem World.inSync_pushed (valid : st.Valid) : (World.pushed st).InSync where
  returned _ := rfl
  valid := valid
  free _ := rfl
  clients := isSome_lookup_clientsOf valid

def Move.thread : Move → Nat
  | .start i _ | .run i _ | .giveUp i => i

/-- A step is one thread's. -/
theorem threads_of_step (h : step w m = some w')
    (other : i ≠ m.thread) : w'.threads i = w.threads i := by
  cases m with
  | start j call | giveUp j =>
    dsimp only [step] at h
    split at h
    · cases h
      exact update_of_ne other _ _
    · cases h
  | run j inp =>
    dsimp only [step] at h
    split at h
    · cases h
      exact update_of_ne other _ _
    · cases h
    · split at h
      · cases h
      · cases h
        exact update_of_ne other _ _
    · split at h <;> cases h <;> exact update_of_ne other _ _
    · cases h
      exact update_of_ne other _ _

theorem threads_of_run (h : Runs.run step w moves = some w')
    (others : ∀ m ∈ moves, i ≠ m.thread) : w'.threads i = w.threads i := by
  induction moves generalizing w with
  | nil =>
    cases h
    rfl
  | cons m moves ih =>
    obtain ⟨u, stepped, ran⟩ := Runs.run_cons.mp h
    rw [ih ran fun b mem => others b (mem_cons_of_mem _ mem)]
    exact threads_of_step stepped (others m mem_cons_self)

theorem returned_of_two (start : w.InSync)
    (two : (moves.all fun m => m.thread < 2) = true) (ran : Runs.run step w moves = some w')
    (first : w'.threads 0 = {}) (second : w'.threads 1 = {}) (i : Nat) : w'.threads i = {} := by
  by_cases named : i < 2
  · obtain rfl | rfl : i = 0 ∨ i = 1 := by omega
    · exact first
    · exact second
  rw [threads_of_run ran fun m mem same => named ?_]
  · exact start.returned i
  · rw [same]
    exact of_decide_eq_true (all_eq_true.mp two m mem)

def firstOfTwo : State where
  nextSubscriptionID := 2
  nodes := [{ id := 1 }, { id := 2 }]
  subscriptions := [{ id := 1, trafficLimit := 10 }]
  enablements := [⟨1, 1, "0a000000-0000-4000-8000-000000000000", true⟩]

def drawn : Input := { uuid := fun _ => "0b000000-0000-4000-8000-000000000000" }

/-- It reaches its limit while it is switched on at the second node. -/
def stoppedWhileSwitched : List Move :=
  let spent : Input := { lifetime := fun _ => 10 }
  [.start 1 (.setEnabled 1 2 true), .run 1 {}, .run 1 drawn,
   .start 0 .enforceLimits, .run 0 spent, .run 0 spent, .run 0 {}, .run 0 {},
   -- The sync waits for the second node.
   .run 1 {}, .run 1 {}, .run 1 {},
   .run 0 {}, .run 0 {}, .run 0 {}, .run 0 {}, .run 0 {}, .run 0 {}, .run 0 {}, .run 0 {}]

theorem wanted_clients_stoppedWhileSwitched :
    ∃ w', Runs.run step (World.pushed firstOfTwo) stoppedWhileSwitched = some w' ∧
      w'.state.isOn 1 2 = true ∧ ∀ n sub, (w'.clients n sub).isSome = w'.state.wants sub n := by
  have start : (pushed firstOfTwo).InSync :=
    inSync_pushed (State.valid_of_validate (by decide))
  have ends : (Runs.runChecked step orderly (pushed firstOfTwo) stoppedWhileSwitched).map
      (fun w => (w.threads 0, w.threads 1, w.state.isOn 1 2)) = some ({}, {}, true) := by
    decide
  obtain ⟨w', checked, ends⟩ := Option.map_eq_some_iff.mp ends
  obtain ⟨ran, along⟩ := Runs.of_runChecked checked
  simp only [Prod.mk.injEq] at ends
  obtain ⟨first, second, on⟩ := ends
  have returned := returned_of_two start (by decide) ran first second
  exact ⟨w', ran, on, wanted_clients start along ran returned⟩

/-- It is deleted while it is switched on at the second node. The delete has read that it is on at
the first, and holds that one. -/
def deletedWhileSwitched : List Move :=
  [.start 0 (.deleteSubscription 1), .run 0 {}, .run 0 {},
   .start 1 (.setEnabled 1 2 true), .run 1 {}, .run 1 drawn,
   -- The delete now finds it on at both, and takes it off both.
   .run 0 {}, .run 0 {}, .run 0 {},
   .run 1 {}, .run 1 {}, .run 1 {}, .run 0 {}, .run 0 {}]

/-- **A client that stays behind**: its subscription is deleted, all calls have returned, and the
second node has it. -/
theorem stray_client :
    ∃ w', (World.pushed firstOfTwo).InSync ∧
      Runs.run step (World.pushed firstOfTwo) deletedWhileSwitched = some w' ∧
      (∀ i, w'.threads i = {}) ∧ w'.state.findSubscription 1 = none ∧
      w'.state.wants 1 2 = false ∧ w'.clients 2 1 = some (drawn.uuid 2) := by
  have start : (pushed firstOfTwo).InSync :=
    inSync_pushed (State.valid_of_validate (by decide))
  have ends : (Runs.run step (pushed firstOfTwo) deletedWhileSwitched).map
      (fun w => (w.threads 0, w.threads 1, w.state.findSubscription 1, w.state.wants 1 2,
        w.clients 2 1)) = some ({}, {}, none, false, some (drawn.uuid 2)) := by
    decide
  obtain ⟨w', ran, ends⟩ := Option.map_eq_some_iff.mp ends
  simp only [Prod.mk.injEq] at ends
  obtain ⟨first, second, gone, unwanted, left⟩ := ends
  exact ⟨w', start, ran, returned_of_two start (by decide) ran first second, gone, unwanted, left⟩

end NasnetPanel.RemoteNodes
