import NasnetPanel.Lib.Runs

/-!
# MTProto.Settings — a saved limit reaches the node

`UpdateSettings`, `SetCreds` and `noTunnel` of `mtprotonode/manager.go` and `ApplyCoreState` of
`pusher.go`, over one entry. All of them touch the entry under its lock, so a run is a list of what
they do under it, and a push is in `pushing` between two of these. `UpdateSettings` has the node's
turn from its write of the row on, `SetCreds` from its copy of the entry's row on.

Left out: the reading of a payload, `pushed`, the credentials, and what follows `SetDesired`.
-/

namespace NasnetPanel.MTProto

/-- Of a node's row, its entry or a state. -/
structure Limits where
  maxStreams : Int
  stopped : Bool
deriving DecidableEq

structure Settings where
  maxStreams : Option Int := none
  proxyStopped : Option Bool := none

def Limits.set (l : Limits) (s : Settings) : Limits :=
  ⟨s.maxStreams.getD l.maxStreams, s.proxyStopped.getD l.stopped⟩

/-- The row as the entry has it. -/
structure Lite extends Limits where
  disguise : String

/-- Who has the node's turn: an `UpdateSettings` that wrote `s` to the row, or a `SetCreds` with its
copy of the entry's row. -/
inductive Turn where
  | save (s : Settings)
  | creds (next : Lite)

/-- `telemt` is the tunnel's settings. -/
structure State (U : Type) extends Limits where
  port : Nat := 443
  listen : String := ""
  disguise : String
  dcNets : List String
  telemt : Option (String → Option String) := none
  users : List U := []
  rev : String := ""

section
variable {U : Type} (hash : State U → String)

/-- `hash` is of the state's JSON. -/
def Rev (s : State U) : String := hash { s with rev := "" }

def State.revised (s : State U) : State U := { s with rev := Rev hash s }

def withDisguise (st : State U) (domain : String) : State U :=
  { st with
    disguise := domain
    telemt := st.telemt.map (Function.update · "tls_domain" (some domain)) }.revised hash

/-- `given` is the last state `SetDesired` got. -/
structure Entry (U : Type) where
  row : Limits
  turn : Option Turn := none
  lite : Lite
  desired : Option (State U) := none
  given : Option (State U) := none
  pushing : List (State U) := []

namespace Entry

def wantLocked (e : Entry U) (s : State U) : State U :=
  if s.toLimits ≠ e.lite.toLimits then { s with toLimits := e.lite.toLimits }.revised hash else s

def give (e : Entry U) (s : State U) : Entry U := { e with desired := some s, given := some s }

/-- What `UpdateSettings` does after the row is written. -/
def settle (e : Entry U) (s : Settings) : Entry U :=
  let now := { e with turn := none, lite := { e.lite with toLimits := e.lite.set s } }
  if now.lite.toLimits ≠ e.lite.toLimits then
    match e.desired with
    | some st => now.give (now.wantLocked hash st)
    | none => now
  else now

/-- A push begins with the state of its payload or, of a teardown, with the last one. It reads the
cover site, and keeps that one if the check of its own then fails. -/
inductive Act (U : Type) where
  | save (s : Settings)
  | settle
  | copy
  | swap (linkCreds : Bool)
  | push (st : State U)
  | teardown
  | vet (i : Nat) (fails : Bool)
  | hand (i : Nat)
  | noTunnel (dcNets : List String)
  | applied (disguise : String)

def step (e : Entry U) : Act U → Option (Entry U)
  | .save s =>
    if e.turn = none then some { e with row := e.row.set s, turn := some (.save s) } else none
  | .settle =>
    match e.turn with
    | some (.save s) => some (e.settle hash s)
    | _ => none
  | .copy => if e.turn = none then some { e with turn := some (.creds e.lite) } else none
  | .swap linkCreds =>
    match e.turn with
    -- The whole copy is written back: a cover site that was applied meanwhile is lost.
    | some (.creds next) => some { e with turn := none, lite := if linkCreds then next else e.lite }
    | _ => none
  | .push st =>
    let st := { st with maxStreams := e.lite.maxStreams, stopped := false }
    some { e with pushing := st.revised hash :: e.pushing }
  | .teardown => e.desired.map fun base =>
      { e with pushing := { base with users := [] }.revised hash :: e.pushing }
  | .vet i fails => e.pushing[i]?.map fun st =>
      if st.disguise ≠ "" ∧ st.disguise ≠ e.lite.disguise ∧ fails then
        { e with pushing := e.pushing.set i (withDisguise hash st e.lite.disguise) }
      else e
  | .hand i => e.pushing[i]?.map fun st =>
      { e with pushing := e.pushing.eraseIdx i }.give (e.wantLocked hash st)
  | .noTunnel dcNets =>
    let st : State U := { e.lite with dcNets }
    some (if e.desired = none then e.give (st.revised hash) else e)
  | .applied disguise => some { e with lite := { e.lite with disguise } }

/-- What the entry's limits are once the turn is given up. -/
def due (e : Entry U) : Limits :=
  match e.turn with
  | some (.save s) => e.lite.set s
  | _ => e.lite.toLimits

structure Carries (l : Limits) (s : State U) : Prop where
  limits : s.toLimits = l
  rev : s.rev = Rev hash s

/-- Only the holder of the turn changes the limits, so a `SetCreds` writes back those it found. -/
structure Inv (e : Entry U) : Prop where
  given : e.given = e.desired
  desired : ∀ s, e.desired = some s → Carries hash e.lite.toLimits s
  own : ∀ s ∈ e.pushing, s.rev = Rev hash s
  row : e.row = e.due
  copied : ∀ next, e.turn = some (.creds next) → next.toLimits = e.lite.toLimits

variable {hash} {e : Entry U} {s : State U}

theorem inv_new (l : Lite) : Inv hash { row := l.toLimits, lite := l } :=
  ⟨rfl, nofun, nofun, rfl, nofun⟩

theorem carries_wantLocked (own : s.rev = Rev hash s) :
    Carries hash e.lite.toLimits (e.wantLocked hash s) := by
  unfold wantLocked
  split
  · exact ⟨rfl, rfl⟩
  next same => exact ⟨not_not.mp same, own⟩

/-- A state with the entry's limits is given to the node. -/
theorem Inv.give (h : Inv hash e) (carries : Carries hash e.lite.toLimits s) :
    Inv hash (e.give s) where
  given := rfl
  desired s' same := by
    cases same
    exact carries
  own := h.own
  row := h.row
  copied := h.copied

/-- The turn is given up with the limits the row has. -/
theorem Inv.free (h : Inv hash e) {lite : Lite} (row : e.row = lite.toLimits)
    (carries : ∀ s, e.desired = some s → Carries hash lite.toLimits s) :
    Inv hash { e with turn := none, lite } :=
  ⟨h.given, carries, h.own, row, nofun⟩

/-- The limits that were saved become the entry's. -/
theorem Inv.settle (h : Inv hash e) {set : Settings} (mine : e.turn = some (.save set)) :
    Inv hash (e.settle hash set) := by
  have row : e.row = e.lite.set set := by rw [h.row, due, mine]
  unfold Entry.settle
  dsimp only
  split
  · split
    next st some =>
      exact ⟨rfl, fun s same => by cases same; exact carries_wantLocked (h.desired st some).rev,
        h.own, row, nofun⟩
    next none => exact h.free row fun s some => by cases none.symm.trans some
  next same =>
    refine h.free row fun s some => ?_
    rw [not_not.mp same]
    exact h.desired s some

theorem Inv.pushing (h : Inv hash e) {pushing : List (State U)}
    (own : ∀ s ∈ pushing, s.rev = Rev hash s) : Inv hash { e with pushing } :=
  { h with own }

/-- One action keeps the row, the entry and what was given together. -/
theorem inv_step (e : Entry U) (a : Act U) (t : Entry U) (h : Inv hash e)
    (ht : step hash e a = some t) : Inv hash t := by
  cases a with
  | save s =>
    obtain ⟨free, rfl⟩ := Runs.of_guard ht
    have row : e.row = e.lite.toLimits := by rw [h.row, due, free]
    exact { h with row := congrArg (·.set s) row, copied := nofun }
  | settle =>
    simp only [step] at ht
    split at ht
    next s mine =>
      cases ht
      exact h.settle mine
    next => cases ht
  | copy =>
    obtain ⟨free, rfl⟩ := Runs.of_guard ht
    have row : e.row = e.lite.toLimits := by rw [h.row, due, free]
    exact { h with row, copied := fun next mine => by cases mine; rfl }
  | swap linkCreds =>
    simp only [step] at ht
    split at ht
    next next mine =>
      cases ht
      have row : e.row = e.lite.toLimits := by rw [h.row, due, mine]
      have same : (if linkCreds then next else e.lite).toLimits = e.lite.toLimits := by
        split
        · exact h.copied next mine
        · rfl
      exact h.free (row.trans same.symm) (same ▸ h.desired)
    next => cases ht
  | push st =>
    cases ht
    exact h.pushing (List.forall_mem_cons.mpr ⟨rfl, h.own⟩)
  | teardown =>
    obtain ⟨base, -, rfl⟩ := Option.map_eq_some_iff.mp ht
    exact h.pushing (List.forall_mem_cons.mpr ⟨rfl, h.own⟩)
  | vet i fails =>
    obtain ⟨st, -, rfl⟩ := Option.map_eq_some_iff.mp ht
    split
    · refine h.pushing fun s mem => ?_
      rcases List.mem_or_eq_of_mem_set mem with old | rfl
      · exact h.own s old
      · rfl
    · exact h
  | hand i =>
    obtain ⟨st, here, rfl⟩ := Option.map_eq_some_iff.mp ht
    have rest : ∀ s ∈ e.pushing.eraseIdx i, s.rev = Rev hash s :=
      fun s mem => h.own s (List.mem_of_mem_eraseIdx mem)
    exact (h.pushing rest).give (carries_wantLocked (h.own st (List.mem_of_getElem? here)))
  | noTunnel dcNets =>
    cases ht
    split
    · exact h.give ⟨rfl, rfl⟩
    · exact h
  | applied disguise =>
    cases ht
    exact { h with }

/-- The row's limits, where nobody is between the write of the row and the entry. -/
theorem Inv.carries_row (h : Inv hash e) (saved : ∀ set, e.turn ≠ some (.save set))
    (last : e.given = some s) : Carries hash e.row s := by
  have row : e.row = e.lite.toLimits := by
    rw [h.row, due]
    split
    next set mine => exact absurd mine (saved set)
    next => rfl
  rw [row]
  exact h.desired s (h.given.symm.trans last)

/-- **A saved limit or stop reaches the node.** In every run, while no `UpdateSettings` is under
way, the state given last carries the limit and the stop of the row, and the revision of its
content. -/
theorem carries_saved {l : Lite} {acts : List (Act U)}
    (h : Runs.run (step hash) { row := l.toLimits, lite := l } acts = some e)
    (saved : ∀ set, e.turn ≠ some (.save set)) (last : e.given = some s) :
    s.toLimits = e.row ∧ s.rev = Rev hash s := by
  have inv := Runs.run_inv inv_step (inv_new l) h
  have carries := inv.carries_row saved last
  exact ⟨carries.limits, carries.rev⟩

/-- A limit saved while the check of a push runs. -/
def meanwhile : List (Act Nat) :=
  [.push ⟨⟨0, false⟩, 443, "", "a", [], none, [], ""⟩, .save { maxStreams := some 5 }, .settle,
    .copy, .vet 0 true, .hand 0]

theorem carries_saved_meanwhile : ∃ e s,
    Runs.run (step State.disguise) { row := ⟨0, false⟩, lite := ⟨⟨0, false⟩, "b"⟩ } meanwhile =
      some e ∧ e.given = some s ∧ s.maxStreams = 5 ∧ s.toLimits = e.row ∧ s.rev = "b" :=
  ⟨_, _, rfl, rfl, rfl,
    @carries_saved Nat State.disguise _ _ ⟨⟨0, false⟩, "b"⟩ meanwhile rfl (fun _ => nofun) rfl⟩

/-! ## What was saved last -/

/-- What a step saves of the limits. -/
def Act.saves (l : Limits) : Act U → Limits
  | .save s => l.set s
  | _ => l

/-- Only an `UpdateSettings` writes the limits of the row. -/
theorem row_step {a : Act U} {t : Entry U} (ht : step hash e a = some t) :
    t.row = a.saves e.row := by
  cases a with
  | save s =>
    obtain ⟨-, rfl⟩ := Runs.of_guard ht
    rfl
  | settle =>
    simp only [step] at ht
    split at ht
    · cases ht
      unfold Entry.settle
      dsimp only
      split
      · split <;> rfl
      · rfl
    next => cases ht
  | copy =>
    obtain ⟨-, rfl⟩ := Runs.of_guard ht
    rfl
  | swap linkCreds =>
    simp only [step] at ht
    split at ht
    · cases ht
      rfl
    next => cases ht
  | push st =>
    cases ht
    rfl
  | teardown =>
    obtain ⟨base, -, rfl⟩ := Option.map_eq_some_iff.mp ht
    rfl
  | vet i fails =>
    obtain ⟨st, -, rfl⟩ := Option.map_eq_some_iff.mp ht
    split <;> rfl
  | hand i =>
    obtain ⟨st, -, rfl⟩ := Option.map_eq_some_iff.mp ht
    rfl
  | noTunnel dcNets =>
    cases ht
    split <;> rfl
  | applied disguise =>
    cases ht
    rfl

/-- The row has what the run saved. -/
theorem row_run {acts : List (Act U)} {t : Entry U} (h : Runs.run (step hash) e acts = some t) :
    t.row = acts.foldl Act.saves e.row := by
  induction acts generalizing e with
  | nil =>
    cases h
    rfl
  | cons a acts ih =>
    obtain ⟨mid, first, rest⟩ := Runs.run_cons.mp h
    rw [ih rest, row_step first]
    rfl

/-- **Once all have returned, the node has what was saved last.** The state given last carries the
stream limit and the stop flag of the last `UpdateSettings` that set each, and the revision of its
content. -/
theorem saved_last_given {l : Lite} {acts : List (Act U)}
    (h : Runs.run (step hash) { row := l.toLimits, lite := l } acts = some e)
    (returned : e.turn = none) (last : e.given = some s) :
    s.toLimits = acts.foldl Act.saves l.toLimits ∧ s.rev = Rev hash s := by
  have inv := Runs.run_inv inv_step (inv_new l) h
  have carries := inv.carries_row (by rw [returned]; rintro _ ⟨⟩) last
  refine ⟨carries.limits.trans ?_, carries.rev⟩
  exact row_run h

/-- A limit and a stop saved while the check of a push runs. -/
def savedMeanwhile : List (Act Nat) :=
  [.push ⟨⟨0, false⟩, 443, "", "a", [], none, [], ""⟩, .save { maxStreams := some 5 }, .settle,
    .save { proxyStopped := some true }, .vet 0 true, .settle, .hand 0]

theorem saved_last_given_meanwhile : ∃ e s,
    Runs.run (step State.disguise) { row := ⟨0, false⟩, lite := ⟨⟨0, false⟩, "b"⟩ } savedMeanwhile =
      some e ∧ e.given = some s ∧ s.toLimits = ⟨5, true⟩ ∧ s.rev = "b" :=
  ⟨_, _, rfl, rfl,
    @saved_last_given Nat State.disguise _ _ ⟨⟨0, false⟩, "b"⟩ savedMeanwhile rfl rfl rfl⟩

end Entry
end

end NasnetPanel.MTProto
