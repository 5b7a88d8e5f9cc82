import Mathlib.Data.List.TakeWhile

/-!
# Alerting.Engine — an alert's events and its stored state

`fireOrSkip` and `resolveIfFiring` of `alerting/engine/engine.go` for one rule and one entity, with
the storage working. The notices and the rule's own time of firing are left out; nothing here reads
them. Times are nanoseconds, and a duration is an `int64` of them: the cooldown is a number of
seconds multiplied by 10⁹, which wraps (`Rule.cooldown`).

`history_step` says when one evaluation keeps the history coherent, and `history_coherent` says it
of any sequence of evaluations. Two things go wrong. A resolve keeps `FirstTriggeredAt` and the next
incident copies it, so that a second incident has the time of the first one; and a cooldown of
more than 292 years is taken for a shorter or a negative one (`incoherent_histories`).
-/

namespace NasnetPanel.Alerting
open List Option

inductive EventStatus where
  | fired | resolved
deriving DecidableEq, Repr

/-- A row of `alert_events`. -/
structure Event where
  status : EventStatus
  title : String
  message : String
  valueJSON : String
  createdAt : Int

/-- The row of `alert_state`. -/
structure State where
  firing : Bool
  firstTriggeredAt : Option Int
  lastNotifiedAt : Option Int
  lastSeenValue : String := ""
  updatedAt : Int

/-- `validateRule` takes no negative cooldown. -/
structure Rule where
  nodeOffline : Bool
  cooldownSec : Int64
  valid : 0 ≤ cooldownSec.toInt

/-- `time.Duration(rule.CooldownSec)*time.Second`. -/
def Rule.cooldown (rule : Rule) : Int64 := rule.cooldownSec * 1000000000

/-- The seconds of the rule, in nanoseconds. -/
def Rule.pause (rule : Rule) : Int := rule.cooldownSec.toInt * 1000000000

/-- `Time.Sub`: a difference that is no `Duration` becomes the nearest one. -/
def timeSub (t u : Int) : Int := max Int64.minValue.toInt (min (t - u) Int64.maxValue.toInt)

/-- What is stored, the newest event first. -/
structure Store where
  state : Option State := none
  events : List Event := []

/-- One evaluation; `inGracePeriod` while the engine has just started. -/
structure Evaluation where
  condition : Bool
  now : Int
  inGracePeriod : Bool := false
  title : String := ""
  message : String := ""
  valueJSON : String := ""

/-- The last notice is not yet the cooldown ago. -/
def Rule.waits (rule : Rule) (e : Evaluation) (last : Int) : Bool :=
  decide (timeSub e.now last < rule.cooldown.toInt)

/-- A fired event, and the row with it: the time of the first event is the stored one, if any. -/
def fire (e : Evaluation) (s : Store) : Store where
  events := ⟨.fired, e.title, e.message, e.valueJSON, e.now⟩ :: s.events
  state := some
    { firing := true
      firstTriggeredAt := some ((s.state.bind (·.firstTriggeredAt)).getD e.now)
      lastNotifiedAt := some e.now
      lastSeenValue := e.valueJSON
      updatedAt := e.now }

def fireOrSkip (rule : Rule) (e : Evaluation) (s : Store) : Store × Bool :=
  if e.inGracePeriod && rule.nodeOffline then (s, false)
  else if s.state.any fun st => st.firing && st.lastNotifiedAt.any (rule.waits e) then (s, false)
  else (fire e s, true)

def resolveIfFiring (e : Evaluation) (s : Store) : Store :=
  match s.state with
  | none => s
  | some st =>
    if !st.firing then s else
      { events := ⟨.resolved, e.title, e.message, "", e.now⟩ :: s.events
        state := some
          { firing := false
            firstTriggeredAt := st.firstTriggeredAt
            lastNotifiedAt := some e.now
            updatedAt := e.now } }

def evaluate (rule : Rule) (s : Store) (e : Evaluation) : Store :=
  if e.condition then (fireOrSkip rule e s).1 else resolveIfFiring e s

def evaluated (rule : Rule) (es : List Evaluation) : Store := es.foldl (evaluate rule) {}

/-! ## The history -/

def incident (events : List Event) : List Event := events.takeWhile (·.status = .fired)

/-- A fired event is the cooldown after every one of its incident, and only an incident is
resolved. -/
def Coherent (pause : Int) : List Event → Prop
  | [] => True
  | e :: before => (match e.status with
      | .fired => ∀ a ∈ incident before, a.createdAt + pause ≤ e.createdAt
      | .resolved => incident before ≠ []) ∧ Coherent pause before

/-- What the events and the row are to say of an alert. -/
structure History (rule : Rule) (s : Store) : Prop where
  coherent : Coherent rule.pause s.events
  /-- A firing alert is resolved by the next false evaluation. -/
  clears : ∀ st, s.state = some st → st.firing = true → ∀ e : Evaluation, e.condition = false →
    (evaluate rule s e).events = ⟨.resolved, e.title, e.message, "", e.now⟩ :: s.events ∧
    (evaluate rule s e).state.any (·.firing) = false
  /-- A firing alert has the time of the first event of its incident. -/
  since : ∀ st, s.state = some st → st.firing = true →
    st.firstTriggeredAt = (incident s.events).getLast?.map (·.createdAt)

/-- The row a true evaluation finds fits it: a firing one, if its last notice is the seconds of the
rule ago or if the code's own comparison holds the evaluation back; another one, if it carries no
other time of a first event. -/
def State.Fits (rule : Rule) (e : Evaluation) (st : State) : Prop :=
  if st.firing then
    ∀ last, st.lastNotifiedAt = some last → rule.waits e last = true ∨ last + rule.pause ≤ e.now
  else ∀ first, st.firstTriggeredAt = some first → first = e.now

/-- A true evaluation, unless the grace period stops it, finds no row or one that fits it. -/
def Fits (rule : Rule) (s : Store) (e : Evaluation) : Prop :=
  e.condition = true → (e.inGracePeriod && rule.nodeOffline) = false →
    ∀ st, s.state = some st → st.Fits rule e

/-- Every evaluation of a sequence finds a row that fits it. -/
def FitsAll (rule : Rule) : Store → List Evaluation → Prop
  | _, [] => True
  | s, e :: es => Fits rule s e ∧ FitsAll rule (evaluate rule s e) es

/-- The row tells the newest event. -/
structure Told (s : Store) : Prop where
  firing : s.state.any (·.firing) = s.events.head?.any (·.status = .fired)
  last : s.state.bind (·.lastNotifiedAt) = s.events.head?.map (·.createdAt)
  first : ∀ st, s.state = some st → st.firstTriggeredAt.isSome = true

variable {s : Store} {rule : Rule} {st : State}

theorem told_fireOrSkip (h : Told s) (e : Evaluation) : Told (fireOrSkip rule e s).1 := by
  unfold fireOrSkip
  split
  · exact h
  split
  · exact h
  · refine ⟨rfl, rfl, ?_⟩
    rintro st ⟨⟩
    rfl

theorem told_resolveIfFiring (h : Told s) (e : Evaluation) : Told (resolveIfFiring e s) := by
  unfold resolveIfFiring
  split
  · exact h
  next st seen =>
    split
    · exact h
    · refine ⟨rfl, rfl, ?_⟩
      rintro _ ⟨⟩
      exact h.first st seen

/-- One evaluation keeps the row in step with the newest event. -/
theorem told_evaluate (h : Told s) (e : Evaluation) : Told (evaluate rule s e) := by
  unfold evaluate
  split
  · exact told_fireOrSkip h e
  · exact told_resolveIfFiring h e

/-- The row of a firing alert stands for a fired event, the newest. -/
theorem Told.newest (h : Told s) (seen : s.state = some st) (firing : st.firing = true) :
    ∃ a before, s.events = a :: before ∧ a.status = .fired ∧
      st.lastNotifiedAt = some a.createdAt := by
  have newest := h.firing
  have last := h.last
  rw [seen] at newest last
  cases there : s.events with
  | nil => simp [there, firing] at newest
  | cons a before =>
    exact ⟨a, before, rfl, by simpa [there, firing] using newest, by simpa [there] using last⟩

/-- Where no alert is firing there is no incident. -/
theorem Told.quiet (h : Told s) (off : s.state.any (·.firing) = false) :
    incident s.events = [] := by
  have newest := h.firing
  rw [off] at newest
  cases there : s.events with
  | nil => rfl
  | cons a before =>
    have resolved : ¬ a.status = .fired := by simpa [there] using newest.symm
    rw [incident, takeWhile_cons_of_neg (by simpa using resolved)]

theorem clears_of_firing (rule : Rule) (seen : s.state = some st) (firing : st.firing = true)
    {e : Evaluation} (cleared : e.condition = false) :
    (evaluate rule s e).events = ⟨.resolved, e.title, e.message, "", e.now⟩ :: s.events ∧
    (evaluate rule s e).state.any (·.firing) = false := by
  simp [evaluate, cleared, resolveIfFiring, seen, firing]

/-- The cooldown since the newest event of the incident is the cooldown since all of them. -/
theorem rested_of_newest {now : Int} {a : Event} {before : List Event}
    (h : Coherent rule.pause (a :: before)) (fired : a.status = .fired) :
    (∀ b ∈ incident (a :: before), b.createdAt + rule.pause ≤ now) ↔
      a.createdAt + rule.pause ≤ now := by
  have apart := h.1
  have forward : 0 ≤ rule.pause := Int.mul_nonneg rule.valid (by decide)
  rw [fired] at apart
  rw [incident, takeWhile_cons_of_pos (by simpa using fired), forall_mem_cons]
  refine ⟨And.left, fun rested => ⟨rested, fun b older => ?_⟩⟩
  have := apart b older
  omega

/-! ## One evaluation -/

/-- A false evaluation keeps the history: it resolves what is firing, and nothing else. -/
theorem history_resolveIfFiring (told : Told s) (h : History rule s) (e : Evaluation)
    (cleared : e.condition = false) : History rule (evaluate rule s e) := by
  have whole : evaluate rule s e = resolveIfFiring e s := by simp [evaluate, cleared]
  rw [whole]
  cases seen : s.state with
  | none =>
    rw [resolveIfFiring, seen]
    exact h
  | some st =>
    cases firing : st.firing with
    | false =>
      simp only [resolveIfFiring, seen, firing, Bool.not_false, if_true]
      exact h
    | true =>
      obtain ⟨a, before, there, fired, _⟩ := told.newest seen firing
      simp only [resolveIfFiring, seen, firing, Bool.not_true, Bool.false_eq_true, if_false]
      refine ⟨⟨?_, h.coherent⟩, ?_, ?_⟩
      · simp [there, incident, fired]
      · rintro _ ⟨⟩ ⟨⟩
      · rintro _ ⟨⟩ ⟨⟩

/-- A fired event keeps the history just when its incident rested, and when the row has the time
of the incident's first event. -/
theorem history_fire (h : History rule s) (e : Evaluation) :
    History rule (fire e s) ↔
      (∀ a ∈ incident s.events, a.createdAt + rule.pause ≤ e.now) ∧
        (s.state.bind (·.firstTriggeredAt)).getD e.now =
          ((incident s.events).getLast?.map (·.createdAt)).getD e.now := by
  have inside : (incident (fire e s).events).getLast?.map (·.createdAt) =
      some (((incident s.events).getLast?.map (·.createdAt)).getD e.now) := by
    rw [fire, incident, takeWhile_cons_of_pos rfl, getLast?_cons]
    change some ((incident s.events).getLast?.getD _).createdAt = _
    cases (incident s.events).getLast? <;> rfl
  constructor
  · intro new
    refine ⟨new.coherent.1, ?_⟩
    have since := new.since _ rfl rfl
    rw [inside] at since
    exact Option.some.inj since
  · rintro ⟨rested, first⟩
    refine ⟨⟨rested, h.coherent⟩, fun st seen firing e' cleared =>
      clears_of_firing rule seen firing cleared, ?_⟩
    rintro _ ⟨⟩ _
    rw [inside, ← first]

/-- A true evaluation, without the grace period. -/
theorem history_fireOrSkip (told : Told s) (h : History rule s) (e : Evaluation)
    (live : (e.inGracePeriod && rule.nodeOffline) = false) :
    History rule (fireOrSkip rule e s).1 ↔ ∀ st, s.state = some st → st.Fits rule e := by
  rw [fireOrSkip, live, if_neg Bool.false_ne_true]
  cases seen : s.state with
  | none =>
    have quiet := told.quiet (by rw [seen]; rfl)
    rw [any_none, if_neg Bool.false_ne_true, history_fire h, quiet, seen]
    simp
  | some st =>
    cases firing : st.firing with
    | false =>
      -- a new incident, which copies the time of the row
      obtain ⟨first, kept⟩ := Option.isSome_iff_exists.mp (told.first st seen)
      have quiet := told.quiet (by rw [seen, any_some, firing])
      rw [any_some, firing, Bool.false_and, if_neg Bool.false_ne_true, history_fire h, quiet, seen]
      simp [State.Fits, kept, firing]
    | true =>
      obtain ⟨a, before, there, fired, last⟩ := told.newest seen firing
      rw [any_some, firing, Bool.true_and, last, any_some]
      cases waits : rule.waits e a.createdAt with
      | true =>
        rw [if_pos rfl]
        refine iff_of_true h ?_
        rintro _ ⟨⟩
        simp [State.Fits, firing, last, waits]
      | false =>
        have coherent := h.coherent
        have since := h.since st seen firing
        rw [there] at coherent since
        rw [if_neg Bool.false_ne_true, history_fire h, there, rested_of_newest coherent fired, seen,
          bind_some, since]
        simp [State.Fits, firing, last, waits]

/-- **An evaluation keeps the history coherent just when it finds a row that fits it.** -/
theorem history_step (told : Told s) (h : History rule s) (e : Evaluation) :
    History rule (evaluate rule s e) ↔ Fits rule s e := by
  cases asked : e.condition with
  | false =>
    refine iff_of_true (history_resolveIfFiring told h e asked) ?_
    intro wanted
    rw [asked] at wanted
    cases wanted
  | true =>
    rw [evaluate, asked, if_pos rfl]
    cases live : e.inGracePeriod && rule.nodeOffline with
    | true =>
      rw [fireOrSkip, live, if_pos rfl]
      refine iff_of_true h ?_
      intro _ out
      rw [live] at out
      cases out
    | false =>
      rw [history_fireOrSkip told h e live]
      exact ⟨fun fits _ _ => fits, fun fits => fits asked live⟩

/-! ## A sequence of evaluations -/

/-- The same, from any store whose row is in step with its events. -/
theorem history_run {es : List Evaluation} (told : Told s) (h : History rule s) :
    (∀ past, past <+: es → History rule (past.foldl (evaluate rule) s)) ↔ FitsAll rule s es := by
  induction es generalizing s with
  | nil => simpa [FitsAll] using h
  | cons e es ih =>
    rw [FitsAll, ← history_step told h e]
    constructor
    · intro all
      have new : History rule (evaluate rule s e) := all [e] (by simp)
      refine ⟨new, (ih (told_evaluate told e) new).mp fun past early => ?_⟩
      exact all (e :: past) (cons_prefix_cons.mpr ⟨rfl, early⟩)
    · rintro ⟨new, fits⟩ past early
      cases past with
      | nil => exact h
      | cons e' past =>
        obtain ⟨rfl, shorter⟩ := cons_prefix_cons.mp early
        exact (ih (told_evaluate told e') new).mpr fits past shorter

/-- **An alert's history is coherent all the way just when each evaluation finds a row that fits
it.** The history is looked at after every evaluation of the sequence. -/
theorem history_coherent (rule : Rule) (es : List Evaluation) :
    (∀ past, past <+: es → History rule (evaluated rule past)) ↔ FitsAll rule {} es := by
  refine history_run ⟨rfl, rfl, ?_⟩ ⟨trivial, ?_, ?_⟩
  · rintro _ ⟨⟩
  · rintro _ ⟨⟩
  · rintro _ ⟨⟩

/-- A cooldown of a minute, and one of more than 292 years. -/
def minute : Rule := ⟨false, 60, by decide⟩
def centuries : Rule := ⟨false, 9223372037, by decide⟩

/-- Fired at 0, held back at 10 seconds, fired again at 100, resolved at 200. -/
def oneIncident : List Evaluation :=
  [{ condition := true, now := 0 }, { condition := true, now := 10000000000 },
    { condition := true, now := 100000000000 }, { condition := false, now := 200000000000 }]

theorem history_coherent_once :
    (evaluated minute oneIncident).events.map (·.createdAt) = [200000000000, 100000000000, 0] ∧
      ∀ past, past <+: oneIncident → History minute (evaluated minute past) := by
  refine ⟨by decide, (history_coherent minute _).mpr ⟨?_, ?_, ?_, ?_, trivial⟩⟩
  · rintro _ _ _ ⟨⟩
  · rintro _ _ _ ⟨⟩ _ ⟨⟩
    exact .inl rfl
  · rintro _ _ _ ⟨⟩ _ ⟨⟩
    exact .inr (by decide)
  · rintro ⟨⟩

/-- Fired at 0, resolved at 100 seconds, fired again at 200. -/
def twoIncidents : List Evaluation :=
  [{ condition := true, now := 0 }, { condition := false, now := 100000000000 },
    { condition := true, now := 200000000000 }]

/-- True at 0, and a second later. -/
def twoEvaluations : List Evaluation :=
  [{ condition := true, now := 0 }, { condition := true, now := 1000000000 }]

/-- **A second incident is said to be firing since the first one, and a cooldown of centuries holds
nothing back.** -/
theorem incoherent_histories :
    ((evaluated minute twoIncidents).state.map (fun st => (st.firing, st.firstTriggeredAt)) =
        some (true, some 0) ∧
      (incident (evaluated minute twoIncidents).events).map (·.createdAt) = [200000000000] ∧
      ¬ History minute (evaluated minute twoIncidents)) ∧
    (incident (evaluated centuries twoEvaluations).events).map (·.createdAt) = [1000000000, 0] ∧
      ¬ History centuries (evaluated centuries twoEvaluations) := by
  refine ⟨⟨by decide, by decide, fun h => ?_⟩, by decide, fun h => ?_⟩
  · cases h.since _ rfl rfl
  · have rested := h.coherent.1
    exact absurd (rested _ (.head _)) (by decide)

end NasnetPanel.Alerting
