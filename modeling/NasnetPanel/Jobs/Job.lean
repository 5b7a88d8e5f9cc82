import NasnetPanel.Jobs.Text

/-!
# Jobs.Job — one job: its steps, its reports and its end

A job's view is what the page reads. While it runs its function reports on steps by name (`change`),
and a step the plan missed is added; when it ends, the steps still running are closed (`finish`).
The names are cut before they are compared and stored, and there is a limit on the steps, so that a
job that runs away holds little: `StepsOk` is kept by both.
-/

namespace NasnetPanel.Jobs
open List

/-! ## What the page reads -/

/-- `Kind`. Anything else is refused. -/
inductive JobKind where
  | install
  | updateAgent
  | updateXray
  | renewCert
  | rotateKeys
  | changeSettings
  | remove
  | other (text : String)
deriving DecidableEq, Repr

def JobKind.valid : JobKind → Bool
  | .other _ => false
  | _ => true

/-- `State`. -/
inductive JobState where
  | running
  | ok
  | failed
deriving DecidableEq, Repr

inductive StepState where
  | pending
  | running
  | ok
  | failed
deriving DecidableEq, Repr

structure Step where
  key : String
  name : String
  state : StepState := .pending
  detail : String := ""
deriving DecidableEq, Repr

structure InstallForm where
  name : String
  host : String
  sshPort : Int
  sshUser : String
  entryPort : Int
  handshakeTarget : String := ""
deriving DecidableEq, Repr

/-- The facts of a failed job's error. -/
structure ErrorInfo where
  port : Int := 0
  role : String := ""
  process : String := ""
  pinnedKey : String := ""
  shownKey : String := ""
  found : List String := []
  xrayVersion : String := ""
  sameBuild : Bool := false
  nodeID : Nat := 0
  nodeName : String := ""
  target : String := ""
  reason : String := ""
  tried : Int := 0
  tookOver : Bool := false
deriving DecidableEq, Repr

/-- `Job`. -/
structure JobView where
  id : String
  kind : JobKind
  state : JobState := .running
  steps : List Step := []
  error : String := ""
  code : String := ""
  errorInfo : Option ErrorInfo := none
  /-- 0 for none. -/
  nodeID : Nat := 0
  target : String := ""
  startedAt : Int
  finishedAt : Option Int := none
  install : Option InstallForm := none
deriving DecidableEq, Repr

/-- `job`, without its subscribers: what the engine keeps of one. Times are in nanoseconds. -/
structure JobRec where
  view : JobView
  hide : Option Hider := none
  finished : Int := 0
  /-- 1 for the first job to end, and so on. -/
  endSeq : Nat := 0
deriving DecidableEq, Repr

def JobRec.isOver (j : JobRec) : Bool := j.view.state != .running

def maxSteps : Nat := 32
def maxDetail : Nat := 200
def maxError : Nat := 500
def maxName : Nat := 64
def maxFact : Nat := 128
def maxReason : Nat := 300

/-! ## Steps -/

/-- `Job.step`: the steps with the named one among them, and its place. `none` for an empty name,
and for a new one where there is no room. -/
def stepAt (keyOf : String → String) (name : String) (steps : List Step) :
    Option (List Step × Nat) :=
  let name := clip maxName name
  if name = "" then none
  else
    match steps.findIdx? (fun s => s.name == name) with
    | some i => some (steps, i)
    | none =>
      if maxSteps ≤ steps.length then none
      else some (steps ++ [{ key := keyOf name, name := name }], steps.length)

def plan (keyOf : String → String) (names : List String) : List Step :=
  names.foldl (fun steps n => ((stepAt keyOf n steps).map (·.1)).getD steps) []

inductive StepChange where
  | begin
  | detail (text : String)
  | done
  /-- With the error's text. -/
  | fail (err : Option String)
  /-- `Set`; `none` is a state that is none of the four. -/
  | set (state : Option StepState) (detail : String)
deriving DecidableEq, Repr

def StepChange.apply (hide : Option Hider) (s : Step) : StepChange → Step
  | .begin => { s with state := .running }
  | .detail text => { s with detail := jobText hide maxDetail text }
  | .done => { s with state := .ok }
  | .fail err =>
    { s with state := .failed, detail := (err.map (jobText hide maxDetail)).getD "" }
  | .set (some state) text => { s with state := state, detail := jobText hide maxDetail text }
  | .set none _ => s

/-- The job, and whether there is something to publish. A late report, and a `Set` to
no state, do nothing. -/
def JobRec.change (keyOf : String → String) (name : String) (c : StepChange) (j : JobRec) :
    JobRec × Bool :=
  if j.isOver then (j, false)
  else
    match c, stepAt keyOf name j.view.steps with
    | .set none _, _ => (j, false)
    | _, none => (j, false)
    | c, some (steps, i) =>
      let after := steps.modify i (c.apply j.hide)
      ({ j with view := { j.view with steps := after } },
        after.length != j.view.steps.length || after[i]? != steps[i]?)

/-! ## The end -/

/-- What is read of the error a job's function ends with: its text, its code and its facts. A panic
is the plain text and nothing else. -/
structure Failure where
  text : String
  code : String := ""
  info : Option ErrorInfo := none
deriving DecidableEq, Repr

def errInternal : Failure := { text := "internal error" }

/-- The facts as a job may show them. -/
def cleanInfo (hide : Option Hider) (info : ErrorInfo) : Option ErrorInfo :=
  let c : ErrorInfo :=
    { info with
      process := jobText hide maxFact info.process, nodeName := jobText hide maxName info.nodeName
      role := jobText hide maxName info.role
      xrayVersion := jobText hide maxName info.xrayVersion
      pinnedKey := jobText hide maxFact info.pinnedKey
      shownKey := jobText hide maxFact info.shownKey
      target := jobText hide maxFact info.target, reason := jobText hide maxReason info.reason
      found := ((info.found.map (jobText hide maxName)).filter (· ≠ "")).take 8 }
  if c = {} then none else some c

def Step.close (stepText : Option String) (s : Step) : Step :=
  if s.state = .running then
    match stepText with
    | none => { s with state := .ok }
    | some text => { s with state := .failed, detail := text }
  else s

/-- `finish`, on the job: at `now`, as the `seq`th to end. -/
def JobRec.finish (result : Option Failure) (now : Int) (seq : Nat) (j : JobRec) : JobRec :=
  let view :=
    match result with
    | none =>
      { j.view with
        state := .ok
        -- what a good job never reached did not need doing
        steps := (j.view.steps.map (Step.close none)).filter fun s => s.state != StepState.pending }
    | some err =>
      { j.view with
        state := .failed
        steps := j.view.steps.map (Step.close (some (jobText j.hide maxDetail err.text)))
        error := jobText j.hide maxError err.text
        code := clip maxName err.code
        errorInfo := err.info.bind (cleanInfo j.hide) }
  { view := { view with finishedAt := some now }, hide := none, finished := now, endSeq := seq }

/-! ## The steps of a job stay few and distinct -/

/-- At most `maxSteps`, under distinct names. -/
structure StepsOk (steps : List Step) : Prop where
  few : steps.length ≤ maxSteps
  names : (steps.map (·.name)).Nodup

section Steps
variable {keyOf : String → String} {name : String} {steps after : List Step} {i : Nat} {j : JobRec}

theorem stepsOk_nil : StepsOk [] := ⟨Nat.zero_le _, nodup_nil⟩

section
variable (found : stepAt keyOf name steps = some (after, i))
include found

/-- What `stepAt` can answer: the steps as they are, or with a new one at the end, for which there
was room and whose name none of them has. -/
theorem stepAt_cases :
    after = steps ∨ (steps.length < maxSteps ∧ clip maxName name ∉ steps.map (·.name) ∧
      after = steps ++ [{ key := keyOf (clip maxName name), name := clip maxName name }]) := by
  unfold stepAt at found
  dsimp only at found
  split at found
  · cases found
  split at found
  · cases found
    exact .inl rfl
  next absent =>
    split at found
    · cases found
    next room =>
      cases found
      refine .inr ⟨Nat.lt_of_not_le room, ?_, rfl⟩
      -- the search went through all the steps and met no such name
      intro mem
      obtain ⟨s, hs, same⟩ := mem_map.mp mem
      have := findIdx?_eq_none_iff.mp absent s hs
      simp [same] at this

/-- Finding or adding a step. -/
theorem StepsOk.stepAt (h : StepsOk steps) : StepsOk after := by
  rcases stepAt_cases found with rfl | ⟨room, fresh, rfl⟩
  · exact h
  constructor
  · rw [length_append, length_singleton]
    exact room
  · rw [map_append, map_singleton, ← concat_eq_append]
    exact Nodup.concat fresh h.names

/-- Where no step was added, the steps are the ones there were. -/
theorem stepAt_of_length (length : after.length = steps.length) : after = steps := by
  rcases stepAt_cases found with same | ⟨_, _, rfl⟩
  · exact same
  · simp at length

end

theorem StepsOk.of_names (h : StepsOk steps) (same : after.map (·.name) = steps.map (·.name)) :
    StepsOk after := by
  constructor
  · have length := congrArg List.length same
    rw [length_map, length_map] at length
    exact length ▸ h.few
  · rw [same]
    exact h.names

theorem stepsOk_plan (names : List String) : StepsOk (plan keyOf names) := by
  apply List.foldlRecOn
  · exact stepsOk_nil
  intro steps h n _
  cases found : Jobs.stepAt keyOf n steps with
  | none => exact h
  | some r => exact h.stepAt found

theorem StepChange.apply_name (hide : Option Hider) (s : Step) (c : StepChange) :
    (c.apply hide s).name = s.name := by
  cases c with
  | set state detail => cases state <;> rfl
  | _ => rfl

theorem names_modify {f : Step → Step} (keeps : ∀ s, (f s).name = s.name) :
    (steps.modify i f).map (·.name) = steps.map (·.name) := by
  apply ext_getElem?
  intro k
  rw [getElem?_map, getElem?_map, getElem?_modify]
  cases steps[k]? with
  | none => simp
  | some s =>
    by_cases here : i = k
    · simp [here, keeps]
    · simp [here]

theorem change_of_isOver {c : StepChange} (late : j.isOver = true) :
    j.change keyOf name c = (j, false) :=
  if_pos late

theorem change_cases (c : StepChange) :
    j.change keyOf name c = (j, false) ∨
      ∃ steps i, stepAt keyOf name j.view.steps = some (steps, i) ∧
        j.change keyOf name c =
          ({ j with view := { j.view with steps := steps.modify i (c.apply j.hide) } },
            (steps.modify i (c.apply j.hide)).length != j.view.steps.length ||
              (steps.modify i (c.apply j.hide))[i]? != steps[i]?) := by
  unfold JobRec.change
  split
  · exact .inl rfl
  split
  · exact .inl rfl
  · exact .inl rfl
  next found => exact .inr ⟨_, _, found, rfl⟩

/-- **A report keeps the steps few and distinct.** -/
theorem StepsOk.change (h : StepsOk j.view.steps) (c : StepChange) :
    StepsOk (j.change keyOf name c).1.view.steps := by
  rcases @change_cases keyOf name j c with quiet | ⟨steps, i, found, changed⟩
  · rw [quiet]
    exact h
  · rw [changed]
    exact (h.stepAt found).of_names (names_modify (StepChange.apply_name _ · _))

theorem Step.close_name (text : Option String) (s : Step) : (s.close text).name = s.name := by
  unfold Step.close
  split
  · cases text <;> rfl
  · rfl

/-- **So does the end of the job.** -/
theorem StepsOk.finish (h : StepsOk j.view.steps) (result : Option Failure) (now : Int)
    (seq : Nat) :
    StepsOk (j.finish result now seq).view.steps := by
  have closed : ∀ text, StepsOk (j.view.steps.map (Step.close text)) := by
    intro text
    apply h.of_names
    rw [map_map]
    exact map_congr_left fun s _ => Step.close_name text s
  cases result with
  | none =>
    have sub : ((j.view.steps.map (Step.close none)).filter fun s =>
        s.state != StepState.pending).Sublist (j.view.steps.map (Step.close none)) :=
      filter_sublist
    exact ⟨sub.length_le.trans (closed none).few, (closed none).names.sublist (sub.map _)⟩
  | some err => exact closed _

theorem change_kept (c : StepChange) : (j.change keyOf name c).1.view.id = j.view.id ∧
    (j.change keyOf name c).1.view.nodeID = j.view.nodeID ∧
    (j.change keyOf name c).1.view.state = j.view.state ∧
    (j.change keyOf name c).1.finished = j.finished ∧
    (j.change keyOf name c).1.endSeq = j.endSeq := by
  rcases @change_cases keyOf name j c with quiet | ⟨steps, i, found, changed⟩
  · rw [quiet]
    exact ⟨rfl, rfl, rfl, rfl, rfl⟩
  · rw [changed]
    exact ⟨rfl, rfl, rfl, rfl, rfl⟩

theorem finish_kept (result : Option Failure) (now : Int) (seq : Nat) :
    (j.finish result now seq).view.id = j.view.id ∧
    (j.finish result now seq).view.nodeID = j.view.nodeID ∧
    (j.finish result now seq).isOver = true := by
  cases result <;> exact ⟨rfl, rfl, rfl⟩

theorem change_quiet (c : StepChange) (quiet : (j.change keyOf name c).2 = false) :
    (j.change keyOf name c).1 = j := by
  rcases @change_cases keyOf name j c with same | ⟨steps, i, found, changed⟩
  · rw [same]
  rw [changed] at quiet ⊢
  obtain ⟨length, same⟩ : (steps.modify i (c.apply j.hide)).length = j.view.steps.length ∧
      (steps.modify i (c.apply j.hide))[i]? = steps[i]? := by simpa using quiet
  rw [length_modify] at length
  obtain rfl := stepAt_of_length found length
  have unchanged : j.view.steps.modify i (c.apply j.hide) = j.view.steps := by
    apply ext_getElem?
    intro k
    by_cases here : i = k
    · exact here ▸ same
    · simp [here]
  rw [unchanged]

end Steps

end NasnetPanel.Jobs
