import NasnetPanel.RemoteNodes.Manager

/-!
# RemoteNodes.Agreed — what one instruction does to a client

A client is agreed on (`Agreed`) when it is on the node exactly if the state wants it there, or when
the subscription is on at the node and someone is still going to tell its nodes (`Instr.covers`).
`Instr.agrees` says that every instruction keeps every client agreed on, once what it sends has
arrived (`settle`).

An edit that switches a client sends the switch itself. An edit that changes the mark of a
subscription sends nothing and is followed by code that covers the subscription. An instruction that
covers one tells the nodes, or leads to code that does, or finds that it is on nowhere.
-/

namespace NasnetPanel.RemoteNodes
open List

/-! ## Looking ahead -/

def settle (acts : List Act) (n : Nat) (c : Clients) : Clients :=
  acts.foldl (fun c a => if a.node = n then a.apply c else c) c

@[simp] theorem settle_nil (n : Nat) (c : Clients) : settle [] n c = c := rfl

theorem settle_cons (a : Act) (acts : List Act) (n : Nat) (c : Clients) :
    settle (a :: acts) n c = settle acts n (if a.node = n then a.apply c else c) := rfl

theorem settle_of_ne {acts : List Act} {n : Nat} (other : ∀ a ∈ acts, a.node ≠ n) (c : Clients) :
    settle acts n c = c := by
  induction acts generalizing c with
  | nil => rfl
  | cons a acts ih =>
    rw [settle_cons, if_neg (other a mem_cons_self)]
    exact ih (fun b hb => other b (mem_cons_of_mem _ hb)) c

def State.stoppedOf (st : State) (sub : Nat) : Option (Option StopReason) :=
  (st.findSubscription sub).map (·.stopped)

open State

/-- The instruction leads to telling the nodes of the subscription whether it runs. A check does
when it will find another mark than the one it remembers. -/
def Instr.covers (st : State) (sub : Nat) : Instr → Bool
  | .syncRead x => x == sub
  | .syncApply x => x == sub
  | .check x was => x == sub && (st.stoppedOf sub).any (· != was)
  | _ => false

def Instr.tells : Instr → Bool
  | .syncRead _ | .syncApply _ | .check _ _ => true
  | _ => false

variable {st : State} {A : Type}

theorem Instr.tells_of_covers {sub : Nat} {x : Instr} (h : x.covers st sub = true) :
    x.tells = true := by
  cases x with
  | syncRead _ | syncApply _ | check _ _ => rfl
  | _ => cases h

def covered (st : State) (sub : Nat) (code : List Instr) : Bool := code.any (Instr.covers st sub)

/-- A client is there if the state wants it, or it is about to be looked at. -/
def Agreed (st : State) (there : Bool) (sub n : Nat) (about : Prop) : Prop :=
  there = st.wants sub n ∨ st.isOn sub n = true ∧ about

section
variable {st st' : State} {there : Bool} {sub n : Nat} {about about' : Prop}

theorem State.wants_congr (stopped : st'.stoppedOf sub = st.stoppedOf sub)
    (on : st'.isOn sub n = st.isOn sub n) : st'.wants sub n = st.wants sub n := by
  have running : ∀ s : State, s.isRunning sub = (s.stoppedOf sub).any (·.isNone) := by
    intro s
    unfold isRunning stoppedOf
    cases s.findSubscription sub <;> rfl
  rw [wants, wants, running, running, stopped, on]

theorem State.stoppedOf_congr (same : st'.findSubscription sub = st.findSubscription sub) :
    st'.stoppedOf sub = st.stoppedOf sub := by
  rw [stoppedOf, stoppedOf, same]

theorem State.isOn_congr (same : st'.findEnablement sub n = st.findEnablement sub n) :
    st'.isOn sub n = st.isOn sub n := by
  rw [isOn, isOn, same]

theorem covered_congr (stopped : st'.stoppedOf sub = st.stoppedOf sub) (code : List Instr) :
    covered st' sub code = covered st sub code := by
  have same : Instr.covers st' sub = Instr.covers st sub := by
    funext x
    cases x <;> simp only [Instr.covers, stopped]
  rw [covered, covered, same]

section
variable (h : Agreed st there sub n about)
include h

theorem Agreed.off (off : st.isOn sub n = false) : there = false := by
  rcases h with h | ⟨on, -⟩
  · rw [h, wants, off, Bool.and_false]
  · rw [off] at on
    cases on

theorem Agreed.of_off (off : st.isOn sub n = false)
    (off' : st'.isOn sub n = false) : Agreed st' there sub n about' := by
  left
  rw [h.off off, wants, off', Bool.and_false]

/-- **An edit that switches nothing keeps the agreement** if it leaves those who were going to look
at the client, and makes sure of one where it changes the mark. -/
theorem Agreed.edit (on : st'.isOn sub n = st.isOn sub n)
    (still : st'.stoppedOf sub = st.stoppedOf sub → about → about')
    (changed : st'.stoppedOf sub ≠ st.stoppedOf sub → about') : Agreed st' there sub n about' := by
  by_cases stopped : st'.stoppedOf sub = st.stoppedOf sub
  · unfold Agreed
    rw [wants_congr stopped on, on]
    exact h.imp_right fun ⟨isOn, soon⟩ => ⟨isOn, still stopped soon⟩
  · cases switched : st.isOn sub n with
    | true => exact .inr ⟨on.trans switched, changed stopped⟩
    | false => exact h.of_off switched (on.trans switched)

theorem Agreed.carry (stopped : st'.stoppedOf sub = st.stoppedOf sub)
    (on : st'.isOn sub n = st.isOn sub n) (still : about → about') :
    Agreed st' there sub n about' :=
  h.edit on (fun _ => still) (fun changed => absurd stopped changed)

theorem Agreed.beside (subs : st'.findSubscription sub = st.findSubscription sub)
    (clients : st'.findEnablement sub n = st.findEnablement sub n)
    (still : st'.stoppedOf sub = st.stoppedOf sub → about → about') :
    Agreed st' there sub n about' :=
  h.edit (isOn_congr clients) still fun changed => absurd (stoppedOf_congr subs) changed

end

end

/-! ## What is sent -/

theorem isSome_enable (x : Nat) (uuid : String) (c : Clients) (sub : Nat) :
    (enable x uuid c sub).isSome = (x == sub || (c sub).isSome) := by
  unfold enable
  by_cases same : x = sub
  · subst same
    split
    next there => simp [there]
    · simp
  · have other : (x == sub) = false := by simpa using same
    split
    · rw [other, Bool.false_or]
    · rw [Function.update_of_ne (Ne.symm same), other, Bool.false_or]

theorem isSome_disable (x : Nat) (c : Clients) (sub : Nat) :
    (disable x c sub).isSome = (x != sub && (c sub).isSome) := by
  unfold disable
  by_cases same : x = sub
  · subst same
    simp
  · rw [Function.update_of_ne (Ne.symm same)]
    simp [same]

theorem isSome_settle_enable (l : List A) (node : A → Nat) (uuid : A → String)
    (x n sub : Nat) (c : Clients) :
    (settle (l.map fun a => .enable (node a) x (uuid a)) n c sub).isSome =
      (decide (x = sub ∧ n ∈ l.map node) || (c sub).isSome) := by
  induction l generalizing c with
  | nil => simp
  | cons a l ih =>
    rw [map_cons, settle_cons, ih, map_cons]
    show (_ || ((if node a = n then enable x (uuid a) c else c) sub).isSome) = _
    by_cases here : node a = n
    · rw [if_pos here, isSome_enable]
      by_cases same : x = sub
      · simp [same, here]
      · simp [same]
    · rw [if_neg here]
      simp [Ne.symm here]

theorem isSome_settle_disable (l : List A) (node : A → Nat) (x n sub : Nat) (c : Clients) :
    (settle (l.map fun a => .disable (node a) x) n c sub).isSome =
      (!decide (x = sub ∧ n ∈ l.map node) && (c sub).isSome) := by
  induction l generalizing c with
  | nil => simp
  | cons a l ih =>
    rw [map_cons, settle_cons, ih, map_cons]
    show (_ && ((if node a = n then disable x c else c) sub).isSome) = _
    by_cases here : node a = n
    · rw [if_pos here, isSome_disable]
      by_cases same : x = sub
      · simp [same, here]
      · simp [same]
    · rw [if_neg here]
      simp [Ne.symm here]

theorem isSome_lookup_clientsOf (valid : st.Valid) (n sub : Nat) :
    ((st.clientsOf n).lookup sub).isSome = st.wants sub n := by
  rw [Bool.eq_iff_iff, lookup_isSome_iff]
  unfold wants isOn
  rw [Bool.and_eq_true, Option.any_eq_true]
  constructor
  · rintro ⟨⟨x, uuid⟩, mem, same⟩
    have same : sub = x := by simpa using same
    subst same
    obtain ⟨running, e, found, on, -⟩ := valid.mem_clientsOf.mp mem
    exact ⟨running, e, found, on⟩
  · rintro ⟨running, e, found, on⟩
    exact ⟨(sub, e.clientUUID), valid.mem_clientsOf.mpr ⟨running, e, found, on, rfl⟩, by simp⟩

theorem isSome_settle_push (valid : st.Valid) (node n sub : Nat) (c : Clients) :
    (settle [.push node (st.clientsOf node)] n c sub).isSome =
      if node = n then st.wants sub n else (c sub).isSome := by
  show ((if node = n then fun x => (st.clientsOf node).lookup x else c) sub).isSome = _
  by_cases here : node = n
  · rw [if_pos here, if_pos here, here]
    exact isSome_lookup_clientsOf valid n sub
  · rw [if_neg here, if_neg here]

theorem isSome_settle_syncActs (st : State) (x : Nat) (running : Bool) (n sub : Nat) (c : Clients) :
    (settle (syncActs st x running) n c sub).isSome =
      if x = sub ∧ n ∈ st.onNodes x then running else (c sub).isSome := by
  unfold syncActs onNodes
  cases running with
  | true =>
    simp only [if_true]
    rw [isSome_settle_enable]
    split
    next here => rw [decide_eq_true here, Bool.true_or]
    next other => rw [decide_eq_false other, Bool.false_or]
  | false =>
    simp only [Bool.false_eq_true, if_false]
    rw [isSome_settle_disable]
    split
    next here => rw [decide_eq_true here, Bool.not_true, Bool.false_and]
    next other => rw [decide_eq_false other, Bool.not_false, Bool.true_and]

theorem isSome_settle_switch (node x : Nat) (enabled running : Bool) (uuid : String) (n sub : Nat)
    (c : Clients) :
    (settle (if enabled then if running then [.enable node x uuid] else []
      else [.disable node x]) n c sub).isSome =
      if x = sub ∧ n = node then enabled && (running || (c sub).isSome) else (c sub).isSome := by
  have put := isSome_settle_enable [node] (fun m => m) (fun _ => uuid) x n sub c
  have taken := isSome_settle_disable [node] (fun m => m) x n sub c
  simp only [map_cons, map_nil, mem_singleton] at put taken
  by_cases here : x = sub ∧ n = node
  · rw [decide_eq_true here] at put taken
    rw [if_pos here]
    cases enabled
    · simpa using taken
    cases running
    · simp
    · simpa using put
  · rw [decide_eq_false here] at put taken
    rw [if_neg here]
    cases enabled
    · simpa using taken
    cases running
    · simp
    · simpa using put

/-! ## One instruction -/

section
variable {st : State} {inp : Input}

attribute [local simp] Instr.run

/-- No instruction leaves an invalid state. -/
theorem Instr.run_valid (valid : st.Valid) (x : Instr) : (x.run st inp).state.Valid := by
  cases x with
  | acquire _ | release | limits | cutOpen => exact valid
  | create _ _ _ | delete _ | patch _ _ | reset _ | stop _ _ =>
    dsimp only [run]
    split
    · exact valid
    next made => exact (update_eq_some made).2
  | setEnabled _ _ _ =>
    dsimp only [run]
    split
    · exact valid
    next made => split <;> exact (update_eq_some made).2
  | deleteRead _ | check _ _ | syncRead _ | syncApply _ | beginPush _ =>
    dsimp only [run]
    split <;> exact valid

/-- The client of a subscription on a node stays agreed on through an instruction. Others may have
been about to look at it; they still are unless the mark changes. -/
def Instr.Agrees (st : State) (inp : Input) (x : Instr) : Prop :=
  ∀ (sub n : Nat) (c : Clients) (about about' : Prop),
    ((x.run st inp).state.stoppedOf sub = st.stoppedOf sub → about → about') →
    Agreed st (c sub).isSome sub n (x.covers st sub = true ∨ about) →
    Agreed (x.run st inp).state (settle (x.run st inp).acts n c sub).isSome sub n
      (covered (x.run st inp).state sub (x.run st inp).next = true ∨ about')

theorem pass_on {about about' : Prop} {covers next : Bool} (none : covers = false)
    (still : about → about') (soon : covers = true ∨ about) : next = true ∨ about' :=
  .inr (still (soon.resolve_left (Bool.eq_false_iff.mp none)))

variable {x : Instr} {y : Nat} {t : State}

theorem Instr.agrees_of_idle (run : ∃ next, x.run st inp = { state := st, next := next })
    (covers : ∀ sub, x.covers st sub = false) : x.Agrees st inp := by
  obtain ⟨next, run⟩ := run
  intro sub n c about about' still h
  rw [run] at still ⊢
  exact h.carry rfl rfl (pass_on (covers sub) (still rfl))

theorem Instr.agrees_of_marked {f : Subscription → Subscription} {next : List Instr}
    (run : x.run st inp = { state := st.changeSubscription y f, next := next })
    (keeps : ∀ s, (f s).id = s.id) (covers : ∀ sub, x.covers st sub = false)
    (told : ∀ s, st.findSubscription y = some s → (f s).stopped ≠ s.stopped →
      covered (st.changeSubscription y f) y next = true) : x.Agrees st inp := by
  intro sub n c about about' still h
  rw [run] at still ⊢
  refine h.edit rfl (fun same => pass_on (covers sub) (still same)) fun changed => .inl ?_
  unfold stoppedOf at changed
  rw [findSubscription_changeSubscription keeps] at changed
  by_cases same : sub = y
  · subst same
    rw [if_pos rfl] at changed
    cases found : st.findSubscription sub with
    | none =>
      rw [found] at changed
      exact absurd rfl changed
    | some s =>
      rw [found] at changed
      exact told s found fun same => changed (congrArg some same)
  · rw [if_neg same] at changed
    exact absurd rfl changed

theorem agrees_create (valid : st.Valid) (nodes : List Nat) (limit : UInt64)
    (expires : Option Int) : (Instr.create nodes limit expires).Agrees st inp := by
  cases made : update inp.kept (st.create nodes limit expires inp.uuid) with
  | none => exact Instr.agrees_of_idle ⟨[], by simp [made]⟩ fun _ => rfl
  | some t =>
    obtain ⟨made', -⟩ := update_eq_some made
    intro sub n c about about' still h
    have run : (Instr.create nodes limit expires).run st inp =
        { state := t
          acts := nodes.map fun n => .enable n st.nextSubscriptionID (inp.uuid n) } := by
      rw [Instr.run, made]
    rw [run] at still ⊢
    rw [isSome_settle_enable nodes (fun n => n), map_id']
    by_cases new : sub = st.nextSubscriptionID
    · -- Nobody had the new id, so its client is only where it is put now.
      subst new
      have nowhere : st.findEnablement st.nextSubscriptionID n = none :=
        valid.findEnablement_of_none valid.findSubscription_next n
      have off : st.isOn st.nextSubscriptionID n = false := by
        rw [isOn, nowhere]
        rfl
      left
      rw [h.off off, Bool.or_false, wants, isRunning, isOn,
        findSubscription_create valid made', findEnablement_create valid made',
        if_pos rfl]
      by_cases named : n ∈ nodes
      · simp [named, Subscription.running]
      · simp [named, nowhere]
    · rw [decide_eq_false fun h => new h.1.symm, Bool.false_or]
      refine h.beside ?_ ?_ fun same => pass_on rfl (still same)
      · rw [findSubscription_create valid made', if_neg new]
      · rw [findEnablement_create valid made', if_neg fun h => new h.1]

theorem State.enabled_of_setEnabled {x node : Nat} {enabled : Bool} {fresh : String}
    {e : Enablement} (made : st.setEnabled x node enabled fresh = some t)
    (found : t.findEnablement x node = some e) : e.enabled = enabled := by
  rw [findEnablement_setEnabled made, if_pos ⟨rfl, rfl⟩] at found
  split at found
  · obtain ⟨on, rfl⟩ := Runs.of_guard found
    exact on.symm
  · cases found
    rfl

theorem State.findEnablement_of_setEnabled_none {x node : Nat} {enabled : Bool}
    {fresh : String} (made : st.setEnabled x node enabled fresh = some t)
    (none : t.findEnablement x node = none) : st.findEnablement x node = .none := by
  rw [findEnablement_setEnabled made, if_pos ⟨rfl, rfl⟩] at none
  split at none
  · assumption
  · cases none

theorem agrees_setEnabled (x node : Nat) (enabled : Bool) :
    (Instr.setEnabled x node enabled).Agrees st inp := by
  cases made : update inp.kept (st.setEnabled x node enabled (inp.uuid node)) with
  | none => exact Instr.agrees_of_idle ⟨[], by simp [made]⟩ fun _ => rfl
  | some t =>
    obtain ⟨made', -⟩ := update_eq_some made
    intro sub n c about about' still h
    have subs := findSubscription_setEnabled made' sub
    rw [Instr.run, made] at still ⊢
    dsimp only at still ⊢
    cases found : t.findEnablement x node with
    | none =>
      rw [found] at still
      refine h.beside subs ?_ fun same => pass_on rfl (still same)
      by_cases here : sub = x ∧ n = node
      · rw [here.1, here.2, found, findEnablement_of_setEnabled_none made' found]
      · rw [findEnablement_setEnabled made', if_neg here]
    | some e =>
      rw [found] at still
      dsimp only at still ⊢
      rw [isSome_settle_switch]
      split
      next here =>
        obtain ⟨rfl, rfl⟩ := here
        have on : t.isOn x n = enabled := by
          rw [isOn, found]
          exact enabled_of_setEnabled made' found
        unfold Agreed
        rw [wants, on]
        have runs : t.isRunning x = st.isRunning x := by rw [isRunning, isRunning, subs]
        cases enabled with
        | false => exact .inl (Bool.and_false _).symm
        | true =>
          cases running : t.isRunning x with
          | true => exact .inl rfl
          | false =>
            -- A stopped subscription's client is left to whoever is about to take it off.
            refine h.imp (fun agreed => ?_) fun soon =>
              ⟨rfl, pass_on rfl (still (stoppedOf_congr subs)) soon.2⟩
            rw [agreed, wants, ← runs, running]
            rfl
      next other =>
        refine h.beside subs ?_ fun same => pass_on rfl (still same)
        rw [findEnablement_setEnabled made', if_neg fun h => other ⟨h.1.symm, h.2⟩]

theorem agrees_delete (valid : st.Valid) (x : Nat) : (Instr.delete x).Agrees st inp := by
  cases made : update inp.kept (st.removeSubscription x) with
  | none => exact Instr.agrees_of_idle ⟨[], by simp [made]⟩ fun _ => rfl
  | some t =>
    obtain ⟨made', -⟩ := update_eq_some made
    intro sub n c about about' still h
    rw [Instr.run, made] at still ⊢
    rw [isSome_settle_disable (st.nodesOf x) (fun n => n), map_id']
    by_cases same : sub = x
    · subst same
      have gone : t.isOn sub n = false := by
        rw [isOn, findEnablement_removeSubscription made', if_pos rfl]
        rfl
      left
      rw [wants, gone, Bool.and_false]
      by_cases listed : n ∈ st.nodesOf sub
      · rw [decide_eq_true ⟨rfl, listed⟩]
        rfl
      have off : st.isOn sub n = false := by
        rw [isOn]
        cases found : st.findEnablement sub n with
        | none => rfl
        | some e => exact absurd (mem_nodesOf_of_find found) listed
      rw [h.off off, Bool.and_false]
    · rw [decide_eq_false fun h => same h.1.symm, Bool.not_false, Bool.true_and]
      refine h.beside ?_ ?_ fun same => pass_on rfl (still same)
      · rw [findSubscription_removeSubscription valid made', if_neg same]
      · rw [findEnablement_removeSubscription made', if_neg same]

/-- **An edit of one subscription that is followed by a check**: the check finds the mark it
changed, unless that is changed again. -/
theorem Instr.agrees_of_checked {edited : Option State}
    (run : x.run st inp = match State.update inp.kept edited with
      | none => { state := st }
      | some t => { state := t, next := [.check y ((st.findSubscription y).bind (·.stopped))] })
    (covers : ∀ sub, x.covers st sub = false)
    (marks : ∀ t, edited = some t → st.Marks t y) : x.Agrees st inp := by
  cases made : update inp.kept edited with
  | none =>
    rw [made] at run
    exact agrees_of_idle ⟨[], run⟩ covers
  | some t =>
    rw [made] at run
    obtain ⟨f, rfl, keeps⟩ := marks t (update_eq_some made).1
    refine agrees_of_marked run keeps covers fun s found changed => ?_
    have now : (st.changeSubscription y f).findSubscription y = _ :=
      findSubscription_changeSubscription keeps y
    rw [if_pos rfl, found] at now
    rw [found]
    simp [covered, Instr.covers, stoppedOf, now, changed]

theorem agrees_patch (x : Nat) (p : State.Patch) : (Instr.patch x p).Agrees st inp :=
  Instr.agrees_of_checked rfl (fun _ => rfl) fun _ => marks_patch

theorem agrees_reset (x : Nat) : (Instr.reset x).Agrees st inp :=
  Instr.agrees_of_checked rfl (fun _ => rfl) fun _ => marks_reset

theorem agrees_stop (x : Nat) (reason : StopReason) : (Instr.stop x reason).Agrees st inp := by
  cases made : update inp.kept (some (st.stop x reason (inp.lifetime x) inp.now)) with
  | none => exact Instr.agrees_of_idle ⟨[], by simp [made]⟩ fun _ => rfl
  | some t =>
    have run : (Instr.stop x reason).run st inp =
        { state := t, next := if t = st then [] else [.syncRead x] } := by
      rw [Instr.run, made]
    have edited := Option.some.inj (update_eq_some made).1
    by_cases same : t = st
    · rw [if_pos same, same] at run
      exact Instr.agrees_of_idle ⟨[], run⟩ fun _ => rfl
    rw [if_neg same] at run
    have marks := marks_stop (edited.trans_ne same)
    rw [edited] at marks
    obtain ⟨f, rfl, keeps⟩ := marks
    refine Instr.agrees_of_marked run keeps (fun _ => rfl) fun _ _ _ => ?_
    simp [covered, Instr.covers]

theorem agrees_check (x : Nat) (was : Option StopReason) : (Instr.check x was).Agrees st inp := by
  intro sub n c about about' still h
  have leads : (Instr.check x was).covers st sub = true →
      covered st sub ((Instr.check x was).run st inp).next = true := by
    intro covers
    obtain ⟨same, marked⟩ := Bool.and_eq_true_iff.mp covers
    have same : x = sub := by simpa using same
    subst same
    rw [Instr.run]
    cases found : st.findSubscription x with
    | none =>
      rw [stoppedOf, found] at marked
      cases marked
    | some s =>
      rw [stoppedOf, found] at marked
      have changed : s.stopped ≠ was := by simpa using marked
      simp [changed, covered, Instr.covers]
  have same : ((Instr.check x was).run st inp).state = st ∧
      ((Instr.check x was).run st inp).acts = [] := by
    rw [Instr.run]
    split <;> exact ⟨rfl, rfl⟩
  rw [same.1] at still ⊢
  rw [same.2]
  exact h.carry rfl rfl (Or.imp leads (still rfl))

theorem agrees_syncRead (valid : st.Valid) (x : Nat) : (Instr.syncRead x).Agrees st inp := by
  intro sub n c about about' still h
  rw [Instr.run] at still ⊢
  by_cases nowhere : st.onNodes x = []
  · rw [if_pos nowhere] at still ⊢
    by_cases same : x = sub
    · -- It is on nowhere, so there is nothing to tell.
      subst same
      have off : st.isOn x n = false := by
        rw [← Bool.not_eq_true, ← valid.mem_onNodes, nowhere]
        exact not_mem_nil
      exact h.of_off off off
    · exact h.carry rfl rfl (pass_on (by simpa [Instr.covers] using same) (still rfl))
  · rw [if_neg nowhere] at still ⊢
    refine h.carry rfl rfl (Or.imp (fun covers => ?_) (still rfl))
    exact any_eq_true.mpr ⟨.syncApply x, by simp, covers⟩

theorem agrees_syncApply (valid : st.Valid) (x : Nat) : (Instr.syncApply x).Agrees st inp := by
  intro sub n c about about' still h
  rw [Instr.run] at still ⊢
  cases found : st.findSubscription x with
  | none =>
    rw [found] at still
    by_cases same : x = sub
    · subst same
      have off : st.isOn x n = false := by
        rw [isOn, valid.findEnablement_of_none found]
        rfl
      exact h.of_off off off
    · exact h.carry rfl rfl (pass_on (by simpa [Instr.covers] using same) (still rfl))
  | some s =>
    rw [found] at still
    rw [isSome_settle_syncActs]
    by_cases same : x = sub
    · subst same
      left
      cases on : st.isOn x n with
      | true =>
        rw [if_pos ⟨rfl, valid.mem_onNodes.mpr on⟩, wants, on, Bool.and_true, isRunning, found]
        rfl
      | false =>
        have unlisted : n ∉ st.onNodes x := by
          rw [valid.mem_onNodes, on]
          exact Bool.false_ne_true
        rw [if_neg fun h => unlisted h.2, h.off on, wants, on, Bool.and_false]
    · rw [if_neg fun h => same h.1]
      exact h.carry rfl rfl (pass_on (by simpa [Instr.covers] using same) (still rfl))

theorem agrees_beginPush (valid : st.Valid) (node : Nat) :
    (Instr.beginPush node).Agrees st inp := by
  intro sub n c about about' still h
  rw [Instr.run] at still ⊢
  split
  next linked =>
    rw [if_pos linked] at still
    rw [isSome_settle_push valid]
    split
    · exact .inl rfl
    · exact h.carry rfl rfl (pass_on rfl (still rfl))
  next unlinked =>
    rw [if_neg unlinked] at still
    exact h.carry rfl rfl (pass_on rfl (still rfl))

/-- **Every instruction keeps every client agreed on.** -/
theorem Instr.agrees (valid : st.Valid) (x : Instr) : x.Agrees st inp := by
  cases x with
  | acquire _ | release => exact agrees_of_idle ⟨[], rfl⟩ fun _ => rfl
  | limits | cutOpen => exact agrees_of_idle ⟨_, rfl⟩ fun _ => rfl
  | deleteRead x =>
    refine agrees_of_idle ?_ fun _ => rfl
    rw [run]
    split <;> exact ⟨_, rfl⟩
  | create nodes limit expires => exact agrees_create valid nodes limit expires
  | setEnabled x node enabled => exact agrees_setEnabled x node enabled
  | delete x => exact agrees_delete valid x
  | patch x p => exact agrees_patch x p
  | reset x => exact agrees_reset x
  | check x was => exact agrees_check x was
  | syncRead x => exact agrees_syncRead valid x
  | syncApply x => exact agrees_syncApply valid x
  | stop x reason => exact agrees_stop x reason
  | beginPush node => exact agrees_beginPush valid node

end

end NasnetPanel.RemoteNodes
