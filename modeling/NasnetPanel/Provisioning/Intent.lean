import NasnetPanel.Provisioning.Queue

/-!
# Provisioning.Intent — the user the agent ends up with

Tasks are fetched by retry time, not in the order they were enqueued, and each is retried on its
own. So an add that failed once can be carried out after a remove that was enqueued later.

`last_intent` says what holds while that does not happen (`InOrder`): once every task of a user is
completed, the agent has the user as the task enqueued last wants it. The process may stop
anywhere, and any statement or agent call may fail. The node is in service whenever the worker asks
for it, and the worker does not fall back to a full push of it (`Served`): then the accounts, not
the tasks, decide which users the node has.

`Agrees` is the invariant at every call. While the worker carries out a task of the user, `Carries`
gives it: no task enqueued as late as this one is completed.
-/

namespace NasnetPanel.Provisioning
open CrashProg CrashProg.Prog List ProvisioningTask

/-! ## What a task asks for -/

/-- The part of a row that nothing writes to after it is enqueued. -/
structure Ask where
  id : Nat
  type : TaskType
  user : User
  userUUID : String
  userFlow : String
  userEncryption : String
  protocol : String
deriving DecidableEq, Repr

namespace ProvisioningTask

def ask (t : ProvisioningTask) : Ask :=
  ⟨t.id, t.type, t.user, t.userUUID, t.userFlow, t.userEncryption, t.protocol⟩

/-- The user as the task wants it on the node: with its credentials, or not at all. -/
def intent (t : ProvisioningTask) : Option Credentials :=
  match t.type with
  | .addUser => some t.credentials
  | _ => none

end ProvisioningTask

section
variable {a b : ProvisioningTask}

theorem id_of_ask (same : a.ask = b.ask) : a.id = b.id := congrArg Ask.id same

theorem user_of_ask (same : a.ask = b.ask) : a.user = b.user := congrArg Ask.user same

theorem isWireGuard_congr (same : a.ask = b.ask) :
    a.isWireGuard = b.isWireGuard := by
  have protocol : a.protocol = b.protocol := congrArg Ask.protocol same
  simp only [isWireGuard, protocol]

theorem intent_congr (same : a.ask = b.ask) : a.intent = b.intent := by
  simp only [ProvisioningTask.ask, Ask.mk.injEq] at same
  obtain ⟨-, type, -, uuid, flow, encryption, protocol⟩ := same
  simp only [intent, credentials, type, uuid, flow, encryption, protocol]

end

def LastFor (u : User) (rows : List ProvisioningTask) (t : ProvisioningTask) : Prop :=
  t ∈ rows ∧ t.user = u ∧ ∀ r ∈ rows, r.user = u → r.id ≤ t.id

/-- The later event does not take up a task of the user once that task, or one enqueued after it,
is completed. -/
def NotBehind (u : User) : Event → Event → Prop
  | .completed m v, .started n v' => v = u → v' = u → m < n
  | _, _ => True

instance (u : User) : DecidableRel (NotBehind u) := fun a b => by
  cases a <;> cases b <;> unfold NotBehind <;> infer_instance

/-- The user's tasks are taken up in order, as far as completed ones go. -/
def InOrder (u : User) (log : List Event) : Prop := log.Pairwise (NotBehind u)

instance (u : User) (log : List Event) : Decidable (InOrder u log) :=
  inferInstanceAs (Decidable (log.Pairwise (NotBehind u)))

/-- The user's tasks are Xray's, and taken up in order so far. -/
structure Orderly (u : User) (w : World) : Prop where
  inOrder : InOrder u w.log
  plain : ∀ r ∈ w.rows, r.user = u → r.isWireGuard = false

/-! ## Rows over time -/

def Indexed (rows : List ProvisioningTask) : Prop :=
  ∀ (i : Nat) (r : ProvisioningTask), rows[i]? = some r → r.id = i + 1

variable {rows : List ProvisioningTask}

theorem Indexed.unique (h : Indexed rows) {r s : ProvisioningTask}
    (hr : r ∈ rows) (hs : s ∈ rows) (same : r.id = s.id) : r = s := by
  obtain ⟨i, hi⟩ := getElem?_of_mem hr
  obtain ⟨j, hj⟩ := getElem?_of_mem hs
  have ri := h i r hi
  have sj := h j s hj
  have ij : i = j := by omega
  rw [ij, hj] at hi
  exact (Option.some.inj hi).symm

variable {f : ProvisioningTask → ProvisioningTask} {t : ProvisioningTask} {u : User}

theorem Indexed.map (h : Indexed rows) (same : ∀ r, (f r).ask = r.ask) : Indexed (rows.map f) := by
  intro i r hi
  rw [getElem?_map, Option.map_eq_some_iff] at hi
  obtain ⟨s, hs, rfl⟩ := hi
  rw [← h i s hs]
  exact id_of_ask (same s)

theorem Indexed.enqueue (h : Indexed rows) (now : Int)
    (t : ProvisioningTask) : Indexed (enqueue rows now t) := by
  intro i r hi
  unfold Provisioning.enqueue at hi
  rcases Nat.lt_or_ge i rows.length with old | new
  · rw [getElem?_append_left old] at hi
    exact h i r hi
  rw [getElem?_append_right new, getElem?_singleton] at hi
  split at hi
  · cases hi
    show rows.length + 1 = i + 1
    omega
  · cases hi

def Known (t : ProvisioningTask) (rows : List ProvisioningTask) : Prop :=
  ∃ r ∈ rows, r.ask = t.ask

theorem Known.map (h : Known t rows) (same : ∀ r, (f r).ask = r.ask) : Known t (rows.map f) := by
  obtain ⟨r, hr, ask⟩ := h
  exact ⟨f r, mem_map_of_mem hr, (same r).trans ask⟩

/-! ## The invariant -/

/-- What the queue records about the user: a completed task of the user is in the log. -/
structure Recorded (u : User) (w : World) : Prop where
  indexed : Indexed w.rows
  logged : ∀ r ∈ w.rows, r.user = u → r.status = .completed → .completed r.id u ∈ w.log

/-- Orderly so far, the user is on the node as its last task wants it, once that is completed. -/
structure Agrees (u : User) (w : World) : Prop extends Recorded u w where
  settled : Orderly u w → ∀ l, LastFor u w.rows l → l.status = .completed →
    w.users u = l.intent

/-- The worker carries out a task of the user: orderly so far, nothing enqueued as late as this
task is completed. -/
structure Carries (u : User) (t : ProvisioningTask) (w : World) : Prop extends Recorded u w where
  known : Known t w.rows
  ahead : Orderly u w → ∀ r ∈ w.rows, r.user = u → r.status = .completed → r.id < t.id

theorem Carries.agrees {w : World} (h : Carries u t w) (forUser : t.user = u) : Agrees u w := by
  refine ⟨h.toRecorded, fun orderly l last done => ?_⟩
  obtain ⟨mem, user, latest⟩ := last
  obtain ⟨r, hr, ask⟩ := h.known
  have earlier := h.ahead orderly l mem user done
  have later := latest r hr ((user_of_ask ask).trans forUser)
  have same : r.id = t.id := id_of_ask ask
  omega

section
variable {u : User} {w : World} {f : ProvisioningTask → ProvisioningTask}
  (same : ∀ r, (f r).ask = r.ask)
include same

theorem Orderly.of_map {more : List Event}
    (h : Orderly u { w with rows := w.rows.map f, log := w.log ++ more }) : Orderly u w := by
  refine ⟨(pairwise_append.mp h.inOrder).1, fun r hr user => ?_⟩
  rw [← isWireGuard_congr (same r)]
  exact h.plain (f r) (mem_map_of_mem hr) ((user_of_ask (same r)).trans user)

variable
  (noneDone : ∀ r ∈ w.rows, r.user = u → (f r).status = .completed → r.status = .completed)
include noneDone

theorem Recorded.map (h : Recorded u w) (more : List Event) :
    Recorded u { w with rows := w.rows.map f, log := w.log ++ more } := by
  refine ⟨h.indexed.map same, fun r hr user done => ?_⟩
  obtain ⟨s, hs, rfl⟩ := mem_map.mp hr
  have ask := same s
  rw [id_of_ask ask]
  rw [user_of_ask ask] at user
  exact mem_append_left _ (h.logged s hs user (noneDone s hs user done))

theorem Agrees.map (h : Agrees u w) (more : List Event) :
    Agrees u { w with rows := w.rows.map f, log := w.log ++ more } := by
  refine ⟨h.toRecorded.map same noneDone more, fun orderly l last done => ?_⟩
  obtain ⟨mem, user, latest⟩ := last
  obtain ⟨s, hs, rfl⟩ := mem_map.mp mem
  have ask := same s
  rw [user_of_ask ask] at user
  rw [intent_congr ask]
  refine h.settled (orderly.of_map same) s ⟨hs, user, fun r hr ru => ?_⟩ (noneDone s hs user done)
  have bound := latest (f r) (mem_map_of_mem hr) ((user_of_ask (same r)).trans ru)
  rw [id_of_ask (same r), id_of_ask ask] at bound
  exact bound

theorem Carries.map {t : ProvisioningTask} (h : Carries u t w) (more : List Event) :
    Carries u t { w with rows := w.rows.map f, log := w.log ++ more } := by
  refine ⟨h.toRecorded.map same noneDone more, h.known.map same, fun orderly r hr user done => ?_⟩
  obtain ⟨s, hs, rfl⟩ := mem_map.mp hr
  rw [user_of_ask (same s)] at user
  rw [id_of_ask (same s)]
  exact h.ahead (orderly.of_map same) s hs user (noneDone s hs user done)

end

/-! ## What the other goroutines do -/

section
variable {u : User} {w : World} {t : ProvisioningTask}

theorem mem_of_enqueue {now : Int} {r : ProvisioningTask} (pending : t.status = .pending)
    (hr : r ∈ enqueue rows now t) (done : r.status = .completed) : r ∈ rows := by
  rcases mem_append.mp hr with old | new
  · exact old
  · rw [mem_singleton.mp new] at done
    cases pending.symm.trans done

theorem Orderly.of_enqueue {now : Int}
    (h : Orderly u { w with rows := enqueue w.rows now t }) : Orderly u w :=
  ⟨h.inOrder, fun r hr => h.plain r (mem_append_left _ hr)⟩

theorem Recorded.enqueue (h : Recorded u w) (now : Int) (pending : t.status = .pending) :
    Recorded u { w with rows := enqueue w.rows now t } := by
  refine ⟨h.indexed.enqueue now t, fun r hr user done => ?_⟩
  exact h.logged r (mem_of_enqueue pending hr done) user done

theorem Agrees.enqueue (h : Agrees u w) (now : Int)
    (pending : t.status = .pending) : Agrees u { w with rows := enqueue w.rows now t } := by
  refine ⟨h.toRecorded.enqueue now pending, fun orderly l last done => ?_⟩
  obtain ⟨mem, user, latest⟩ := last
  have old := mem_of_enqueue pending mem done
  exact h.settled orderly.of_enqueue l ⟨old, user, fun r hr => latest r (mem_append_left _ hr)⟩ done

theorem Carries.enqueue (h : Carries u t w) (now : Int)
    {new : ProvisioningTask} (pending : new.status = .pending) :
    Carries u t { w with rows := enqueue w.rows now new } := by
  refine ⟨h.toRecorded.enqueue now pending, ?_, fun orderly r hr user done => ?_⟩
  · obtain ⟨r, hr, ask⟩ := h.known
    exact ⟨r, mem_append_left _ hr, ask⟩
  · exact h.ahead orderly.of_enqueue r (mem_of_enqueue pending hr done) user done

/-- What the others do is an enqueue, or a write to rows that completes none. -/
theorem outside_cases (o : Outside) (rows : List ProvisioningTask) :
    o.apply rows = rows ∨
      (∃ now t, t.status = .pending ∧ o.apply rows = enqueue rows now t) ∨
      ∃ f : ProvisioningTask → ProvisioningTask, o.apply rows = rows.map f ∧
        (∀ r, (f r).ask = r.ask) ∧
        ∀ r, (f r).status = .completed → r.status = .completed := by
  cases o with
  | enqueueAdd now acc =>
    dsimp only [Outside.apply, enqueueAddUser]
    split
    · exact .inl rfl
    · exact .inr (.inl ⟨now, _, rfl, rfl⟩)
  | enqueueRemove now acc =>
    dsimp only [Outside.apply, enqueueRemoveUser]
    split
    · exact .inl rfl
    · exact .inr (.inl ⟨now, _, rfl, rfl⟩)
  | cancelNode nodeID =>
    refine .inr (.inr ⟨_, rfl, fun r => ?_, fun r => ?_⟩)
    · split <;> rfl
    split
    · intro dead
      cases dead
    · exact id
  | cleanup cutoff =>
    refine .inr (.inr ⟨_, rfl, fun r => ?_, fun r => ?_⟩)
    · split <;> rfl
    · split <;> exact id

theorem keep_after {P : World → Prop} (ans : Answer) (h : P w)
    (onEnqueue : ∀ (w : World) now t, P w → t.status = .pending →
      P { w with rows := enqueue w.rows now t })
    (onMap : ∀ (w : World) (f : ProvisioningTask → ProvisioningTask), P w →
      (∀ r, (f r).ask = r.ask) → (∀ r, (f r).status = .completed → r.status = .completed) →
      P { w with rows := w.rows.map f, log := w.log ++ [] }) : P (w.after ans) := by
  obtain ⟨rows, users, log⟩ := w
  show P ⟨ans.outside.foldl Outside.apply rows, users, log⟩
  induction ans.outside generalizing rows with
  | nil => exact h
  | cons o os ih =>
    refine ih _ ?_
    rcases outside_cases o rows with same | ⟨now, t, pending, same⟩ | ⟨f, same, ask, noneDone⟩
    · rw [same]
      exact h
    · rw [same]
      exact onEnqueue ⟨rows, users, log⟩ now t h pending
    rw [same]
    have mapped := onMap ⟨rows, users, log⟩ f h ask noneDone
    rwa [append_nil] at mapped

theorem Agrees.after (h : Agrees u w) (ans : Answer) : Agrees u (w.after ans) :=
  keep_after ans h (fun _ now _ agrees pending => agrees.enqueue now pending)
    fun _ _ agrees ask noneDone => agrees.map ask (fun r _ _ => noneDone r) []

theorem Carries.after (h : Carries u t w) (ans : Answer) : Carries u t (w.after ans) :=
  keep_after ans h (fun _ now _ carries pending => carries.enqueue now pending)
    fun _ _ carries ask noneDone => carries.map ask (fun r _ _ => noneDone r) []

theorem Orderly.of_after {ans : Answer} (h : Orderly u (w.after ans)) : Orderly u w := by
  refine keep_after (P := fun w' => Orderly u w' → Orderly u w) ans id ?_ ?_ h
  · intro w' now t before _ orderly
    exact before orderly.of_enqueue
  · intro w' f before same _ orderly
    exact before (orderly.of_map same)

theorem Known.after (h : Known t w.rows) (ans : Answer) : Known t (w.after ans).rows :=
  keep_after (P := fun w => Known t w.rows) ans h
    (fun _ _ _ ⟨r, hr, ask⟩ _ => ⟨r, mem_append_left _ hr, ask⟩)
    fun _ _ known ask _ => known.map ask

end

/-! ## Agent calls -/

theorem apply_ok {ans : AgentAnswer} {users : Users} {served : Except AgentError Unit × Users}
    {v : Unit} (h : (ans.apply users served).1 = .ok v) :
    served.1 = .ok v ∧ (ans.apply users served).2 = served.2 := by
  cases ans with
  | served => exact ⟨h, rfl⟩
  | unsupported => cases h
  | failed _ => cases h

section
variable {u : User} {ans : Answer} {w : World} {c : Credentials}

theorem users_of_add {v : Unit} (ok : (exec (.addUserViaAgent u c) ans w).1 = .ok v) :
    (exec (.addUserViaAgent u c) ans w).2.users u = some c := by
  have applied : (ans.agent.apply w.users (w.users.add u c)).1 = .ok v := ok
  obtain ⟨served, users⟩ := apply_ok applied
  show (ans.agent.apply w.users (w.users.add u c)).2 u = some c
  rw [users]
  revert served
  unfold Users.add
  split
  · intro served
    cases served
  · intro _
    exact Function.update_self u (some c) w.users

theorem there_of_add (exists' : (exec (.addUserViaAgent u c) ans w).1 = .error .alreadyExists) :
    w.users u ≠ none := by
  intro absent
  have applied : (ans.agent.apply w.users (w.users.add u c)).1 = .error .alreadyExists := exists'
  cases agent : ans.agent with
  | served =>
    rw [agent] at applied
    simp [AgentAnswer.apply, Users.add, absent] at applied
  | unsupported | failed _ =>
    rw [agent] at applied
    cases applied

theorem users_of_remove
    (gone : (exec (.removeUserViaAgent u) ans w).1 = .ok () ∨
      (exec (.removeUserViaAgent u) ans w).1 = .error .notFound) :
    (exec (.removeUserViaAgent u) ans w).2.users u = none := by
  show (ans.agent.apply w.users (w.users.remove u)).2 u = none
  have applied : (ans.agent.apply w.users (w.users.remove u)).1 = .ok () ∨
      (ans.agent.apply w.users (w.users.remove u)).1 = .error .notFound := gone
  cases agent : ans.agent with
  | served =>
    unfold Users.remove
    split
    · exact Function.update_self u none w.users
    · assumption
  | unsupported | failed _ =>
    rw [agent] at applied
    rcases applied with h | h <;> cases h

end

/-! ## Carrying out a task of the user -/

/-- The user's node is found and in service whenever the worker asks for it, and the worker does
not push the node's whole config. -/
def Served (u : User) : Call → Answer → Prop
  | .getNode n, ans => n = u.nodeID → ans.node ≠ .notFound ∧ ans.node ≠ .found false
  | .pushConfigViaAgent n, _ => n ≠ u.nodeID
  | _, _ => True

section
variable {t : ProvisioningTask} {u : User} {w : World}
  {c : Call} {f : ProvisioningTask → ProvisioningTask}

section
variable {w' : World} (queue : w'.rows = w.rows) (log : w'.log = w.log)
include queue log

theorem Recorded.of_same (h : Recorded u w) : Recorded u w' := by
  refine ⟨queue ▸ h.indexed, ?_⟩
  rw [queue, log]
  exact h.logged

theorem Orderly.of_same (h : Orderly u w') : Orderly u w := ⟨log ▸ h.inOrder, queue ▸ h.plain⟩

end

theorem Carries.call (h : Carries u t w) (node : NodeCall t.user c)
    (ans : Answer) : Carries u t (exec c ans w).2 := by
  obtain ⟨rows, log⟩ := rows_nodeCall node ans w
  have after := h.after ans
  refine ⟨after.toRecorded.of_same rows log, rows ▸ after.known, fun orderly => ?_⟩
  rw [rows]
  exact after.ahead (orderly.of_same rows log)

/-- What carrying out the task establishes: if it succeeded, the user is as the task wants it. -/
def Carried (t : ProvisioningTask) (result : Except TaskError Unit) (w : World) : Prop :=
  Carries t.user t w ∧
    (result = .ok () → Orderly t.user w → w.users t.user = t.intent)

abbrev SafeTask (p : Program (Except TaskError Unit)) (t : ProvisioningTask) (w : World) : Prop :=
  Safe exec (fun _ => Agrees t.user) (Served t.user) (Carried t) p w

section
variable (h : Carries t.user t w)
include h

theorem carried_error (e : TaskError) : Carried t (.error e) w := ⟨h, fun ok => by cases ok⟩

theorem carried_wireGuard (wg : t.isWireGuard = true) : Carried t (.ok ()) w := by
  refine ⟨h, fun _ orderly => ?_⟩
  obtain ⟨r, hr, ask⟩ := h.known
  have plain := orderly.plain r hr (user_of_ask ask)
  rw [isWireGuard_congr ask, wg] at plain
  cases plain

theorem safe_push :
    SafeTask (do return ofAgent (← ask (.pushConfigViaAgent t.user.nodeID))) t w :=
  ⟨h.agrees rfl, fun _ served => absurd rfl served⟩

theorem safe_addAgain (add : t.type = .addUser) (absent : w.users t.user = none) :
    SafeTask (addAgain t) t w := by
  refine ⟨h.agrees rfl, fun ans _ => ?_⟩
  have next := h.call (c := .addUserViaAgent t.user t.credentials) rfl ans
  cases reply : (exec (.addUserViaAgent t.user t.credentials) ans w).1 with
  | ok v =>
    refine ⟨next, fun _ _ => ?_⟩
    rw [users_of_add reply, intent, add]
  | error e =>
    cases e with
    | alreadyExists => exact absurd absent (there_of_add reply)
    | unsupportedProtocol | notFound | other => exact carried_error next _

theorem safe_reAddUser (add : t.type = .addUser) : SafeTask (reAddUser t) t w := by
  refine ⟨h.agrees rfl, fun ans _ => ?_⟩
  have next := h.call (c := .removeUserViaAgent t.user) rfl ans
  cases reply : (exec (.removeUserViaAgent t.user) ans w).1 with
  | ok v => exact safe_addAgain next add (users_of_remove (.inl reply))
  | error e =>
    cases e with
    | notFound => exact safe_addAgain next add (users_of_remove (.inr reply))
    | alreadyExists | unsupportedProtocol | other => exact carried_error next _

/-- An add that succeeds leaves the user on the node. -/
theorem safe_addUserToXray (add : t.type = .addUser) : SafeTask (addUserToXray t) t w := by
  unfold addUserToXray
  split
  case isTrue wg => exact carried_wireGuard h wg
  split
  · exact carried_error h _
  refine ⟨h.agrees rfl, fun node served => ?_⟩
  obtain ⟨there, inService⟩ := served rfl
  have h := h.call (c := .getNode t.user.nodeID) rfl node
  cases found : (exec (.getNode t.user.nodeID) node w).1 with
  | notFound => exact absurd found there
  | failed => exact carried_error h _
  | found isActive =>
    cases isActive with
    | false => exact absurd found inService
    | true =>
      refine ⟨h.agrees rfl, fun ans _ => ?_⟩
      have next := h.call (c := .addUserViaAgent t.user t.credentials) rfl ans
      cases reply : (exec (.addUserViaAgent t.user t.credentials) ans _).1 with
      | ok v =>
        refine ⟨next, fun _ _ => ?_⟩
        rw [users_of_add reply, intent, add]
      | error e =>
        cases e with
        | alreadyExists => exact safe_reAddUser next add
        | unsupportedProtocol => exact safe_push next
        | notFound => exact carried_error next _
        | other => exact carried_error next _

/-- A removal that succeeds leaves the user off it. -/
theorem safe_removeUserFromXray (remove : t.type = .removeUser) :
    SafeTask (removeUserFromXray t) t w := by
  unfold removeUserFromXray
  split
  case isTrue wg => exact carried_wireGuard h wg
  split
  · exact carried_error h _
  refine ⟨h.agrees rfl, fun node served => ?_⟩
  obtain ⟨there, -⟩ := served rfl
  have h := h.call (c := .getNode t.user.nodeID) rfl node
  have absent : t.intent = none := by rw [intent, remove]
  cases found : (exec (.getNode t.user.nodeID) node w).1 with
  | notFound => exact absurd found there
  | failed => exact carried_error h _
  | found isActive =>
    refine ⟨h.agrees rfl, fun ans _ => ?_⟩
    have next := h.call (c := .removeUserViaAgent t.user) rfl ans
    cases reply : (exec (.removeUserViaAgent t.user) ans _).1 with
    | ok v => exact ⟨next, fun _ _ => (users_of_remove (.inl reply)).trans absent.symm⟩
    | error e =>
      cases e with
      | notFound => exact ⟨next, fun _ _ => (users_of_remove (.inr reply)).trans absent.symm⟩
      | unsupportedProtocol => exact safe_push next
      | alreadyExists => exact carried_error next _
      | other => exact carried_error next _

/-- A task that succeeds leaves its user as it wants. -/
theorem safe_execute_user : SafeTask (execute t) t w := by
  unfold execute
  cases type : t.type with
  | addUser => exact safe_addUserToXray h type
  | removeUser => exact safe_removeUserFromXray h type
  | other name => exact carried_error h _

end

/-! ## The worker's writes -/

theorem ask_onRow (same : ∀ r, (f r).ask = r.ask)
    (id : Nat) (r : ProvisioningTask) : (onRow id f r).ask = r.ask := by
  unfold onRow
  split
  · exact same r
  · rfl

variable {r : ProvisioningTask} {ans : Answer}

theorem done_of_onRow {id : Nat} (other : (f r).status ≠ .completed ∨ r.id ≠ id)
    (done : (onRow id f r).status = .completed) : r.status = .completed := by
  unfold onRow at done
  split at done
  case isTrue here => exact absurd done (other.resolve_right fun ne => ne here.1)
  case isFalse => exact done

theorem ask_failRow (nextRetry : Int) (isDead : Bool) (r : ProvisioningTask) :
    (failRow nextRetry isDead r).ask = r.ask := rfl

theorem not_completed_failRow (nextRetry : Int) (isDead : Bool) (r : ProvisioningTask) :
    (failRow nextRetry isDead r).status ≠ .completed := by
  cases isDead <;> simp [failRow]

theorem carries_of_started (h : Agrees t.user w) (known : Known t w.rows) :
    Carries t.user t { w with
      rows := updateRow t.id (setStatus .processing) w.rows
      log := w.log ++ [.started t.id t.user] } := by
  have same := ask_onRow (f := setStatus .processing) (fun _ => rfl) t.id
  have noneDone : ∀ r, (onRow t.id (setStatus .processing) r).status = .completed →
      r.status = .completed := fun r => done_of_onRow (.inl fun done => by cases done)
  refine ⟨h.toRecorded.map same (fun r _ _ => noneDone r) _, known.map same, ?_⟩
  intro orderly r hr user done
  obtain ⟨s, hs, rfl⟩ := mem_map.mp hr
  rw [user_of_ask (same s)] at user
  rw [id_of_ask (same s)]
  have logged := h.logged s hs user (noneDone s done)
  exact (pairwise_append.mp orderly.inOrder).2.2 _ logged _ mem_cons_self rfl rfl

theorem agrees_of_success (h : Carries t.user t w)
    (users : Orderly t.user w → w.users t.user = t.intent) :
    Agrees t.user { w with
      rows := updateRow t.id (setStatus .completed) w.rows
      log := w.log ++ if reachable w.rows t.id then [.completed t.id t.user] else [] } := by
  have same := ask_onRow (f := setStatus .completed) (fun _ => rfl) t.id
  refine ⟨⟨h.indexed.map same, fun r hr user done => ?_⟩, fun orderly l last done => ?_⟩
  · obtain ⟨s, hs, rfl⟩ := mem_map.mp hr
    rw [user_of_ask (same s)] at user
    rw [id_of_ask (same s)]
    by_cases here : s.id = t.id ∧ s.deleted = false
    · have there : reachable w.rows t.id = true :=
        any_eq_true.mpr ⟨s, hs, decide_eq_true here⟩
      rw [there, here.1]
      exact mem_append_right _ mem_cons_self
    · rw [onRow, if_neg here] at done
      exact mem_append_left _ (h.logged s hs user done)
  · have before := orderly.of_map same
    obtain ⟨mem, user, latest⟩ := last
    obtain ⟨s, hs, rfl⟩ := mem_map.mp mem
    obtain ⟨r, hr, ask⟩ := h.known
    rw [user_of_ask (same s)] at user
    rw [intent_congr (same s)]
    by_cases here : s.id = t.id
    · have isRow : s = r := h.indexed.unique hs hr (here.trans (id_of_ask ask).symm)
      rw [isRow, intent_congr ask]
      exact users before
    -- an earlier row is not the last one: the task's own row is later
    have earlier := h.ahead before s hs user (done_of_onRow (.inr here) done)
    have later := latest _ (mem_map_of_mem hr) ((user_of_ask (same r)).trans (user_of_ask ask))
    rw [id_of_ask (same r), id_of_ask (same s), id_of_ask ask] at later
    omega

/-- No call forgets a task. -/
theorem known_exec (h : Known t w.rows) (c : Call) (ans : Answer) :
    Known t (exec c ans w).2.rows := by
  have after := h.after ans
  have write : ∀ (ok : Bool) (id : Nat) (f : ProvisioningTask → ProvisioningTask)
      (events : List Event), (∀ r, (f r).ask = r.ask) →
      Known t ((w.after ans).write ok (updateRow id f) events).2.rows := by
    intro ok id f events same
    cases ok with
    | false => exact after
    | true => exact after.map (ask_onRow same id)
  cases c with
  | markProcessing | markSuccess | markFailed => exact write _ _ _ _ fun _ => rfl
  | _ => exact after

/-! ## Programs -/

theorem users_nodeCall (node : NodeCall t.user c) (other : t.user ≠ u)
    (served : Served u c ans) : (exec c ans w).2.users u = w.users u := by
  have onAgent : ∀ r : Except AgentError Unit × Users, r.2 u = w.users u →
      (ans.agent.apply w.users r).2 u = w.users u := by
    intro r same
    cases ans.agent with
    | served => exact same
    | unsupported => rfl
    | failed tookEffect =>
      cases tookEffect with
      | false => rfl
      | true => exact same
  cases c with
  | getNode n => rfl
  | addUserViaAgent v cred =>
    obtain rfl : v = t.user := node
    refine onAgent _ ?_
    unfold Users.add
    split
    · rfl
    · exact Function.update_of_ne (Ne.symm other) _ _
  | removeUserViaAgent v =>
    obtain rfl : v = t.user := node
    refine onAgent _ ?_
    unfold Users.remove
    split
    · exact Function.update_of_ne (Ne.symm other) _ _
    · rfl
  | pushConfigViaAgent n => exact onAgent _ (if_neg (Ne.symm served))
  | _ => exact node.elim

theorem Agrees.call (h : Agrees u w) (node : NodeCall t.user c) (other : t.user ≠ u)
    (served : Served u c ans) : Agrees u (exec c ans w).2 := by
  obtain ⟨rows, log⟩ := rows_nodeCall node ans w
  have after := h.after ans
  refine ⟨after.toRecorded.of_same rows log, fun orderly => ?_⟩
  rw [rows, users_nodeCall node other served]
  exact after.settled (orderly.of_same rows log)

abbrev SafeFor (u : User) {α : Type} (post : α → World → Prop) (p : Program α) (w : World) :
    Prop :=
  Safe exec (fun _ => Agrees u) (Served u) post p w

/-- A task of another user leaves the user as it is. -/
theorem safe_execute_other (other : t.user ≠ u) (h : Agrees u w) (known : Known t w.rows) :
    SafeFor u (fun _ w => Agrees u w ∧ Known t w.rows) (execute t) w := by
  refine safe_of_only ?_ (only_execute t) ⟨h, known⟩
  rintro c w node ⟨agrees, known⟩
  exact ⟨agrees, fun ans served => ⟨agrees.call node other served, known_exec known c ans⟩⟩

variable (cfg : Config)

/-- A failure written down completes nothing. -/
theorem safe_handleFailure_user (h : Carries t.user t w) :
    SafeFor t.user (fun _ => Agrees t.user) (handleFailure cfg t) w := by
  refine ⟨h.agrees rfl, fun clock _ => ?_⟩
  have waited := h.after clock
  refine ⟨waited.agrees rfl, fun ans _ => ?_⟩
  have after := waited.after ans
  show Agrees t.user ((_ : World).write ans.ok (updateRow t.id (failRow _ _)) []).2
  cases ans.ok with
  | false => exact after.agrees rfl
  | true =>
    exact (after.map (ask_onRow (fun r => ask_failRow _ _ r) t.id)
      (fun r _ _ => done_of_onRow (.inl (not_completed_failRow _ _ r))) []).agrees rfl

/-- A task of the user, from its claim to its outcome. -/
theorem safe_processTask_user (h : Agrees t.user w) (known : Known t w.rows) :
    SafeFor t.user (fun _ => Agrees t.user) (processTask cfg t) w := by
  refine ⟨h, fun ans _ => ?_⟩
  have after := h.after ans
  cases marked : ans.ok with
  | false =>
    simp only [exec, World.write, marked]
    exact after
  | true =>
    simp only [exec, World.write, marked, if_true]
    refine (safe_bind (p := execute t)).mpr
      (safe_mono ?_ (safe_execute_user (carries_of_started after (known.after ans))))
    rintro result w ⟨carries, users⟩
    cases result with
    | error e => exact safe_handleFailure_user cfg carries
    | ok v =>
      refine ⟨carries.agrees rfl, fun ans _ => ?_⟩
      have after := carries.after ans
      show Agrees t.user ((w.after ans).write ans.ok _ _).2
      cases ans.ok with
      | false => exact after.agrees rfl
      | true => exact agrees_of_success after fun orderly => users rfl orderly.of_after

section
variable (other : t.user ≠ u) (h : Agrees u w) (known : Known t w.rows)
include other h known

theorem ne_of_other (hr : r ∈ w.rows) (user : r.user = u) : r.id ≠ t.id := by
  intro same
  obtain ⟨s, hs, ask⟩ := known
  have isRow : r = s := h.indexed.unique hr hs (same.trans (id_of_ask ask).symm)
  exact other ((user_of_ask ask).symm.trans (isRow ▸ user))

theorem agrees_write_other (same : ∀ r, (f r).ask = r.ask) (ok : Bool) (events : List Event) :
    Agrees u (w.write ok (updateRow t.id f) events).2 := by
  cases ok with
  | false => exact h
  | true =>
    exact h.map (ask_onRow same t.id)
      (fun r hr user => done_of_onRow (.inr (ne_of_other other h known hr user))) events

theorem safe_processTask_other : SafeFor u (fun _ => Agrees u) (processTask cfg t) w := by
  refine ⟨h, fun ans _ => ?_⟩
  have started := agrees_write_other other (h.after ans) (known.after ans)
    (f := setStatus .processing) (fun _ => rfl) ans.ok [.started t.id t.user]
  have known := known_exec known (.markProcessing t) ans
  cases reply : (exec (.markProcessing t) ans w).1 with
  | error _ => exact started
  | ok _ =>
    refine (safe_bind (p := execute t)).mpr (safe_mono ?_ (safe_execute_other other started known))
    rintro result w ⟨agrees, known⟩
    cases result with
    | error e =>
      refine ⟨agrees, fun clock _ => ?_⟩
      have waited := agrees.after clock
      refine ⟨waited, fun ans _ => ?_⟩
      exact agrees_write_other other (waited.after ans) ((known.after clock).after ans)
        (ask_failRow _ _) ans.ok []
    | ok v =>
      refine ⟨agrees, fun ans _ => ?_⟩
      exact agrees_write_other other (agrees.after ans) (known.after ans)
        (f := setStatus .completed) (fun _ => rfl) ans.ok _

end

/-- Any task keeps the user as the last completed task wants it. -/
theorem safe_processTask_agrees (h : Agrees u w) (known : Known t w.rows) :
    SafeFor u (fun _ => Agrees u) (processTask cfg t) w := by
  by_cases forUser : t.user = u
  · obtain rfl := forUser
    exact safe_processTask_user cfg h known
  · exact safe_processTask_other cfg forUser h known

/-- A sweep does, by induction on its tasks. -/
theorem safe_processAll_agrees (ts : List ProvisioningTask) (h : Agrees u w)
    (known : ∀ t ∈ ts, Known t w.rows) :
    SafeFor u (fun _ => Agrees u) (processAll cfg ts) w := by
  induction ts generalizing w with
  | nil => exact h
  | cons t ts ih =>
    have first := safe_processTask_agrees cfg h (known t mem_cons_self)
    have rest : ∀ t ∈ ts, Known t w.rows := fun t ht => known t (mem_cons_of_mem _ ht)
    have kept : ∀ c ans (w : World), (∀ t ∈ ts, Known t w.rows) →
        ∀ t ∈ ts, Known t (exec c ans w).2.rows :=
      fun c ans w all t ht => known_exec (all t ht) c ans
    have both := safe_keeping kept first rest
    exact safe_bind.mpr (safe_mono (fun _ w after => ih after.1 after.2) both)

/-- Whatever program starts with the user as its tasks want it keeps it so at every call. -/
theorem safe_program_agrees (e : Entry) (w : World) (h : Agrees u w) :
    SafeFor u (fun _ => Agrees u) (e.program cfg) w := by
  cases e with
  | wait => exact ⟨h, fun ans _ => h.after ans⟩
  | processBatch =>
    refine ⟨h, fun ans _ => ?_⟩
    have after := h.after ans
    cases ok : ans.ok with
    | false =>
      simp only [exec, ok]
      exact after
    | true =>
      simp only [exec, ok, if_true]
      refine safe_processAll_agrees cfg _ after fun t ht => ?_
      have fetched := (mem_insertionSort _).mp (mem_of_mem_take ht)
      exact ⟨t, (mem_filter.mp fetched).1, rfl⟩

end

/-! ## Over runs -/

/-- **The agent ends up with the task enqueued last**, in every run in which the user's tasks are
Xray's and are taken up in order, its node is in service, and no full push replaces its users: once
all tasks of the user are completed, the agent has the user exactly as the last one wants it. -/
theorem last_intent (cfg : Config) (u : User) {ls : List (Label Entry Answer)}
    {t : System Call Reply World}
    (served : Runs.Along (step cfg) (System.Guarded (fun _ => True) (Served u)) boot ls)
    (h : Runs.run (step cfg) boot ls = some t) (orderly : Orderly u t.world)
    (completed : ∀ r ∈ t.world.rows, r.user = u → r.status = .completed)
    {l : ProvisioningTask} (last : LastFor u t.world.rows l) : t.world.users u = l.intent := by
  have start : Agrees u World.init := by
    refine ⟨⟨fun i r hi => ?_, fun r hr => ?_⟩, fun _ l last => ?_⟩
    · cases hi
    · cases hr
    · cases last.1
  have settled := System.settled (safe_program_agrees cfg) (fun _ _ agrees _ => agrees) start
    served h
  have agrees := System.of_settled (p := Agrees u) (fun _ h => h) (fun _ _ h => h) settled
  exact agrees.settled orderly l last (completed l last.1 last.2.1)

/-- The executable form of the guard: the node found in service, and no full push of it. -/
def servedCheck (u : User) (s : System Call Reply World) : Label Entry Answer → Bool
  | .start _ => true
  | .crash => true
  | .advance ans =>
    match s.running with
    | some (.call (.getNode _) _) => ans.node ≠ .notFound ∧ ans.node ≠ .found false
    | some (.call (.pushConfigViaAgent n) _) => n ≠ u.nodeID
    | _ => true

theorem served_of_check {s : System Call Reply World} {l : Label Entry Answer}
    (h : servedCheck u s l = true) : System.Guarded (fun _ => True) (Served u) s l := by
  cases l with
  | start e => trivial
  | crash => exact fun _ _ _ => trivial
  | advance ans =>
    intro c k running
    rw [servedCheck, running] at h
    cases c with
    | getNode n => exact fun _ => of_decide_eq_true h
    | pushConfigViaAgent n =>
      have other : n ≠ u.nodeID := of_decide_eq_true h
      exact other
    | _ => trivial

/-- The worker's batch when one add is due and goes through: fetch, mark, node, agent, outcome. -/
def addedAt (now : Int) : List (Label Entry Answer) :=
  [.start .processBatch, .advance { clock := now }, .advance {}, .advance {}, .advance {},
    .advance {}, .advance {}]

/-- An add and then a remove of one user, each carried out before the next is enqueued. -/
def addThenRemove : List (Label Entry Answer) :=
  [.start .wait, .advance { outside := [.enqueueAdd 0 alice] }, .advance {}] ++ addedAt 0 ++
  [.start .wait, .advance { outside := [.enqueueRemove 1 alice] }, .advance {}] ++ addedAt 1

def aliceUser : User := ⟨1, "in-1", "alice@panel"⟩

/-- What a run leaves: the rows, the log, and what the agent has for the user. -/
def leaves (ls : List (Label Entry Answer)) :
    Option (List ProvisioningTask × List Event × Option Credentials) :=
  (Runs.run (step {}) boot ls).map fun t => (t.world.rows, t.world.log, t.world.users aliceUser)

theorem exists_of_leaves {ls : List (Label Entry Answer)}
    {log : List Event} {cred : Option Credentials} (h : leaves ls = some (rows, log, cred)) :
    ∃ t, Runs.run (step {}) boot ls = some t ∧ t.world.rows = rows ∧ t.world.log = log ∧
      t.world.users aliceUser = cred := by
  obtain ⟨t, ht, out⟩ := Option.map_eq_some_iff.mp h
  simp only [Prod.mk.injEq] at out
  exact ⟨t, ht, out⟩

def aliceRow (id : Nat) (type : TaskType) (now : Int) : ProvisioningTask :=
  { newTask type alice ⟨1, "in-1", "vless"⟩ "" "" with
    id := id, status := .completed, nextRetryAt := now, createdAt := now }

theorem last_intent_addThenRemove :
    ∃ t, Runs.run (step {}) boot addThenRemove = some t ∧
      LastFor aliceUser t.world.rows (aliceRow 2 .removeUser 1) ∧
      t.world.users aliceUser = (aliceRow 2 .removeUser 1).intent := by
  have run : leaves addThenRemove = some ([aliceRow 1 .addUser 0, aliceRow 2 .removeUser 1],
      [.started 1 aliceUser, .completed 1 aliceUser, .started 2 aliceUser,
        .completed 2 aliceUser], none) := by decide
  obtain ⟨t, h, rows, log, -⟩ := exists_of_leaves run
  have checked :
      Runs.checkAlong (step {}) (servedCheck aliceUser) boot addThenRemove = true := rfl
  have served := (Runs.along_of_check checked).mono fun _ _ => served_of_check
  have orderly : Orderly aliceUser t.world :=
    ⟨by rw [log]; decide, by rw [rows]; decide⟩
  have last : LastFor aliceUser t.world.rows (aliceRow 2 .removeUser 1) := by
    rw [rows, LastFor]
    decide
  exact ⟨t, h, last, last_intent {} aliceUser served h orderly (by rw [rows]; decide) last⟩

/-- An add cannot reach the node; a remove enqueued after it is carried out at once; then the add
is retried. -/
def retriedAfterRemove : List (Label Entry Answer) :=
  unreachableOnce ++
  [.start .wait, .advance { outside := [.enqueueRemove 1 alice] }, .advance {}] ++ addedAt 1 ++
  addedAt 10

/-- **An add that is retried after a later remove brings the user back**: both tasks are completed,
the remove was enqueued last, and the agent has the user. -/
theorem add_after_remove :
    ∃ t, Runs.run (step {}) boot retriedAfterRemove = some t ∧
      (∀ r ∈ t.world.rows, r.user = aliceUser → r.status = .completed) ∧
      LastFor aliceUser t.world.rows (aliceRow 2 .removeUser 1) ∧
      t.world.users aliceUser = some ⟨"u1", "vless", "", "none"⟩ := by
  have run : leaves retriedAfterRemove = some (
      [{ aliceRow 1 .addUser 0 with nextRetryAt := 10, retryCount := 1 }, aliceRow 2 .removeUser 1],
      [.started 1 aliceUser, .started 2 aliceUser, .completed 2 aliceUser, .started 1 aliceUser,
        .completed 1 aliceUser], some ⟨"u1", "vless", "", "none"⟩) := by decide
  obtain ⟨t, h, rows, -, users⟩ := exists_of_leaves run
  refine ⟨t, h, ?_, ?_, users⟩
  · rw [rows]
    decide
  · rw [rows, LastFor]
    decide

end NasnetPanel.Provisioning
