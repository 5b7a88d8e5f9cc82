import Mathlib.Data.List.Dedup
import Mathlib.Data.List.Sort
import NasnetPanel.RemoteNodes.State

/-!
# RemoteNodes.Entry — the clients on a node's entry, and the calls that change them

`subscriptions/clients.go`, with the emails of `nodecfg/emails.go`: `Enable`, `Disable`, `Replace`
and `Reconcile` over an agent's `AddUser`, `RemoveUser` and `ListUsers`.

A call may fail, and one that fails may have taken effect: the answer was lost. An add of a client
that is there and a removal of one that is not are answered in words the hub reads as success. How
each call goes is given by its number (`Net`), so a law over all of them is a law over every pattern
of failures.

A pass over the clients is a list of single changes. What each of them keeps, a pass keeps
(`reconcile_inv`), and a pass without an error leaves every wanted client on the node
(`holds_of_reconcile`).
-/

namespace NasnetPanel.RemoteNodes.Entry
open List

/-! ## Emails -/

def subscriptionEmail (id : Nat) : String := "sub-" ++ id.repr ++ "@remote-nodes"

theorem subscriptionEmail_inj {a b : Nat} (same : subscriptionEmail a = subscriptionEmail b) :
    a = b := by
  have written : a.repr = b.repr :=
    (String.append_right_inj _).mp ((String.append_left_inj _).mp same)
  have digits := congrArg (fun s => Nat.ofDigitChars 10 s.toList 0) written
  simpa only [Nat.toList_repr, Nat.ofDigitChars_ten_toDigits] using digits

/-- Only what a number is written as, an `int` above 0. -/
def positiveInt (s : String) : Option Nat :=
  let n := Nat.ofDigitChars 10 s.toList 0
  if 1 ≤ n ∧ n < 9223372036854775808 ∧ n.repr = s then some n else none

def parseSubscriptionEmail (email : String) : Option Nat :=
  (List.isPrefixOf? "sub-".toList email.toList).bind fun s =>
    (List.isSuffixOf? "@remote-nodes".toList s).bind fun s => positiveInt (String.ofList s)

/-! ## The agent -/

/-- A login on the node: a subscription's, or another's. -/
structure Client where
  email : String
  uuid : String
deriving DecidableEq, Repr

/-- What an error comes from. -/
inductive Cause where
  | agent | context
deriving DecidableEq, Repr

inductive Outcome where
  | answered
  /-- `took`: the agent had done what it was asked. -/
  | failed (took : Bool) (cause : Cause)
deriving DecidableEq, Repr

def Outcome.took : Outcome → Bool
  | .answered => true
  | .failed took _ => took

def Outcome.lost (o : Outcome) : Bool := o ≠ .answered && o.took

/-- How the calls over a connection go, and whether the context has ended, by the number of calls
made before. -/
structure Net where
  outcome : Nat → Outcome := fun _ => .answered
  cancelled : Nat → Bool := fun _ => false

/-- A node as a connection finds it. -/
structure Conn where
  users : List Client
  calls : Nat := 0
deriving DecidableEq, Repr

inductive Answer where
  | ok
  /-- "already exists", or "not found". -/
  | said
  | failed (cause : Cause)
deriving DecidableEq, Repr

def Conn.has (n : Conn) (email : String) : Bool := n.users.any (·.email = email)

def put (c : Client) (users : List Client) : List Client :=
  if users.any (·.email = c.email) then users else users ++ [c]

def take (email : String) (users : List Client) : List Client := users.filter (·.email ≠ email)

def Conn.call (net : Net) (said : Bool) (effect : List Client → List Client) (n : Conn) :
    Answer × Conn :=
  match net.outcome n.calls with
  | .answered => (if said then .said else .ok, ⟨effect n.users, n.calls + 1⟩)
  | .failed took cause => (.failed cause, ⟨if took then effect n.users else n.users, n.calls + 1⟩)

def addUser (net : Net) (c : Client) (n : Conn) : Answer × Conn :=
  n.call net (n.has c.email) (put c)

def removeUser (net : Net) (email : String) (n : Conn) : Answer × Conn :=
  n.call net (!n.has email) (take email)

/-! ## Enable, Disable, Replace -/

inductive Err where
  | email (email : String)
  | uuid (email : String)
  | twice (email : String)
  | list (cause : Cause)
  | add (email : String) (cause : Cause)
  | remove (email : String) (cause : Cause)
  | context
deriving DecidableEq, Repr

def Err.isContext : Err → Bool
  | .list .context | .add _ .context | .remove _ .context | .context => true
  | _ => false

def checkEmail (email : String) : Option Err :=
  if (parseSubscriptionEmail email).isSome then none else some (.email email)

def hex (c : Char) : Bool := lowerHex c || ('A' ≤ c && c ≤ 'F')

def uuidRe (s : String) : Bool := uuidForm hex s

theorem uuidRe_of_validUUID {s : String} (valid : validUUID s = true) : uuidRe s = true := by
  simp only [validUUID, uuidRe, uuidForm, Bool.and_eq_true, all_eq_true] at valid ⊢
  refine ⟨valid.1, fun x mem => ?_⟩
  have digit := valid.2 x mem
  split at digit
  next dash => rwa [if_pos dash]
  next other => rw [if_neg other, hex, digit, Bool.true_or]

def Client.check (c : Client) : Option Err :=
  (checkEmail c.email).or (if uuidRe c.uuid then none else some (.uuid c.email))

/-- What a change of a client comes to: it is checked, and then the agent is called. -/
def checked (check : Option Err) (fails : Cause → Err) (n : Conn) (called : Answer × Conn) :
    Option Err × Conn :=
  match check, called with
  | some err, _ => (some err, n)
  | none, (.failed cause, n) => (some (fails cause), n)
  | none, (_, n) => (none, n)

def enable (net : Net) (c : Client) (n : Conn) : Option Err × Conn :=
  checked c.check (.add c.email) n (addUser net c n)

def disable (net : Net) (email : String) (n : Conn) : Option Err × Conn :=
  checked (checkEmail email) (.remove email) n (removeUser net email n)

def replace (net : Net) (c : Client) (n : Conn) : Option Err × Conn :=
  match c.check with
  | some err => (some err, n)
  | none =>
    match disable net c.email n with
    | (some err, n) => (some err, n)
    | (none, n) => enable net c n

/-! ## Reconcile -/

structure Diff where
  added : List String := []
  removed : List String := []
  replaced : List String := []
  foreign : List String := []
deriving DecidableEq, Repr

structure Pass where
  diff : Diff := {}
  errs : List Err := []
  conn : Conn
  /-- The context ended while there was a client to put back. -/
  stopped : Bool := false
deriving DecidableEq, Repr

open Pass

namespace Pass

def fail (p : Pass) (err : Err) (n : Conn) : Pass := { p with errs := p.errs ++ [err], conn := n }

/-- `cancelled`, where it says so: the context's error is reported once. -/
def stop (p : Pass) : Pass :=
  { p with
    errs := if p.errs.any Err.isContext then p.errs else p.errs ++ [.context]
    stopped := true }

def add (net : Net) (c : Client) (p : Pass) : Pass :=
  match enable net c p.conn with
  | (some err, n) => p.fail err n
  | (none, n) => { p with diff := { p.diff with added := p.diff.added ++ [c.email] }, conn := n }

def swap (net : Net) (c : Client) (p : Pass) : Pass :=
  match disable net c.email p.conn with
  | (some err, n) => p.fail err n
  | (none, n) =>
    match enable net c n with
    | (some err, n) =>
      -- The node has lost the client.
      { p.fail err n with diff := { p.diff with removed := p.diff.removed ++ [c.email] } }
    | (none, n) =>
      { p with diff := { p.diff with replaced := p.diff.replaced ++ [c.email] }, conn := n }

def remove (net : Net) (email : String) (p : Pass) : Pass :=
  match disable net email p.conn with
  | (some err, n) => p.fail err n
  | (none, n) => { p with diff := { p.diff with removed := p.diff.removed ++ [email] }, conn := n }

end Pass

def equalFold (a b : String) : Bool := a.toList.map Char.toLower == b.toList.map Char.toLower

/-- A wanted client that is missing is put back, and one of another id is swapped where the agent
reports ids. -/
def Pass.visit (net : Net) (listed : List Client) (c : Client) (p : Pass) : Pass :=
  match Keyed.find Client.email listed c.email with
  | some u =>
    if u.uuid = "" ∨ equalFold u.uuid c.uuid then p
    else if net.cancelled p.conn.calls then p.stop
    else p.swap net c
  | none => if net.cancelled p.conn.calls then p.stop else p.add net c

def addMissing (net : Net) (listed : List Client) : List Client → Pass → Pass
  | [], p => p
  | c :: want, p =>
    if (p.visit net listed c).stopped then p.visit net listed c
    else addMissing net listed want (p.visit net listed c)

def removeExtra (net : Net) : List String → Pass → Pass
  | [], p => p
  | email :: extra, p =>
    if net.cancelled p.conn.calls then p.stop else removeExtra net extra (p.remove net email)

def wantErr (seen : List String) : List Client → Option Err
  | [] => none
  | c :: want =>
    c.check.or (if c.email ∈ seen then some (.twice c.email) else wantErr (c.email :: seen) want)

/-- `ListUsers`. The agent there is reports no ids. -/
def report (ids : Bool) (users : List Client) : List Client :=
  if ids then users else users.map fun u => { u with uuid := "" }

def unwanted (listed want : List Client) : List String :=
  ((listed.map (·.email)).dedup.filter
    fun email => email ∉ want.map (·.email)).insertionSort (· ≤ ·)

/-- The changes, once the clients are listed. What should be there comes first. -/
def change (net : Net) (listed want : List Client) (n : Conn) : Pass :=
  let extra := (unwanted listed want).filter fun email => (parseSubscriptionEmail email).isSome
  let foreign := (unwanted listed want).filter fun email => (parseSubscriptionEmail email).isNone
  let p := addMissing net listed want { diff := { foreign := foreign }, conn := n }
  if p.stopped then p else removeExtra net extra p

def reconcile (net : Net) (ids : Bool) (want : List Client) (n : Conn) : Pass :=
  match wantErr [] want with
  | some err => { errs := [err], conn := n }
  | none =>
    match n.call net false id with
    | (.failed cause, n) => { errs := [.list cause], conn := n }
    | (_, n) => change net (report ids n.users) want n

/-! ## One change -/

variable {users : List Client}

section
variable {net : Net} {c : Client} {email : String} {n : Conn} {u : Client}

theorem mem_put (mem : u ∈ put c users) : u ∈ users ∨ u = c := by
  unfold put at mem
  split at mem
  · exact .inl mem
  · exact (mem_append.mp mem).imp_right mem_singleton.mp

theorem mem_take : u ∈ take email users ↔ u ∈ users ∧ u.email ≠ email := by
  rw [take, mem_filter, decide_eq_true_eq]

theorem exists_put (c : Client) (users : List Client) : ∃ u ∈ put c users, u.email = c.email := by
  unfold put
  split
  next there => simpa using there
  · exact ⟨c, mem_append_right _ mem_cons_self, rfl⟩

theorem subset_put (c : Client) (users : List Client) : users ⊆ put c users := by
  unfold put
  split
  · exact fun _ mem => mem
  · exact fun _ mem => mem_append_left _ mem

section
variable {check : Option Err} {fails : Cause → Err} {said : Bool}
  {effect : List Client → List Client}

theorem checked_users :
    (checked check fails n (n.call net said effect)).2.users = n.users ∨
      (checked check fails n (n.call net said effect)).2.users = effect n.users := by
  unfold Conn.call
  cases check with
  | some err => exact .inl rfl
  | none =>
    cases net.outcome n.calls with
    | answered => cases said <;> exact .inr rfl
    | failed took cause =>
      cases took
      · exact .inl rfl
      · exact .inr rfl

theorem checked_nil (nil : (checked check fails n (n.call net said effect)).1 = none) :
    check = none ∧ net.outcome n.calls = .answered ∧
      (checked check fails n (n.call net said effect)).2 = ⟨effect n.users, n.calls + 1⟩ := by
  unfold Conn.call at nil ⊢
  cases check with
  | some err => cases nil
  | none =>
    cases outcome : net.outcome n.calls with
    | answered => cases said <;> exact ⟨rfl, rfl, rfl⟩
    | failed took cause =>
      rw [outcome] at nil
      cases nil

theorem checked_took (took : (net.outcome n.calls).took = true) :
    (checked none fails n (n.call net said effect)).2.users = effect n.users := by
  unfold Conn.call
  cases outcome : net.outcome n.calls with
  | answered => cases said <;> rfl
  | failed did cause =>
    rw [outcome] at took
    cases took
    rfl

theorem checked_err (err : (checked check fails n (n.call net said effect)).1 ≠ none)
    (kept : (net.outcome n.calls).lost = false) :
    (checked check fails n (n.call net said effect)).2.users = n.users := by
  unfold Conn.call at err ⊢
  cases check with
  | some err => rfl
  | none =>
    cases outcome : net.outcome n.calls with
    | answered =>
      rw [outcome] at err
      cases said <;> exact absurd rfl err
    | failed took cause =>
      rw [outcome] at kept
      cases took
      · rfl
      · cases kept

end

variable (net c email n)

theorem enable_users :
    (enable net c n).2.users = n.users ∨ (enable net c n).2.users = put c n.users :=
  checked_users

theorem disable_users :
    (disable net email n).2.users = n.users ∨ (disable net email n).2.users = take email n.users :=
  checked_users

theorem enable_nil (nil : (enable net c n).1 = none) :
    (enable net c n).2.users = put c n.users :=
  congrArg Conn.users (checked_nil nil).2.2

theorem disable_nil (nil : (disable net email n).1 = none) :
    (disable net email n).2.users = take email n.users :=
  congrArg Conn.users (checked_nil nil).2.2

variable {net c email n}

theorem mem_replace (check : c.check = none) (took : (net.outcome n.calls).took = true)
    (mem : u ∈ (replace net c n).2.users) : u ∈ n.users ∧ u.email ≠ c.email ∨ u = c := by
  have email : checkEmail c.email = none := (Option.or_eq_none_iff.mp check).1
  have taken : (disable net c.email n).2.users = take c.email n.users := by
    unfold disable
    rw [email]
    exact checked_took took
  unfold replace at mem
  rw [check] at mem
  dsimp only at mem
  split at mem
  next called =>
    rw [called] at taken
    rw [show _ = take c.email n.users from taken] at mem
    exact .inl (mem_take.mp mem)
  next m called =>
    rw [called] at taken
    have users : m.users = take c.email n.users := taken
    rcases enable_users net c m with same | changed
    · rw [same, users] at mem
      exact .inl (mem_take.mp mem)
    · rw [changed, users] at mem
      exact (mem_put mem).imp_left mem_take.mp

theorem replace_nil (nil : (replace net c n).1 = none) :
    c.check = none ∧ (net.outcome n.calls).took = true := by
  unfold replace at nil
  split at nil
  · cases nil
  next check =>
    refine ⟨check, ?_⟩
    split at nil
    · cases nil
    next called =>
      rw [(checked_nil (by rw [← removeUser, ← disable, called])).2.1]
      rfl

theorem mem_replace_err (err : (replace net c n).1 ≠ none)
    (kept : net.outcome n.calls = .answered → (net.outcome (n.calls + 1)).lost = false)
    (mem : u ∈ (replace net c n).2.users) : u ∈ n.users := by
  unfold replace at err mem
  split at mem
  · exact mem
  next check =>
    rw [check] at err
    split at mem
    next m called =>
      have taken := disable_users net c.email n
      rw [called] at taken
      rcases taken with same | changed
      · rwa [show m.users = n.users from same] at mem
      · rw [show m.users = take c.email n.users from changed] at mem
        exact (mem_take.mp mem).1
    next m called =>
      rw [called] at err
      obtain ⟨-, answered, conn⟩ := checked_nil (by rw [← removeUser, ← disable, called])
      rw [← removeUser, ← disable, called] at conn
      cases conn
      rw [show (enable net c _).2.users = _ from checked_err err (kept answered)] at mem
      exact (mem_take.mp mem).1

end

/-! ## A pass -/

variable {want : List Client} {extra : List String}

section
variable (net : Net) {P : List Client → Prop} {c : Client} {n : Conn} {p : Pass}

abbrev Stable (P : List Client → Prop) (f : List Client → List Client) : Prop :=
  ∀ users, P users → P (f users)

theorem enable_inv (puts : Stable P (put c)) (h : P n.users) : P (enable net c n).2.users := by
  rcases enable_users net c n with same | changed
  · rwa [same]
  · rw [changed]
    exact puts _ h

theorem disable_inv {email : String} (takes : Stable P (take email))
    (h : P n.users) : P (disable net email n).2.users := by
  rcases disable_users net email n with same | changed
  · rwa [same]
  · rw [changed]
    exact takes _ h

section
variable (h : P p.conn.users)
include h

theorem Pass.add_inv (puts : Stable P (put c)) : P (p.add net c).conn.users := by
  have kept := enable_inv net puts h
  unfold add
  split <;> next called => rwa [called] at kept

theorem Pass.remove_inv {email : String} (takes : Stable P (take email)) :
    P (p.remove net email).conn.users := by
  have kept := disable_inv net takes h
  unfold remove
  split <;> next called => rwa [called] at kept

theorem Pass.swap_inv (puts : Stable P (put c)) (takes : Stable P (take c.email)) :
    P (p.swap net c).conn.users := by
  have taken := disable_inv net takes h
  unfold swap
  split
  next called => rwa [called] at taken
  next called =>
    rw [called] at taken
    have kept := enable_inv net puts taken
    split <;> next called => rwa [called] at kept

theorem Pass.visit_inv (listed : List Client) (puts : Stable P (put c))
    (takes : Stable P (take c.email)) : P (p.visit net listed c).conn.users := by
  unfold visit
  split
  · split
    · exact h
    · split
      · exact h
      · exact swap_inv net h puts takes
  · split
    · exact h
    · exact add_inv net h puts

theorem addMissing_inv {listed want : List Client} (puts : ∀ c ∈ want, Stable P (put c))
    (takes : ∀ email, Stable P (take email)) : P (addMissing net listed want p).conn.users := by
  induction want generalizing p with
  | nil => exact h
  | cons c want ih =>
    have visited := visit_inv net h listed (puts c mem_cons_self) (takes c.email)
    unfold addMissing
    split
    · exact visited
    · exact ih visited fun b mem => puts b (mem_cons_of_mem _ mem)

theorem removeExtra_inv (takes : ∀ email, Stable P (take email)) :
    P (removeExtra net extra p).conn.users := by
  induction extra generalizing p with
  | nil => exact h
  | cons email extra ih =>
    unfold removeExtra
    split
    · exact h
    · exact ih (remove_inv net h (takes email))

end

theorem listUsers_users (n : Conn) : (n.call net false id).2.users = n.users := by
  unfold Conn.call
  split
  · rfl
  · exact ite_self _

/-- **What every single change keeps, a pass keeps**, whatever fails on the way. -/
theorem reconcile_inv {ids : Bool} (puts : ∀ c ∈ want, Stable P (put c))
    (takes : ∀ email, Stable P (take email)) (h : P n.users) :
    P (reconcile net ids want n).conn.users := by
  have same := listUsers_users net n
  unfold reconcile
  split
  · exact h
  split
  next called =>
    rw [called] at same
    exact same ▸ h
  next m _ called =>
    rw [called] at same
    have listed : P m.users := same ▸ h
    unfold change
    dsimp only
    split
    · exact addMissing_inv net listed puts takes
    · exact removeExtra_inv net (addMissing_inv net listed puts takes) takes

end

/-! ## A pass without an error -/

def Holds (users : List Client) (email : String) : Prop := ∃ u ∈ users, u.email = email

theorem Holds.put {email : String} (h : Holds users email) (c : Client) :
    Holds (put c users) email := by
  obtain ⟨u, mem, same⟩ := h
  exact ⟨u, subset_put c users mem, same⟩

theorem Holds.take {email other : String} (h : Holds users email)
    (ne : email ≠ other) : Holds (take other users) email := by
  obtain ⟨u, mem, same⟩ := h
  exact ⟨u, mem_take.mpr ⟨mem, same ▸ ne⟩, same⟩

section
variable {net : Net} {p : Pass}

theorem Pass.stop_errs (p : Pass) : p.stop.errs ≠ [] := by
  unfold stop
  split
  next some =>
    intro none
    rw [none] at some
    cases some
  · simp

/-- From one pass to the next without an error: the context is no further, and no client is lost. -/
structure Pass.Kept (p q : Pass) : Prop where
  errs : p.errs = []
  stopped : q.stopped = p.stopped
  holds : ∀ email, Holds p.conn.users email → Holds q.conn.users email

variable {c : Client} {email : String} {listed : List Client}

theorem Pass.add_nil (nil : (p.add net c).errs = []) :
    p.Kept (p.add net c) ∧ Holds (p.add net c).conn.users c.email := by
  have changed := enable_nil net c p.conn
  unfold add at nil ⊢
  split
  next called =>
    rw [called] at nil
    simp [fail] at nil
  next m called =>
    rw [called] at nil changed
    have users : m.users = put c p.conn.users := changed rfl
    refine ⟨⟨nil, rfl, fun email h => ?_⟩, ?_⟩
    · rw [users]
      exact h.put c
    · rw [users]
      exact exists_put c _

theorem Pass.swap_nil (nil : (p.swap net c).errs = []) :
    p.Kept (p.swap net c) ∧ Holds (p.swap net c).conn.users c.email := by
  have taken := disable_nil net c.email p.conn
  unfold swap at nil ⊢
  split
  next called =>
    rw [called] at nil
    simp [fail] at nil
  next m called =>
    rw [called] at nil taken
    have changed := enable_nil net c m
    dsimp only at nil
    split
    next called =>
      rw [called] at nil
      simp [fail] at nil
    next k called =>
      rw [called] at nil changed
      have users : k.users = put c (take c.email p.conn.users) := by
        rw [← show m.users = take c.email p.conn.users from taken rfl]
        exact changed rfl
      have back : Holds k.users c.email := by
        rw [users]
        exact exists_put c _
      refine ⟨⟨nil, rfl, fun email h => ?_⟩, back⟩
      by_cases same : email = c.email
      · exact same ▸ back
      · rw [users]
        exact (h.take same).put c

theorem Pass.remove_nil (nil : (p.remove net email).errs = []) :
    p.errs = [] ∧ (p.remove net email).conn.users = take email p.conn.users := by
  have changed := disable_nil net email p.conn
  unfold remove at nil ⊢
  split
  next called =>
    rw [called] at nil
    simp [fail] at nil
  next called =>
    rw [called] at nil changed
    exact ⟨nil, changed rfl⟩

theorem Pass.visit_nil (nil : (p.visit net listed c).errs = []) :
    p.Kept (p.visit net listed c) ∧
      ((∀ u ∈ listed, Holds p.conn.users u.email) →
        Holds (p.visit net listed c).conn.users c.email) := by
  unfold visit at nil ⊢
  cases found : Keyed.find Client.email listed c.email with
  | some u =>
    rw [found] at nil
    dsimp only at nil ⊢
    split at nil
    next right =>
      rw [if_pos right]
      obtain ⟨mem, same⟩ := Keyed.of_find found
      exact ⟨⟨nil, rfl, fun _ h => h⟩, fun there => same ▸ there u mem⟩
    next wrong =>
      split at nil
      · exact absurd nil p.stop_errs
      next live =>
        rw [if_neg wrong, if_neg live]
        exact (swap_nil nil).imp_right fun back _ => back
  | none =>
    rw [found] at nil
    dsimp only at nil ⊢
    split at nil
    · exact absurd nil p.stop_errs
    next live =>
      rw [if_neg live]
      exact (add_nil nil).imp_right fun back _ => back

theorem addMissing_errs (nil : (addMissing net listed want p).errs = []) : p.errs = [] := by
  induction want generalizing p with
  | nil => exact nil
  | cons c want ih =>
    unfold addMissing at nil
    split at nil
    · exact (visit_nil nil).1.errs
    · exact (visit_nil (ih nil)).1.errs

theorem addMissing_nil (live : p.stopped = false)
    (there : ∀ u ∈ listed, Holds p.conn.users u.email)
    (nil : (addMissing net listed want p).errs = []) :
    (∀ email, Holds p.conn.users email →
        Holds (addMissing net listed want p).conn.users email) ∧
      ∀ c ∈ want, Holds (addMissing net listed want p).conn.users c.email := by
  induction want generalizing p with
  | nil => exact ⟨fun _ h => h, fun _ mem => by cases mem⟩
  | cons c want ih =>
    have visited : (p.visit net listed c).errs = [] := by
      unfold addMissing at nil
      split at nil
      · exact nil
      · exact addMissing_errs nil
    obtain ⟨kept, here⟩ := visit_nil visited
    have live := kept.stopped.trans live
    unfold addMissing at nil ⊢
    rw [if_neg (by rw [live]; exact Bool.false_ne_true)] at nil ⊢
    obtain ⟨keeps, others⟩ := ih live (fun u mem => kept.holds _ (there u mem)) nil
    exact ⟨fun email h => keeps email (kept.holds email h),
      forall_mem_cons.mpr ⟨keeps _ (here there), others⟩⟩

theorem removeExtra_errs (nil : (removeExtra net extra p).errs = []) :
    p.errs = [] := by
  induction extra generalizing p with
  | nil => exact nil
  | cons email extra ih =>
    unfold removeExtra at nil
    split at nil
    · exact absurd nil p.stop_errs
    · exact (remove_nil (ih nil)).1

theorem Holds.removeExtra (h : Holds p.conn.users email)
    (kept : email ∉ extra) : Holds (Entry.removeExtra net extra p).conn.users email := by
  induction extra generalizing p with
  | nil => exact h
  | cons other extra ih =>
    unfold Entry.removeExtra
    split
    · exact h
    refine ih ?_ fun mem => kept (mem_cons_of_mem _ mem)
    exact remove_inv net (P := fun users => Holds users email) h
      fun _ h => h.take fun same => kept (same ▸ mem_cons_self)

theorem not_wanted_of_mem (mem : email ∈ unwanted listed want) : email ∉ want.map (·.email) := by
  rw [unwanted, mem_insertionSort, mem_filter] at mem
  simpa using mem.2

/-- **A pass without an error leaves every wanted client on the node.** -/
theorem holds_of_reconcile {ids : Bool} {n : Conn}
    (nil : (reconcile net ids want n).errs = []) (wanted : c ∈ want) :
    Holds (reconcile net ids want n).conn.users c.email := by
  unfold reconcile at nil ⊢
  cases fine : wantErr [] want with
  | some err =>
    rw [fine] at nil
    cases nil
  | none =>
    rw [fine] at nil
    dsimp only at nil ⊢
    split at nil
    · cases nil
    next m _ called =>
      have there : ∀ u ∈ report ids m.users, Holds m.users u.email := by
        unfold report
        split
        · exact fun u mem => ⟨u, mem, rfl⟩
        · exact forall_mem_map.mpr fun v mem => ⟨v, mem, rfl⟩
      unfold change at nil ⊢
      dsimp only at nil ⊢
      split at nil
      next stopped =>
        rw [if_pos stopped]
        exact (addMissing_nil rfl there nil).2 c wanted
      next live =>
        rw [if_neg live]
        refine Holds.removeExtra ((addMissing_nil rfl there (removeExtra_errs nil)).2 c wanted) ?_
        intro extra
        exact not_wanted_of_mem (mem_filter.mp extra).1 (mem_map_of_mem wanted)

end

end NasnetPanel.RemoteNodes.Entry
