import NasnetPanel.RemoteNodes.Entry

/-!
# RemoteNodes.Report — a reconcile reports what it did

`Reconcile` returns a `Diff` next to its error. `reconcile_reports`: where no call fails after it
took effect, the users of the node after a pass are its first users with the diff applied, on every
way out of it; those of other emails stay; and without an error the node has a client for just the
wanted emails.

The wanted clients are taken in turn and then the extra ones, each email once. `Told` is what a
change for an email not seen before keeps.
-/

namespace NasnetPanel.RemoteNodes.Entry
open List

/-- The user is on the node after the diff: it was there and is not reported gone or replaced, or it
is the wanted client of an email reported added or replaced. -/
def Diff.Applied (d : Diff) (want first : List Client) (u : Client) : Prop :=
  (u ∈ first ∧ u.email ∉ d.removed ∧ u.email ∉ d.replaced) ∨
    (u ∈ want ∧ (u.email ∈ d.added ∨ u.email ∈ d.replaced))

def Diff.Reports (d : Diff) (email : String) : Prop :=
  email ∈ d.added ∨ email ∈ d.removed ∨ email ∈ d.replaced

structure Told (want first : List Client) (seen : List String) (p : Pass) : Prop where
  users : ∀ u, u ∈ p.conn.users ↔ p.diff.Applied want first u
  reported : ∀ email, p.diff.Reports email → email ∈ seen
  added : ∀ email ∈ p.diff.added, ¬ Holds first email
  removed : ∀ email ∈ p.diff.removed, Holds first email
  replaced : ∀ email ∈ p.diff.replaced, Holds first email

/-- No call fails after it took effect. -/
def Net.Quiet (net : Net) : Prop := ∀ i, (net.outcome i).lost = false

section
variable {net : Net} {want first : List Client} {seen : List String} {p : Pass}

/-! ## One email -/

theorem Told.same {q : Pass} (h : Told want first seen p) (email : String)
    (diff : q.diff = p.diff) (users : q.conn.users = p.conn.users) :
    Told want first (email :: seen) q where
  users u := by
    rw [users, diff]
    exact h.users u
  reported e reports := mem_cons_of_mem _ (h.reported e (diff ▸ reports))
  added := diff ▸ h.added
  removed := diff ▸ h.removed
  replaced := diff ▸ h.replaced

theorem enable_err (quiet : net.Quiet) (c : Client) (n : Conn) (err : (enable net c n).1 ≠ none) :
    (enable net c n).2.users = n.users :=
  checked_err err (quiet n.calls)

theorem disable_err (quiet : net.Quiet) (email : String) (n : Conn)
    (err : (disable net email n).1 ≠ none) : (disable net email n).2.users = n.users :=
  checked_err err (quiet n.calls)

variable {c u : Client} {email : String} {n : Conn} {listed : List Client}

theorem mem_put_new {users : List Client} (new : ¬ Holds users c.email) :
    u ∈ put c users ↔ u ∈ users ∨ u = c := by
  have away : ¬ users.any (·.email = c.email) = true := by simpa [Holds] using new
  rw [put, if_neg away, mem_append, mem_singleton]

/-- An email that was not seen is on the node if it was there first. -/
theorem Told.holds (h : Told want first seen p) (fresh : email ∉ seen) :
    Holds p.conn.users email ↔ Holds first email := by
  constructor
  · rintro ⟨u, mem, rfl⟩
    rcases (h.users u).mp mem with ⟨there, -⟩ | ⟨-, added | replaced⟩
    · exact ⟨u, there, rfl⟩
    · exact absurd (h.reported _ (.inl added)) fresh
    · exact absurd (h.reported _ (.inr (.inr replaced))) fresh
  · rintro ⟨u, mem, rfl⟩
    refine ⟨u, (h.users u).mpr (.inl ⟨mem, ?_, ?_⟩), rfl⟩
    · exact fun gone => fresh (h.reported _ (.inr (.inl gone)))
    · exact fun swapped => fresh (h.reported _ (.inr (.inr swapped)))

def Distinct (want : List Client) : Prop := (want.map (·.email)).Nodup

theorem Distinct.eq (distinct : Distinct want) (wantedC : c ∈ want)
    (wantedU : u ∈ want) (same : u.email = c.email) : u = c :=
  inj_on_of_nodup_map distinct wantedU wantedC same

section
variable (h : Told want first seen p)
include h

theorem Told.add (quiet : net.Quiet)
    (distinct : Distinct want) (wanted : c ∈ want) (fresh : c.email ∉ seen)
    (new : ¬ Holds first c.email) : Told want first (c.email :: seen) (p.add net c) := by
  unfold Pass.add
  cases called : enable net c p.conn with
  | mk err n =>
    cases err with
    | some err =>
      have same := enable_err quiet c p.conn (by rw [called]; simp)
      rw [called] at same
      exact h.same c.email rfl same
    | none =>
      have put := enable_nil net c p.conn (by rw [called])
      rw [called] at put
      have absent : ¬ Holds p.conn.users c.email := fun there => new ((h.holds fresh).mp there)
      refine ⟨fun u => ?_, ?_, ?_, h.removed, h.replaced⟩
      · rw [show n.users = Entry.put c p.conn.users from put, mem_put_new absent, h.users u]
        constructor
        · rintro ((old | ⟨mem, changed⟩) | rfl)
          · exact .inl old
          · exact .inr ⟨mem, changed.imp_left (mem_append_left _)⟩
          · exact .inr ⟨wanted, .inl (by simp)⟩
        · rintro (old | ⟨mem, added | replaced⟩)
          · exact .inl (.inl old)
          · rcases mem_append.mp added with added | here
            · exact .inl (.inr ⟨mem, .inl added⟩)
            · exact .inr (distinct.eq wanted mem (by simpa using here))
          · exact .inl (.inr ⟨mem, .inr replaced⟩)
      · rintro email (added | rest)
        · rcases mem_append.mp added with added | here
          · exact mem_cons_of_mem _ (h.reported email (.inl added))
          · simp_all
        · exact mem_cons_of_mem _ (h.reported email (.inr rest))
      · exact forall_mem_append.mpr ⟨h.added, forall_mem_singleton.mpr new⟩

theorem Told.gone (fresh : email ∉ seen) (old : Holds first email)
    (taken : n.users = take email p.conn.users) (errs : List Err) :
    Told want first (email :: seen) { p with
        diff := { p.diff with removed := p.diff.removed ++ [email] }, errs := errs,
        conn := n } := by
  refine ⟨fun u => ?_, ?_, h.added, ?_, h.replaced⟩
  · rw [taken, mem_take, h.users u]
    constructor
    · rintro ⟨⟨mem, kept, unswapped⟩ | changed, other⟩
      · refine .inl ⟨mem, ?_, unswapped⟩
        simpa using ⟨kept, other⟩
      · exact .inr changed
    · rintro (⟨mem, kept, unswapped⟩ | ⟨mem, changed⟩)
      · have : u.email ∉ p.diff.removed ∧ u.email ≠ email := by simpa using kept
        exact ⟨.inl ⟨mem, this.1, unswapped⟩, this.2⟩
      · refine ⟨.inr ⟨mem, changed⟩, ?_⟩
        rintro rfl
        exact fresh (h.reported _ (changed.imp_right .inr))
  · rintro e (added | removed | replaced)
    · exact mem_cons_of_mem _ (h.reported e (.inl added))
    · rcases mem_append.mp removed with removed | here
      · exact mem_cons_of_mem _ (h.reported e (.inr (.inl removed)))
      · simp_all
    · exact mem_cons_of_mem _ (h.reported e (.inr (.inr replaced)))
  · exact forall_mem_append.mpr ⟨h.removed, forall_mem_singleton.mpr old⟩

theorem Told.remove (quiet : net.Quiet) (fresh : email ∉ seen) (old : Holds first email) :
    Told want first (email :: seen) (p.remove net email) := by
  unfold Pass.remove
  cases called : disable net email p.conn with
  | mk err n =>
    cases err with
    | some err =>
      have same := disable_err quiet email p.conn (by rw [called]; simp)
      rw [called] at same
      exact h.same email rfl same
    | none =>
      have taken := disable_nil net email p.conn (by rw [called])
      rw [called] at taken
      exact h.gone fresh old taken p.errs

theorem Told.swap (quiet : net.Quiet)
    (distinct : Distinct want) (wanted : c ∈ want) (fresh : c.email ∉ seen)
    (old : Holds first c.email) : Told want first (c.email :: seen) (p.swap net c) := by
  unfold Pass.swap
  cases called : disable net c.email p.conn with
  | mk err n =>
    cases err with
    | some err =>
      have same := disable_err quiet c.email p.conn (by rw [called]; simp)
      rw [called] at same
      exact h.same c.email rfl same
    | none =>
      have taken := disable_nil net c.email p.conn (by rw [called])
      rw [called] at taken
      dsimp only at taken ⊢
      cases added : enable net c n with
      | mk err k =>
        cases err with
        | some err =>
          have same := enable_err quiet c n (by rw [added]; simp)
          rw [added] at same
          exact h.gone fresh old (same.trans taken) _
        | none =>
          have put := enable_nil net c n (by rw [added])
          rw [added, taken] at put
          have absent : ¬ Holds (take c.email p.conn.users) c.email := by
            rintro ⟨u, mem, same⟩
            exact (mem_take.mp mem).2 same
          refine ⟨fun u => ?_, ?_, h.added, h.removed, ?_⟩
          · rw [show k.users = _ from put, mem_put_new absent, mem_take, h.users u]
            constructor
            · rintro (⟨⟨mem, kept, unswapped⟩ | ⟨mem, changed⟩, other⟩ | rfl)
              · exact .inl ⟨mem, kept, by simpa using ⟨unswapped, other⟩⟩
              · exact .inr ⟨mem, changed.imp_right (mem_append_left _)⟩
              · exact .inr ⟨wanted, .inr (by simp)⟩
            · rintro (⟨mem, kept, unswapped⟩ | ⟨mem, added | replaced⟩)
              · have : u.email ∉ p.diff.replaced ∧ u.email ≠ c.email := by simpa using unswapped
                exact .inl ⟨.inl ⟨mem, kept, this.1⟩, this.2⟩
              · refine .inl ⟨.inr ⟨mem, .inl added⟩, fun same => fresh ?_⟩
                exact same ▸ h.reported _ (.inl added)
              · rcases mem_append.mp replaced with replaced | here
                · refine .inl ⟨.inr ⟨mem, .inr replaced⟩, fun same => fresh ?_⟩
                  exact same ▸ h.reported _ (.inr (.inr replaced))
                · exact .inr (distinct.eq wanted mem (by simpa using here))
          · rintro e (added | removed | replaced)
            · exact mem_cons_of_mem _ (h.reported e (.inl added))
            · exact mem_cons_of_mem _ (h.reported e (.inr (.inl removed)))
            · rcases mem_append.mp replaced with replaced | here
              · exact mem_cons_of_mem _ (h.reported e (.inr (.inr replaced)))
              · simp_all
          · exact forall_mem_append.mpr ⟨h.replaced, forall_mem_singleton.mpr old⟩

theorem Told.mono {more : List String} (within : seen ⊆ more) : Told want first more p :=
  { h with reported := fun email reports => within (h.reported email reports) }

/-! ## A pass -/

theorem Told.visit (quiet : net.Quiet) (distinct : Distinct want)
    (truthful : listed.map (·.email) = first.map (·.email)) (wanted : c ∈ want)
    (fresh : c.email ∉ seen) : Told want first (c.email :: seen) (p.visit net listed c) := by
  have holds_iff : Holds first c.email ↔ c.email ∈ listed.map (·.email) := by
    rw [truthful, mem_map]
    rfl
  unfold Pass.visit
  cases found : Keyed.find Client.email listed c.email with
  | some u =>
    have old : Holds first c.email := by
      obtain ⟨mem, same⟩ := Keyed.of_find found
      exact holds_iff.mpr (mem_map.mpr ⟨u, mem, same⟩)
    dsimp only
    split
    · exact h.same c.email rfl rfl
    split
    · exact h.same c.email rfl rfl
    · exact h.swap quiet distinct wanted fresh old
  | none =>
    have new : ¬ Holds first c.email := by
      rw [holds_iff, mem_map]
      rintro ⟨u, mem, same⟩
      exact Keyed.find_eq_none_iff.mp found u mem same
    dsimp only
    split
    · exact h.same c.email rfl rfl
    · exact h.add quiet distinct wanted fresh new

end

variable {rest : List Client} {extra : List String} {ids : Bool}

theorem Told.addMissing (h : Told want first seen p) (quiet : net.Quiet) (distinct : Distinct want)
    (truthful : listed.map (·.email) = first.map (·.email)) (wanted : ∀ c ∈ rest, c ∈ want)
    (once : Distinct rest) (fresh : ∀ c ∈ rest, c.email ∉ seen) :
    Told want first (rest.map (·.email) ++ seen) (addMissing net listed rest p) := by
  induction rest generalizing p seen with
  | nil => exact h
  | cons c rest ih =>
    have visited := h.visit quiet distinct truthful (wanted c (by simp)) (fresh c (by simp))
    unfold Entry.addMissing
    split
    · exact visited.mono (cons_subset_cons _ (subset_append_right _ _))
    obtain ⟨other, onceRest⟩ := nodup_cons.mp once
    refine (ih visited (fun d mem => wanted d (by simp [mem])) onceRest ?_).mono perm_middle.subset
    intro d mem again
    rcases mem_cons.mp again with same | again
    · exact other (mem_map.mpr ⟨d, mem, same⟩)
    · exact fresh d (by simp [mem]) again

theorem Told.removeExtra (h : Told want first seen p) (quiet : net.Quiet)
    (once : extra.Nodup) (old : ∀ email ∈ extra, Holds first email)
    (fresh : ∀ email ∈ extra, email ∉ seen) :
    Told want first (extra ++ seen) (removeExtra net extra p) := by
  induction extra generalizing p seen with
  | nil => exact h
  | cons e extra ih =>
    unfold Entry.removeExtra
    split
    · have stopped : Told want first (e :: seen) p.stop := h.same e rfl rfl
      exact stopped.mono (cons_subset_cons _ (subset_append_right _ _))
    obtain ⟨other, onceRest⟩ := nodup_cons.mp once
    refine (ih (h.remove quiet (fresh e (by simp)) (old e (by simp))) onceRest
      (fun d mem => old d (by simp [mem])) ?_).mono perm_middle.subset
    intro d mem again
    rcases mem_cons.mp again with same | again
    · exact other (same ▸ mem)
    · exact fresh d (by simp [mem]) again

theorem removeExtra_nil (nil : (removeExtra net extra p).errs = []) :
    ∀ u ∈ (removeExtra net extra p).conn.users, u ∈ p.conn.users ∧ u.email ∉ extra := by
  induction extra generalizing p with
  | nil => exact fun u mem => ⟨mem, by simp⟩
  | cons e extra ih =>
    intro u mem
    unfold removeExtra at nil mem
    split at nil
    · exact absurd nil p.stop_errs
    rename_i live
    rw [if_neg live] at mem
    obtain ⟨there, others⟩ := ih nil u mem
    rw [(Pass.remove_nil (removeExtra_errs nil)).2] at there
    obtain ⟨first, other⟩ := mem_take.mp there
    exact ⟨first, by simp [others, other]⟩

/-! ## What is wanted and what is extra -/

theorem wantErr_none {before : List String} (fine : wantErr before want = none) :
    Distinct want ∧ (∀ c ∈ want, c.email ∉ before) ∧
      ∀ c ∈ want, (parseSubscriptionEmail c.email).isSome = true := by
  induction want generalizing before with
  | nil => exact ⟨nodup_nil, by simp, by simp⟩
  | cons c want ih =>
    obtain ⟨check, rest⟩ := Option.or_eq_none_iff.mp fine
    split at rest
    · cases rest
    rename_i unseen
    obtain ⟨distinct, new, emails⟩ := ih rest
    have own : (parseSubscriptionEmail c.email).isSome = true := by
      have email := (Option.or_eq_none_iff.mp check).1
      unfold checkEmail at email
      split at email
      · assumption
      · cases email
    refine ⟨?_, ?_, ?_⟩
    · refine nodup_cons.mpr ⟨?_, distinct⟩
      intro again
      obtain ⟨d, mem, same⟩ := mem_map.mp again
      exact new d mem (by simp [same])
    · exact forall_mem_cons.mpr ⟨unseen, fun d mem seen => new d mem (by simp [seen])⟩
    · exact forall_mem_cons.mpr ⟨own, emails⟩

theorem mem_unwanted :
    email ∈ unwanted listed want ↔
      email ∈ listed.map (·.email) ∧ email ∉ want.map (·.email) := by
  rw [unwanted, mem_insertionSort, mem_filter, mem_dedup]
  simp

theorem nodup_unwanted (listed want : List Client) : (unwanted listed want).Nodup :=
  (perm_insertionSort _ _).nodup_iff.mpr ((nodup_dedup _).filter _)

theorem report_emails (ids : Bool) (users : List Client) :
    (report ids users).map (·.email) = users.map (·.email) := by
  unfold report
  split
  · rfl
  · simp

theorem told_change (quiet : net.Quiet) (fine : wantErr [] want = none) :
    ∃ seen, Told want n.users seen (change net (report ids n.users) want n) ∧
      ∀ email ∈ seen, (parseSubscriptionEmail email).isSome = true := by
  obtain ⟨distinct, -, emails⟩ := wantErr_none fine
  have truthful := report_emails ids n.users
  have own : ∀ email ∈ want.map (·.email), (parseSubscriptionEmail email).isSome = true :=
    forall_mem_map.mpr emails
  have start (foreign : List String) :
      Told want n.users [] { diff := { foreign := foreign }, conn := n } :=
    ⟨by simp [Diff.Applied], by simp [Diff.Reports], by simp, by simp, by simp⟩
  have told (foreign : List String) := (start foreign).addMissing quiet distinct truthful
    (fun _ mem => mem) distinct (by simp)
  unfold change
  dsimp only
  split
  · exact ⟨_, told _, by simpa using own⟩
  refine ⟨_, (told _).removeExtra quiet ((nodup_unwanted (report ids n.users) want).filter _)
    (fun email mem => ?_) (fun email mem again => ?_), fun email mem => ?_⟩
  · have listed := (mem_unwanted.mp (mem_filter.mp mem).1).1
    rwa [truthful, mem_map] at listed
  · rw [append_nil] at again
    exact (mem_unwanted.mp (mem_filter.mp mem).1).2 again
  rcases mem_append.mp mem with extra | wanted
  · exact (mem_filter.mp extra).2
  · exact own email (by simpa using wanted)

theorem addMissing_live (nil : (addMissing net listed rest p).errs = []) :
    (addMissing net listed rest p).stopped = p.stopped := by
  induction rest generalizing p with
  | nil => rfl
  | cons c rest ih =>
    unfold addMissing at nil ⊢
    split
    next stopped =>
      rw [if_pos stopped] at nil
      exact (Pass.visit_nil nil).1.stopped
    next live =>
      rw [if_neg live] at nil
      exact (ih nil).trans (Pass.visit_nil (addMissing_errs nil)).1.stopped

theorem change_nil (quiet : net.Quiet) (fine : wantErr [] want = none)
    (nil : (change net (report ids n.users) want n).errs = [])
    (mem : u ∈ (change net (report ids n.users) want n).conn.users)
    (ours : (parseSubscriptionEmail u.email).isSome = true) : u.email ∈ want.map (·.email) := by
  by_contra away
  obtain ⟨seen, told, -⟩ := told_change quiet fine
  have old : u ∈ n.users := by
    rcases (told.users u).mp mem with ⟨there, -⟩ | ⟨wanted, -⟩
    · exact there
    · exact absurd (mem_map_of_mem wanted) away
  have extra : u.email ∈ (unwanted (report ids n.users) want).filter
      fun email => (parseSubscriptionEmail email).isSome := by
    refine mem_filter.mpr ⟨mem_unwanted.mpr ⟨?_, away⟩, ours⟩
    rw [report_emails]
    exact mem_map_of_mem old
  unfold change at nil mem
  dsimp only at nil mem
  split at nil
  next stopped => exact absurd ((addMissing_live nil).symm.trans stopped) (by simp)
  next live =>
    rw [if_neg live] at mem
    exact (removeExtra_nil nil u mem).2 extra

theorem reconcile_cases (net : Net) (ids : Bool) (want : List Client) (n : Conn) :
    ((reconcile net ids want n).errs ≠ [] ∧ (reconcile net ids want n).diff = {} ∧
      (reconcile net ids want n).conn.users = n.users) ∨
    (wantErr [] want = none ∧ ∃ m, m.users = n.users ∧
      reconcile net ids want n = change net (report ids m.users) want m) := by
  have same := listUsers_users net n
  unfold reconcile
  split
  · exact .inl ⟨by simp, rfl, rfl⟩
  next fine =>
    split
    next called =>
      rw [called] at same
      exact .inl ⟨by simp, rfl, same⟩
    next m _ called =>
      rw [called] at same
      exact .inr ⟨fine, m, same, rfl⟩

/-- **A reconcile reports what it did.** Users of other emails stay; without an error the node has a
client for just the wanted emails; and on every way out the users are the first ones with the diff
applied, which adds what was not there and takes away or replaces what was. -/
theorem reconcile_reports (quiet : net.Quiet) (ids : Bool) (want : List Client) (n : Conn) :
    (∀ u, parseSubscriptionEmail u.email = none →
      (u ∈ (reconcile net ids want n).conn.users ↔ u ∈ n.users)) ∧
    ((reconcile net ids want n).errs = [] →
      ∀ email, (parseSubscriptionEmail email).isSome = true →
        (Holds (reconcile net ids want n).conn.users email ↔ email ∈ want.map (·.email))) ∧
    (∀ u, u ∈ (reconcile net ids want n).conn.users ↔
      (reconcile net ids want n).diff.Applied want n.users u) ∧
    (∀ email ∈ (reconcile net ids want n).diff.added, ¬ Holds n.users email) ∧
    (∀ email ∈ (reconcile net ids want n).diff.removed, Holds n.users email) ∧
    ∀ email ∈ (reconcile net ids want n).diff.replaced, Holds n.users email := by
  have told : ∃ seen, Told want n.users seen (reconcile net ids want n) ∧
      ∀ email ∈ seen, (parseSubscriptionEmail email).isSome = true := by
    rcases reconcile_cases net ids want n with ⟨-, diff, users⟩ | ⟨fine, m, users, changed⟩
    · refine ⟨[], ⟨fun u => ?_, ?_, ?_, ?_, ?_⟩, by simp⟩
      · rw [users, diff]
        simp [Diff.Applied]
      all_goals simp [diff, Diff.Reports]
    · rw [changed, ← users]
      exact told_change quiet fine
  obtain ⟨seen, told, ours⟩ := told
  have foreign : ∀ u : Client, parseSubscriptionEmail u.email = none →
      ¬ (reconcile net ids want n).diff.Reports u.email := by
    intro u other reported
    have email := ours _ (told.reported _ reported)
    simp [other] at email
  refine ⟨fun u other => ?_, fun nil email mine => ⟨?_, ?_⟩, told.users, told.added, told.removed,
    told.replaced⟩
  · have silent := foreign u other
    rw [told.users u]
    unfold Diff.Reports at silent
    unfold Diff.Applied
    tauto
  · rintro ⟨u, mem, rfl⟩
    rcases reconcile_cases net ids want n with ⟨failed, -⟩ | ⟨fine, m, users, changed⟩
    · exact absurd nil failed
    · rw [changed] at nil mem
      exact change_nil quiet fine nil mem mine
  · intro wanted
    obtain ⟨c, mem, rfl⟩ := mem_map.mp wanted
    exact holds_of_reconcile nil mem

end

/-! ## A pass with failures -/

def idA : String := "00000000-0000-0000-0000-00000000000a"

def idB : String := "00000000-0000-0000-0000-00000000000b"

/-- The second add fails, and everything after it is cut off. -/
def cutOff : Net where
  outcome i := if i = 4 then .failed false .context else .answered
  cancelled i := 5 ≤ i

def served : Conn where
  users := [⟨subscriptionEmail 1, idA⟩, ⟨"rvs-t1@reverse", idA⟩, ⟨subscriptionEmail 9, idB⟩]

/-- The first client is replaced, the second added, the third fails, and the extra one stays. -/
theorem reconcile_reports_cutOff :
    (reconcile cutOff true [⟨subscriptionEmail 1, idB⟩, ⟨subscriptionEmail 2, idA⟩,
      ⟨subscriptionEmail 3, idA⟩] served).diff =
      { added := [subscriptionEmail 2], replaced := [subscriptionEmail 1],
        foreign := ["rvs-t1@reverse"] } ∧
    ∀ u, u ∈ (reconcile cutOff true [⟨subscriptionEmail 1, idB⟩, ⟨subscriptionEmail 2, idA⟩,
      ⟨subscriptionEmail 3, idA⟩] served).conn.users ↔
      (reconcile cutOff true [⟨subscriptionEmail 1, idB⟩, ⟨subscriptionEmail 2, idA⟩,
        ⟨subscriptionEmail 3, idA⟩] served).diff.Applied
        [⟨subscriptionEmail 1, idB⟩, ⟨subscriptionEmail 2, idA⟩, ⟨subscriptionEmail 3, idA⟩]
        served.users u := by
  have quiet : cutOff.Quiet := by
    intro i
    dsimp only [cutOff]
    split <;> rfl
  exact ⟨by decide, (reconcile_reports quiet true _ served).2.2.1⟩

end NasnetPanel.RemoteNodes.Entry
