import NasnetPanel.Xray.HotApply

/-!
# Xray.HotUsers — the users of the inbounds, hot applied

A client of the next config is sent if no user of the inbound is read as it is (`sent`). The users
with the emails of those are removed and the clients are added, as they are read. So the inbound
ends with the users of the next config, and on the way every user is there with the credentials it
had or is one whose level changes, just where what is kept is the same as it is written, what is
sent is not changed by being read, and no more than the level differs where the email is the same
(`Written`, `Plans.written_iff`). `applyUsers_spec` carries that through all the inbounds: a call
finds its inbound by the tag, and without one it does nothing (`tagged_of_applyUsers`).
-/

namespace NasnetPanel.Xray.HotApply
open List State Keyed
open Json (Fields field object list text set without unionKeys Exact mapFields)

variable {N : Type}

/-! ## The users of one inbound -/

structure Emailed (norm : String → String) (users : List (Fields N)) : Prop where
  named : ∀ u ∈ users, emailOf u ≠ ""
  apart : (users.map fun u => norm (emailOf u)).Nodup

section Users

variable {seen : N → N} {norm : String → String} {old new users : List (Fields N)} {u c : Fields N}

theorem Emailed.eq (h : Emailed norm old) {v : Fields N} (mem : u ∈ old) (mem' : v ∈ old)
    (same : norm (emailOf u) = norm (emailOf v)) : u = v :=
  inj_on_of_nodup_map h.apart mem mem' same

@[simp] theorem emailOf_mapFields (seen : N → N) (u : Fields N) :
    emailOf (mapFields seen u) = emailOf u := by
  rw [emailOf, Json.field_mapFields, Json.text_map]
  rfl

@[simp] theorem tagOf_mapFields (seen : N → N) (m : Fields N) :
    tagOf (mapFields seen m) = tagOf m := by
  rw [tagOf, Json.field_mapFields, Json.text_map]
  rfl

theorem emailOf_eq (alike : mapFields seen u = mapFields seen c) : emailOf u = emailOf c := by
  rw [← emailOf_mapFields seen u, alike, emailOf_mapFields]

def dropAll (norm : String → String) (emails : List String) (users : List (Fields N)) :
    List (Fields N) :=
  users.filter fun u => !emails.any fun email => State.isUser norm email u

theorem isUser_iff {email : String} :
    State.isUser norm email u = true ↔ emailOf u ≠ "" ∧ norm (emailOf u) = norm email := by
  simp [isUser]

variable {emails : List String}

theorem mem_dropAll :
    u ∈ dropAll norm emails users ↔
      u ∈ users ∧ ∀ email ∈ emails, State.isUser norm email u = false := by
  simp [dropAll]

/-- On the way every user is there as it was, or is one whose level changes. -/
structure KeptIn (norm : String → String) (old new now : List (Fields N)) : Prop where
  there : ∀ u ∈ old, u ∈ now ∨
    ∃ c ∈ new, emailOf c = emailOf u ∧ c ≠ u ∧ without c "level" = without u "level"
  credentials : ∀ u ∈ old, emailOf u ≠ "" → ∀ c ∈ now, emailOf c ≠ "" →
    norm (emailOf c) = norm (emailOf u) → without c "level" = without u "level"

theorem KeptIn.refl (apart : ((old.filter fun u => emailOf u ≠ "").map
    fun u => norm (emailOf u)).Nodup) : KeptIn norm old new old where
  there u mem := .inl mem
  credentials u mem named c mem' named' same := by
    have mem : u ∈ old.filter fun u => emailOf u ≠ "" :=
      mem_filter.mpr ⟨mem, decide_eq_true named⟩
    have mem' : c ∈ old.filter fun u => emailOf u ≠ "" :=
      mem_filter.mpr ⟨mem', decide_eq_true named'⟩
    rw [inj_on_of_nodup_map apart mem' mem same]

section Sent

variable [DecidableEq N]

theorem same_obj_iff {a b : Fields N} :
    same seen (.obj a) (.obj b) = true ↔ mapFields seen a = mapFields seen b := by
  simp only [same, Json.deepEqual_iff, Json.map, Json.obj.injEq]

/-- One of the users is read as the client is. -/
def isThere (seen : N → N) (users : List (Fields N)) (c : Fields N) : Bool :=
  users.any fun u => same seen (.obj u) (.obj c)

theorem isThere_iff :
    isThere seen users c = true ↔ ∃ u ∈ users, mapFields seen u = mapFields seen c := by
  simp only [isThere, any_eq_true, same_obj_iff]

theorem isThere_of_mem (mem : c ∈ users) : isThere seen users c = true :=
  isThere_iff.mpr ⟨c, mem, rfl⟩

/-- The clients that are added. -/
def sent (seen : N → N) (old new : List (Fields N)) : List (Fields N) :=
  new.filter fun c => !isThere seen old c

theorem mem_sent : c ∈ sent seen old new ↔ c ∈ new ∧ isThere seen old c = false := by
  simp [sent]

/-- The users in the end: those that stay, and the clients as they were read. -/
def swapped (seen : N → N) (old new : List (Fields N)) : List (Fields N) :=
  old.filter (isThere seen new) ++ (sent seen old new).map (mapFields seen)

/-- What is kept is the same as written, reading does nothing to what is sent, and a user that is
sent again has another level at most. -/
structure Written (seen : N → N) (old new : List (Fields N)) : Prop where
  kept : (old.filter (isThere seen new)).Perm (new.filter (isThere seen old))
  exact : ∀ c ∈ new, isThere seen old c = false → Exact seen (.obj c)
  level : ∀ c ∈ new, isThere seen old c = false → ∀ u ∈ old, emailOf u ≠ "" →
    emailOf u = emailOf c → without u "level" = without c "level"

/-- The users end as the new ones where those kept are the same and those sent are sent exactly. -/
theorem swapped_perm_iff (emailed : sent seen old new = [] ∨ Emailed norm new) :
    (swapped seen old new).Perm new ↔
      (old.filter (isThere seen new)).Perm (new.filter (isThere seen old)) ∧
        ∀ c ∈ new, isThere seen old c = false → Exact seen (.obj c) := by
  have parts : (new.filter (isThere seen old) ++ sent seen old new).Perm new :=
    filter_append_perm _ new
  have whole (exact : ∀ c ∈ new, isThere seen old c = false → Exact seen (.obj c)) :
      (sent seen old new).map (mapFields seen) = sent seen old new := by
    refine (map_congr_left fun c mem => ?_).trans (map_id _)
    obtain ⟨there, new⟩ := mem_sent.mp mem
    exact Json.obj.inj (exact c there new)
  constructor
  · intro perm
    have exact : ∀ c ∈ new, isThere seen old c = false → Exact seen (.obj c) := by
      intro c mem fresh
      have added : c ∈ sent seen old new := mem_sent.mpr ⟨mem, fresh⟩
      rcases emailed with none | emailed
      · rw [none] at added
        cases added
      have there : mapFields seen c ∈ new :=
        perm.mem_iff.mp (mem_append_right _ (mem_map_of_mem added))
      exact congrArg Json.obj (emailed.eq there mem (by rw [emailOf_mapFields]))
    refine ⟨?_, exact⟩
    rw [swapped, whole exact] at perm
    exact (perm_append_right_iff _).mp (perm.trans parts.symm)
  · rintro ⟨kept, exact⟩
    rw [swapped, whole exact]
    exact (kept.append_right _).trans parts

/-- What the plan knows of the users of an inbound. -/
structure Planned (norm : String → String) (old new : List (Fields N)) : Prop where
  before : Emailed norm old
  after : Emailed norm new
  stays : ∀ u ∈ old, ∃ c ∈ new, emailOf c = emailOf u

namespace Planned

variable (h : Planned norm old new)
include h

omit [DecidableEq N] in
theorem emailOf_eq_of_norm (there : c ∈ new) (mem : u ∈ old)
    (same : norm (emailOf c) = norm (emailOf u)) : emailOf c = emailOf u := by
  obtain ⟨c', there', email⟩ := h.stays u mem
  obtain rfl := h.after.eq there there' (by rw [same, email])
  exact email

theorem emailed_sent : Emailed norm (sent seen old new) :=
  ⟨fun c mem => h.after.named c (mem_sent.mp mem).1,
    h.after.apart.sublist (filter_sublist.map _)⟩

/-- Only the users who stay are left after the removals. -/
theorem dropAll_sent : dropAll norm ((sent seen old new).map emailOf) old =
    old.filter (isThere seen new) := by
  refine filter_congr fun u mem => ?_
  rw [Bool.eq_iff_iff, Bool.not_eq_true', any_eq_false, isThere_iff]
  constructor
  · intro stays
    obtain ⟨c, there, email⟩ := h.stays u mem
    cases new : isThere seen old c with
    | false =>
      refine absurd (isUser_iff.mpr ⟨h.before.named u mem, ?_⟩)
        (stays (emailOf c) (mem_map_of_mem (mem_sent.mpr ⟨there, new⟩)))
      rw [email]
    | true =>
      obtain ⟨v, was, alike⟩ := isThere_iff.mp new
      obtain rfl := h.before.eq was mem (by rw [emailOf_eq alike, email])
      exact ⟨c, there, alike.symm⟩
  · rintro ⟨c, there, alike⟩ _ gone is
    obtain ⟨d, added, rfl⟩ := mem_map.mp gone
    obtain ⟨next, fresh⟩ := mem_sent.mp added
    obtain rfl := h.after.eq there next (by rw [emailOf_eq alike, (isUser_iff.mp is).2])
    exact Bool.false_ne_true (fresh.symm.trans (isThere_iff.mpr ⟨u, mem, alike.symm⟩))

/-- On the way some of the users are gone and some of the clients there. -/
theorem keptIn (written : Written seen old new) {gone : List String} {added : List (Fields N)}
    (removed : ∀ email ∈ gone, email ∈ (sent seen old new).map emailOf)
    (adds : ∀ c ∈ added, c ∈ (sent seen old new).map (mapFields seen)) :
    KeptIn norm old new (dropAll norm gone old ++ added) where
  there u mem := by
    by_cases hit : ∃ email ∈ gone, isUser norm email u = true
    · obtain ⟨email, gone, is⟩ := hit
      obtain ⟨c, planned, rfl⟩ := mem_map.mp (removed email gone)
      obtain ⟨there, fresh⟩ := mem_sent.mp planned
      have email := h.emailOf_eq_of_norm there mem (isUser_iff.mp is).2.symm
      refine .inr ⟨c, there, email, ?_, (written.level c there fresh u mem
        (h.before.named u mem) email.symm).symm⟩
      rintro rfl
      exact Bool.false_ne_true (fresh.symm.trans (isThere_of_mem mem))
    · refine .inl (mem_append_left _ (mem_dropAll.mpr ⟨mem, fun email gone => ?_⟩))
      exact Bool.eq_false_iff.mpr fun is => hit ⟨email, gone, is⟩
  credentials u mem named c there _ same := by
    rcases mem_append.mp there with there | there
    · rw [h.before.eq (mem_dropAll.mp there).1 mem same]
    · obtain ⟨d, planned, rfl⟩ := mem_map.mp (adds c there)
      obtain ⟨next, fresh⟩ := mem_sent.mp planned
      rw [emailOf_mapFields] at same
      rw [Json.obj.inj (written.exact d next fresh)]
      exact (written.level d next fresh u mem named
        (h.emailOf_eq_of_norm next mem same).symm).symm

end Planned

theorem level_of_keptIn (kept : KeptIn norm old new (swapped seen old new))
    (exact : ∀ c ∈ new, isThere seen old c = false → Exact seen (.obj c)) :
    ∀ c ∈ new, isThere seen old c = false → ∀ u ∈ old, emailOf u ≠ "" →
      emailOf u = emailOf c → without u "level" = without c "level" := by
  intro c there fresh u mem named email
  have added : mapFields seen c ∈ swapped seen old new :=
    mem_append_right _ (mem_map_of_mem (mem_sent.mpr ⟨there, fresh⟩))
  rw [Json.obj.inj (exact c there fresh)] at added
  exact (kept.credentials u mem named c added (email ▸ named) (by rw [email])).symm

end Sent

end Users

/-! ## What is planned for an inbound -/

theorem of_map_eq_ok {E A C : Type} {r : Except E A} {f : A → C} {c : C}
    (h : r.map f = .ok c) : ∃ a, r = .ok a ∧ f a = c := by
  cases r with
  | error e => cases h
  | ok a => exact ⟨a, rfl, Except.ok.inj h⟩

theorem of_bind_eq_ok {E A C : Type} {r : Except E A} {f : A → Except E C} {c : C}
    (h : r.bind f = .ok c) : ∃ a, r = .ok a ∧ f a = .ok c := by
  cases r with
  | error e => cases h
  | ok a => exact ⟨a, rfl, h⟩

section Plan

variable [DecidableEq N] {seen : N → N} {norm : String → String}

omit [DecidableEq N] in
theorem lookup_map {A : Type} (key : A → String) (l : List A) (k : String) :
    lookup (l.map fun a => (key a, a)) k = Keyed.find key l.reverse k := by
  unfold lookup find
  rw [← map_reverse, find?_map, Option.map_map]
  exact Option.map_id'

omit [DecidableEq N] in
theorem Emailed.lookup_iff {old : List (Fields N)} (h : Emailed norm old) {email : String}
    {u : Fields N} :
    lookup (old.map fun u => (emailOf u, u)) email = some u ↔ u ∈ old ∧ emailOf u = email := by
  have distinct : (old.map emailOf).Nodup := by
    have apart := h.apart
    rw [show (fun u : Fields N => norm (emailOf u)) = norm ∘ emailOf from rfl, ← map_map] at apart
    exact apart.of_map _
  rw [lookup_map, find_reverse distinct, find_eq_some_iff distinct]

/-- The plan sends the clients that are not there yet. -/
theorem planClients_sent {old clients add : List (Fields N)} (emailed : Emailed norm old)
    (planned : planClients seen (old.map fun u => (emailOf u, u)) clients = .ok add) :
    add = sent seen old clients := by
  induction clients generalizing add with
  | nil =>
    cases planned
    rfl
  | cons client rest ih =>
    unfold planClients at planned
    cases found : lookup (old.map fun u => (emailOf u, u)) (emailOf client) with
    | none =>
      rw [found] at planned
      obtain ⟨more, rest, rfl⟩ := of_map_eq_ok planned
      have fresh : isThere seen old client = false := by
        refine Bool.eq_false_iff.mpr fun there => ?_
        obtain ⟨u, mem, alike⟩ := isThere_iff.mp there
        rw [emailed.lookup_iff.mpr ⟨mem, emailOf_eq alike⟩] at found
        cases found
      rw [ih rest, sent, sent, filter_cons_of_pos (by rw [fresh]; rfl)]
    | some u =>
      rw [found] at planned
      dsimp only at planned
      obtain ⟨mem, same⟩ := emailed.lookup_iff.mp found
      split at planned
      next alike =>
        have there : isThere seen old client = true := any_eq_true.mpr ⟨u, mem, alike⟩
        rw [ih planned, sent, sent, filter_cons_of_neg (by rw [there]; exact Bool.false_ne_true)]
      next other =>
        have fresh : isThere seen old client = false := by
          refine Bool.eq_false_iff.mpr fun there => other ?_
          obtain ⟨v, mem', alike⟩ := isThere_iff.mp there
          obtain rfl : v = u := Option.some.inj
            ((emailed.lookup_iff.mpr ⟨mem', emailOf_eq alike⟩).symm.trans found)
          exact same_obj_iff.mpr alike
        split at planned
        · obtain ⟨more, rest, rfl⟩ := of_map_eq_ok planned
          rw [ih rest, sent, sent, filter_cons_of_pos (by rw [fresh]; rfl)]
        · cases planned

variable {l : List (Json N)}

omit [DecidableEq N] in
theorem byEmail_eq_some {m : List (String × Fields N)}
    (read : byEmail l = some m) :
    m = (l.map object).map (fun u => (emailOf u, u)) ∧ ∀ u ∈ l.map object, emailOf u ≠ "" := by
  unfold byEmail at read
  split at read
  · cases read
  next named =>
    cases read
    refine ⟨by rw [map_map]; rfl, fun u mem empty => named ?_⟩
    obtain ⟨c, there, rfl⟩ := mem_map.mp mem
    exact any_eq_true.mpr ⟨c, there, decide_eq_true empty⟩

/-- Nothing to do for an inbound, or clients to add. -/
inductive Plans (seen : N → N) (norm : String → String) (cur nxt : Fields N) :
    Option (HotInbound N) → Prop where
  | none (nobody : sent seen (usersIn cur) (usersIn nxt) = [])
      (stay : swapped seen (usersIn cur) (usersIn nxt) = usersIn cur) : Plans seen norm cur nxt none
  | some (ne : sent seen (usersIn cur) (usersIn nxt) ≠ [])
      (planned : Planned norm (usersIn cur) (usersIn nxt)) :
      Plans seen norm cur nxt (some (hotInbound nxt (sent seen (usersIn cur) (usersIn nxt))))

omit [DecidableEq N] in
theorem emailed_of_named {users : List (Fields N)} (named : ∀ u ∈ users, emailOf u ≠ "")
    (apart : ((users.filter fun u => emailOf u ≠ "").map fun u => norm (emailOf u)).Nodup) :
    Emailed norm users := by
  refine ⟨named, ?_⟩
  rwa [filter_eq_self.mpr fun u mem => decide_eq_true (named u mem)] at apart

/-- Clients that read the same are all there. -/
theorem isThere_of_sameList {cur nxt : Fields N}
    (alike : sameList seen (clients cur) (clients nxt) = true) :
    (∀ u ∈ usersIn cur, isThere seen (usersIn nxt) u = true) ∧
      ∀ c ∈ usersIn nxt, isThere seen (usersIn cur) c = true := by
  have lists : ((clients cur).getD []).map (Json.map seen) =
      ((clients nxt).getD []).map (Json.map seen) := by
    unfold sameList at alike
    split at alike
    next none none' => rw [none, none']
    next a b read read' =>
      rw [same, Json.deepEqual_iff] at alike
      simpa [read, read', Json.map, Json.mapItems_eq] using alike
    · cases alike
  have half {a b : List (Json N)} (lists : a.map (Json.map seen) = b.map (Json.map seen)) :
      ∀ u ∈ a.map object, isThere seen (b.map object) u = true := by
    refine forall_mem_map.mpr fun v mem => isThere_iff.mpr ?_
    obtain ⟨w, there, same⟩ := mem_map.mp (lists ▸ mem_map_of_mem mem)
    refine ⟨object w, mem_map_of_mem there, ?_⟩
    rw [← Json.object_map, same, Json.object_map]
  exact ⟨half lists, half lists.symm⟩

/-- **What the plan has for an inbound.** -/
theorem planInbound_plans {version : String} {cur nxt : Fields N} {r : Option (HotInbound N)}
    (apart : (((usersIn cur).filter fun u => emailOf u ≠ "").map fun u => norm (emailOf u)).Nodup)
    (apart' : (((usersIn nxt).filter fun u => emailOf u ≠ "").map fun u => norm (emailOf u)).Nodup)
    (planned : planInbound seen version cur nxt = .ok r) :
    mapFields seen (withoutClients cur) = mapFields seen (withoutClients nxt) ∧
      Plans seen norm cur nxt r := by
  have quiet (nobody : sent seen (usersIn cur) (usersIn nxt) = [])
      (all : (usersIn cur).filter (isThere seen (usersIn nxt)) = usersIn cur) :
      Plans seen norm cur nxt none := by
    refine .none nobody ?_
    rw [swapped, nobody, all, map_nil, append_nil]
  unfold planInbound at planned
  dsimp only at planned
  split at planned
  · cases planned
  next shells =>
  rw [Bool.not_eq_true', Bool.not_eq_false] at shells
  refine ⟨same_obj_iff.mp shells, ?_⟩
  split at planned
  next alike =>
    cases planned
    obtain ⟨there, there'⟩ := isThere_of_sameList alike
    refine quiet (eq_nil_iff_forall_not_mem.mpr fun c mem => ?_) (filter_eq_self.mpr there)
    obtain ⟨mem, fresh⟩ := mem_sent.mp mem
    exact Bool.false_ne_true (fresh.symm.trans (there' c mem))
  split at planned
  · cases planned
  split at planned
  next before after read read' =>
    obtain ⟨rfl, named⟩ := byEmail_eq_some read
    obtain ⟨rfl, named'⟩ := byEmail_eq_some read'
    have emailed : Emailed norm (usersIn cur) := emailed_of_named named apart
    have emailed' : Emailed norm (usersIn nxt) := emailed_of_named named' apart'
    split at planned
    · cases planned
    next kept =>
    obtain ⟨add, clients, rfl⟩ := of_map_eq_ok planned
    have plan : Planned norm (usersIn cur) (usersIn nxt) := by
      refine ⟨emailed, emailed', fun u mem => ?_⟩
      rw [any_eq_true, not_exists] at kept
      have found := kept (emailOf u, u)
      rw [not_and, Option.isNone_iff_eq_none] at found
      obtain ⟨c, there⟩ := Option.ne_none_iff_exists'.mp (found (mem_map.mpr ⟨u, mem, rfl⟩))
      exact ⟨c, emailed'.lookup_iff.mp there⟩
    obtain rfl := planClients_sent emailed clients
    split
    next none =>
      have nobody := List.isEmpty_iff.mp none
      have all : dropAll norm ((sent seen (usersIn cur) (usersIn nxt)).map emailOf) (usersIn cur) =
        (usersIn cur).filter (isThere seen (usersIn nxt)) := plan.dropAll_sent
      rw [nobody] at all
      exact quiet nobody (by rw [← all]; simp [dropAll])
    next some => exact .some (fun empty => some (List.isEmpty_iff.mpr empty)) plan
  · cases planned

/-- **The users end as those of the next config, and nobody loses access, just where both configs
are written as they are read.** -/
theorem Plans.written_iff {cur nxt : Fields N} {r : Option (HotInbound N)}
    (plans : Plans seen norm cur nxt r)
    (apart : (((usersIn cur).filter fun u => emailOf u ≠ "").map
      fun u => norm (emailOf u)).Nodup) :
    Written seen (usersIn cur) (usersIn nxt) ↔
      (swapped seen (usersIn cur) (usersIn nxt)).Perm (usersIn nxt) ∧
        KeptIn norm (usersIn cur) (usersIn nxt) (swapped seen (usersIn cur) (usersIn nxt)) := by
  have emailed : sent seen (usersIn cur) (usersIn nxt) = [] ∨ Emailed norm (usersIn nxt) := by
    cases plans with
    | none nobody _ => exact .inl nobody
    | some _ planned => exact .inr planned.after
  rw [swapped_perm_iff emailed]
  constructor
  · intro written
    refine ⟨⟨written.kept, written.exact⟩, ?_⟩
    cases plans with
    | none _ stay =>
      rw [stay]
      exact .refl apart
    | some _ planned =>
      rw [swapped, ← planned.dropAll_sent]
      exact planned.keptIn written (fun _ mem => mem) fun _ mem => mem
  · rintro ⟨⟨kept, exact⟩, onWay⟩
    exact ⟨kept, exact, level_of_keptIn onWay exact⟩

end Plan

/-! ## The calls for an inbound -/

section Calls

variable {norm : String → String} {w : State N} {tag : String} {users : List (Fields N)}

theorem State.alter_alter (w : State N) (tag : String) (f g : List (Fields N) → List (Fields N)) :
    (w.alter tag f).alter tag g = w.alter tag fun us => g (f us) := by
  unfold alter
  rw [change_change (f := Inbound.alter f) fun _ => rfl]
  rfl

section
variable (found : w.usersOf tag = some users)
include found

theorem State.usersOf_alter
    (f : List (Fields N) → List (Fields N)) : (w.alter tag f).usersOf tag = some (f users) := by
  unfold usersOf at *
  split at found
  · cases found
  next named =>
    obtain ⟨i, there, rfl⟩ := Option.map_eq_some_iff.mp found
    rw [if_neg named, alter, find_change (f := Inbound.alter f) fun _ => rfl, if_pos rfl, there]
    rfl

theorem State.alter_eq_self
    {f : List (Fields N) → List (Fields N)} (stays : f users = users) : w.alter tag f = w := by
  unfold usersOf at found
  split at found
  · cases found
  obtain ⟨i, there, rfl⟩ := Option.map_eq_some_iff.mp found
  unfold alter
  rw [change_eq_self fun j found => ?_]
  obtain rfl := Option.some.inj (there.symm.trans found)
  rw [Inbound.alter, stays]

omit found in
theorem dropAll_dropAll (norm : String → String) (emails emails' : List String)
    (us : List (Fields N)) :
    dropAll norm emails' (dropAll norm emails us) = dropAll norm (emails ++ emails') us := by
  unfold dropAll
  rw [filter_filter]
  congr 1
  funext u
  rw [any_append, Bool.not_or, Bool.and_comm]

theorem removeUser_getD (email : String) :
    (w.removeUser norm tag email).getD w = w.alter tag (dropAll norm [email]) := by
  have one (us : List (Fields N)) :
      dropAll norm [email] us = us.filter fun u => !isUser norm email u := by
    simp [dropAll]
  unfold removeUser
  rw [found, Option.bind_some]
  split
  · rw [Option.getD_some]
    congr 1
    funext us
    exact (one us).symm
  next none =>
    rw [Option.getD_none, alter_eq_self found]
    rw [one, filter_eq_self]
    intro u mem
    rw [Bool.not_eq_true', Bool.eq_false_iff]
    exact fun is => none (any_eq_true.mpr ⟨u, mem, is⟩)

omit found in
/-- Users of the emails are removed, one after the other. -/
theorem removeUsers_spec (norm : String → String) (found : w.usersOf tag = some users)
    (emails : List String) :
    (removeUsers norm tag emails w).2 = w.alter tag (dropAll norm emails) ∧
      ∀ v ∈ (removeUsers norm tag emails w).1, ∃ gone, (∀ email ∈ gone, email ∈ emails) ∧
        v = w.alter tag (dropAll norm gone) := by
  induction emails generalizing w users with
  | nil =>
    refine ⟨(alter_eq_self found ?_).symm, fun v mem => absurd mem not_mem_nil⟩
    simp [dropAll]
  | cons email emails ih =>
    have rest := ih (usersOf_alter found (dropAll norm [email]))
    have both (gone : List String) :
        (w.alter tag (dropAll norm [email])).alter tag (dropAll norm gone) =
          w.alter tag (dropAll norm (email :: gone)) := by
      rw [alter_alter]
      congr 1
      funext us
      exact dropAll_dropAll norm [email] gone us
    unfold removeUsers
    rw [removeUser_getD found]
    refine ⟨rest.1.trans (both emails), fun v mem => ?_⟩
    rcases mem_cons.mp mem with rfl | mem
    · exact ⟨[email], forall_mem_singleton.mpr mem_cons_self, rfl⟩
    · obtain ⟨gone, sub, rfl⟩ := rest.2 v mem
      exact ⟨email :: gone, cons_subset_cons email sub, both gone⟩

theorem adu_spec {clients : List (Fields N)} (emailed : Emailed norm clients)
    (new : ∀ c ∈ clients, ∀ u ∈ users, State.isUser norm (emailOf c) u = false) :
    (adu norm tag clients w).2.1 = clients.length ∧
      (adu norm tag clients w).2.2 = w.alter tag (· ++ clients) ∧
      ∀ v ∈ (adu norm tag clients w).1, ∃ added, (∀ c ∈ added, c ∈ clients) ∧
        v = w.alter tag (· ++ added) := by
  induction clients generalizing w users with
  | nil =>
    refine ⟨rfl, (alter_eq_self found ?_).symm, fun v mem => absurd mem not_mem_nil⟩
    rw [append_nil]
  | cons client rest ih =>
    have first : w.addUser norm tag client = some (w.alter tag (· ++ [client])) := by
      have nobody : users.any (isUser norm (emailOf client)) = false :=
        any_eq_false.mpr fun u mem => by
          rw [new client mem_cons_self u mem]
          exact Bool.false_ne_true
      unfold addUser
      rw [found, Option.bind_some, nobody, Bool.and_false, if_neg Bool.false_ne_true]
    have both (added : List (Fields N)) :
        (w.alter tag (· ++ [client])).alter tag (· ++ added) =
          w.alter tag (· ++ client :: added) := by
      rw [alter_alter]
      congr 1
      funext us
      rw [append_assoc]
      rfl
    have apart := nodup_cons.mp emailed.apart
    have emailed' : Emailed norm rest :=
      ⟨fun c mem => emailed.named c (mem_cons_of_mem _ mem), apart.2⟩
    obtain ⟨count, last, states⟩ := ih (usersOf_alter found (· ++ [client])) emailed' (by
      intro c mem u there
      rcases mem_append.mp there with there | there
      · exact new c (mem_cons_of_mem _ mem) u there
      refine Bool.eq_false_iff.mpr fun is => apart.1 ?_
      rw [mem_singleton.mp there] at is
      exact mem_map.mpr ⟨c, mem, (isUser_iff.mp is).2.symm⟩)
    unfold adu
    rw [first]
    dsimp only
    refine ⟨by rw [count]; rfl, last.trans (both rest), fun v mem => ?_⟩
    rcases mem_cons.mp mem with rfl | mem
    · exact ⟨[client], forall_mem_singleton.mpr mem_cons_self, rfl⟩
    · obtain ⟨added, sub, rfl⟩ := states v mem
      exact ⟨client :: added, cons_subset_cons client sub, both added⟩

end

theorem tagOf_hotInbound (inbound : Fields N) (add : List (Fields N)) :
    tagOf (hotInbound inbound add).inbound = tagOf inbound := by
  unfold tagOf hotInbound
  rw [Json.field_set_of_ne _ (by decide)]

theorem usersIn_hotInbound (inbound : Fields N) (add : List (Fields N)) :
    usersIn (hotInbound inbound add).inbound = add := by
  unfold usersIn clients hotInbound
  rw [Json.field_set_self, object, Json.field_set_self]
  show ((add.map Json.obj).map object) = add
  rw [map_map]
  exact map_id _

/-- A call without a tag finds no inbound. -/
theorem adu_untagged (clients : List (Fields N)) : (adu norm "" clients w).2.1 = 0 := by
  have refused (c : Fields N) : w.addUser norm "" c = none := rfl
  induction clients with
  | nil => rfl
  | cons client rest ih =>
    unfold adu
    rw [refused]
    exact ih

theorem usersIn_mapFields (seen : N → N) (inbound : Fields N) :
    usersIn (mapFields seen inbound) = (usersIn inbound).map (mapFields seen) := by
  unfold usersIn clients
  rw [Json.field_mapFields, Json.object_map, Json.field_mapFields, Json.list_map]
  cases list (field (object (field inbound "settings")) "clients") with
  | none => rfl
  | some l =>
    rw [Option.map_some, Option.getD_some, Option.getD_some, map_map, map_map]
    exact map_congr_left fun v _ => Json.object_map seen v

variable {seen : N → N} {nxt : Fields N} {add : List (Fields N)}

/-- **The calls for an inbound put the clients in place**, and on the way some of its users are gone
and some of the clients there. -/
theorem HotInbound.apply_spec (emailed : Emailed norm add)
    (found : w.usersOf (tagOf nxt) = some users) :
    ((hotInbound nxt add).apply norm seen w).ended =
        .ok (w.alter (tagOf nxt) fun us =>
          dropAll norm (add.map emailOf) us ++ add.map (mapFields seen)) ∧
      ∀ v ∈ ((hotInbound nxt add).apply norm seen w).seen, ∃ gone added,
        (∀ email ∈ gone, email ∈ add.map emailOf) ∧ (∀ c ∈ added, c ∈ add.map (mapFields seen)) ∧
          v = w.alter (tagOf nxt) fun us => dropAll norm gone us ++ added := by
  obtain ⟨removed, states⟩ := removeUsers_spec norm found (add.map emailOf)
  have read : Emailed norm (add.map (mapFields seen)) := by
    refine ⟨forall_mem_map.mpr fun c mem => ?_, ?_⟩
    · rw [emailOf_mapFields]
      exact emailed.named c mem
    · simpa only [map_map, Function.comp_def, emailOf_mapFields] using emailed.apart
  obtain ⟨count, last, states'⟩ := adu_spec
    (usersOf_alter found (dropAll norm (add.map emailOf))) read
    (forall_mem_map.mpr fun c mem u there => by
      rw [emailOf_mapFields]
      exact (mem_dropAll.mp there).2 _ (mem_map_of_mem mem))
  have calls : removeUsers norm (hotInbound nxt add).tag (hotInbound nxt add).emails w =
      removeUsers norm (tagOf nxt) (add.map emailOf) w := rfl
  have emails : (hotInbound nxt add).emails.length = (add.map (mapFields seen)).length := by
    rw [length_map]
    exact length_map ..
  have both (added : List (Fields N)) :
      (w.alter (tagOf nxt) (dropAll norm (add.map emailOf))).alter (tagOf nxt) (· ++ added) =
        w.alter (tagOf nxt) fun us => dropAll norm (add.map emailOf) us ++ added :=
    alter_alter ..
  unfold HotInbound.apply
  dsimp only
  rw [tagOf_mapFields, usersIn_mapFields, tagOf_hotInbound, usersIn_hotInbound, calls, removed,
    count, emails, if_pos rfl, last, both]
  refine ⟨rfl, fun v mem => ?_⟩
  rcases mem_append.mp mem with mem | mem
  · obtain ⟨gone, sub, rfl⟩ := states v mem
    refine ⟨gone, [], sub, fun c none => absurd none not_mem_nil, ?_⟩
    simp only [append_nil]
  · obtain ⟨added, sub, rfl⟩ := states' v mem
    exact ⟨_, added, fun email mem => mem, sub, both added⟩

theorem HotInbound.tag_of_apply (ne : add ≠ []) {w' : State N}
    (ended : ((hotInbound nxt add).apply norm seen w).ended = .ok w') : tagOf nxt ≠ "" := by
  intro untagged
  have emails : (hotInbound nxt add).emails.length = add.length := length_map ..
  unfold HotInbound.apply at ended
  dsimp only at ended
  rw [tagOf_mapFields, tagOf_hotInbound, untagged, adu_untagged, emails,
    if_neg fun none => ne (length_eq_zero_iff.mp none.symm)] at ended
  cases ended

end Calls

/-! ## All inbounds -/

section Inbounds

def Inbound.Same (i j : Inbound N) : Prop := i.shell = j.shell ∧ i.users.Perm j.users

def Inbound.Kept (norm : String → String) (p : Inbound N × Inbound N) (i : Inbound N) : Prop :=
  i.shell = p.1.shell ∧ KeptIn norm p.1.users p.2.users i.users

theorem tag_ofConfig (inbound : Fields N) : (Inbound.ofConfig inbound).tag = tagOf inbound := by
  unfold Inbound.tag Inbound.ofConfig withoutClients tagOf
  rw [Json.field_set_of_ne _ (by decide)]

theorem State.alter_at {w : State N} {done rest : List (Inbound N)} {i : Inbound N}
    (inbounds : w.inbounds = done ++ i :: rest) (named : i.tag ≠ "")
    (apart : Apart (w.inbounds.map (·.tag))) :
    w.usersOf i.tag = some i.users ∧ ∀ f, w.alter i.tag f =
      { w with inbounds := done ++ i.alter f :: rest } := by
  have others : ∀ j ∈ done, j.tag ≠ i.tag := by
    intro j mem same
    unfold Apart at apart
    rw [inbounds, map_append, map_cons, filter_append,
      filter_cons_of_pos (by simpa using named), nodup_append] at apart
    refine apart.2.2 i.tag ?_ i.tag mem_cons_self rfl
    exact mem_filter.mpr ⟨mem_map.mpr ⟨j, mem, same⟩, decide_eq_true named⟩
  constructor
  · unfold usersOf
    rw [if_neg named, inbounds, find_append, find_eq_none_iff.mpr others, find_cons, if_pos rfl]
    rfl
  · intro f
    unfold alter
    rw [inbounds, change_append rest others]

variable [DecidableEq N] {seen : N → N} {norm : String → String} {version : String}

/-- What the plan is for an inbound, with the users that a config may have. -/
structure Fair (seen : N → N) (norm : String → String) (version : String) (cur nxt : Json N) :
    Prop where
  apart : (((usersIn (object cur)).filter fun u => emailOf u ≠ "").map
    fun u => norm (emailOf u)).Nodup
  tag : tagOf (object cur) = tagOf (object nxt)
  plans : ∃ r, planInbound seen version (object cur) (object nxt) = .ok r ∧
    Plans seen norm (object cur) (object nxt) r

/-- An inbound to which clients are sent has a tag. -/
def Tagged (seen : N → N) (cur nxt : Json N) : Prop :=
  ∀ c ∈ usersIn (object nxt), isThere seen (usersIn (object cur)) c = false →
    tagOf (object nxt) ≠ ""

/-- The inbound in the end. -/
def Inbound.swapped (seen : N → N) (cur nxt : Json N) : Inbound N where
  shell := withoutClients (object cur)
  users := HotApply.swapped seen (usersIn (object cur)) (usersIn (object nxt))

/-- The removals and additions of a plan leave the inbound so. -/
theorem Planned.alter_eq_swapped {cur nxt : Json N}
    (h : Planned norm (usersIn (object cur)) (usersIn (object nxt))) :
    (Inbound.ofConfig (object cur)).alter (fun us =>
        dropAll norm ((sent seen (usersIn (object cur)) (usersIn (object nxt))).map emailOf) us ++
          (sent seen (usersIn (object cur)) (usersIn (object nxt))).map (mapFields seen)) =
      Inbound.swapped seen cur nxt := by
  unfold Inbound.swapped HotApply.swapped
  rw [← h.dropAll_sent]
  rfl

/-- Users written as they are read are kept in it. -/
theorem Fair.kept {cur nxt : Json N} (h : Fair seen norm version cur nxt)
    (written : Written seen (usersIn (object cur)) (usersIn (object nxt))) :
    Inbound.Kept norm (Inbound.ofConfig (object cur), Inbound.ofConfig (object nxt))
      (Inbound.swapped seen cur nxt) := by
  obtain ⟨r, -, plans⟩ := h.plans
  exact ⟨rfl, ((plans.written_iff h.apart).mp written).2⟩

variable {curs nxts : List (Json N)} {hots : List (HotInbound N)} {w : State N}

/-- A plan was made of inbounds that differ in their clients only. -/
theorem fair_of_planInbounds
    (apart : ∀ i ∈ inboundsOf curs,
      ((i.users.filter fun u => emailOf u ≠ "").map fun u => norm (emailOf u)).Nodup)
    (apart' : ∀ i ∈ inboundsOf nxts,
      ((i.users.filter fun u => emailOf u ≠ "").map fun u => norm (emailOf u)).Nodup)
    (length : curs.length = nxts.length)
    (planned : planInbounds seen version curs nxts = .ok hots) :
    List.Forall₂ (Fair seen norm version) curs nxts := by
  induction curs generalizing nxts hots with
  | nil =>
    obtain rfl := length_eq_zero_iff.mp length.symm
    exact .nil
  | cons cur curs ih =>
    obtain ⟨nxt, nxts, rfl⟩ := exists_cons_of_length_eq_add_one length.symm
    obtain ⟨first, rest⟩ := forall_mem_cons.mp apart
    obtain ⟨first', rest'⟩ := forall_mem_cons.mp apart'
    unfold planInbounds at planned
    cases one : planInbound seen version (object cur) (object nxt) with
    | error reason =>
      rw [one] at planned
      cases planned
    | ok r =>
      obtain ⟨shells, plans⟩ := planInbound_plans first first' one
      have tag : tagOf (object cur) = tagOf (object nxt) := by
        rw [← tag_ofConfig, ← tag_ofConfig, Inbound.tag, Inbound.tag, ← tagOf_mapFields seen,
          ← tagOf_mapFields seen (Inbound.ofConfig (object nxt)).shell]
        exact congrArg tagOf shells
      refine .cons ⟨first, tag, r, one, plans⟩ ?_
      rw [one] at planned
      cases r with
      | none => exact ih rest rest' (Nat.succ.inj length) planned
      | some hot =>
        obtain ⟨more, others, -⟩ := of_map_eq_ok planned
        exact ih rest rest' (Nat.succ.inj length) others

/-- An inbound whose clients were written has a tag. -/
theorem tagged_of_applyUsers (fair : List.Forall₂ (Fair seen norm version) curs nxts)
    (planned : planInbounds seen version curs nxts = .ok hots) {w' : State N}
    (ended : (applyUsers norm seen hots w).ended = .ok w') :
    List.Forall₂ (Tagged seen) curs nxts := by
  induction fair generalizing hots w with
  | nil => exact .nil
  | cons h _ ih =>
    obtain ⟨r, one, plans⟩ := h.plans
    unfold planInbounds at planned
    rw [one] at planned
    cases plans with
    | none nobody _ =>
      refine .cons (fun c mem fresh => ?_) (ih planned ended)
      have added := mem_sent.mpr ⟨mem, fresh⟩
      rw [nobody] at added
      cases added
    | some ne _ =>
      obtain ⟨more, others, rfl⟩ := of_map_eq_ok planned
      unfold applyUsers Traced.andThen at ended
      split at ended
      · cases ended
      next first => exact .cons (fun _ _ _ => HotInbound.tag_of_apply ne first) (ih others ended)

theorem kept_zip (fair : List.Forall₂ (Fair seen norm version) curs nxts) :
    List.Forall₂ (Inbound.Kept norm) ((inboundsOf curs).zip (inboundsOf nxts))
      (inboundsOf curs) := by
  induction fair with
  | nil => exact .nil
  | cons h _ ih => exact .cons ⟨rfl, .refl h.apart⟩ ih

/-- Every inbound's users are the same as written where they are read so. -/
def AllWritten (seen : N → N) : List (Json N) → List (Json N) → Prop :=
  List.Forall₂ fun cur nxt => Written seen (usersIn (object cur)) (usersIn (object nxt))

theorem kept_swapped (fair : List.Forall₂ (Fair seen norm version) curs nxts)
    (written : AllWritten seen curs nxts) :
    List.Forall₂ (Inbound.Kept norm) ((inboundsOf curs).zip (inboundsOf nxts))
      (zipWith (Inbound.swapped seen) curs nxts) := by
  induction fair with
  | nil => exact .nil
  | cons h _ ih =>
    obtain ⟨first, rest⟩ := forall₂_cons.mp written
    exact .cons (h.kept first) (ih rest)

/-- **The planned calls change the inbounds one by one**, and each inbound is kept on the way. -/
theorem applyUsers_spec (fair : List.Forall₂ (Fair seen norm version) curs nxts)
    (tagged : List.Forall₂ (Tagged seen) curs nxts)
    (planned : planInbounds seen version curs nxts = .ok hots)
    (done : List (Inbound N)) (inbounds : w.inbounds = done ++ inboundsOf curs)
    (apart : Apart (w.inbounds.map (·.tag))) :
    (applyUsers norm seen hots w).ended =
        .ok { w with inbounds := done ++ zipWith (Inbound.swapped seen) curs nxts } ∧
      (AllWritten seen curs nxts → ∀ v ∈ (applyUsers norm seen hots w).seen,
        ∃ mid, v = { w with inbounds := done ++ mid } ∧
          List.Forall₂ (Inbound.Kept norm) ((inboundsOf curs).zip (inboundsOf nxts)) mid) := by
  induction fair generalizing hots w done with
  | nil =>
    cases planned
    refine ⟨?_, fun _ v mem => absurd mem not_mem_nil⟩
    rw [show done ++ zipWith (Inbound.swapped seen) [] [] = w.inbounds from inbounds.symm]
    rfl
  | @cons cur nxt curs nxts h fair ih =>
    have inbounds : w.inbounds = done ++ Inbound.ofConfig (object cur) :: inboundsOf curs :=
      inbounds
    obtain ⟨r, one, plans⟩ := h.plans
    obtain ⟨tag, tags⟩ := forall₂_cons.mp tagged
    unfold planInbounds at planned
    rw [one] at planned
    cases plans with
    | none nobody stay =>
      have same : Inbound.ofConfig (object cur) = Inbound.swapped seen cur nxt := by
        unfold Inbound.swapped
        rw [stay]
        rfl
      rw [same] at inbounds
      obtain ⟨ended, states⟩ := ih tags planned (done ++ [Inbound.swapped seen cur nxt])
        (by rw [inbounds, append_assoc]; rfl) apart
      simp only [append_assoc, singleton_append] at ended states
      refine ⟨ended, fun written v mem => ?_⟩
      obtain ⟨first, rest⟩ := forall₂_cons.mp written
      obtain ⟨mid, rfl, kept⟩ := states rest v mem
      exact ⟨_ :: mid, rfl, .cons (h.kept first) kept⟩
    | some ne plan =>
      obtain ⟨more, others, rfl⟩ := of_map_eq_ok planned
      obtain ⟨c, mem⟩ := exists_mem_of_ne_nil _ ne
      obtain ⟨there, fresh⟩ := mem_sent.mp mem
      have named := tag c there fresh
      obtain ⟨found, alter⟩ := alter_at inbounds
        (by rw [tag_ofConfig, h.tag]; exact named) apart
      rw [tag_ofConfig, h.tag] at found alter
      obtain ⟨ended, states⟩ := HotInbound.apply_spec plan.emailed_sent found
      rw [alter, plan.alter_eq_swapped] at ended
      obtain ⟨ended', states'⟩ := ih tags others (w := { w with
          inbounds := done ++ Inbound.swapped seen cur nxt :: inboundsOf curs })
        (done ++ [Inbound.swapped seen cur nxt]) (by rw [append_assoc]; rfl) (by
          rw [inbounds] at apart
          simpa [Inbound.swapped, Inbound.ofConfig, Inbound.tag] using apart)
      simp only [append_assoc, singleton_append] at ended' states'
      unfold applyUsers Traced.andThen
      rw [ended]
      refine ⟨ended', fun written v mem => ?_⟩
      obtain ⟨first, rest⟩ := forall₂_cons.mp written
      rcases mem_append.mp mem with mem | mem
      · -- the other inbounds stay as they are while this one is changed
        obtain ⟨gone, added, removed, adds, rfl⟩ := states v mem
        exact ⟨_, alter _, .cons ⟨rfl, plan.keptIn first removed adds⟩ (kept_zip fair)⟩
      · obtain ⟨mid, rfl, kept⟩ := states' rest v mem
        exact ⟨_ :: mid, rfl, .cons (h.kept first) kept⟩

end Inbounds

end NasnetPanel.Xray.HotApply
