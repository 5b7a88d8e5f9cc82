import NasnetPanel.Xray.HotOutbounds

/-!
# Xray.HotApplySafety — a hot apply ends where a restart would

The calls of a plan, made on an Xray that runs the one config, are all accepted and leave it as a
fresh start on the other would, and no user loses access on the way but to get another level, just
where the two configs are written as they are read (`ends_as_restart`): what passes as the same is
the same as written, reading does nothing to what is sent, and each inbound to which users are sent
has a tag. Numbers that a float64 does not hold can change without being noticed
(`rounded_number_kept`).
-/

namespace NasnetPanel.Xray.HotApply
open List
open Json (Fields field object list text set without unionKeys Exact mapFields)

variable {N : Type}

/-! ## The whole plan -/

section Whole

variable [DecidableEq N] {seen : N → N} {norm : String → String} {version : String}

/-- The rules, or the balancers, in the end. -/
def routed (seen : N → N) (cur nxt : Json N) (key : String) : Json N :=
  if same seen cur nxt then field (object cur) key else (field (object nxt) key).map seen

/-- Routing is written whole, or left where nothing was seen to differ. -/
theorem applyRouting_spec {cur nxt : Json N} {r : Option (Fields N)} {w : State N}
    (planned : planRouting seen version cur nxt = .ok r)
    (rules : w.rules = field (object cur) "rules")
    (balancers : w.balancers = field (object cur) "balancers") :
    (applyRouting seen r w).ended = .ok { w with
        rules := routed seen cur nxt "rules", balancers := routed seen cur nxt "balancers" } ∧
      ∀ v ∈ (applyRouting seen r w).seen, v.inbounds = w.inbounds := by
  unfold planRouting at planned
  split at planned
  next alike =>
    cases planned
    simp only [routed, if_pos alike, ← rules, ← balancers]
    exact ⟨rfl, fun v mem => absurd mem not_mem_nil⟩
  next other =>
    split at planned
    · cases planned
    split at planned
    · cases planned
      simp only [routed, if_neg other, ← Json.field_mapFields]
      refine ⟨rfl, fun v mem => ?_⟩
      rw [mem_singleton.mp mem]
      rfl
    · cases planned

/-- Xray as it would be freshly started: the same users in each inbound, the same outbound for each
tag, the same default, rules and balancers and all the rest. -/
structure State.Same (a b : State N) : Prop where
  other : a.other = b.other
  inbounds : List.Forall₂ Inbound.Same a.inbounds b.inbounds
  default : a.default = b.default
  outbounds : ∀ tag, tag ≠ "" → Keyed.find tagOf a.outbounds tag = Keyed.find tagOf b.outbounds tag
  routing : a.routing = b.routing
  rules : a.rules = b.rules
  balancers : a.balancers = b.balancers

open State

/-- Xray on the way from one config to the next: every user is there with the credentials it had, or
is one whose level changes. -/
def State.Kept (norm : String → String) (w w' v : State N) : Prop :=
  List.Forall₂ (Inbound.Kept norm) (w.inbounds.zip w'.inbounds) v.inbounds

/-- An inbound is written as it is read. -/
structure InboundWritten (seen : N → N) (cur nxt : Json N) : Prop
    extends Written seen (usersIn (object cur)) (usersIn (object nxt)) where
  shell : withoutClients (object cur) = withoutClients (object nxt)

def inboundDocs (cfg : Fields N) : List (Json N) := (list (field cfg "inbounds")).getD []

/-- What the two configs have to be, as they are written: what passes as the same when it is read is
the same, what is sent is not changed by being read, and where users are sent there is a tag. -/
structure Faithful (seen : N → N) (cur nxt : Fields N) : Prop where
  other : (ofConfig cur).other = (ofConfig nxt).other
  inbounds : List.Forall₂ (InboundWritten seen) (inboundDocs cur) (inboundDocs nxt)
  tagged : List.Forall₂ (Tagged seen) (inboundDocs cur) (inboundDocs nxt)
  default : (ofConfig cur).default = (ofConfig nxt).default
  outbounds : ∀ out ∈ (ofConfig nxt).outbounds, tagOf out ≠ "" →
    (tagOf out ∈ (ofConfig cur).outbounds.map tagOf → out ∈ (ofConfig cur).outbounds) ∧
      (tagOf out ∉ (ofConfig cur).outbounds.map tagOf → Exact seen (.obj out))
  routing : (ofConfig cur).routing = (ofConfig nxt).routing
  rules : ∀ key, key = "rules" ∨ key = "balancers" →
    if same seen (field cur "routing") (field nxt "routing") then
      field (object (field cur "routing")) key = field (object (field nxt "routing")) key
    else Exact seen (field (object (field nxt "routing")) key)

theorem routed_eq_iff {cur nxt : Json N} {key : String} :
    routed seen cur nxt key = field (object nxt) key ↔
      if same seen cur nxt then field (object cur) key = field (object nxt) key
      else Exact seen (field (object nxt) key) := by
  unfold routed
  split <;> rfl

/-- The inbounds end as a restart's where each of them was written exactly. -/
theorem inbounds_iff {curs nxts : List (Json N)}
    (fair : List.Forall₂ (Fair seen norm version) curs nxts) :
    (List.Forall₂ Inbound.Same (zipWith (Inbound.swapped seen) curs nxts) (inboundsOf nxts) ∧
      List.Forall₂ (Inbound.Kept norm) ((inboundsOf curs).zip (inboundsOf nxts))
        (zipWith (Inbound.swapped seen) curs nxts)) ↔
      List.Forall₂ (InboundWritten seen) curs nxts := by
  induction fair with
  | nil => exact ⟨fun _ => .nil, fun _ => ⟨.nil, .nil⟩⟩
  | @cons cur nxt curs nxts h _ ih =>
    obtain ⟨r, -, plans⟩ := h.plans
    have written := plans.written_iff h.apart
    constructor
    · rintro ⟨_ | ⟨same, sames⟩, _ | ⟨kept, kepts⟩⟩
      exact .cons ⟨written.mpr ⟨same.2, kept.2⟩, same.1⟩ (ih.mp ⟨sames, kepts⟩)
    · rintro (_ | ⟨first, rest⟩)
      obtain ⟨perm, kept⟩ := written.mp first.toWritten
      obtain ⟨sames, kepts⟩ := ih.mpr rest
      exact ⟨.cons ⟨first.shell, perm⟩ sames, .cons ⟨rfl, kept⟩ kepts⟩

omit [DecidableEq N] in
theorem Traced.andThen_ok {r : Traced N} {w : State N} (ended : r.ended = .ok w)
    (next : State N → Traced N) :
    (r.andThen next).ended = (next w).ended ∧ (r.andThen next).seen = r.seen ++ (next w).seen := by
  unfold Traced.andThen
  rw [ended]
  exact ⟨rfl, rfl⟩

omit [DecidableEq N] in
theorem Traced.ok_of_andThen {r : Traced N} {next : State N → Traced N} {w : State N}
    (ended : (r.andThen next).ended = .ok w) : ∃ v, r.ended = .ok v := by
  unfold Traced.andThen at ended
  split at ended
  · cases ended
  next v done => exact ⟨v, done⟩

/-- The state in the end. -/
def State.swapped (seen : N → N) (cur nxt : Fields N) (added : List (Fields N))
    (retired : List String) : State N :=
  { ofConfig cur with
    inbounds := zipWith (Inbound.swapped seen) (inboundDocs cur) (inboundDocs nxt)
    default := (ofConfig cur).default.filter fun out => tagOf out ∉ retired
    outbounds := ((ofConfig cur).outbounds ++ added.map (mapFields seen)).filter
      fun out => tagOf out ∉ retired
    rules := routed seen (field cur "routing") (field nxt "routing") "rules"
    balancers := routed seen (field cur "routing") (field nxt "routing") "balancers" }

/-- The four rounds of calls, one after the other. -/
theorem apply_spec {cur nxt : Fields N} {p : HotPlan N}
    (startable : Startable norm (ofConfig cur)) (startable' : Startable norm (ofConfig nxt))
    (swaps : Swaps (ofConfig cur).outbounds (ofConfig nxt).outbounds p.outbounds p.retired)
    (fair : List.Forall₂ (Fair seen norm version) (inboundDocs cur) (inboundDocs nxt))
    (users : planInbounds seen version (inboundDocs cur) (inboundDocs nxt) = .ok p.users)
    (routing : planRouting seen version (field cur "routing") (field nxt "routing") =
      .ok p.routing) :
    ((∃ w, (p.apply norm seen (ofConfig cur)).ended = .ok w) →
      List.Forall₂ (Tagged seen) (inboundDocs cur) (inboundDocs nxt)) ∧
    (List.Forall₂ (Tagged seen) (inboundDocs cur) (inboundDocs nxt) →
      (p.apply norm seen (ofConfig cur)).ended =
          .ok (State.swapped seen cur nxt p.outbounds p.retired) ∧
        (AllWritten seen (inboundDocs cur) (inboundDocs nxt) →
          ∀ v ∈ (p.apply norm seen (ofConfig cur)).seen,
            (ofConfig cur).Kept norm (ofConfig nxt) v)) := by
  have read : (p.outbounds.map (mapFields seen)).map tagOf = p.outbounds.map tagOf := by
    simp only [map_map, Function.comp_def, tagOf_mapFields]
  obtain ⟨ended₁, states₁⟩ := @ado_spec N (ofConfig cur) (p.outbounds.map (mapFields seen))
    (forall_mem_map.mpr fun out mem => by rw [tagOf_mapFields]; exact swaps.named out mem)
    (by rw [read]; exact swaps.apart startable'.outbounds)
    (forall_mem_map.mpr fun out mem => by rw [tagOf_mapFields]; exact swaps.new out mem)
  obtain ⟨last₁, seen₁⟩ := Traced.andThen_ok ended₁ fun w =>
    (applyUsers norm seen p.users w).andThen fun w =>
      (applyRouting seen p.routing w).andThen (retire p.retired)
  unfold HotPlan.apply
  rw [last₁, seen₁]
  refine ⟨fun ⟨w, ended⟩ => ?_, fun tagged => ?_⟩
  · obtain ⟨v, ended⟩ := Traced.ok_of_andThen ended
    exact tagged_of_applyUsers fair users ended
  obtain ⟨ended₂, states₂⟩ := applyUsers_spec fair tagged users (w := { ofConfig cur with
    outbounds := (ofConfig cur).outbounds ++ p.outbounds.map (mapFields seen) }) []
    rfl startable.inbounds
  obtain ⟨ended₃, states₃⟩ := applyRouting_spec routing (w := { ofConfig cur with
    outbounds := (ofConfig cur).outbounds ++ p.outbounds.map (mapFields seen)
    inbounds := zipWith (Inbound.swapped seen) (inboundDocs cur) (inboundDocs nxt) }) rfl rfl
  obtain ⟨ended₄, states₄⟩ := retire_spec swaps.retirable
  obtain ⟨last₃, seen₃⟩ := Traced.andThen_ok ended₃ (retire p.retired)
  obtain ⟨last₂, seen₂⟩ := Traced.andThen_ok ended₂ fun w =>
    (applyRouting seen p.routing w).andThen (retire p.retired)
  rw [nil_append] at last₂ seen₂
  rw [last₂, last₃, ended₄, seen₂, seen₃]
  refine ⟨rfl, fun written v mem => ?_⟩
  rcases mem_append.mp mem with mem | mem
  · rw [State.Kept, states₁ v mem]
    exact kept_zip fair
  rcases mem_append.mp mem with mem | mem
  · obtain ⟨mid, rfl, kept⟩ := states₂ written v mem
    exact kept
  rcases mem_append.mp mem with mem | mem
  · rw [State.Kept, states₃ v mem]
    exact kept_swapped fair written
  · rw [State.Kept, states₄ v mem]
    exact kept_swapped fair written

/-- **A hot apply ends where a restart would**, and no user loses access on the way, just where the
two configs are written as they are read. -/
theorem ends_as_restart {running next : Json N} {cur nxt : Fields N} {p : HotPlan N}
    (read : readConfig running = some cur) (read' : readConfig next = some nxt)
    (planned : planHotApply seen running next version = .ok p)
    (startable : Startable norm (State.ofConfig cur))
    (startable' : Startable norm (State.ofConfig nxt)) :
    (∃ w, (p.apply norm seen (State.ofConfig cur)).ended = .ok w ∧ w.Same (State.ofConfig nxt) ∧
      ∀ v ∈ w :: (p.apply norm seen (State.ofConfig cur)).seen,
        (State.ofConfig cur).Kept norm (State.ofConfig nxt) v) ↔
    Faithful seen cur nxt := by
  unfold planHotApply at planned
  rw [read, read'] at planned
  dsimp only at planned
  split at planned
  · cases planned
  obtain ⟨users, plannedUsers, planned⟩ := of_bind_eq_ok planned
  obtain ⟨⟨added, retired⟩, plannedOutbounds, planned⟩ := of_bind_eq_ok planned
  obtain ⟨routing, plannedRouting, rfl⟩ := of_map_eq_ok planned
  unfold planUsers at plannedUsers
  split at plannedUsers
  · cases plannedUsers
  next length =>
  have fair :=
    fair_of_planInbounds startable.users startable'.users (not_not.mp length) plannedUsers
  have swaps := planOutbounds_swaps plannedOutbounds
  have handlers := swaps.handlers_iff startable.outbounds startable'.outbounds seen
  obtain ⟨tagged, calls⟩ := apply_spec startable startable' (p := ⟨users, added, retired, routing⟩)
    swaps fair plannedUsers plannedRouting
  constructor
  · rintro ⟨w, ended, same, kept⟩
    have tags := tagged ⟨w, ended⟩
    obtain rfl := Except.ok.inj (ended.symm.trans (calls tags).1)
    have written := (inbounds_iff fair).mp ⟨same.inbounds, kept _ mem_cons_self⟩
    refine ⟨same.other, written, tags, ?_, handlers.mp same.outbounds, same.routing, ?_⟩
    · rw [← same.default]
      exact swaps.default_stays.symm
    · rintro key (rfl | rfl)
      · exact routed_eq_iff.mp same.rules
      · exact routed_eq_iff.mp same.balancers
  · intro faithful
    obtain ⟨ended, kept⟩ := calls faithful.tagged
    obtain ⟨sames, last⟩ := (inbounds_iff fair).mpr faithful.inbounds
    refine ⟨_, ended, ⟨faithful.other, sames, ?_, handlers.mpr faithful.outbounds,
      faithful.routing, ?_, ?_⟩, forall_mem_cons.mpr ⟨last, kept ?_⟩⟩
    · rw [← faithful.default]
      exact swaps.default_stays
    · exact routed_eq_iff.mpr (faithful.rules _ (.inl rfl))
    · exact routed_eq_iff.mpr (faithful.rules _ (.inr rfl))
    · exact faithful.inbounds.imp fun _ _ written => written.toWritten

end Whole

/-! ## Numbers -/

/-- A whole number read into a float64 and written back: what 53 bits hold of it, rounded to even.
-/
def binary64 (n : Nat) : Nat :=
  if n < 9007199254740992 then n
  else
    let k := n.log2 - 52
    let kept := n >>> k
    let rest := n - kept <<< k
    let half := 1 <<< (k - 1)
    (if half < rest ∨ (rest = half ∧ kept % 2 = 1) then kept + 1 else kept) <<< k

def lowered (email : String) : String := String.ofList (email.toList.map Char.toLower)

/-- A config with one inbound, whose fallback is limited to a number of bytes a second. -/
def limited (bytesPerSec : Nat) (clients outbounds rules : List (Json Nat)) : Json Nat :=
  .obj [
    ("log", .obj [("loglevel", .str "warning")]),
    ("inbounds", .arr [.obj [
      ("tag", .str "in"), ("protocol", .str "vless"),
      ("settings", .obj [("decryption", .str "none"), ("clients", .arr clients)]),
      ("streamSettings", .obj [("realitySettings", .obj [
        ("limitFallbackUpload", .obj [("bytesPerSec", .num bytesPerSec)])])])]]),
    ("outbounds", .arr (.obj [("protocol", .str "freedom"), ("tag", .str "direct")] :: outbounds)),
    ("routing", .obj [("rules", .arr rules)])]

def client (id email : String) (level : Nat) : Json Nat :=
  .obj [("id", .str id), ("email", .str email), ("level", .num level)]

/-- One user, who gets a level, and one more, with the outbound and the rule of the level. -/
theorem ends_as_restart_levels :
    let running := limited 1000 [client "a" "user_1" 0] [] []
    let next := limited 1000 [client "b" "user_2" 1, client "a" "user_1" 1]
      [.obj [("protocol", .str "freedom"), ("tag", .str "__panel_bw/out-1-d")]]
      [.obj [("user", .arr [.str "user_1"]), ("outboundTag", .str "__panel_bw/out-1-d")]]
    ∃ cur nxt p w, readConfig running = some cur ∧ readConfig next = some nxt ∧
      planHotApply binary64 running next "Xray 26.9.30 (Xray, Penetrates Everything.)" = .ok p ∧
      (p.apply lowered binary64 (State.ofConfig cur)).ended = .ok w ∧
      w.Same (State.ofConfig nxt) ∧ ∀ v ∈ w :: (p.apply lowered binary64 (State.ofConfig cur)).seen,
        (State.ofConfig cur).Kept lowered (State.ofConfig nxt) v := by
  intro running next
  have read : readConfig running = some (running.unmarshal.object) := by decide
  have read' : readConfig next = some (next.unmarshal.object) := by decide
  have startable : Startable lowered (State.ofConfig running.unmarshal.object) :=
    ⟨by decide, by decide, by decide⟩
  have startable' : Startable lowered (State.ofConfig next.unmarshal.object) :=
    ⟨by decide, by decide, by decide⟩
  have faithful : Faithful binary64 running.unmarshal.object next.unmarshal.object := by
    refine ⟨?_, .cons ⟨⟨by decide, by decide, by decide⟩, by decide⟩ .nil,
      .cons (by unfold Tagged; decide) .nil, by decide, by decide, ?_, ?_⟩
    · funext key
      by_cases known : key ∈ ["inbounds", "log", "outbounds", "routing"]
      · simp only [mem_cons, not_mem_nil, or_false] at known
        rcases known with rfl | rfl | rfl | rfl <;> rfl
      · simp only [State.ofConfig]
        rw [@Json.field_of_not_mem _ running.unmarshal.object key known,
          @Json.field_of_not_mem _ next.unmarshal.object key known]
    · funext key
      simp only [State.ofConfig]
      split
      · rfl
      next other =>
        have unknown : key ∉ ["rules"] := fun mem => other (.inl (mem_singleton.mp mem))
        rw [@Json.field_of_not_mem _ (object (field running.unmarshal.object "routing")) _ unknown,
          @Json.field_of_not_mem _ (object (field next.unmarshal.object "routing")) _ unknown]
    · rintro key (rfl | rfl) <;> decide
  have ok : (planHotApply binary64 running next
      "Xray 26.9.30 (Xray, Penetrates Everything.)").isOk = true := by decide
  cases planned : planHotApply binary64 running next
      "Xray 26.9.30 (Xray, Penetrates Everything.)" with
  | error reason =>
    rw [planned] at ok
    cases ok
  | ok p =>
    obtain ⟨w, ended, same, kept⟩ :=
      (ends_as_restart read read' planned startable startable').mpr faithful
    exact ⟨_, _, p, w, read, read', rfl, ended, same, kept⟩

theorem shells_eq {l m : List (Inbound N)} (same : List.Forall₂ Inbound.Same l m) :
    l.map (·.shell) = m.map (·.shell) := by
  induction same with
  | nil => rfl
  | cons h _ ih => rw [map_cons, map_cons, h.1, ih]

/-- **Numbers that a float64 does not tell apart pass as the same.** The limit changes, the plan is
empty, and Xray keeps the old one. -/
theorem rounded_number_kept :
    let running := limited 9007199254740993 [client "a" "user_1" 0] [] []
    let next := limited 9007199254740992 [client "a" "user_1" 0] [] []
    ∃ cur nxt, readConfig running = some cur ∧ readConfig next = some nxt ∧
      planHotApply binary64 running next "Xray 26.9.30" = .ok ⟨[], [], [], none⟩ ∧
      Startable lowered (State.ofConfig cur) ∧ Startable lowered (State.ofConfig nxt) ∧
      ((⟨[], [], [], none⟩ : HotPlan Nat).apply lowered binary64 (State.ofConfig cur)).ended =
        .ok (State.ofConfig cur) ∧
      ¬(State.ofConfig cur).Same (State.ofConfig nxt) := by
  intro running next
  refine ⟨running.unmarshal.object, next.unmarshal.object, by decide, by decide,
    by decide, ⟨by decide, by decide, by decide⟩,
    ⟨by decide, by decide, by decide⟩, rfl, fun same => ?_⟩
  exact absurd (shells_eq same.inbounds) (by decide)

end NasnetPanel.Xray.HotApply
