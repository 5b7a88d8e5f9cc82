import NasnetPanel.Network.Inet
import NasnetPanel.Network.Rules

/-!
# Network.Walk — the kernel's walk over the policy rules

`walkPolicy` replays the kernel's rule walk for a forwarded packet: rules in preference order, oif
and stock rules skipped, a blackhole ends it, a suppressed or empty lookup lets it continue.

What is proved holds for every rule list and every table content. `walkPolicy_route` and
`walkPolicy_drop` say what a walk went through in terms of preferences, so their users never look at
the order of the list. `trace_answers` compares lookup and walk with what the kernel does; a table's
metrics are not read.
-/

namespace NasnetPanel.Network
open Netmark Inet List Option

/-! ## Routes and the longest match -/

/-- One leg of a multipath route, device only. -/
structure Nexthop where
  oifName : String
  weight : Nat
deriving DecidableEq, Repr

/-- One route in one table. `"default"` stands for `0.0.0.0/0`; with nexthops the route is
multipath and its own device is ignored. -/
structure Route where
  dest : String
  gateway : String := ""
  oifName : String := ""
  scope : String := ""
  metric : Nat := 0
  onLink : Bool := false
  nexthops : List Nexthop := []
deriving DecidableEq, Repr

/-- The network a route is for, `none` where its text does not parse. -/
def Route.network (r : Route) : Option IPNet :=
  parseCIDR (if r.dest = "" ∨ r.dest = "default" then "0.0.0.0/0" else r.dest)

/-- Longest match so far: a later route must be longer to replace an earlier one. -/
def betterRoute (ip : IP) (best : Option (Route × Nat)) (r : Route) : Option (Route × Nat) :=
  match r.network with
  | none => best
  | some n =>
    if n.contains ip && best.all (fun (_, len) => len < n.ones) then some (r, n.ones) else best

/-- Longest-prefix match with the length that won. -/
def lookupTable (routes : List Route) (dst : String) : Option (Route × Nat) :=
  match parseIP dst with
  | none => none
  | some ip => routes.foldl (betterRoute ip) none

def Route.matchLen (r : Route) (ip : IP) : Option Nat :=
  (r.network.filter (·.contains ip)).map (·.ones)

theorem betterRoute_eq (ip : IP) (best : Option (Route × Nat)) (r : Route) :
    betterRoute ip best r = match r.matchLen ip with
      | none => best
      | some len => if best.all (·.2 < len) then some (r, len) else best := by
  unfold betterRoute Route.matchLen
  cases r.network with
  | none => rfl
  | some n => cases holds : n.contains ip <;> simp [Option.filter, holds]

/-- The first of the longest matches. -/
structure Picked (routes : List Route) (ip : IP) (r : Route) (len : Nat) : Prop where
  here : r.matchLen ip = some len
  split : ∃ before after, routes = before ++ r :: after ∧
    (∀ s ∈ before, ∀ n, s.matchLen ip = some n → n < len) ∧
    ∀ s ∈ after, ∀ n, s.matchLen ip = some n → n ≤ len

variable {len : Nat} {ip : IP}

theorem Picked.cons {rest : List Route} {r : Route}
    (h : Picked rest ip r len) {s : Route} (shorter : ∀ n, s.matchLen ip = some n → n < len) :
    Picked (s :: rest) ip r len := by
  obtain ⟨before, after, rfl, lt, le⟩ := h.split
  exact ⟨h.here, s :: before, after, rfl, forall_mem_cons.mpr ⟨shorter, lt⟩, le⟩

theorem foldl_betterRoute (ip : IP) (routes : List Route) (best : Option (Route × Nat)) :
    routes.foldl (betterRoute ip) best = best ∧
        (∀ s ∈ routes, ∀ n, s.matchLen ip = some n → ∃ b ∈ best, n ≤ b.2) ∨
      ∃ r len, routes.foldl (betterRoute ip) best = some (r, len) ∧ Picked routes ip r len ∧
        ∀ b ∈ best, b.2 < len := by
  induction routes generalizing best with
  | nil => exact .inl ⟨rfl, fun s hs => by cases hs⟩
  | cons route rest ih =>
    rw [foldl_cons, betterRoute_eq]
    cases matched : route.matchLen ip with
    | none =>
      rcases ih best with ⟨same, le⟩ | ⟨r, len, found, picked, lt⟩
      · exact .inl ⟨same, forall_mem_cons.mpr ⟨by simp [matched], le⟩⟩
      · exact .inr ⟨r, len, found, picked.cons (by simp [matched]), lt⟩
    | some m =>
      dsimp only
      by_cases longer : best.all (·.2 < m) = true
      · rw [if_pos longer]
        have lt : ∀ b ∈ best, b.2 < m := by cases best <;> simp_all
        rcases ih (some (route, m)) with ⟨same, le⟩ | ⟨r, len, found, picked, after⟩
        · exact .inr ⟨route, m, same, ⟨matched, [], rest, rfl, by simp, by simpa using le⟩, lt⟩
        have up : m < len := after _ rfl
        refine .inr ⟨r, len, found, picked.cons (by simpa [matched] using up), ?_⟩
        exact fun b hb => (lt b hb).trans up
      · rw [if_neg longer]
        have le : ∃ b ∈ best, m ≤ b.2 := by cases best <;> simp_all
        rcases ih best with ⟨same, le'⟩ | ⟨r, len, found, picked, lt⟩
        · exact .inl ⟨same, forall_mem_cons.mpr ⟨by simpa [matched] using le, le'⟩⟩
        obtain ⟨b, hb, below⟩ := le
        refine .inr ⟨r, len, found, picked.cons ?_, lt⟩
        simpa [matched] using below.trans_lt (lt b hb)

/-- **A lookup picks the first of the longest matches**, and nothing only if there is none. -/
theorem lookupTable_picks {dst : String} (read : parseIP dst = some ip)
    (routes : List Route) :
    lookupTable routes dst = none ∧ (∀ s ∈ routes, s.matchLen ip = none) ∨
      ∃ r len, lookupTable routes dst = some (r, len) ∧ Picked routes ip r len := by
  rw [lookupTable, read]
  rcases foldl_betterRoute ip routes none with ⟨none, le⟩ | ⟨r, len, found, picked, -⟩
  · exact .inl ⟨none, fun s hs => eq_none_iff_forall_not_mem.mpr fun n hn => by
      simpa using le s hs n hn⟩
  · exact .inr ⟨r, len, found, picked⟩

theorem mem_of_lookupTable {routes : List Route} {dst : String} {r : Route}
    (h : lookupTable routes dst = some (r, len)) :
    r ∈ routes ∧ ∃ ip n, parseIP dst = some ip ∧ r.network = some n ∧ n.contains ip = true ∧
      n.ones = len := by
  cases read : parseIP dst with
  | none => simp [lookupTable, read] at h
  | some ip =>
    rcases lookupTable_picks read routes with ⟨none, -⟩ | ⟨r', len', found, picked⟩
    · simp [none] at h
    cases found.symm.trans h
    obtain ⟨before, after, rfl, -⟩ := picked.split
    obtain ⟨n, held, ones⟩ := map_eq_some_iff.mp picked.here
    obtain ⟨network, holds⟩ := filter_eq_some_iff.mp held
    exact ⟨by simp, ip, n, rfl, network, holds, ones⟩

/-! ## The walk -/

inductive TraceVerdict where
  | ok | warn | info | drop
deriving DecidableEq, Repr

structure TraceStep where
  title : String
  evidence : List String
  verdict : TraceVerdict
deriving DecidableEq, Repr

/-- The rule is tried for this mark: it names no interface, the kernel does not own its
preference, and the mark matches. -/
def Rule.applies (r : Rule) (mark : Word) : Bool :=
  r.oifName == "" && !isStockRule r.pref && !(r.fwMask != 0 && (mark &&& r.fwMask) != r.fwMark)

/-- What a walk answers: the step it reports, the route and the rule that decided. -/
abbrev WalkResult := TraceStep × Option Route × Option Rule

/-- The walk over rules already in order, with the evidence so far. -/
def walkFrom (routes : Nat → List Route) (dst : String) (mark : Word) :
    List Rule → List String → WalkResult
  | [], evidence =>
    ({ title := "Policy walk", verdict := .drop
       evidence := evidence ++ ["no rule produced a route"] }, none, none)
  | r :: rest, evidence =>
    if !r.applies mark then walkFrom routes dst mark rest evidence
    else if r.blackhole then
      ({ title := "Policy walk", verdict := .drop
         evidence := evidence ++ ["pref " ++ toString r.pref ++ ": blackhole — matched fwmark " ++
           hex r.fwMark ++ "/" ++ hex r.fwMask] }, none, some r)
    else match lookupTable (routes r.table) dst with
      | none =>
        walkFrom routes dst mark rest (evidence ++ ["pref " ++ toString r.pref ++
          ": lookup table " ++ toString r.table ++ " — no route, the walk continues"])
      | some (best, plen) =>
        if r.suppressSet && plen ≤ r.suppressPrefixLen then
          walkFrom routes dst mark rest (evidence ++ ["pref " ++ toString r.pref ++ ": table " ++
            toString r.table ++ " matched /" ++ toString plen ++ " but suppress_prefixlength " ++
            toString r.suppressPrefixLen ++ " suppresses it"])
        else
          ({ title := "Policy walk", verdict := .ok
             evidence := evidence ++ ["pref " ++ toString r.pref ++ ": table " ++
               toString r.table ++ " → " ++ best.dest ++ " dev " ++ best.oifName] },
           some best, some r)

/-- `sort.SliceStable` by preference. -/
def byPref (rules : List Rule) : List Rule := rules.insertionSort fun a b => a.pref ≤ b.pref

def walkPolicy (rules : List Rule) (routes : Nat → List Route) (dst : String) (mark : Word) :
    WalkResult :=
  walkFrom routes dst mark (byPref rules) []

/-! ## What a walk went through -/

/-- The rule answers with this route: its table's longest match, not suppressed. -/
structure Rule.Answers (r : Rule) (routes : Nat → List Route) (dst : String) (mark : Word)
    (route : Route) (plen : Nat) : Prop where
  applies : r.applies mark = true
  lookup : r.blackhole = false
  found : lookupTable (routes r.table) dst = some (route, plen)
  kept : (r.suppressSet && decide (plen ≤ r.suppressPrefixLen)) = false

section Walk
variable {routes : Nat → List Route} {dst : String} {mark : Word}

theorem walkFrom_cons (r : Rule) (rest : List Rule) (evidence : List String) :
    (∃ evidence', walkFrom routes dst mark (r :: rest) evidence =
        walkFrom routes dst mark rest evidence' ∧
        (r.applies mark = true → r.blackhole = false) ∧
        ∀ route plen, ¬ r.Answers routes dst mark route plen) ∨
      (r.applies mark = true ∧ r.blackhole = true ∧ ∃ step, step.verdict = .drop ∧
        walkFrom routes dst mark (r :: rest) evidence = (step, none, some r)) ∨
      ∃ route plen step, r.Answers routes dst mark route plen ∧
        walkFrom routes dst mark (r :: rest) evidence = (step, some route, some r) := by
  rw [walkFrom]
  by_cases ha : r.applies mark = true
  · rw [if_neg (by simp [ha])]
    by_cases hb : r.blackhole = true
    · rw [if_pos hb]
      exact .inr (.inl ⟨ha, hb, _, rfl, rfl⟩)
    rw [if_neg hb]
    have hb : r.blackhole = false := by simpa using hb
    cases hf : lookupTable (routes r.table) dst with
    | none =>
      refine .inl ⟨_, rfl, fun _ => hb, ?_⟩
      intro route plen answers
      rw [answers.found] at hf
      cases hf
    | some found =>
      obtain ⟨best, plen⟩ := found
      dsimp only
      by_cases hs : (r.suppressSet && decide (plen ≤ r.suppressPrefixLen)) = true
      · rw [if_pos hs]
        refine .inl ⟨_, rfl, fun _ => hb, ?_⟩
        intro route len answers
        obtain ⟨rfl, rfl⟩ := Prod.mk.inj (Option.some.inj (hf.symm.trans answers.found))
        rw [answers.kept] at hs
        cases hs
      · rw [if_neg hs]
        exact .inr (.inr ⟨best, plen, _, ⟨ha, hb, hf, by simpa using hs⟩, rfl⟩)
  · rw [if_pos (by simpa using ha)]
    exact .inl ⟨evidence, rfl, fun h => absurd h ha, fun _ _ answers => ha answers.applies⟩

def Rule.Passes (r : Rule) (routes : Nat → List Route) (dst : String) (mark : Word) : Prop :=
  (r.applies mark = true → r.blackhole = false) ∧
    ∀ route plen, ¬ r.Answers routes dst mark route plen

/-- What a walk over rules in order comes to: the first rule that does not pass decides. -/
def Walked (rules : List Rule) (routes : Nat → List Route) (dst : String) (mark : Word)
    (result : WalkResult) : Prop :=
  (∃ before r after, rules = before ++ r :: after ∧ (∀ q ∈ before, q.Passes routes dst mark) ∧
    (r.applies mark = true ∧ r.blackhole = true ∧
        (∃ step, step.verdict = .drop ∧ result = (step, none, some r)) ∨
      ∃ route plen step, r.Answers routes dst mark route plen ∧
        result = (step, some route, some r))) ∨
  (∀ q ∈ rules, q.Passes routes dst mark) ∧
    ∃ step, step.verdict = .drop ∧ result = (step, none, none)

theorem walkFrom_walked (rules : List Rule) (evidence : List String) :
    Walked rules routes dst mark (walkFrom routes dst mark rules evidence) := by
  induction rules generalizing evidence with
  | nil => exact .inr ⟨by simp, _, rfl, rfl⟩
  | cons r rest ih =>
    rcases walkFrom_cons r rest evidence with ⟨evidence', same, passes⟩ | decided | decided
    · rw [same]
      rcases ih evidence' with ⟨before, q, after, rfl, pass, decided⟩ | ⟨pass, dropped⟩
      · exact .inl ⟨r :: before, q, after, rfl, forall_mem_cons.mpr ⟨passes, pass⟩, decided⟩
      · exact .inr ⟨forall_mem_cons.mpr ⟨passes, pass⟩, dropped⟩
    · obtain ⟨applies, blackhole, dropped⟩ := decided
      exact .inl ⟨[], r, rest, rfl, by simp, .inl ⟨applies, blackhole, dropped⟩⟩
    · exact .inl ⟨[], r, rest, rfl, by simp, .inr decided⟩

variable {step : TraceStep}

theorem Walked.verdict {rules : List Rule} {rule : Option Rule}
    (h : Walked rules routes dst mark (step, none, rule)) : step.verdict = .drop := by
  obtain ⟨_, _, _, -, -, ⟨-, -, _, drop, same⟩ | ⟨_, _, _, -, found⟩⟩ | ⟨-, _, drop, same⟩ := h
  · cases same; exact drop
  · cases found
  · cases same; exact drop

theorem byPref_sorted (rules : List Rule) :
    (byPref rules).Pairwise fun a b => a.pref ≤ b.pref := by
  exact pairwise_insertionSort _ rules

variable {rules : List Rule} {r : Rule} {route : Route}

@[simp] theorem mem_byPref : r ∈ byPref rules ↔ r ∈ rules :=
  mem_insertionSort _

theorem walkPolicy_walked :
    Walked (byPref rules) routes dst mark (walkPolicy rules routes dst mark) :=
  walkFrom_walked _ _

theorem before_or_le {before after : List Rule} {b : Rule}
    (order : byPref rules = before ++ b :: after) (hr : r ∈ rules) :
    r ∈ before ∨ b.pref ≤ r.pref := by
  have sorted := byPref_sorted rules
  have hr := mem_byPref.mpr hr
  rw [order] at hr sorted
  refine (mem_append.mp hr).imp_right fun later => ?_
  rcases mem_cons.mp later with rfl | later
  · exact Nat.le_refl _
  · exact rel_of_pairwise_cons (pairwise_append.mp sorted).2.1 later

variable {rule : Option Rule} {plen : Nat} {allowed : Nat → Nat → Prop} {g i : Word}

/-- **A walk that found a route** went through an applicable lookup that answers with it, at or
below the preference of every applicable blackhole. -/
theorem walkPolicy_route
    (h : walkPolicy rules routes dst mark = (step, some route, rule)) :
    ∃ r ∈ rules, rule = some r ∧ (∃ plen, r.Answers routes dst mark route plen) ∧
      ∀ b ∈ rules, b.applies mark = true → b.blackhole = true → r.pref ≤ b.pref := by
  obtain ⟨before, r, after, order, pass, decided⟩ | ⟨-, _, -, none⟩ := h ▸ walkPolicy_walked
  · obtain ⟨-, -, _, -, none⟩ | ⟨_, plen, _, answers, found⟩ := decided
    · cases none
    · cases found
      refine ⟨r, mem_byPref.mp (by simp [order]), rfl, ⟨plen, answers⟩,
        fun b hb applies black => ?_⟩
      rcases before_or_le order hb with passed | le
      · simp [(pass b passed).1 applies] at black
      · exact le
  · cases none

/-- **A walk without a route** met an applicable blackhole no later than any lookup that would have
answered. -/
theorem walkPolicy_drop
    (h : walkPolicy rules routes dst mark = (step, none, rule)) (hr : r ∈ rules)
    (answers : r.Answers routes dst mark route plen) :
    ∃ b ∈ rules, b.applies mark = true ∧ b.blackhole = true ∧ b.pref ≤ r.pref := by
  obtain ⟨before, b, after, order, pass, decided⟩ | ⟨pass, -⟩ := h ▸ walkPolicy_walked
  · obtain ⟨applies, black, -⟩ | ⟨_, _, _, -, found⟩ := decided
    · refine ⟨b, mem_byPref.mp (by simp [order]), applies, black, ?_⟩
      rcases before_or_le order hr with passed | le
      · exact absurd answers ((pass r passed).2 route plen)
      · exact le
    · cases found
  · exact absurd answers ((pass r (mem_byPref.mpr hr)).2 route plen)

/-! ## What a walk resolves from -/

/-- The walk ends in a drop, or in a route that a rule's table gives for the destination, where
`allowed` holds of the table and of the length that won. -/
def Resolves (rules : List Rule) (routes : Nat → List Route) (dst : String) (mark : Word)
    (allowed : Nat → Nat → Prop) : Prop :=
  (∃ step rule, walkPolicy rules routes dst mark = (step, none, rule) ∧ step.verdict = .drop) ∨
    ∃ step route r plen, walkPolicy rules routes dst mark = (step, some route, some r) ∧
      lookupTable (routes r.table) dst = some (route, plen) ∧ allowed r.table plen

/-- To say what a walk resolves from, say it of every rule that may answer ahead of the
blackholes. -/
theorem resolves_of_answers (h : ∀ r ∈ rules, ∀ route plen, r.Answers routes dst mark route plen →
      (∀ b ∈ rules, b.applies mark = true → b.blackhole = true → r.pref ≤ b.pref) →
      allowed r.table plen) : Resolves rules routes dst mark allowed := by
  rcases hw : walkPolicy rules routes dst mark with ⟨step, found, rule⟩
  cases found with
  | none => exact .inl ⟨step, rule, hw, (hw ▸ walkPolicy_walked).verdict⟩
  | some route =>
    obtain ⟨r, hr, rfl, ⟨plen, answers⟩, below⟩ := walkPolicy_route hw
    exact .inr ⟨step, route, r, plen, hw, answers.found, h r hr route plen answers below⟩

/-- Where a walk resolves only as allowed, a rule that answers ahead of every applicable blackhole
makes some rule ahead of the blackholes answer as allowed. -/
theorem exists_answer_of_resolves (h : Resolves rules routes dst mark allowed) (hr : r ∈ rules)
    (answers : r.Answers routes dst mark route plen)
    (first : ∀ b ∈ rules, b.applies mark = true → b.blackhole = true → r.pref < b.pref) :
    ∃ a ∈ rules, ∃ route plen, a.Answers routes dst mark route plen ∧ allowed a.table plen := by
  rcases h with ⟨step, rule, hw, -⟩ | ⟨step, found, a, len, hw, hl, ok⟩
  · obtain ⟨b, hb, applies, blackhole, le⟩ := walkPolicy_drop hw hr answers
    exact absurd le (Nat.not_le.mpr (first b hb applies blackhole))
  obtain ⟨a', ha, hrule, ⟨plen', answers'⟩, -⟩ := walkPolicy_route hw
  cases hrule
  obtain ⟨-, rfl⟩ := Prod.mk.inj (Option.some.inj (hl.symm.trans answers'.found))
  exact ⟨a, ha, _, _, answers', ok⟩

/-! ## When a rule applies -/

theorem applies_of_unmasked (oif : r.oifName = "")
    (pref : isStockRule r.pref = false) (mask : r.fwMask = 0) : r.applies mark = true := by
  simp [Rule.applies, oif, pref, mask]

section
variable (h : r.applies mark = true)
include h

theorem oifName_eq_of_applies : r.oifName = "" := by
  simp only [Rule.applies, Bool.and_eq_true, beq_iff_eq] at h
  exact h.1.1

private theorem fwMark_eq_of_applies (mask : r.fwMask ≠ 0) : mark &&& r.fwMask = r.fwMark := by
  simp only [Rule.applies, Bool.and_eq_true, Bool.not_eq_true', Bool.and_eq_false_iff,
    bne_eq_false_iff_eq] at h
  exact h.2.resolve_left mask

theorem group_eq_of_applies (mask : r.fwMask = maskGroup) (fw : r.fwMark = groupMark g)
    (fits : group (groupMark g) = g) : group mark = g := by
  rw [← and_maskGroup_eq_iff fits, ← fw, ← mask]
  exact fwMark_eq_of_applies h (by rw [mask]; decide)

theorem pin_eq_of_applies (mask : r.fwMask = maskPin) (fw : r.fwMark = pinMark i)
    (fits : pin (pinMark i) = i) : pin mark = i := by
  rw [← and_maskPin_eq_iff fits, ← fw, ← mask]
  exact fwMark_eq_of_applies h (by rw [mask]; decide)

end

theorem applies_of_group_eq (oif : r.oifName = "")
    (pref : isStockRule r.pref = false) (mask : r.fwMask = maskGroup)
    (fw : r.fwMark = groupMark g) (fits : group (groupMark g) = g) (h : group mark = g) :
    r.applies mark = true := by
  have := (and_maskGroup_eq_iff fits).mpr h
  simp [Rule.applies, oif, pref, mask, fw, this]

theorem applies_of_pin_eq (oif : r.oifName = "")
    (pref : isStockRule r.pref = false) (mask : r.fwMask = maskPin)
    (fw : r.fwMark = pinMark i) (fits : pin (pinMark i) = i) (h : pin mark = i) :
    r.applies mark = true := by
  have := (and_maskPin_eq_iff fits).mpr h
  simp [Rule.applies, oif, pref, mask, fw, this]

end Walk

/-! ## The trace and the kernel -/

/-- The length of the longest match. -/
structure Longest (routes : List Route) (ip : IP) (len : Nat) : Prop where
  reached : ∃ s ∈ routes, s.matchLen ip = some len
  most : ∀ s ∈ routes, ∀ n, s.matchLen ip = some n → n ≤ len

/-- Of the routes with the longest match, the first listed has the lowest metric. -/
def ByMetric (ip : IP) (routes : List Route) : Prop :=
  ∀ len, Longest routes ip len → ∀ r ∈ routes.find? (·.matchLen ip = some len),
    ∀ s ∈ routes, s.matchLen ip = some len → r.metric ≤ s.metric

/-- The kernel's choice: the longest match, and of these the lowest metric. -/
structure Best (routes : List Route) (ip : IP) (r : Route) (len : Nat) : Prop where
  mem : r ∈ routes
  here : r.matchLen ip = some len
  longest : ∀ s ∈ routes, ∀ n, s.matchLen ip = some n → n ≤ len
  lowest : ∀ s ∈ routes, s.matchLen ip = some len → r.metric ≤ s.metric

section Kernel
variable {routes : List Route} {r : Route}

theorem Picked.mem (h : Picked routes ip r len) : r ∈ routes := by
  obtain ⟨before, after, rfl, -⟩ := h.split
  simp

theorem Picked.longest (h : Picked routes ip r len) : Longest routes ip len := by
  refine ⟨⟨r, h.mem, h.here⟩, fun s hs n hn => ?_⟩
  obtain ⟨here, before, after, rfl, lt, le⟩ := h
  rcases mem_append.mp hs with shorter | later
  · exact (lt s shorter n hn).le
  · rcases mem_cons.mp later with rfl | later
    · exact (Option.some.inj (hn.symm.trans here)).le
    · exact le s later n hn

/-- What is picked is the first listed of the longest matches. -/
theorem Picked.first (h : Picked routes ip r len) :
    routes.find? (·.matchLen ip = some len) = some r := by
  obtain ⟨here, before, after, rfl, lt, -⟩ := h
  refine find?_eq_some_iff_append.mpr ⟨by simpa using here, before, after, rfl, ?_⟩
  intro s hs
  have shorter : s.matchLen ip ≠ some len := fun same => Nat.lt_irrefl len (lt s hs len same)
  simpa using shorter

/-- The pick is the kernel's choice just when the longest matches are listed by metric. -/
theorem Picked.best_iff (h : Picked routes ip r len) :
    Best routes ip r len ↔ ByMetric ip routes := by
  constructor
  · intro best len' longest r' first s hs same
    have equal : len' = len := by
      obtain ⟨q, hq, long⟩ := longest.reached
      exact Nat.le_antisymm (best.longest q hq len' long) (longest.most r h.mem len h.here)
    subst equal
    obtain rfl := Option.some.inj (h.first.symm.trans first)
    exact best.lowest s hs same
  · intro listed
    exact ⟨h.mem, h.here, h.longest.most, fun s hs same => listed len h.longest r h.first s hs same⟩

end Kernel

/-- **The trace answers as the kernel would just where a table lists its longest matches by
metric**: a lookup picks the kernel's choice, and the first rule by preference that does not pass
decides the walk. The walk is right for every table. -/
theorem trace_answers {dst : String} {ip : IP} (read : parseIP dst = some ip) (table : List Route)
    (rules : List Rule) (routes : Nat → List Route) (mark : Word) :
    ((lookupTable table dst = none ∧ (∀ s ∈ table, s.matchLen ip = none) ∨
      ∃ r len, lookupTable table dst = some (r, len) ∧ Best table ip r len) ∧
    Walked (byPref rules) routes dst mark (walkPolicy rules routes dst mark)) ↔
      ByMetric ip table := by
  rw [and_iff_left walkPolicy_walked]
  rcases lookupTable_picks read table with ⟨unfound, unmatched⟩ | ⟨r, len, found, picked⟩
  · refine iff_of_true (.inl ⟨unfound, unmatched⟩) fun len longest => ?_
    obtain ⟨s, hs, matched⟩ := longest.reached
    simp [unmatched s hs] at matched
  · rw [← picked.best_iff]
    constructor
    · rintro (⟨unfound, -⟩ | ⟨r', len', found', best⟩)
      · simp [found] at unfound
      · cases found.symm.trans found'
        exact best
    · exact fun best => .inr ⟨r, len, found, best⟩

/-- Two default routes, the one of lower metric first. -/
def twoDefaults : List Route :=
  [{ dest := "default", metric := 100 }, { dest := "default", metric := 200 }]

theorem trace_answers_defaults : ∃ r len, lookupTable twoDefaults "1.1.1.1" = some (r, len) ∧
    Best twoDefaults (ofV4 16843009#32) r len := by
  have listed : ByMetric (ofV4 16843009#32) twoDefaults := by
    intro len _ r first s hs same
    have zero : ∀ s ∈ twoDefaults, s.matchLen (ofV4 16843009#32) = some 0 := by decide
    cases (zero s hs).symm.trans same
    have lowest : ∀ s ∈ twoDefaults, 100 ≤ s.metric := by decide
    cases first.symm.trans (by decide : _ = some ({ dest := "default", metric := 100 } : Route))
    exact lowest s hs
  exact ((trace_answers (by decide) twoDefaults [] (fun _ => []) 0).mpr listed).1.resolve_left
    fun none => absurd none.1 (by decide)

/-- **The metric is not read**: of two default routes the first one is picked. -/
theorem higher_metric_picked : ∃ r s : Route, lookupTable [r, s] "1.1.1.1" = some (r, 0) ∧
    lookupTable [s] "1.1.1.1" = some (s, 0) ∧ s.metric < r.metric :=
  ⟨{ dest := "default", metric := 200 }, { dest := "default", metric := 100 }, by decide, by decide,
    by decide⟩

end NasnetPanel.Network
