import NasnetPanel.Jobs.Text

/-!
# Node.ReverseDelete — deleting a reverse tunnel

`DeleteReverseTunnel` refuses where `reverseTagInUse` finds a rule or balancer of the portal node
that names the tunnel's tag. The rules and balancers are those of that node, their names printable;
the reads succeed, and the pushes after the deletion are left out.

A selector is compared with the tag as a whole, while Xray takes it for the start of a tag. A
selector that is only the start of the tag is not found (`deleted_while_selected`), and then nothing
refuses the deletion unless something else names the tag (`unused_of_deleted`).
-/

namespace NasnetPanel.Node

structure RoutingRule where
  id : Nat
  ruleTag : String := ""
  remark : String := ""
  outboundTag : String

structure BalancingRule where
  tag : String
  fallbackTag : String := ""
  outboundSelectors : List String

structure ReverseTunnel where
  portalNodeID : Option Nat
  portalTag : String
  ruleID : Option Nat

def routingRuleLabel (rule : RoutingRule) : String :=
  if rule.remark ≠ "" then rule.remark
  else if rule.ruleTag ≠ "" then rule.ruleTag
  else "#" ++ toString rule.id

def BalancingRule.uses (bal : BalancingRule) (tag : String) : Option String :=
  if bal.fallbackTag = tag then
    some ("balancer \"" ++ bal.tag ++ "\" falls back to " ++ tag ++ "; change it first")
  else if bal.outboundSelectors.any fun sel => Jobs.trimSpace sel.toList = tag.toList then
    some ("balancer \"" ++ bal.tag ++ "\" still selects " ++ tag ++ "; change it first")
  else none

def reverseTagInUse (rules : List RoutingRule) (balancers : List BalancingRule) (tag : String)
    (ownRule : Option Nat) : Option String :=
  match rules.find? fun rule => rule.outboundTag = tag ∧ ownRule ≠ some rule.id with
  | some rule => some ("routing rule \"" ++ routingRuleLabel rule ++
      "\" still sends traffic to " ++ tag ++ "; change it first")
  | none => balancers.findSome? (·.uses tag)

/-- The rules that remain. -/
def deleteReverseTunnel (t : ReverseTunnel) (rules : List RoutingRule)
    (balancers : List BalancingRule) : Except String (List RoutingRule) :=
  match t.portalNodeID.bind fun _ => reverseTagInUse rules balancers t.portalTag t.ruleID with
  | some err => .error err
  | none => .ok (rules.filter fun rule => t.ruleID ≠ some rule.id)

/-! ## What the check finds -/

/-- Another rule, a fallback or a whole selector names the tunnel's tag. -/
def ReverseTunnel.Named (t : ReverseTunnel) (rules : List RoutingRule)
    (balancers : List BalancingRule) : Prop :=
  (∃ rule ∈ rules, rule.outboundTag = t.portalTag ∧ t.ruleID ≠ some rule.id) ∨
  ∃ bal ∈ balancers, bal.fallbackTag = t.portalTag ∨
    ∃ sel ∈ bal.outboundSelectors, Jobs.trimSpace sel.toList = t.portalTag.toList

/-- Whether Xray takes a selector for one of this tag. -/
def hasPrefix (tag start : String) : Bool := start.toList.isPrefixOf tag.toList

/-- No rule, fallback or selector sends traffic to the tag. -/
structure Unused (tag : String) (rules : List RoutingRule) (balancers : List BalancingRule) :
    Prop where
  rules : ∀ rule ∈ rules, rule.outboundTag ≠ tag
  fallbacks : ∀ bal ∈ balancers, bal.fallbackTag ≠ tag
  selectors : ∀ bal ∈ balancers, ∀ sel ∈ bal.outboundSelectors, hasPrefix tag sel = false

variable {t : ReverseTunnel} {rules remaining : List RoutingRule} {balancers : List BalancingRule}

theorem uses_eq_none {bal : BalancingRule} {tag : String} :
    bal.uses tag = none ↔ ¬ (bal.fallbackTag = tag ∨
      ∃ sel ∈ bal.outboundSelectors, Jobs.trimSpace sel.toList = tag.toList) := by
  unfold BalancingRule.uses
  by_cases falls : bal.fallbackTag = tag
  · simp [falls]
  · simp [falls]

/-- The check finds nothing just when nothing names the tag. -/
theorem reverseTagInUse_eq_none :
    reverseTagInUse rules balancers t.portalTag t.ruleID = none ↔ ¬ t.Named rules balancers := by
  unfold reverseTagInUse ReverseTunnel.Named
  rw [not_or]
  cases found : rules.find? fun rule =>
      rule.outboundTag = t.portalTag ∧ t.ruleID ≠ some rule.id with
  | some rule =>
    have named : ∃ rule ∈ rules, rule.outboundTag = t.portalTag ∧ t.ruleID ≠ some rule.id :=
      ⟨rule, List.mem_of_find?_eq_some found, by simpa using List.find?_some found⟩
    simp [named]
  | none =>
    have unnamed : ¬ ∃ rule ∈ rules, rule.outboundTag = t.portalTag ∧ t.ruleID ≠ some rule.id := by
      rintro ⟨rule, mem, names⟩
      exact List.find?_eq_none.mp found rule mem (by simpa using names)
    simp only [unnamed, not_false_eq_true, true_and, List.findSome?_eq_none_iff, uses_eq_none]
    exact ⟨fun free ⟨bal, mem, uses⟩ => free bal mem uses, fun free bal mem uses =>
      free ⟨bal, mem, uses⟩⟩

/-- A deletion of a tunnel with a portal node goes through just when nothing names its tag, and
then takes the tunnel's own rule with it. -/
theorem deleteReverseTunnel_eq_ok (portal : t.portalNodeID ≠ none) :
    deleteReverseTunnel t rules balancers = .ok remaining ↔
      ¬ t.Named rules balancers ∧ remaining = rules.filter fun rule => t.ruleID ≠ some rule.id := by
  obtain ⟨node, here⟩ := Option.ne_none_iff_exists'.mp portal
  rw [← reverseTagInUse_eq_none, deleteReverseTunnel, here, Option.bind_some]
  cases reverseTagInUse rules balancers t.portalTag t.ruleID with
  | some err => simp
  | none => simp [eq_comm]

/-- **A tunnel that is deleted was not in use, just where the check refuses it or no selector is a
start of its tag.** -/
theorem unused_of_deleted (portal : t.portalNodeID ≠ none) :
    (∀ remaining, deleteReverseTunnel t rules balancers = .ok remaining →
      Unused t.portalTag remaining balancers) ↔
    t.Named rules balancers ∨
      ∀ bal ∈ balancers, ∀ sel ∈ bal.outboundSelectors, hasPrefix t.portalTag sel = false := by
  simp only [deleteReverseTunnel_eq_ok portal]
  constructor
  · intro unused
    by_cases named : t.Named rules balancers
    · exact .inl named
    · exact .inr (unused _ ⟨named, rfl⟩).selectors
  · rintro (named | free) remaining ⟨unnamed, rfl⟩
    · exact absurd named unnamed
    refine ⟨fun rule mem same => ?_, fun bal mem same => ?_, free⟩
    · obtain ⟨listed, own⟩ := List.mem_filter.mp mem
      exact unnamed (.inl ⟨rule, listed, same, by simpa using own⟩)
    · exact unnamed (.inr ⟨bal, mem, .inl same⟩)

/-- The tunnel of rule 5, another rule, and a balancer with a selector. -/
def tunnel : ReverseTunnel := ⟨some 1, "rev-t1", some 5⟩
def tunnelRules : List RoutingRule := [⟨5, "", "", "rev-t1"⟩, ⟨6, "", "", "direct"⟩]
def selecting (sel : String) : List BalancingRule := [⟨"b", "", [sel]⟩]

theorem unused_direct :
    deleteReverseTunnel tunnel tunnelRules (selecting "direct") = .ok [⟨6, "", "", "direct"⟩] ∧
      Unused "rev-t1" [⟨6, "", "", "direct"⟩] (selecting "direct") :=
  ⟨rfl, (@unused_of_deleted tunnel tunnelRules (selecting "direct") (by decide)).mpr
    (.inr (by decide)) _ rfl⟩

/-- The tunnel is deleted, and the balancer selects it. -/
theorem deleted_while_selected :
    (deleteReverseTunnel tunnel tunnelRules (selecting "rev-")).isOk = true ∧
      hasPrefix "rev-t1" "rev-" = true := by
  decide

end NasnetPanel.Node
