import Mathlib.Data.List.Sort
import NasnetPanel.Network.Inet
import NasnetPanel.Network.Uplink

/-!
# Network.FilterInput — which ports the box opens, and for whom

`deriveFilterInput` is `DeriveFilterInput`: the input chain's accepts from the panel, the node hub,
the inbounds, the forwards that end on the box and the manual port mappings. Each row asks for one
protocol and port on some uplinks (an `InputAccept`); of the asks for one protocol and port the
first is taken (`offer`).

`Wanted` says what the chain is for: the rows that ask for a port on an uplink. `isOpen_iff` says
what is open on one: the panel's port, those of the hub and the inbounds, and what the first row of
a port (`firstRow`) names. The chain opens what is wanted (`wanted_is_open`) unless a row with a key
takes a port from a later row of another uplink, and nothing else (`open_is_wanted`) unless a
forward that names a lost uplink is the first of its port, since it is opened on all of them.
-/

namespace NasnetPanel.Network
open Inet List

/-! ## Rows -/

structure InboundSpec where
  tag : String
  proto : String
  port : Int
  enabled : Bool
  /-- Never asked for upstream. -/
  noAutoMap : Bool := false
deriving DecidableEq, Repr

structure PortForward where
  id : Nat
  uplinkKey : String := ""
  proto : String
  dport : Int
  toAddr : String
  toPort : Int
  comment : String := ""
  enabled : Bool := true
deriving DecidableEq, Repr

structure PortMapRule where
  uplinkKey : String := ""
  proto : String
  port : Int
  /-- The external port to ask for; 0 asks for `port`. -/
  externalHint : Int := 0
  comment : String := ""
  enabled : Bool := true
deriving DecidableEq, Repr

structure FilterInputSpec where
  uplinks : List Uplink
  localIfNames : List String := ["lo"]
  panelPort : Int := 0
  /-- 0 when the hub is off. -/
  hubPort : Int := 0
  /-- The lines clients dial in on. -/
  advertisedIfNames : List String := []
  inbounds : List InboundSpec := []
  portForwards : List PortForward := []
  portMapRules : List PortMapRule := []
  /-- Empty while port mapping is off. -/
  portMapUplinks : List String := []
  twoWANNoLAN : Bool := false

structure InputAccept where
  ifNames : List String
  proto : String
  port : Int
  comment : String
deriving DecidableEq, Repr

/-- The box's own exposure; everything else is dropped. -/
structure FilterInput where
  localIfNames : List String
  accepts : List InputAccept
  portMapReplyIfNames : List String := []
  portMapReplyPort : Int := 0
deriving DecidableEq, Repr

/-! ## Asks -/

def portMapLocalPort : Int := 5350

def allUplinks (spec : FilterInputSpec) : List String :=
  (spec.uplinks.map (·.ifName)).insertionSort (· ≤ ·)

@[simp] theorem mem_allUplinks {spec : FilterInputSpec} {name : String} :
    name ∈ allUplinks spec ↔ ∃ u ∈ spec.uplinks, u.ifName = name := by
  rw [allUplinks, mem_insertionSort, mem_map]

/-- The panel's accept: on the advertised lines, or everywhere when it would be out of reach. -/
def panelAccepts (spec : FilterInputSpec) : List InputAccept :=
  if spec.panelPort ≤ 0 then []
  else if spec.advertisedIfNames.isEmpty then
    [{ ifNames := allUplinks spec, proto := "tcp", port := spec.panelPort
       comment := "panel (no advertised uplink recorded — accepted on all)" }]
  else if spec.twoWANNoLAN then
    [{ ifNames := allUplinks spec, proto := "tcp", port := spec.panelPort
       comment := "panel (no local network — accepted on every uplink)" }]
  else
    [{ ifNames := spec.advertisedIfNames, proto := "tcp", port := spec.panelPort
       comment := "panel, domestic uplinks only" }]

def hubAsk (spec : FilterInputSpec) : List InputAccept :=
  if spec.hubPort ≤ 0 then []
  else [{ ifNames := allUplinks spec, proto := "tcp", port := spec.hubPort
          comment := "reverse-mode node connections" }]

def inboundAsk (spec : FilterInputSpec) (ib : InboundSpec) : Option InputAccept :=
  if !ib.enabled || ib.port ≤ 0 then none
  else some { ifNames := allUplinks spec, proto := ib.proto, port := ib.port
              comment := "xray inbound " ++ ib.tag }

def PortForward.boxTerminated (pf : PortForward) : Bool := (parseIP pf.toAddr).any isLoopback

/-- The uplinks a row names: all of them without a key, else the last one of that key. A key that no
uplink has leaves the row's own fallback. -/
def namesFor (spec : FilterInputSpec) (uplinkKey : String) (fallback : List String) : List String :=
  if uplinkKey = "" then allUplinks spec
  else match (spec.uplinks.filter fun u => u.key = uplinkKey).getLast? with
    | some u => [u.ifName]
    | none => fallback

/-- A forward that names an unassigned uplink falls back on all of them. -/
def forwardAsk (spec : FilterInputSpec) (pf : PortForward) : Option InputAccept :=
  if !pf.enabled || !pf.boxTerminated then none
  else some { ifNames := namesFor spec pf.uplinkKey (allUplinks spec), proto := pf.proto
              port := pf.dport, comment := "box-terminated port forward" }

/-- A mapping that names an unassigned uplink is skipped. -/
def mappingAsk (spec : FilterInputSpec) (r : PortMapRule) : Option InputAccept :=
  let names := namesFor spec r.uplinkKey []
  if !r.enabled || names.isEmpty then none
  else some { ifNames := names, proto := r.proto, port := r.port
              comment := "upstream port mapping" }

inductive PortRow where
  | forward (pf : PortForward)
  | mapping (r : PortMapRule)
deriving DecidableEq, Repr

open PortRow

namespace PortRow

def proto : PortRow → String
  | forward pf => pf.proto
  | mapping r => r.proto

def port : PortRow → Int
  | forward pf => pf.dport
  | mapping r => r.port

def uplinkKey : PortRow → String
  | forward pf => pf.uplinkKey
  | mapping r => r.uplinkKey

def live : PortRow → Bool
  | forward pf => pf.enabled && pf.boxTerminated
  | mapping r => r.enabled

/-- Where the row asks when its uplink is not assigned. -/
def fallback (spec : FilterInputSpec) : PortRow → List String
  | forward _ => allUplinks spec
  | mapping _ => []

def ask (spec : FilterInputSpec) : PortRow → Option InputAccept
  | forward pf => forwardAsk spec pf
  | mapping r => mappingAsk spec r

end PortRow

def portRows (spec : FilterInputSpec) : List PortRow :=
  spec.portForwards.map .forward ++ spec.portMapRules.map .mapping

/-- The asks in the order they are met: the hub, the inbounds, the forwards, the mappings. -/
def asks (spec : FilterInputSpec) : List InputAccept :=
  hubAsk spec ++ spec.inbounds.filterMap (inboundAsk spec) ++
    (portRows spec).filterMap (PortRow.ask spec)

/-! ## The chain -/

/-- The accepts so far, and the protocols and ports that are taken. The source keeps the latter as
the texts `proto:port`. -/
structure Build where
  accepts : List InputAccept
  seen : List (String × Int) := []

/-- Take the ask unless its protocol and port are taken. -/
def offer (b : Build) (a : InputAccept) : Build :=
  if (a.proto, a.port) ∈ b.seen then b
  else { accepts := b.accepts ++ [a], seen := (a.proto, a.port) :: b.seen }

/-- `DeriveFilterInput`. Without an uplink there is nothing to filter. -/
def deriveFilterInput (spec : FilterInputSpec) : Option FilterInput :=
  if spec.uplinks.isEmpty then none
  else some
    { localIfNames := spec.localIfNames
      accepts := ((asks spec).foldl offer { accepts := panelAccepts spec }).accepts
      portMapReplyIfNames := spec.portMapUplinks
      portMapReplyPort := if spec.portMapUplinks.isEmpty then 0 else portMapLocalPort }

section Offer
variable {b : Build} {a : InputAccept} {l : List InputAccept} {proto : String} {port : Int}

def InputAccept.opens (proto : String) (port : Int) (a : InputAccept) : Bool :=
  a.proto == proto && a.port == port

theorem opens_iff : a.opens proto port = true ↔ a.proto = proto ∧ a.port = port := by
  simp [InputAccept.opens]

/-- **What one ask does**: of a port that is not taken it is accepted, and takes it. -/
theorem offer_step (free : (proto, port) ∉ b.seen) (c : InputAccept) :
    (a.opens proto port = true →
      (a ∈ (offer b c).accepts ↔ a ∈ b.accepts ∨ a = c)) ∧
    ((proto, port) ∈ (offer b c).seen ↔ c.opens proto port = true) := by
  unfold offer
  split
  next taken =>
    have other : ¬ c.opens proto port = true := fun here => by
      obtain ⟨rfl, rfl⟩ := opens_iff.mp here
      exact free taken
    refine ⟨fun opens => (or_iff_left ?_).symm, iff_of_false free other⟩
    rintro rfl
    exact other opens
  · refine ⟨fun _ => by simp, ?_⟩
    rw [mem_cons, or_iff_left free, Prod.mk.injEq, opens_iff]
    exact and_congr eq_comm eq_comm

theorem foldl_offer_taken (taken : (proto, port) ∈ b.seen) (opens : a.opens proto port = true) :
    a ∈ (l.foldl offer b).accepts ↔ a ∈ b.accepts := by
  induction l generalizing b with
  | nil => rfl
  | cons c l ih =>
    rw [foldl_cons]
    by_cases here : (c.proto, c.port) ∈ b.seen
    · rw [offer, if_pos here]
      exact ih taken
    · rw [offer, if_neg here, ih (mem_cons_of_mem _ taken), mem_append, mem_singleton]
      refine or_iff_left ?_
      rintro rfl
      obtain ⟨rfl, rfl⟩ := opens_iff.mp opens
      exact here taken

/-- **Of the asks for a port that is not taken, the first is accepted, and no other.** -/
theorem mem_foldl_offer (free : (proto, port) ∉ b.seen) (opens : a.opens proto port = true) :
    a ∈ (l.foldl offer b).accepts ↔
      a ∈ b.accepts ∨ l.find? (·.opens proto port) = some a := by
  induction l generalizing b with
  | nil => simp
  | cons c l ih =>
    obtain ⟨accepts, seen⟩ := offer_step (a := a) free c
    rw [foldl_cons]
    by_cases here : c.opens proto port = true
    · rw [foldl_offer_taken (seen.mpr here) opens, accepts opens, find?_cons_of_pos here,
        Option.some.injEq, eq_comm]
    · rw [ih (fun taken => here (seen.mp taken)), accepts opens, find?_cons_of_neg here]
      have other : a ≠ c := fun same => here (same ▸ opens)
      rw [or_iff_left other]

end Offer

/-! ## What a row's ask names -/

section Ask
variable {spec : FilterInputSpec} {r : PortRow} {a : InputAccept} {key : String}
  {others : List String}

theorem namesFor_empty : namesFor spec "" others = allUplinks spec := if_pos rfl

theorem namesFor_last (named : key ≠ "") {u : Uplink}
    (last : (spec.uplinks.filter fun u => u.key = key).getLast? = some u) :
    namesFor spec key others = [u.ifName] := by
  rw [namesFor, if_neg named, last]

/-- A key that no uplink has. -/
def Stale (spec : FilterInputSpec) (key : String) : Prop :=
  key ≠ "" ∧ ∀ u ∈ spec.uplinks, u.key ≠ key

instance : Decidable (Stale spec key) := inferInstanceAs (Decidable (_ ∧ _))

theorem namesFor_stale (stale : Stale spec key) : namesFor spec key others = others := by
  have none : (spec.uplinks.filter fun u => u.key = key).getLast? = none := by
    rw [getLast?_eq_none_iff, filter_eq_nil_iff]
    exact fun u hu same => stale.2 u hu (of_decide_eq_true same)
  rw [namesFor, if_neg stale.1, none]

/-- The interfaces that a row with a key some uplink has, or none, names are those of uplinks it
applies to. -/
theorem namesFor_uplinks (here : ¬ Stale spec key) {name : String}
    (mem : name ∈ namesFor spec key others) :
    ∃ u ∈ spec.uplinks, u.ifName = name ∧ (key = "" ∨ key = u.key) := by
  by_cases named : key = ""
  · rw [named, namesFor_empty, mem_allUplinks] at mem
    obtain ⟨u, hu, ifName⟩ := mem
    exact ⟨u, hu, ifName, .inl named⟩
  cases last : (spec.uplinks.filter fun u => u.key = key).getLast? with
  | some u =>
    obtain ⟨hu, same⟩ := mem_filter.mp (mem_of_getLast? last)
    rw [namesFor_last named last, mem_singleton] at mem
    exact ⟨u, hu, mem.symm, .inr (of_decide_eq_true same).symm⟩
  | none =>
    rw [getLast?_eq_none_iff, filter_eq_nil_iff] at last
    exact absurd ⟨named, fun u hu same => last u hu (decide_eq_true same)⟩ here

theorem namesFor_ne_nil (linked : spec.uplinks ≠ []) (here : ¬ Stale spec key) :
    namesFor spec key others ≠ [] := by
  by_cases named : key = ""
  · obtain ⟨u, hu⟩ := exists_mem_of_ne_nil _ linked
    rw [named, namesFor_empty]
    exact ne_nil_of_mem (mem_allUplinks.mpr ⟨u, hu, rfl⟩)
  cases last : (spec.uplinks.filter fun u => u.key = key).getLast? with
  | some u =>
    rw [namesFor_last named last]
    simp
  | none =>
    rw [getLast?_eq_none_iff, filter_eq_nil_iff] at last
    exact absurd ⟨named, fun u hu same => last u hu (decide_eq_true same)⟩ here

namespace PortRow

/-- The interfaces a row names. -/
def names (spec : FilterInputSpec) (r : PortRow) : List String :=
  namesFor spec r.uplinkKey (r.fallback spec)

/-- The row is enabled, for this protocol and port, and not a mapping of an uplink that is not
assigned. -/
def takes (spec : FilterInputSpec) (proto : String) (port : Int) (r : PortRow) : Bool :=
  r.live && r.proto == proto && r.port == port &&
    match r with
    | forward _ => true
    | mapping m => !decide (Stale spec m.uplinkKey)

end PortRow

theorem ask_some (h : r.ask spec = some a) :
    a.proto = r.proto ∧ a.port = r.port ∧ a.ifNames = r.names spec := by
  cases r with
  | forward pf =>
    simp only [ask, forwardAsk] at h
    split at h
    · cases h
    · cases h
      exact ⟨rfl, rfl, rfl⟩
  | mapping r =>
    simp only [ask, mappingAsk] at h
    split at h
    · cases h
    · cases h
      exact ⟨rfl, rfl, rfl⟩

theorem ask_isSome (linked : spec.uplinks ≠ []) :
    (r.ask spec).isSome = r.takes spec r.proto r.port := by
  cases r with
  | forward pf =>
    have ask : (forward pf).ask spec = forwardAsk spec pf := rfl
    rw [ask, forwardAsk]
    cases enabled : pf.enabled <;> cases box : pf.boxTerminated <;>
      simp [takes, live, enabled, box, proto, port]
  | mapping m =>
    have ask : (mapping m).ask spec = mappingAsk spec m := rfl
    rw [ask, mappingAsk]
    by_cases stale : Stale spec m.uplinkKey
    · simp [takes, stale, namesFor_stale stale]
    · have some : namesFor spec m.uplinkKey [] ≠ [] := namesFor_ne_nil linked stale
      cases enabled : m.enabled <;> simp [takes, live, enabled, stale, some, proto, port]

theorem takes_iff {proto : String} {port : Int} : r.takes spec proto port = true ↔
    r.proto = proto ∧ r.port = port ∧ r.takes spec r.proto r.port = true := by
  constructor
  · intro takes
    have same : r.proto = proto ∧ r.port = port := by
      simp only [PortRow.takes, Bool.and_eq_true, beq_iff_eq] at takes
      exact ⟨takes.1.1.2, takes.1.2⟩
    refine ⟨same.1, same.2, ?_⟩
    rwa [same.1, same.2]
  · rintro ⟨rfl, rfl, takes⟩
    exact takes

/-- The row whose ask for a port is met first. -/
def firstRow (spec : FilterInputSpec) (proto : String) (port : Int) : Option PortRow :=
  (portRows spec).find? (·.takes spec proto port)

theorem find?_rows (linked : spec.uplinks ≠ []) (proto : String) (port : Int) :
    ((portRows spec).filterMap (ask spec)).find? (·.opens proto port) =
      (firstRow spec proto port).bind (ask spec) := by
  rw [find?_filterMap, firstRow]
  congr 2
  funext r
  rw [Bool.eq_iff_iff, takes_iff, ← ask_isSome linked]
  cases asked : r.ask spec with
  | none => simp
  | some a =>
    obtain ⟨rfl', rfl'', -⟩ := ask_some asked
    simp [opens_iff, rfl', rfl'']

end Ask

/-! ## What is open -/

section Open
variable {spec : FilterInputSpec} {proto : String} {port : Int} {name : String}

def IsOpen (spec : FilterInputSpec) (name proto : String) (port : Int) : Prop :=
  ∃ f, deriveFilterInput spec = some f ∧
    ∃ a ∈ f.accepts, name ∈ a.ifNames ∧ a.proto = proto ∧ a.port = port

instance : Decidable (IsOpen spec name proto port) :=
  decidable_of_iff ((deriveFilterInput spec).any fun f => f.accepts.any fun a =>
      decide (name ∈ a.ifNames ∧ a.proto = proto ∧ a.port = port)) <| by
    simp [IsOpen, Option.any_eq_true, List.any_eq_true]

/-- The panel's own port, on an uplink where the panel answers. -/
def PanelOn (spec : FilterInputSpec) (name proto : String) (port : Int) : Prop :=
  0 < spec.panelPort ∧ proto = "tcp" ∧ port = spec.panelPort ∧
    (spec.advertisedIfNames = [] ∨ spec.twoWANNoLAN = true ∨ name ∈ spec.advertisedIfNames)

/-- A port of the hub or of an inbound, which are for every uplink. -/
def Everywhere (spec : FilterInputSpec) (proto : String) (port : Int) : Prop :=
  (0 < spec.hubPort ∧ proto = "tcp" ∧ port = spec.hubPort) ∨
    ∃ ib ∈ spec.inbounds, ib.enabled = true ∧ 0 < ib.port ∧ ib.proto = proto ∧ ib.port = port

instance : Decidable (PanelOn spec name proto port) := inferInstanceAs (Decidable (_ ∧ _))

instance : Decidable (Everywhere spec proto port) := inferInstanceAs (Decidable (_ ∨ _))

def fixedAsks (spec : FilterInputSpec) : List InputAccept :=
  hubAsk spec ++ spec.inbounds.filterMap (inboundAsk spec)

theorem names_of_fixed {a : InputAccept} (h : a ∈ fixedAsks spec) :
    a.ifNames = allUplinks spec := by
  rcases mem_append.mp h with h | h
  · unfold hubAsk at h
    split at h
    · cases h
    · rw [mem_singleton.mp h]
  · obtain ⟨ib, _, some⟩ := mem_filterMap.mp h
    unfold inboundAsk at some
    split at some
    · cases some
    · cases some
      rfl

theorem everywhere_iff :
    Everywhere spec proto port ↔ ∃ a ∈ fixedAsks spec, a.opens proto port = true := by
  constructor
  · rintro (⟨on, rfl, rfl⟩ | ⟨ib, mem, enabled, on, rfl, rfl⟩)
    · have ask : hubAsk spec = [_] := if_neg (by omega)
      refine ⟨_, mem_append_left _ (by rw [ask]; exact mem_singleton_self _), ?_⟩
      exact opens_iff.mpr ⟨rfl, rfl⟩
    · have ask : inboundAsk spec ib = some _ := if_neg (by simp [enabled, on])
      refine ⟨_, mem_append_right _ (mem_filterMap.mpr ⟨ib, mem, ask⟩), ?_⟩
      exact opens_iff.mpr ⟨rfl, rfl⟩
  · rintro ⟨a, mem, opens⟩
    obtain ⟨rfl, rfl⟩ := opens_iff.mp opens
    rcases mem_append.mp mem with mem | mem
    · unfold hubAsk at mem
      split at mem
      · cases mem
      next on =>
        rw [mem_singleton.mp mem]
        exact .inl ⟨by omega, rfl, rfl⟩
    · obtain ⟨ib, here, ask⟩ := mem_filterMap.mp mem
      unfold inboundAsk at ask
      split at ask
      · cases ask
      next on =>
        cases ask
        rw [Bool.or_eq_true, not_or] at on
        exact .inr ⟨ib, here, by simpa using on.1, by simpa using on.2, rfl, rfl⟩

theorem panelOn_iff {u : Uplink} (hu : u ∈ spec.uplinks) :
    PanelOn spec u.ifName proto port ↔
      ∃ a ∈ panelAccepts spec, u.ifName ∈ a.ifNames ∧ a.opens proto port = true := by
  have here : u.ifName ∈ allUplinks spec := mem_allUplinks.mpr ⟨u, hu, rfl⟩
  by_cases off : spec.panelPort ≤ 0
  · simp [PanelOn, panelAccepts, off]
  have one : ∃ a, panelAccepts spec = [a] ∧ a.proto = "tcp" ∧ a.port = spec.panelPort ∧
      (u.ifName ∈ a.ifNames ↔ spec.advertisedIfNames = [] ∨ spec.twoWANNoLAN = true ∨
        u.ifName ∈ spec.advertisedIfNames) := by
    unfold panelAccepts
    rw [if_neg off]
    split
    next none => exact ⟨_, rfl, rfl, rfl, iff_of_true here (.inl (by simpa using none))⟩
    next some =>
      split
      next two => exact ⟨_, rfl, rfl, rfl, iff_of_true here (.inr (.inl two))⟩
      next one =>
        refine ⟨_, rfl, rfl, rfl, ?_⟩
        rw [or_iff_right (by simpa using some), or_iff_right one]
  obtain ⟨a, only, tcp, panel, names⟩ := one
  rw [only]
  simp only [mem_singleton, exists_eq_left, names, opens_iff, tcp, panel, PanelOn]
  constructor
  · rintro ⟨-, rfl, rfl, on⟩
    exact ⟨on, rfl, rfl⟩
  · rintro ⟨on, rfl, rfl⟩
    exact ⟨by omega, rfl, rfl, on⟩

variable {a : InputAccept} {u : Uplink}

theorem accepts_iff {f : FilterInput} (derived : deriveFilterInput spec = some f)
    (opens : a.opens proto port = true) :
    a ∈ f.accepts ↔ a ∈ panelAccepts spec ∨ (asks spec).find? (·.opens proto port) = some a := by
  unfold deriveFilterInput at derived
  split at derived
  · cases derived
  · cases derived
    exact mem_foldl_offer not_mem_nil opens

theorem find?_asks (linked : spec.uplinks ≠ []) :
    (asks spec).find? (·.opens proto port) =
      ((fixedAsks spec).find? (·.opens proto port)).or
        ((firstRow spec proto port).bind (ask spec)) := by
  rw [asks, find?_append, find?_rows linked]
  rfl

/-- **What is open on an uplink**: the panel's port, a port of the hub or of an inbound, and what
the first row of a port asks for there. -/
theorem isOpen_iff (hu : u ∈ spec.uplinks) :
    IsOpen spec u.ifName proto port ↔ PanelOn spec u.ifName proto port ∨
      Everywhere spec proto port ∨ ∃ r ∈ firstRow spec proto port, u.ifName ∈ r.names spec := by
  have linked := ne_nil_of_mem hu
  have opened : IsOpen spec u.ifName proto port ↔ PanelOn spec u.ifName proto port ∨
      ∃ a, (asks spec).find? (·.opens proto port) = some a ∧ u.ifName ∈ a.ifNames := by
    obtain ⟨f, derived⟩ : ∃ f, deriveFilterInput spec = some f :=
      ⟨_, if_neg (by simpa using linked)⟩
    rw [panelOn_iff hu]
    constructor
    · rintro ⟨g, same, a, mem, here, opens⟩
      cases derived.symm.trans same
      rcases (accepts_iff derived (opens_iff.mpr opens)).mp mem with panel | first
      · exact .inl ⟨a, panel, here, opens_iff.mpr opens⟩
      · exact .inr ⟨a, first, here⟩
    · rintro (⟨a, panel, here, opens⟩ | ⟨a, first, here⟩)
      · exact ⟨f, derived, a, (accepts_iff derived opens).mpr (.inl panel), here,
          opens_iff.mp opens⟩
      · have opens := find?_some first
        exact ⟨f, derived, a, (accepts_iff derived opens).mpr (.inr first), here,
          opens_iff.mp opens⟩
  rw [opened, find?_asks linked]
  refine or_congr_right ?_
  cases fixed : (fixedAsks spec).find? (·.opens proto port) with
  | some a =>
    have mem := mem_of_find?_eq_some fixed
    refine iff_of_true ⟨a, rfl, ?_⟩ (.inl (everywhere_iff.mpr ⟨a, mem, find?_some fixed⟩))
    rw [names_of_fixed mem, mem_allUplinks]
    exact ⟨u, hu, rfl⟩
  | none =>
    have nowhere : ¬ Everywhere spec proto port := fun h => by
      obtain ⟨a, mem, opens⟩ := everywhere_iff.mp h
      exact find?_eq_none.mp fixed a mem opens
    rw [or_iff_right nowhere, Option.none_or]
    constructor
    · rintro ⟨a, first, here⟩
      obtain ⟨r, row, asked⟩ := Option.bind_eq_some_iff.mp first
      exact ⟨r, row, (ask_some asked).2.2 ▸ here⟩
    · rintro ⟨r, row, here⟩
      have takes := find?_some row
      rw [takes_iff, ← ask_isSome linked] at takes
      obtain ⟨a, asked⟩ := Option.isSome_iff_exists.mp takes.2.2
      exact ⟨a, Option.bind_eq_some_iff.mpr ⟨r, row, asked⟩, (ask_some asked).2.2 ▸ here⟩

end Open

/-! ## What is wanted -/

/-- A row that applies to the uplink: it names none, or this one. -/
def appliesTo (u : Uplink) (uplinkKey : String) : Prop := uplinkKey = "" ∨ uplinkKey = u.key

/-- What the chain is for: some enabled row asks for the port on the uplink. -/
inductive Wanted (spec : FilterInputSpec) (u : Uplink) : String → Int → Prop where
  | hub : 0 < spec.hubPort → Wanted spec u "tcp" spec.hubPort
  | inbound (ib : InboundSpec) : ib ∈ spec.inbounds → ib.enabled = true → 0 < ib.port →
      Wanted spec u ib.proto ib.port
  | forward (pf : PortForward) : pf ∈ spec.portForwards → pf.enabled = true →
      pf.boxTerminated = true → appliesTo u pf.uplinkKey → Wanted spec u pf.proto pf.dport
  | mapping (r : PortMapRule) : r ∈ spec.portMapRules → r.enabled = true →
      appliesTo u r.uplinkKey → Wanted spec u r.proto r.port

section Wanted
variable {spec : FilterInputSpec} {u : Uplink} {r : PortRow} {proto : String} {port : Int}

/-- Every enabled forward to the box and every enabled mapping finds its port opened on the uplinks
it applies to: by the panel, by the hub or an inbound, or by the first row of its port. -/
def Covered (spec : FilterInputSpec) : Prop :=
  ∀ r ∈ portRows spec, r.live = true → ∀ u ∈ spec.uplinks, appliesTo u r.uplinkKey →
    PanelOn spec u.ifName r.proto r.port ∨ Everywhere spec r.proto r.port ∨
      ∃ first ∈ firstRow spec r.proto r.port, u.ifName ∈ first.names spec

instance : Decidable (appliesTo u key) := inferInstanceAs (Decidable (_ ∨ _))

instance : Decidable (Covered spec) := inferInstanceAs (Decidable (∀ _ ∈ _, _))

/-- A port is wanted everywhere, or by a live row that applies to the uplink. -/
theorem wanted_iff : Wanted spec u proto port ↔ Everywhere spec proto port ∨
    ∃ r ∈ portRows spec, r.live = true ∧ appliesTo u r.uplinkKey ∧ r.proto = proto ∧
      r.port = port := by
  constructor
  · intro wanted
    cases wanted with
    | hub on => exact .inl (.inl ⟨on, rfl, rfl⟩)
    | inbound ib mem enabled on => exact .inl (.inr ⟨ib, mem, enabled, on, rfl, rfl⟩)
    | forward pf mem enabled box applies =>
      refine .inr ⟨.forward pf, mem_append_left _ (mem_map_of_mem mem), ?_, applies, rfl, rfl⟩
      simp [live, enabled, box]
    | mapping m mem enabled applies =>
      exact .inr ⟨.mapping m, mem_append_right _ (mem_map_of_mem mem), enabled, applies, rfl, rfl⟩
  · rintro ((⟨on, rfl, rfl⟩ | ⟨ib, mem, enabled, on, rfl, rfl⟩) | ⟨r, mem, live, applies, rfl, rfl⟩)
    · exact .hub on
    · exact .inbound ib mem enabled on
    rcases mem_append.mp mem with mem | mem
    · obtain ⟨pf, here, rfl⟩ := mem_map.mp mem
      have on : pf.enabled = true ∧ pf.boxTerminated = true := by simpa [PortRow.live] using live
      exact .forward pf here on.1 on.2 applies
    · obtain ⟨m, here, rfl⟩ := mem_map.mp mem
      exact .mapping m here live applies

end Wanted

/-- **What is wanted is open**: every port that a row asks for on an uplink is open there, if and
only if the rows with a key find their ports opened, since a row with a key opens its port on its
own uplink alone and still takes it from the rows after it. -/
theorem wanted_is_open (spec : FilterInputSpec) :
    (∀ u ∈ spec.uplinks, ∀ proto port, Wanted spec u proto port →
      IsOpen spec u.ifName proto port) ↔ Covered spec := by
  constructor
  · intro opened r mem live u hu applies
    rw [← isOpen_iff hu]
    exact opened u hu _ _ (wanted_iff.mpr (.inr ⟨r, mem, live, applies, rfl, rfl⟩))
  · intro covered u hu proto port wanted
    rw [isOpen_iff hu]
    rcases wanted_iff.mp wanted with everywhere | ⟨r, mem, live, applies, rfl, rfl⟩
    · exact .inr (.inl everywhere)
    · exact covered r mem live u hu applies

def line (ifName key : String) (slot : UplinkSlot) : Uplink :=
  { ifName := ifName, key := key, table := tableFor slot, uplinkIndex := uplinkIndexFor slot
    slot := slot, groupIndex := groupIndexFor slot, dnsServer2 := "", gatewayOnLink := false
    dnsServer := "" }

def lineA : Uplink := line "eth0" "mac:a" .domestic
def lineB : Uplink := line "eth1" "mac:b" .domestic2

def boxForward (id : Nat) (uplinkKey : String) : PortForward :=
  { id := id, uplinkKey := uplinkKey, proto := "tcp", dport := 8080, toAddr := "127.0.0.1"
    toPort := 8080 }

def mappingB : PortMapRule := { uplinkKey := "mac:b", proto := "udp", port := 5000 }

/-- A forward on one line, and a mapping of another port on the other. -/
def oneEach : FilterInputSpec :=
  { uplinks := [lineA, lineB], portForwards := [boxForward 1 "mac:a"]
    portMapRules := [mappingB] }

theorem wanted_is_open_oneEach :
    IsOpen oneEach "eth0" "tcp" 8080 ∧ IsOpen oneEach "eth1" "udp" 5000 := by
  have covered : Covered oneEach := by decide
  constructor
  · refine (wanted_is_open oneEach).mpr covered lineA (by decide) "tcp" 8080 ?_
    exact .forward (boxForward 1 "mac:a") mem_cons_self rfl (by decide) (.inr rfl)
  · refine (wanted_is_open oneEach).mpr covered lineB (by decide) "udp" 5000 ?_
    exact .mapping mappingB mem_cons_self rfl (.inr rfl)

/-- One port forwarded to the box on each of two lines. -/
def forwardOnEach : FilterInputSpec :=
  { uplinks := [lineA, lineB], portForwards := [boxForward 1 "mac:a", boxForward 2 "mac:b"] }

/-- **The second line's forward is dropped**: the first has taken the port, on its own line only. -/
theorem second_forward_closed :
    lineB ∈ forwardOnEach.uplinks ∧ (forwardOnEach.uplinks.map (·.key)).Nodup ∧
    Wanted forwardOnEach lineB "tcp" 8080 ∧ ¬ IsOpen forwardOnEach "eth1" "tcp" 8080 := by
  refine ⟨by decide, by decide, ?_, by decide⟩
  exact .forward (boxForward 2 "mac:b") (mem_cons_of_mem _ mem_cons_self) rfl (by decide) (.inr rfl)

/-! ## Nothing else is open -/

/-- Where the first row of a port is a forward to the box on an uplink that is not assigned, the
port is the panel's, or every uplink has a row that asks for it. -/
def LostAsked (spec : FilterInputSpec) : Prop :=
  ∀ pf ∈ spec.portForwards, firstRow spec pf.proto pf.dport = some (.forward pf) →
    Stale spec pf.uplinkKey → pf.proto = "tcp" ∧ pf.dport = spec.panelPort ∨
      ∀ u ∈ spec.uplinks, ∃ v ∈ spec.uplinks, v.ifName = u.ifName ∧ Wanted spec v pf.proto pf.dport

section Sound
variable {spec : FilterInputSpec} {a : InputAccept} {name proto : String} {port : Int}

theorem panel_of_mem (h : a ∈ panelAccepts spec) : a.proto = "tcp" ∧ a.port = spec.panelPort := by
  unfold panelAccepts at h
  repeat' split at h
  · cases h
  all_goals
    rw [mem_singleton.mp h]
    exact ⟨rfl, rfl⟩

/-- What the first row of a port names is wanted there, unless it is a forward to an uplink that is
not assigned. -/
theorem wanted_of_first {r : PortRow} (first : firstRow spec proto port = some r)
    (here : name ∈ r.names spec) :
    (∃ u ∈ spec.uplinks, u.ifName = name ∧ Wanted spec u proto port) ∨
      ∃ pf, r = .forward pf ∧ Stale spec pf.uplinkKey := by
  have mem := mem_of_find?_eq_some first
  have takes := find?_some first
  by_cases stale : Stale spec r.uplinkKey
  · cases r with
    | forward pf => exact .inr ⟨pf, rfl, stale⟩
    | mapping m =>
      have gone : Stale spec m.uplinkKey := stale
      simp [PortRow.takes, gone] at takes
  · left
    obtain ⟨u, hu, ifName, applies⟩ := namesFor_uplinks stale here
    simp only [PortRow.takes, Bool.and_eq_true, beq_iff_eq] at takes
    obtain ⟨⟨⟨live, rfl⟩, rfl⟩, -⟩ := takes
    exact ⟨u, hu, ifName, wanted_iff.mpr (.inr ⟨r, mem, live, applies, rfl, rfl⟩)⟩

end Sound

/-- **Nothing is open on an uplink but the panel and what is wanted there**, if and only if no
forward on a lost uplink takes a port that is not wanted everywhere: such a forward is opened on
every uplink, while a mapping of a lost uplink is skipped. -/
theorem open_is_wanted (spec : FilterInputSpec) :
    (∀ f, deriveFilterInput spec = some f → ∀ a ∈ f.accepts, ∀ u ∈ spec.uplinks,
      u.ifName ∈ a.ifNames → (a.proto = "tcp" ∧ a.port = spec.panelPort) ∨
        ∃ v ∈ spec.uplinks, v.ifName = u.ifName ∧ Wanted spec v a.proto a.port) ↔
      LostAsked spec := by
  constructor
  · intro sound pf mem first stale
    by_cases panel : pf.proto = "tcp" ∧ pf.dport = spec.panelPort
    · exact .inl panel
    refine .inr fun u hu => ?_
    have here : u.ifName ∈ (forward pf).names spec := by
      rw [names, PortRow.uplinkKey, namesFor_stale stale]
      exact mem_allUplinks.mpr ⟨u, hu, rfl⟩
    obtain ⟨f, derived, a, ha, at_u, proto, port⟩ :=
      (isOpen_iff hu).mpr (.inr (.inr ⟨_, first, here⟩))
    rw [← proto, ← port] at panel ⊢
    exact (sound f derived a ha u hu at_u).resolve_left panel
  · intro asked f derived a ha u hu here
    have opens : a.opens a.proto a.port = true := opens_iff.mpr ⟨rfl, rfl⟩
    rcases (accepts_iff derived opens).mp ha with panel | first
    · exact .inl (panel_of_mem panel)
    rw [find?_asks (ne_nil_of_mem hu)] at first
    rcases Option.or_eq_some_iff.mp first with fixed | ⟨-, row⟩
    · have everywhere := everywhere_iff.mpr ⟨a, mem_of_find?_eq_some fixed, opens⟩
      exact .inr ⟨u, hu, rfl, wanted_iff.mpr (.inl everywhere)⟩
    obtain ⟨r, row, ask⟩ := Option.bind_eq_some_iff.mp row
    rw [(ask_some ask).2.2] at here
    rcases wanted_of_first row here with wanted | ⟨pf, rfl, stale⟩
    · exact .inr wanted
    -- the first row is a forward on a lost uplink
    obtain ⟨proto, port, -⟩ := ask_some ask
    have mem : pf ∈ spec.portForwards := by
      rcases mem_append.mp (mem_of_find?_eq_some row) with mem | mem
      · obtain ⟨_, here, same⟩ := mem_map.mp mem
        cases same
        exact here
      · obtain ⟨_, _, same⟩ := mem_map.mp mem
        cases same
    rw [proto, port] at row ⊢
    exact (asked pf mem row stale).imp_right fun all => all u hu

theorem open_is_wanted_oneEach :
    ∃ f, deriveFilterInput oneEach = some f ∧ ∀ a ∈ f.accepts, ∀ u ∈ oneEach.uplinks,
      u.ifName ∈ a.ifNames → (a.proto = "tcp" ∧ a.port = oneEach.panelPort) ∨
        ∃ v ∈ oneEach.uplinks, v.ifName = u.ifName ∧ Wanted oneEach v a.proto a.port := by
  have none : ∀ pf ∈ oneEach.portForwards, ¬ Stale oneEach pf.uplinkKey := by decide
  have asked : LostAsked oneEach := fun pf mem _ stale => absurd stale (none pf mem)
  exact ⟨_, rfl, (open_is_wanted oneEach).mpr asked _ rfl⟩

/-- A forward to the box on a line that is no longer an uplink. -/
def forwardOnLost : FilterInputSpec :=
  { uplinks := [lineA], portForwards := [boxForward 1 "mac:b"] }

/-- **A forward on a lost line opens its port on the others.** -/
theorem lost_forward_open :
    IsOpen forwardOnLost "eth0" "tcp" 8080 ∧ forwardOnLost.panelPort ≠ 8080 ∧
    ¬ ∃ u ∈ forwardOnLost.uplinks, u.ifName = "eth0" ∧ Wanted forwardOnLost u "tcp" 8080 := by
  refine ⟨by decide, by decide, ?_⟩
  rintro ⟨u, hu, -, wanted⟩
  obtain rfl := mem_singleton.mp hu
  generalize proto : "tcp" = p at wanted
  generalize port : (8080 : Int) = q at wanted
  cases wanted with
  | hub on => exact absurd on (by decide)
  | inbound ib mem => cases mem
  | forward pf mem _ _ applies =>
    obtain rfl := mem_singleton.mp mem
    rcases applies with none | other
    · exact absurd none (by decide)
    · exact absurd other (by decide)
  | mapping r mem => cases mem

end NasnetPanel.Network
