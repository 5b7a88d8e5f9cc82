import Mathlib.Data.List.Dedup
import NasnetPanel.Jobs.Text
import NasnetPanel.Lib.Json
import NasnetPanel.Lib.Keyed
import NasnetPanel.Usage.Records

/-!
# Xray.HotApply — a config change without a restart

`PlanHotApply` compares the config that Xray runs with the next one. If they differ in no more than
added users, users' levels, the outbounds of the bandwidth tiers and the routing, it gives a plan of
calls to Xray's API, and `Apply` makes them: outbounds first, then users, then the rules, and last
the outbounds that are no longer used.

Go reads a JSON number into a float64 and writes it back from there. `seen` is what becomes of a
number that way; numbers are compared, and sent, as they are seen, while Xray reads the numbers of
its config file as they are written.

Xray is what its config says (`State.ofConfig`), changed by the calls. An inbound or an outbound
without a tag cannot be named in a call. Emails are compared by a key, `norm`: Xray does not tell
upper from lower case. A config with two users of one email in an inbound, or two inbounds or
outbounds of one tag, does not start (`Startable`).
-/

namespace NasnetPanel.Xray.HotApply

open Json (Fields field object list text set without unionKeys)

/-! ## Versions -/

def hotUserProtocols : List (String × String) :=
  [("vless", ""), ("vmess", ""), ("trojan", ""), ("shadowsocks", ""), ("hysteria", "26.9.30")]

def hotRoutingSince : String := "26.9.8"

def partsAtLeast : List (List Char) → List (List Char) → Bool
  | _, [] => true
  | [], want :: _ => (Usage.atoi want).getD 0 == 0
  | have' :: haves, want :: wants =>
    match Usage.atoi (have'.takeWhile (· ≠ '-')) with
    | none => false
    | some h =>
      if h ≠ (Usage.atoi want).getD 0 then decide ((Usage.atoi want).getD 0 < h)
      else partsAtLeast haves wants

/-- The version in a line of `xray version`, or a bare one. -/
def versionOf (line : List Char) : List Char :=
  match (line.splitOnP Jobs.isSpace).filter (· ≠ []) with
  | [] => line
  | [only] => only
  | first :: second :: _ => if first.map Char.toLower = "xray".toList then second else first

def xrayAtLeast (line min : String) : Bool :=
  if min = "" then true
  else
    let version := versionOf line.toList
    let bare := if version.head? = some 'v' then version.tail else version
    partsAtLeast (bare.splitOn '.') (min.toList.splitOn '.')

/-! ## The plan -/

/-- Why a restart is needed. -/
inductive Reason where
  | notObject
  | changed (key : String)
  | inboundsChanged
  | inboundChanged (tag : String)
  | usersChanged (protocol tag : String)
  | noEmail (tag : String)
  | usersRemoved
  | userChanged (email : String)
  | defaultChanged
  | outboundRemoved (tag : String)
  | outboundChanged (tag : String)
  | outboundAdded (tag : String)
  | routingChanged (key : String)
  | routingTooOld
deriving DecidableEq, Repr

/-- Its text; Go also escapes what stands between the quotes. -/
def Reason.text : Reason → String
  | .notObject => "config is not a JSON object"
  | .changed key => key ++ " changed"
  | .inboundsChanged => "inbounds changed"
  | .inboundChanged tag => "inbound \"" ++ tag ++ "\" changed"
  | .usersChanged protocol tag => "users of " ++ protocol ++ " inbound \"" ++ tag ++ "\" changed"
  | .noEmail tag => "inbound \"" ++ tag ++ "\" has a client without an email"
  | .usersRemoved => "users removed"
  | .userChanged email => "user " ++ email ++ " changed"
  | .defaultChanged => "default outbound changed"
  | .outboundRemoved tag => "outbound \"" ++ tag ++ "\" removed"
  | .outboundChanged tag => "outbound \"" ++ tag ++ "\" changed"
  | .outboundAdded tag => "outbound \"" ++ tag ++ "\" added"
  | .routingChanged key => "routing " ++ key ++ " changed"
  | .routingTooOld => "routing changed and Xray is older than " ++ hotRoutingSince

variable {N : Type}

structure HotInbound (N : Type) where
  tag : String
  inbound : Fields N
  emails : List String
deriving DecidableEq

structure HotPlan (N : Type) where
  users : List (HotInbound N)
  outbounds : List (Fields N)
  retired : List String
  routing : Option (Fields N)
deriving DecidableEq

def isTierTag (tag : String) : Bool := tag.toList.tails.any fun s => "panel_bw/".toList.isPrefixOf s

def tagOf (m : Fields N) : String := text (field m "tag")

def emailOf (client : Fields N) : String := text (field client "email")

def clients (inbound : Fields N) : Option (List (Json N)) :=
  list (field (object (field inbound "settings")) "clients")

def usersIn (inbound : Fields N) : List (Fields N) := ((clients inbound).getD []).map object

def withoutClients (inbound : Fields N) : Fields N :=
  set "settings" (.obj (without (object (field inbound "settings")) "clients")) inbound

/-- What is put into the map, in order. -/
def byEmail (l : List (Json N)) : Option (List (String × Fields N)) :=
  if l.any fun c => emailOf (object c) = "" then none
  else some (l.map fun c => (emailOf (object c), object c))

/-- What a map has for a key, of what was put into it. -/
def lookup {A : Type} (m : List (String × A)) (key : String) : Option A :=
  (m.reverse.find? fun e => e.1 = key).map (·.2)

def hotInbound (inbound : Fields N) (add : List (Fields N)) : HotInbound N where
  tag := tagOf inbound
  inbound := set "settings"
    (.obj (set "clients" (.arr (add.map .obj)) (object (field inbound "settings")))) inbound
  emails := add.map emailOf

section Plan

variable [DecidableEq N] (seen : N → N)

/-- `reflect.DeepEqual`, of what was read. -/
def same (a b : Json N) : Bool := Json.deepEqual (a.map seen) (b.map seen)

/-- The same of two slices, where nil is not empty. -/
def sameList : Option (List (Json N)) → Option (List (Json N)) → Bool
  | none, none => true
  | some a, some b => same seen (.arr a) (.arr b)
  | _, _ => false

/-- The clients to add: the new ones, and those whose level changed. -/
def planClients (before : List (String × Fields N)) :
    List (Fields N) → Except Reason (List (Fields N))
  | [] => .ok []
  | client :: rest =>
    match lookup before (emailOf client) with
    | none => (planClients before rest).map (client :: ·)
    | some old =>
      if same seen (.obj old) (.obj client) then planClients before rest
      else if same seen (.obj (without old "level")) (.obj (without client "level")) then
        (planClients before rest).map (client :: ·)
      else .error (.userChanged (emailOf client))

/-- `planUsers`, of one inbound. -/
def planInbound (version : String) (cur nxt : Fields N) :
    Except Reason (Option (HotInbound N)) :=
  let tag := tagOf nxt
  let protocol := text (field nxt "protocol")
  if !same seen (.obj (withoutClients cur)) (.obj (withoutClients nxt)) then
    .error (.inboundChanged tag)
  else if sameList seen (clients cur) (clients nxt) then .ok none
  else if !(hotUserProtocols.lookup protocol).any (xrayAtLeast version) then
    .error (.usersChanged protocol tag)
  else match byEmail ((clients cur).getD []), byEmail ((clients nxt).getD []) with
    | some before, some after =>
      if before.any fun e => (lookup after e.1).isNone then .error .usersRemoved
      else (planClients seen before (usersIn nxt)).map fun add =>
        if add.isEmpty then none else some (hotInbound nxt add)
    | _, _ => .error (.noEmail tag)

def planInbounds (version : String) :
    List (Json N) → List (Json N) → Except Reason (List (HotInbound N))
  | cur :: curs, nxt :: nxts =>
    match planInbound seen version (object cur) (object nxt) with
    | .error reason => .error reason
    | .ok none => planInbounds version curs nxts
    | .ok (some hot) => (planInbounds version curs nxts).map (hot :: ·)
  | _, _ => .ok []

def planUsers (version : String) (cur nxt : List (Json N)) :
    Except Reason (List (HotInbound N)) :=
  if cur.length ≠ nxt.length then .error .inboundsChanged else planInbounds seen version cur nxt

def planAdded (before : List (String × Json N)) : List (Json N) → Except Reason (List (Fields N))
  | [] => .ok []
  | out :: rest =>
    match lookup before (tagOf (object out)) with
    | some old =>
      if same seen old out then planAdded before rest
      else .error (.outboundChanged (tagOf (object out)))
    | none =>
      if isTierTag (tagOf (object out)) then (planAdded before rest).map (object out :: ·)
      else .error (.outboundAdded (tagOf (object out)))

def planRetired (after : List (String × Json N)) : List String → Except Reason (List String)
  | [] => .ok []
  | tag :: rest =>
    if (lookup after tag).isSome then planRetired after rest
    else if isTierTag tag then (planRetired after rest).map (tag :: ·)
    else .error (.outboundRemoved tag)

def planOutbounds (cur nxt : List (Json N)) : Except Reason (List (Fields N) × List String) :=
  match cur, nxt with
  | first :: _, first' :: _ =>
    if !same seen first first' then .error .defaultChanged
    else
      let before := cur.map fun out => (tagOf (object out), out)
      let after := nxt.map fun out => (tagOf (object out), out)
      (planRetired after (before.map (·.1)).dedup).bind fun retired =>
        (planAdded seen before nxt).map fun added => (added, retired)
  | _, _ => .error .defaultChanged

def differing (counts : String → Bool) (a b : Fields N) : Option String :=
  (unionKeys a b).find? fun key => counts key && !same seen (field a key) (field b key)

/-- The routing to put in place, if it changed. -/
def planRouting (version : String) (cur nxt : Json N) : Except Reason (Option (Fields N)) :=
  if same seen cur nxt then .ok none
  else match differing seen (fun key => !(key = "rules" || key = "balancers"))
      (object cur) (object nxt) with
    | some key => .error (.routingChanged key)
    | none =>
      if xrayAtLeast version hotRoutingSince then .ok (some (object nxt))
      else .error .routingTooOld

/-- What a config is read as; `null` is an empty one. -/
def readConfig (doc : Json N) : Option (Fields N) :=
  match doc.unmarshal with
  | .obj m => some m
  | .null => some []
  | _ => none

def lookedInto (key : String) : Bool := key = "inbounds" || key = "outbounds" || key = "routing"

def planHotApply (running next : Json N) (version : String) : Except Reason (HotPlan N) :=
  match readConfig running, readConfig next with
  | some cur, some nxt =>
    match differing seen (fun key => !lookedInto key) cur nxt with
    | some key => .error (.changed key)
    | none =>
      (planUsers seen version ((list (field cur "inbounds")).getD [])
          ((list (field nxt "inbounds")).getD [])).bind fun users =>
        (planOutbounds seen ((list (field cur "outbounds")).getD [])
            ((list (field nxt "outbounds")).getD [])).bind fun outbounds =>
          (planRouting seen version (field cur "routing") (field nxt "routing")).map fun routing =>
            { users := users, outbounds := outbounds.1, retired := outbounds.2, routing := routing }
  | _, _ => .error .notObject

end Plan

/-! ## Xray -/

/-- An inbound: all but its users, and those. -/
structure Inbound (N : Type) where
  shell : Fields N
  users : List (Fields N)

def Inbound.tag (i : Inbound N) : String := tagOf i.shell

def Inbound.alter (f : List (Fields N) → List (Fields N)) (i : Inbound N) : Inbound N :=
  { i with users := f i.users }

structure State (N : Type) where
  /-- The sections of the config that are not looked into. -/
  other : String → Json N
  inbounds : List (Inbound N)
  /-- The default outbound, which is the first, unless it was removed. -/
  default : Option (Fields N)
  outbounds : List (Fields N)
  /-- The routing besides rules and balancers. -/
  routing : String → Json N
  rules : Json N
  balancers : Json N

def Inbound.ofConfig (inbound : Fields N) : Inbound N :=
  { shell := withoutClients inbound, users := usersIn inbound }

def inboundsOf (l : List (Json N)) : List (Inbound N) := l.map fun v => Inbound.ofConfig (object v)

def State.ofConfig (cfg : Fields N) : State N :=
  let outbounds := ((list (field cfg "outbounds")).getD []).map object
  let routing := object (field cfg "routing")
  { other := fun key => if lookedInto key then .null else field cfg key
    inbounds := inboundsOf ((list (field cfg "inbounds")).getD [])
    default := outbounds.head?
    outbounds := outbounds
    routing := fun key =>
      if key = "rules" ∨ key = "balancers" then .null else field routing key
    rules := field routing "rules"
    balancers := field routing "balancers" }

/-- No two of the names are the same, leaving out the empty ones. -/
def Apart (names : List String) : Prop := (names.filter (· ≠ "")).Nodup

instance (names : List String) : Decidable (Apart names) :=
  inferInstanceAs (Decidable (List.Nodup _))

/-- Xray does not refuse the config. -/
structure Startable (norm : String → String) (w : State N) : Prop where
  inbounds : Apart (w.inbounds.map (·.tag))
  outbounds : Apart (w.outbounds.map tagOf)
  users : ∀ i ∈ w.inbounds,
    ((i.users.filter fun u => emailOf u ≠ "").map fun u => norm (emailOf u)).Nodup

namespace State

variable (norm : String → String)

def alter (tag : String) (f : List (Fields N) → List (Fields N)) (w : State N) : State N :=
  { w with inbounds := Keyed.change Inbound.tag tag (Inbound.alter f) w.inbounds }

def usersOf (tag : String) (w : State N) : Option (List (Fields N)) :=
  if tag = "" then none else (Keyed.find Inbound.tag w.inbounds tag).map (·.users)

def isUser (email : String) (u : Fields N) : Bool :=
  emailOf u ≠ "" && norm (emailOf u) == norm email

/-- `RemoveUser`; `none` where Xray refuses. -/
def removeUser (tag email : String) (w : State N) : Option (State N) :=
  (w.usersOf tag).bind fun users =>
    if users.any (isUser norm email) then
      some (w.alter tag fun users => users.filter fun u => !isUser norm email u)
    else none

def addUser (tag : String) (client : Fields N) (w : State N) : Option (State N) :=
  (w.usersOf tag).bind fun users =>
    if emailOf client ≠ "" && users.any (isUser norm (emailOf client)) then none
    else some (w.alter tag (· ++ [client]))

def addOutbound (out : Fields N) (w : State N) : Option (State N) :=
  if tagOf out ≠ "" && (w.outbounds.map tagOf).contains (tagOf out) then none
  else some { w with outbounds := w.outbounds ++ [out] }

def removeOutbound (tag : String) (w : State N) : Option (State N) :=
  if tag = "" then none
  else some { w with
    outbounds := w.outbounds.filter fun out => tagOf out ≠ tag
    default := w.default.filter fun out => tagOf out ≠ tag }

/-- `AddRule`, for all the rules and balancers. -/
def setRules (routing : Fields N) (w : State N) : State N :=
  { w with rules := field routing "rules", balancers := field routing "balancers" }

end State

/-! ## Apply -/

inductive ApplyError where
  | ado (tag : String)
  | adu (added : Nat) (tag : String)
  | removeOutbound (tag : String)
deriving DecidableEq, Repr

/-- The states after each call, and how it ended. -/
structure Traced (N : Type) where
  seen : List (State N)
  ended : Except ApplyError (State N)

def Traced.andThen (r : Traced N) (next : State N → Traced N) : Traced N :=
  match r.ended with
  | .error e => ⟨r.seen, .error e⟩
  | .ok w => ⟨r.seen ++ (next w).seen, (next w).ended⟩

/-- `xray api ado`: up to the first that is refused. -/
def ado : List (Fields N) → State N → Traced N
  | [], w => ⟨[], .ok w⟩
  | out :: outs, w => match w.addOutbound out with
    | none => ⟨[], .error (.ado (tagOf out))⟩
    | some w' => ⟨w' :: (ado outs w').seen, (ado outs w').ended⟩

section Apply

variable (norm : String → String) (seen : N → N)

def removeUsers (tag : String) : List String → State N → List (State N) × State N
  | [], w => ([], w)
  | email :: emails, w =>
    let w' := (w.removeUser norm tag email).getD w
    (w' :: (removeUsers tag emails w').1, (removeUsers tag emails w').2)

/-- `xray api adu`: goes on past what is refused, and counts what is not. -/
def adu (tag : String) : List (Fields N) → State N → List (State N) × Nat × State N
  | [], w => ([], 0, w)
  | client :: rest, w =>
    match w.addUser norm tag client with
    | none => adu tag rest w
    | some w' => (w' :: (adu tag rest w').1, (adu tag rest w').2.1 + 1, (adu tag rest w').2.2)

def HotInbound.apply (hot : HotInbound N) (w : State N) : Traced N :=
  let removed := removeUsers norm hot.tag hot.emails w
  let sent := Json.mapFields seen hot.inbound
  let added := adu norm (tagOf sent) (usersIn sent) removed.2
  ⟨removed.1 ++ added.1,
    if added.2.1 = hot.emails.length then .ok added.2.2 else .error (.adu added.2.1 hot.tag)⟩

def applyUsers : List (HotInbound N) → State N → Traced N
  | [], w => ⟨[], .ok w⟩
  | hot :: rest, w => (hot.apply norm seen w).andThen (applyUsers rest)

def applyRouting (routing : Option (Fields N)) (w : State N) : Traced N :=
  match routing with
  | none => ⟨[], .ok w⟩
  | some m => ⟨[w.setRules (Json.mapFields seen m)], .ok (w.setRules (Json.mapFields seen m))⟩

def retire : List String → State N → Traced N
  | [], w => ⟨[], .ok w⟩
  | tag :: tags, w => match w.removeOutbound tag with
    | none => ⟨[], .error (.removeOutbound tag)⟩
    | some w' => ⟨w' :: (retire tags w').seen, (retire tags w').ended⟩

def HotPlan.apply (p : HotPlan N) (w : State N) : Traced N :=
  (ado (p.outbounds.map (Json.mapFields seen)) w).andThen fun w =>
    (applyUsers norm seen p.users w).andThen fun w =>
      (applyRouting seen p.routing w).andThen (retire p.retired)

end Apply

end NasnetPanel.Xray.HotApply
