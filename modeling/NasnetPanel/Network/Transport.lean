import NasnetPanel.Network.Isolation

/-!
# Network.Transport — which WAN each tunnel rides

`network/usecase/vpn_assign.go` and `applyVPNDevices` of `vpn.go`: the pool is dealt across the
secondary WANs, and each tunnel's device carries the mark of its WAN. A tick writes only the devices
whose WAN differs from the one remembered for them.

A rollback writes every device of the restored pool with slot one's mark, in the panel or in the
dead-man's process, and a panel that starts again remembers nothing.

The deal is remembered before it is written, so a move that fails is not made again by a tick, and
neither is one that a rollback undid (`left_on_wrong_wan`). It is by the next `applyVPNDevices` or
after a restart, from which on, as long as every call on devices of these two passes succeeds, every
tunnel carries the mark of the WAN dealt to it (`devices_carry_deal`).
-/

namespace NasnetPanel.Network.Transport
open Netmark List Option

structure Tunnel where
  ifName : String
  /-- The key of the WAN it is pinned to, if any. -/
  transportUplink : String := ""

/-- What a pass reads: the pool in slot order, the uplinks, and which of them are healthy. -/
structure Box where
  tunnels : List Tunnel
  uplinks : List Uplink
  healthyByIf : String → Bool

/-- The WAN of a pin; the last one of the key. -/
def pinned (ordered : List Uplink) (key : String) : Option Uplink :=
  if key = "" then none else ordered.reverse.find? (·.key = key)

/-- The loop over the tunnels. Those without a pin take the WANs in turn, of which there is one. -/
def dealFrom (ordered alive : List Uplink) : Nat → List Tunnel → List (String × Uplink)
  | _, [] => []
  | next, t :: rest =>
    match pinned ordered t.transportUplink, alive[next % alive.length]? with
    | some wan, _ => (t.ifName, wan) :: dealFrom ordered alive next rest
    | none, some wan => (t.ifName, wan) :: dealFrom ordered alive (next + 1) rest
    | none, none => []

def aliveOf (ordered : List Uplink) (healthyByIf : String → Bool) : List Uplink :=
  let alive := ordered.filter (healthyByIf ·.ifName)
  if alive.isEmpty then ordered else alive

def assignTransport (tunnels : List Tunnel) (secondaries : List Uplink)
    (healthyByIf : String → Bool) : List (String × Uplink) :=
  if secondaries.isEmpty then []
  else
    let ordered := secondaries.insertionSort fun a b => a.uplinkIndex ≤ b.uplinkIndex
    dealFrom ordered (aliveOf ordered healthyByIf) 0 tunnels

/-- The WAN dealt to a tunnel; the deal is a map, so the last entry of a name counts. -/
def Box.deal (b : Box) (ifName : String) : Option Uplink :=
  ((assignTransport b.tunnels (secondariesOf b.uplinks) b.healthyByIf).reverse.find?
    (·.1 = ifName)).map (·.2)

structure State where
  /-- The WAN remembered for a tunnel, by interface names; `""` is none. -/
  lastTransport : String → String := fun _ => ""
  /-- The mark of each tunnel's device, if there is one. -/
  devices : String → Option Word := fun _ => none

/-- What comes of one device's write: a failed one may have set the mark. -/
inductive Write where
  | done
  | failed (wrote : Bool)
deriving DecidableEq

def Write.apply (w : Write) (devices : String → Option Word) (ifName : String) (mark : Word) :
    String → Option Word :=
  if w = .failed false then devices else Function.update devices ifName (some mark)

def remember (deal : String → Option Uplink) (last : String → String) : String → String :=
  fun ifName => (deal ifName).elim (last ifName) (·.ifName)

def writeAll (mark : String → Word) (writes : String → Write) (due : List String)
    (devices : String → Option Word) : String → Option Word :=
  due.foldl (fun devices ifName => (writes ifName).apply devices ifName (mark ifName)) devices

def markOf (deal : String → Option Uplink) (ifName : String) : Word :=
  transportMark ((deal ifName).getD noWAN)

def applyTransportAssignments (s : State) (b : Box) (writes : String → Write) : State :=
  if b.tunnels.isEmpty then s
  else
    let moved := fun ifName => s.lastTransport ifName ≠ ((b.deal ifName).getD noWAN).ifName
    { lastTransport := remember b.deal s.lastTransport
      devices := writeAll (markOf b.deal) writes ((b.tunnels.map (·.ifName)).filter moved)
        s.devices }

def deleteOrphans (want : List String) (fails : String → Bool) :
    List String → (String → Option Word) → (String → Option Word) × Bool
  | [], devices => (devices, true)
  | name :: rest, devices =>
    if name ∈ want then deleteOrphans want fails rest devices
    else if fails name then (devices, false)
    else deleteOrphans want fails rest (Function.update devices name none)

/-- `have_` is what the kernel lists, if it does. -/
def applyVPNDevices (s : State) (b : Box) (have_ : Option (List String)) (fails : String → Bool)
    (writes : String → Write) : State :=
  let want := b.tunnels.map (·.ifName)
  let last := remember b.deal s.lastTransport
  let (devices, ok) := deleteOrphans want fails (have_.getD []) s.devices
  { lastTransport := last
    devices := if ok then writeAll (markOf b.deal) writes want devices else devices }

/-- Slot one's mark. -/
def restoredMark : Word := pinMark (uplinkIndexFor .secondary)

/-- What `NewVPNPoolRestorer` does to the devices: `want` are the links of the restored pool. What
is remembered stays, as the dead-man has no part in it and the panel does not touch it. -/
def restorePool (s : State) (want : List String) (have_ : Option (List String))
    (fails : String → Bool) (writes : String → Write) : State :=
  let left := (have_.getD []).foldl (fun devices name =>
    if name ∈ want ∨ fails name = true then devices
    else Function.update devices name none) s.devices
  { s with devices := writeAll (fun _ => restoredMark) writes want left }

inductive Event where
  | tick (b : Box) (writes : String → Write)
  | apply (b : Box) (have_ : Option (List String)) (fails : String → Bool)
      (writes : String → Write)
  /-- A rollback puts an earlier pool back. -/
  | restore (want : List String) (have_ : Option (List String)) (fails : String → Bool)
      (writes : String → Write)
  /-- The panel starts again. -/
  | restart

def step (s : State) : Event → State
  | .tick b writes => applyTransportAssignments s b writes
  | .apply b have_ fails writes => applyVPNDevices s b have_ fails writes
  | .restore want have_ fails writes => restorePool s want have_ fails writes
  | .restart => { s with lastTransport := fun _ => "" }

/-- What a pass over the tunnels deals. -/
def Event.box : Event → Option Box
  | .tick b _ | .apply b _ _ _ => some b
  | .restore .. | .restart => none

/-! ## The deal -/

section
variable {ordered alive : List Uplink} {tunnels : List Tunnel} {wan : Uplink} {ifName : String}

theorem mem_of_pinned {key : String} (h : pinned ordered key = some wan) : wan ∈ ordered := by
  unfold pinned at h
  split at h
  · cases h
  · exact mem_reverse.mp (mem_of_find?_eq_some h)

variable {next : Nat}

theorem dealFrom_spec (sub : alive ⊆ ordered) (ne : alive ≠ []) :
    (dealFrom ordered alive next tunnels).map (·.1) = tunnels.map (·.ifName) ∧
      ∀ e ∈ dealFrom ordered alive next tunnels, e.2 ∈ ordered := by
  induction tunnels generalizing next with
  | nil => simp [dealFrom]
  | cons t tunnels ih =>
    unfold dealFrom
    split
    next wan found => exact ⟨by simp [ih.1], forall_mem_cons.mpr ⟨mem_of_pinned found, ih.2⟩⟩
    next wan _ found =>
      exact ⟨by simp [ih.1], forall_mem_cons.mpr ⟨sub (mem_of_getElem? found), ih.2⟩⟩
    next none =>
      have := Nat.mod_lt next (length_pos_iff.mpr ne)
      rw [List.getElem?_eq_none_iff] at none
      omega

theorem aliveOf_spec (healthyByIf : String → Bool) (ne : ordered ≠ []) :
    aliveOf ordered healthyByIf ⊆ ordered ∧ aliveOf ordered healthyByIf ≠ [] := by
  unfold aliveOf
  dsimp only
  split
  · exact ⟨List.Subset.refl _, ne⟩
  next some => exact ⟨fun _ mem => (mem_filter.mp mem).1, by simpa using some⟩

/-- With a WAN to deal, the tunnels are dealt one each. -/
theorem deal_spec {b : Box} (some_wan : secondariesOf b.uplinks ≠ []) :
    (∀ name wan, b.deal name = some wan →
      name ∈ b.tunnels.map (·.ifName) ∧ wan ∈ secondariesOf b.uplinks) ∧
      ∀ name ∈ b.tunnels.map (·.ifName), ∃ wan, b.deal name = some wan := by
  have mem : ∀ wan, wan ∈ (secondariesOf b.uplinks).insertionSort
      (fun a b => a.uplinkIndex ≤ b.uplinkIndex) ↔ wan ∈ secondariesOf b.uplinks :=
    fun wan => mem_insertionSort _
  obtain ⟨wan, h⟩ := exists_mem_of_ne_nil _ some_wan
  obtain ⟨sub, ne⟩ := aliveOf_spec b.healthyByIf (ne_nil_of_mem ((mem wan).mpr h))
  obtain ⟨names, wans⟩ := @dealFrom_spec _ _ b.tunnels 0 sub ne
  rw [← names]
  unfold Box.deal
  rw [assignTransport, if_neg (by simpa using some_wan)]
  constructor
  · intro name wan found
    obtain ⟨e, at_e, rfl⟩ := map_eq_some_iff.mp found
    have here := mem_reverse.mp (mem_of_find?_eq_some at_e)
    have same : e.1 = name := by simpa using find?_some at_e
    exact ⟨same ▸ List.mem_map_of_mem here, (mem _).mp (wans e here)⟩
  · intro name listed
    obtain ⟨e, here, same⟩ := List.mem_map.mp listed
    rw [← isSome_iff_exists, isSome_map, find?_isSome]
    exact ⟨e, mem_reverse.mpr here, by simpa using same⟩

end

/-! ## Runs without failures -/

/-- There is a WAN to deal, and an interface keeps its mark. -/
structure Box.Marked (mark : String → Word) (b : Box) : Prop where
  dealt : secondariesOf b.uplinks ≠ []
  named : ∀ u ∈ secondariesOf b.uplinks, u.ifName ≠ "" ∧ transportMark u = mark u.ifName

/-- Every call on devices of a pass succeeds. A tunnel that has left and is back is brought up by
`applyVPNDevices` before a tick, and a rollback meets only tunnels whose remembered WAN, if any, has
slot one's mark. -/
def Calm (mark : String → Word) (s : State) : Event → Prop
  | .tick b writes => b.Marked mark ∧ (∀ n, writes n = .done) ∧
      ∀ t ∈ b.tunnels, s.lastTransport t.ifName ≠ "" → (s.devices t.ifName).isSome = true
  | .apply b _ fails writes => b.Marked mark ∧ (∀ n, fails n = false) ∧ ∀ n, writes n = .done
  | .restore want _ _ _ =>
      ∀ n ∈ want, s.lastTransport n = "" ∨ mark (s.lastTransport n) = restoredMark
  | .restart => True

/-- What makes up for earlier failures: an `applyVPNDevices` that finds every device there is, or a
restart. -/
def Event.Full (s : State) : Event → Prop
  | .apply _ have_ _ _ => ∀ n, (s.devices n).isSome = true → n ∈ have_.getD []
  | .restart => True
  | .tick .. | .restore .. => False

def CalmRun (mark : String → Word) : State → List Event → Prop
  | _, [] => True
  | s, e :: es => Calm mark s e ∧ CalmRun mark (step s e) es

def Carries (s : State) (b : Box) : Prop :=
  ∀ t ∈ b.tunnels, ∃ wan, b.deal t.ifName = some wan ∧
    s.devices t.ifName = some (transportMark wan)

/-- A device carries the mark of the WAN remembered for it, if any. -/
def Remembered (mark : String → Word) (last : String → String)
    (devices : String → Option Word) : Prop :=
  ∀ n m, devices n = some m → last n = "" ∨ m = mark (last n)

section
variable {mark : String → Word} {s : State} {b : Box} {writes : String → Write}
  {devices : String → Option Word}

theorem writeAll_done {f : String → Word} {due : List String} (done : ∀ n, writes n = .done)
    (n : String) :
    writeAll f writes due devices n = if n ∈ due then some (f n) else devices n := by
  induction due generalizing devices with
  | nil => rfl
  | cons d due ih =>
    rw [writeAll, foldl_cons, ← writeAll, ih]
    by_cases same : n = d <;> simp [Write.apply, done, same]

theorem deleteOrphans_done {fails : String → Bool} (never : ∀ n, fails n = false)
    (want names : List String) (devices : String → Option Word) :
    (deleteOrphans want fails names devices).2 = true ∧
      ∀ n, (deleteOrphans want fails names devices).1 n =
        if n ∈ names ∧ n ∉ want then none else devices n := by
  induction names generalizing devices with
  | nil => simp [deleteOrphans]
  | cons name names ih =>
    unfold deleteOrphans
    rw [never name]
    split
    next wanted =>
      refine ⟨(ih devices).1, fun n => ?_⟩
      rw [(ih devices).2]
      by_cases same : n = name <;> simp [same, wanted]
    next orphan =>
      obtain ⟨ok, left⟩ := ih (Function.update devices name none)
      refine ⟨ok, fun n => (left n).trans ?_⟩
      by_cases same : n = name <;> simp [same, orphan]

/-- What a pass writes, with what it leaves alone: the tunnels it skips were dealt the WAN that is
remembered for them, and have a device. -/
theorem remembered_written (due : List String)
    (inv : ∀ n m, n ∉ due → devices n = some m →
      s.lastTransport n = "" ∨ m = mark (s.lastTransport n))
    (marked : b.Marked mark) (done : ∀ n, writes n = .done)
    (skips : ∀ n ∈ b.tunnels.map (·.ifName), n ∉ due → ∀ wan, b.deal n = some wan →
      s.lastTransport n = wan.ifName ∧ (wan.ifName ≠ "" → (devices n).isSome = true))
    (only : ∀ n ∈ due, n ∈ b.tunnels.map (·.ifName)) :
    Remembered mark (remember b.deal s.lastTransport)
      (writeAll (markOf b.deal) writes due devices) ∧
      ∀ t ∈ b.tunnels, ∃ wan, b.deal t.ifName = some wan ∧
        writeAll (markOf b.deal) writes due devices t.ifName = some (transportMark wan) := by
  obtain ⟨within, all⟩ := deal_spec marked.dealt
  constructor
  · intro n m there
    rw [writeAll_done done] at there
    split at there
    next here =>
      obtain ⟨wan, found⟩ := all n (only n here)
      obtain ⟨_, same⟩ := marked.named wan (within n wan found).2
      simp only [markOf, found, getD_some, Option.some.injEq] at there
      simp [remember, found, ← there, same]
    next out =>
      have kept : remember b.deal s.lastTransport n = s.lastTransport n := by
        cases found : b.deal n with
        | none => simp [remember, found]
        | some wan => simp [remember, found, (skips n (within n wan found).1 out wan found).1]
      rw [kept]
      exact inv n m out there
  · intro t ht
    obtain ⟨wan, found⟩ := all t.ifName (List.mem_map_of_mem ht)
    obtain ⟨name, same⟩ := marked.named wan (within _ wan found).2
    refine ⟨wan, found, ?_⟩
    rw [writeAll_done done]
    split
    · simp [markOf, found]
    next out =>
      obtain ⟨kept, there⟩ := skips _ (List.mem_map_of_mem ht) out wan found
      obtain ⟨m, at_m⟩ := isSome_iff_exists.mp (there name)
      rw [at_m, (inv _ m out at_m).resolve_left (by rw [kept]; exact name), kept, same]

/-- A device that carries a mark after a write had it before, or the write gave it. -/
theorem writeAll_cases {f : String → Word} {due : List String} {n : String} {m : Word}
    (there : writeAll f writes due devices n = some m) :
    devices n = some m ∨ n ∈ due ∧ m = f n := by
  induction due generalizing devices with
  | nil => exact .inl there
  | cons d due ih =>
    rw [writeAll, foldl_cons, ← writeAll] at there
    rcases ih there with before | ⟨later, same⟩
    · unfold Write.apply at before
      split at before
      · exact .inl before
      by_cases here : n = d
      · subst here
        rw [Function.update_self] at before
        exact .inr ⟨mem_cons_self, (Option.some.inj before).symm⟩
      · rw [Function.update_of_ne here] at before
        exact .inl before
    · exact .inr ⟨mem_cons_of_mem _ later, same⟩

/-- A rollback keeps what is remembered true where it meets only tunnels of slot one's mark. -/
theorem remembered_restorePool {want : List String} {have_ : Option (List String)}
    {fails : String → Bool} (inv : Remembered mark s.lastTransport s.devices)
    (agrees : ∀ n ∈ want, s.lastTransport n = "" ∨ mark (s.lastTransport n) = restoredMark) :
    Remembered mark s.lastTransport (restorePool s want have_ fails writes).devices := by
  intro n m there
  rcases writeAll_cases there with left | ⟨wanted, rfl⟩
  · refine inv n m ?_
    refine foldlRecOn (motive := fun left : String → Option Word =>
      left n = some m → s.devices n = some m) _ _ id (fun devices ih name _ => ?_) left
    split
    · exact ih
    · intro kept
      by_cases here : n = name
      · simp [here] at kept
      · exact ih (by rwa [Function.update_of_ne here] at kept)
  · exact (agrees n wanted).imp_right Eq.symm

/-- One event: what is remembered stays true, and a pass leaves every tunnel of its box with the
mark of its WAN. -/
theorem remembered_step {e : Event}
    (inv : Remembered mark s.lastTransport s.devices ∨ e.Full s) (calm : Calm mark s e) :
    Remembered mark (step s e).lastTransport (step s e).devices ∧
      ∀ b, e.box = some b → Carries (step s e) b := by
  cases e with
  | tick b writes =>
    replace inv := inv.resolve_right id
    obtain ⟨marked, done, joined⟩ := calm
    simp only [step, applyTransportAssignments, Event.box, Option.some.injEq, forall_eq']
    split
    next empty => exact ⟨inv, by simp [Carries, List.isEmpty_iff.mp empty]⟩
    · refine remembered_written _ (fun n m _ => inv n m) marked done
        (fun n listed out wan found => ?_) fun n due => (mem_filter.mp due).1
      have kept : s.lastTransport n = wan.ifName := by
        by_contra moved
        exact out (mem_filter.mpr ⟨listed, by simp [found, moved]⟩)
      refine ⟨kept, fun name => ?_⟩
      obtain ⟨t, ht, rfl⟩ := List.mem_map.mp listed
      exact joined t ht (kept ▸ name)
  | apply b have_ fails writes =>
    obtain ⟨marked, never, done⟩ := calm
    obtain ⟨ok, left⟩ := deleteOrphans_done never (b.tunnels.map (·.ifName)) (have_.getD [])
      s.devices
    simp only [step, applyVPNDevices, Event.box, Option.some.injEq, forall_eq']
    rw [if_pos ok]
    refine remembered_written _ (fun n m out there => ?_) marked done
      (fun n listed out => absurd listed out) fun n listed => listed
    rw [left] at there
    split at there
    · cases there
    next stays =>
      rcases inv with inv | full
      · exact inv n m there
      · exact absurd ⟨full n (by rw [there]; rfl), out⟩ stays
  | restore want have_ fails writes =>
    refine ⟨remembered_restorePool (inv.resolve_right id) calm, ?_⟩
    rintro _ ⟨⟩
  | restart =>
    refine ⟨fun n m _ => .inl rfl, ?_⟩
    rintro _ ⟨⟩

end

/-- **Every tunnel carries the mark of the WAN dealt to it**, after every tick and every
`applyVPNDevices` of a run in which all calls on devices of these passes succeed, there is a WAN to
deal, and rollbacks meet only tunnels of slot one's mark. What failed before does not matter if the
run begins with an `applyVPNDevices` or a restart. -/
theorem devices_carry_deal (mark : String → Word) (past es : List Event) (e : Event) (b : Box)
    (pass : e.box = some b)
    (fresh : past = [] ∨ ∀ first ∈ (es ++ [e]).head?, first.Full (past.foldl step {}))
    (calm : CalmRun mark (past.foldl step {}) (es ++ [e])) :
    Carries ((past ++ (es ++ [e])).foldl step {}) b := by
  have run : ∀ s : State, (Remembered mark s.lastTransport s.devices ∨
      ∀ first ∈ (es ++ [e]).head?, first.Full s) → CalmRun mark s (es ++ [e]) →
      Carries ((es ++ [e]).foldl step s) b := by
    clear fresh calm
    induction es with
    | nil =>
      exact fun s inv calm =>
        (remembered_step (inv.imp_right fun full => full e rfl) calm.1).2 b pass
    | cons e' es ih =>
      intro s inv calm
      have next := remembered_step (inv.imp_right fun full => full e' rfl) calm.1
      exact ih _ (.inl next.1) calm.2
  rw [foldl_append]
  refine run _ (fresh.imp_left fun none => ?_) calm
  subst none
  simp [Remembered]

def wanAt (ifName : String) (slot : UplinkSlot) : Uplink :=
  { noWAN with ifName := ifName, slot := slot, uplinkIndex := uplinkIndexFor slot }

/-- One tunnel and two WANs, of which the first may be down. -/
def box (healthy : Bool) : Box where
  tunnels := [{ ifName := "nasnet-wg0" }]
  uplinks := [wanAt "dish0" .secondary, wanAt "dish1" .secondary2]
  healthyByIf ifName := healthy || ifName != "dish0"

def bringsUp (healthy : Bool) (write : Write) : Event :=
  .apply (box healthy) none (fun _ => false) fun _ => write

def moves : Event := .tick (box false) fun _ => .done

/-- A rollback to the pool of this tunnel. -/
def putsBack : Event :=
  .restore ["nasnet-wg0"] (some ["nasnet-wg0"]) (fun _ => false) fun _ => .done

/-- The mark of each of the two WANs. -/
def markOfWAN (ifName : String) : Word :=
  pinMark (uplinkIndexFor (if ifName = "dish0" then .secondary else .secondary2))

theorem marked_box (healthy : Bool) : (box healthy).Marked markOfWAN := by
  cases healthy <;> exact ⟨by decide, by decide⟩

/-- The first write fails, a second one brings the tunnel up on `dish0`, a rollback restores it
there, and a tick moves it. -/
theorem devices_carry_deal_moved :
    (([bringsUp true (.failed false)] ++ ([bringsUp true .done, putsBack] ++ [moves])).foldl step
        {}).devices "nasnet-wg0" = some (pinMark (uplinkIndexFor .secondary2)) ∧
      Carries (([bringsUp true (.failed false)] ++
        ([bringsUp true .done, putsBack] ++ [moves])).foldl step {}) (box false) := by
  refine ⟨by decide, devices_carry_deal markOfWAN [bringsUp true (.failed false)]
    [bringsUp true .done, putsBack] moves (box false) rfl (.inr fun first mem => ?_)
    ⟨⟨marked_box true, fun _ => rfl, fun _ => rfl⟩, ?_,
      ⟨marked_box false, fun _ => rfl, ?_⟩, trivial⟩⟩
  · cases mem
    exact fun n there => by cases there
  · simp only [Calm, putsBack]
    decide
  · decide

/-- **A move that fails is not made again.** The tunnel's WAN goes down and the write of the new
mark fails; the next tick, whose writes succeed, leaves the device on the WAN that is down. A tunnel
that had no WAN for one tick keeps the mark it was given then, and one that a rollback wrote keeps
slot one's. -/
theorem left_on_wrong_wan :
    let failed := step (step {} (bringsUp true .done)) (.tick (box false) fun _ => .failed false)
    let gone := step (step {} (bringsUp false .done))
      (.tick { box false with uplinks := [] } fun _ => .done)
    let restored := step (step {} (bringsUp false .done)) putsBack
    (step failed moves).devices "nasnet-wg0" = some (pinMark (uplinkIndexFor .secondary)) ∧
      (step gone moves).devices "nasnet-wg0" = some (pinMark (uplinkIndexFor .secondary)) ∧
      (step restored moves).devices "nasnet-wg0" = some (pinMark (uplinkIndexFor .secondary)) ∧
      ((box false).deal "nasnet-wg0").map transportMark =
        some (pinMark (uplinkIndexFor .secondary2)) := by
  decide

end NasnetPanel.Network.Transport
