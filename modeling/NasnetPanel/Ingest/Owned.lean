import NasnetPanel.Ingest.Batch

/-!
# Ingest.Owned — no byte with an owner is dropped

An email has an owner when it is the config email of a subscription or the name of a peer on one of
the node's inbounds. The law `owned_booked` says when the bytes of every such email are booked on
one of its owners, with the same upload and download, in the totals and on the day of each record.

The index of the peers holds those that a push would render (`peerOf_isSome`). The bytes a peer used
before it was disabled, or before its subscription ended, are still in the agent's buffer, and they
are dropped: `disabled_peer_dropped`.

The totals leave out an email whose sum is not positive and the days one whose sums are zero, so the
two agree where what the totals leave out cancels (`totals_eq_daily`).
-/

namespace NasnetPanel.Ingest
open Traffic Access List Option Std.ExtTreeMap GoMap

/-! ## Resolving an email -/

namespace Panel
variable (p : Panel)

/-- The subscription an email is resolved to: by the index, else by config email. -/
def subscriptionOf (records : List TrafficBucket) (email : String) : Option Nat :=
  ((p.wgIndex records)[email]?.map (·.subID)).or (p.subs records)[email]?

theorem emailDeltas_subs (records : List TrafficBucket) (email : String) (b : TrafficBytes) :
    (p.emailDeltas records email b).subs =
      if b.total ≤ 0 then [] else (p.subscriptionOf records email).toList.map (⟨·, b⟩) := by
  unfold emailDeltas subscriptionOf
  split
  · rfl
  cases (p.wgIndex records)[email]? with
  | some ref => rfl
  | none => cases (p.subs records)[email]? <;> rfl

theorem dailyDeltas_eq (records : List TrafficBucket) (date : Int) (email : String)
    (b : TrafficBytes) :
    p.dailyDeltas records date email b =
      if b = 0 then [] else (p.subscriptionOf records email).toList.map (⟨⟨·, b⟩, date⟩) := by
  have zero : b = 0 ↔ b.up = 0 ∧ b.down = 0 := TrafficBytes.ext_iff
  rw [if_congr zero rfl rfl]
  unfold dailyDeltas subscriptionOf
  split
  · rfl
  cases (p.wgIndex records)[email]? with
  | some ref => rfl
  | none => cases (p.subs records)[email]? <;> rfl

def ConfigOwner (email : String) (sub : Nat) : Prop :=
  email ≠ "" ∧ ∃ r ∈ p.db.subscriptions, r.deleted = false ∧ r.configEmail = email ∧ r.id = sub

/-- The row is a peer on one of the node's inbounds, and has the name. -/
def PeerNamed (email : String) (i : Inbound) (q : WGPeer) : Prop :=
  i ∈ p.inbounds ∧ q ∈ p.db.peers ∧ q.inboundID = i.id ∧ wgEmailKey i.tag q.assignedIP = email

def Owner (email : String) (sub : Nat) : Prop :=
  p.ConfigOwner email sub ∨ ∃ i q, p.PeerNamed email i q ∧ q.subscriptionID = sub

/-- The active peer of the name that is met last, in the order the tags are walked. -/
def peerOf (records : List TrafficBucket) (email : String) : Option WGPeer :=
  (((p.tagOrder (p.wgPeers records).toList).flatMap fun (tag, rows) =>
    rows.map fun q => (tag, q)).reverse.find? fun e =>
      wgEmailKey e.1 e.2.assignedIP = email).map (·.2)

/-- A peer that a push renders has the name, on the last of the WireGuard inbounds of its tag. -/
def Rendered (email : String) : Prop :=
  ∃ i, (p.inbounds.reverse.find? fun j => isWireGuard j.protocol ∧ j.tag = i.tag) = some i ∧
    ∃ q ∈ activePeersByInbound p.db p.now i.id, wgEmailKey i.tag q.assignedIP = email

variable {p} {records : List TrafficBucket} {email : String}

theorem hasTag_wgEmailKey (tag ip : String) : hasTag tag (wgEmailKey tag ip) = true := by
  simp [hasTag, wgEmailKey, String.toList_append, append_assoc]

theorem wgIndex_eq : (p.wgIndex records)[email]? =
    (p.peerOf records email).map fun q => ⟨q.subscriptionID, q.id, q.inboundID⟩ := by
  rw [wgIndex, buildWGIndex, getElem?_collect, peerOf, Option.map_map]
  rfl

theorem getElem?_wgPeers {tag : String} (there : email ∈ (users records).keys)
    (named : hasTag tag email = true) : (p.wgPeers records)[tag]? =
      (p.inbounds.reverse.find? fun j => isWireGuard j.protocol ∧ j.tag = tag).map fun i =>
        activePeersByInbound p.db p.now i.id := by
  rw [wgPeers, getElem?_collect, ← filter_reverse, find?_filter]
  congr 2
  funext i
  by_cases same : i.tag = tag
  · have needed : (users records).keys.any (hasTag tag) = true := any_eq_true.mpr ⟨_, there, named⟩
    simp [same, needed]
  · simp [same]

theorem mem_walk {tag : String} {q : WGPeer} :
    (tag, q) ∈ (p.tagOrder (p.wgPeers records).toList).flatMap (fun (tag, rows) =>
      rows.map fun q => (tag, q)) ↔ ∃ rows, (p.wgPeers records)[tag]? = some rows ∧ q ∈ rows := by
  rw [mem_flatMap]
  constructor
  · rintro ⟨⟨tag', rows⟩, listed, mem⟩
    obtain ⟨q', inRows, same⟩ := mem_map.mp mem
    cases same
    exact ⟨rows, mem_toList_iff_getElem?_eq_some.mp ((p.tagOrder_perm _).mem_iff.mp listed), inRows⟩
  · rintro ⟨rows, listed, mem⟩
    exact ⟨(tag, rows), (p.tagOrder_perm _).mem_iff.mpr
      (mem_toList_iff_getElem?_eq_some.mpr listed), mem_map_of_mem mem⟩

/-- **The index has the names of the peers that a push renders.** -/
theorem peerOf_isSome (there : email ∈ (users records).keys) :
    (p.peerOf records email).isSome = true ↔ p.Rendered email := by
  rw [peerOf, isSome_map, find?_isSome]
  simp only [mem_reverse, decide_eq_true_eq]
  constructor
  · rintro ⟨⟨tag, q⟩, mem, rfl⟩
    obtain ⟨rows, listed, inRows⟩ := mem_walk.mp mem
    rw [getElem?_wgPeers there (hasTag_wgEmailKey _ _)] at listed
    obtain ⟨i, last, rfl⟩ := Option.map_eq_some_iff.mp listed
    have named := find?_some last
    simp only [decide_eq_true_eq] at named
    exact ⟨i, by rw [named.2]; exact last, q, inRows, by rw [named.2]⟩
  · rintro ⟨i, last, q, inRows, rfl⟩
    refine ⟨(i.tag, q), mem_walk.mpr ⟨activePeersByInbound p.db p.now i.id, ?_, inRows⟩, rfl⟩
    rw [getElem?_wgPeers there (hasTag_wgEmailKey _ _), last]
    rfl

theorem named_of_peerOf {q : WGPeer} (found : p.peerOf records email = some q) :
    ∃ i, p.PeerNamed email i q := by
  obtain ⟨⟨tag, q'⟩, last, rfl⟩ := Option.map_eq_some_iff.mp found
  obtain ⟨rows, listed, inRows⟩ := mem_walk.mp (mem_reverse.mp (mem_of_find?_eq_some last))
  obtain ⟨i, ofNode, rfl, rfl⟩ := of_getElem?_collect listed
  obtain ⟨⟨row, onInbound, -⟩, -⟩ := mem_activePeersByInbound.mp inRows
  have named := find?_some last
  simp only [decide_eq_true_eq] at named
  exact ⟨i, mem_of_mem_filter ofNode, row, onInbound, named⟩

/-- The subscription an email goes to: that of the peer of the name, or else the last one with the
config email. -/
def ownerOf (p : Panel) (records : List TrafficBucket) (email : String) : Option Nat :=
  match p.peerOf records email with
  | some q => some q.subscriptionID
  | none => (p.findByConfigEmails [email])[email]?

theorem getElem?_findByConfigEmails {emails : List String} (there : email ∈ emails) :
    (p.findByConfigEmails emails)[email]? = (p.findByConfigEmails [email])[email]? := by
  rw [findByConfigEmails, findByConfigEmails, getElem?_collect, getElem?_collect, ← filter_reverse,
    ← filter_reverse, find?_filter, find?_filter]
  congr 2
  funext r
  by_cases same : r.configEmail = email
  · simp [same, there]
  · simp [same]

theorem subscriptionOf_eq (there : email ∈ (users records).keys) :
    p.subscriptionOf records email = p.ownerOf records email := by
  rw [subscriptionOf, wgIndex_eq, ownerOf, subs, getElem?_findByConfigEmails there]
  cases p.peerOf records email <;> rfl

/-- The email goes to a subscription that is there. -/
def Attributed (p : Panel) (records : List TrafficBucket) (email : String) : Prop :=
  match p.peerOf records email with
  | some q => (p.db.findSubscription q.subscriptionID).isSome = true
  | none => ∃ sub, p.ConfigOwner email sub

/-- **An attributed email goes to one of its owners**, and no other does. -/
theorem attributed_iff : p.Attributed records email ↔
    ∃ sub, p.ownerOf records email = some sub ∧ p.Owner email sub ∧
      (p.db.findSubscription sub).isSome = true := by
  unfold Attributed ownerOf
  cases found : p.peerOf records email with
  | some q =>
    obtain ⟨i, named⟩ := named_of_peerOf found
    constructor
    · exact fun there => ⟨_, rfl, .inr ⟨i, q, named, rfl⟩, there⟩
    · rintro ⟨sub, same, -, there⟩
      cases same
      exact there
  | none =>
    constructor
    · rintro ⟨_, nonempty, r, row, kept, configEmail, -⟩
      have asked : r ∈ p.db.subscriptions.filter fun r =>
          r.deleted = false ∧ r.configEmail ≠ "" ∧ r.configEmail ∈ [email] :=
        mem_filter.mpr ⟨row, by simp [kept, configEmail, nonempty]⟩
      obtain ⟨id, here⟩ := exists_getElem?_collect (·.configEmail) (·.id) asked
      rw [configEmail] at here
      obtain ⟨r', asked', same, rfl⟩ := of_getElem?_collect here
      obtain ⟨row', kept'⟩ := mem_filter.mp asked'
      have kept' : r'.deleted = false := by simp only [decide_eq_true_eq] at kept'; exact kept'.1
      refine ⟨r'.id, here, .inl ⟨nonempty, r', row', kept', same, rfl⟩, ?_⟩
      rw [Database.findSubscription, isSome_map]
      exact find?_isSome.mpr ⟨r', row', by simp [kept']⟩
    · rintro ⟨sub, here, -⟩
      obtain ⟨r, asked, same, rfl⟩ := of_getElem?_collect here
      obtain ⟨row, kept⟩ := mem_filter.mp asked
      simp only [decide_eq_true_eq] at kept
      exact ⟨r.id, same ▸ kept.2.1, r, row, kept.1, same, rfl⟩

end Panel

/-! ## What a subscription is given -/

def sumFor (sub : Nat) (deltas : List UsageDelta) : TrafficBytes :=
  ((deltas.filter (·.subscriptionID = sub)).map (·.bytes)).sum

theorem sumFor_eq (sub : Nat) (deltas : List UsageDelta) : sumFor sub deltas =
    (deltas.map fun d => if d.subscriptionID = sub then d.bytes else 0).sum := by
  simp [sumFor, sum_map_ite]

theorem sumFor_append (sub : Nat) (ds es : List UsageDelta) :
    sumFor sub (ds ++ es) = sumFor sub ds + sumFor sub es := by
  simp [sumFor]

theorem sumFor_flatMap {A : Type} (sub : Nat) (l : List A) (f : A → List UsageDelta) :
    sumFor sub (l.flatMap f) = (l.map fun a => sumFor sub (f a)).sum := by
  induction l with
  | nil => rfl
  | cons a l ih => rw [flatMap_cons, sumFor_append, ih, map_cons, sum_cons]

theorem getD_addUsageDeltas (sub : Nat) (deltas : List UsageDelta) :
    (addUsageDeltas deltas).getD sub 0 = sumFor sub deltas := by
  rw [addUsageDeltas, sumFor_eq, foldl_add (fun m : GoMap Nat _ => m.getD sub 0)
    fun d : UsageDelta => if d.subscriptionID = sub then d.bytes else 0]
  · simp
  intro byID d
  rw [GoMap.getD_eq (_ : GoMap Nat _) sub, GoMap.getElem?_insert]
  by_cases same : sub = d.subscriptionID
  · rw [if_pos same, if_pos same.symm, getD_some, ← same]
  · rw [if_neg same, if_neg (Ne.symm same), add_zero, ← getD_eq]

theorem total_addDailyUsageSplits (sub : Nat) (deltas : List DailyUsageDelta) :
    GoMap.total (fun _ b => b) ((addDailyUsageSplits deltas).getD sub ∅) =
      sumFor sub (deltas.map (·.toUsageDelta)) := by
  rw [addDailyUsageSplits, sumFor_eq, List.map_map, foldl_add (fun m : GoMap Nat (GoMap Int _) =>
    total (fun _ b => b) (m.getD sub ∅)) fun d : DailyUsageDelta =>
      if d.subscriptionID = sub then d.bytes else 0]
  · simp [Function.comp_def]
  intro byDay d
  rw [GoMap.getD_eq (_ : GoMap Nat _) sub, GoMap.getElem?_insert]
  by_cases same : sub = d.subscriptionID
  · rw [if_pos same, if_pos same.symm, getD_some, ← same, total_insert,
      ← total_erase_add (byDay.getD sub ∅) d.date rfl]
    abel
  · rw [if_neg same, if_neg (Ne.symm same), add_zero, ← getD_eq]

/-! ## The totals and the days -/

namespace Panel
variable {p : Panel} {records : List TrafficBucket}

def worth (p : Panel) (records : List TrafficBucket) (sub : Nat) (m : GoMap String TrafficBytes) :
    TrafficBytes :=
  GoMap.total (fun email b => if p.subscriptionOf records email = some sub then b else 0) m

theorem worth_addUsers (sub : Nat) (m : GoMap String TrafficBytes) (r : TrafficBucket) :
    p.worth records sub (addUsers m r) =
      p.worth records sub m +
        (p.worth records sub (uploads r) + p.worth records sub (downloads r)) := by
  have adds : ∀ dst src : GoMap String TrafficBytes,
      p.worth records sub (addAll (· + ·) 0 dst src) =
        p.worth records sub dst + p.worth records sub src := by
    intro dst src
    refine total_addAll dst src (fun _ => ite_self _) fun email b _ => ?_
    split
    · rfl
    · exact (add_zero 0).symm
  rw [addUsers, adds, adds, add_assoc]

theorem worth_dailyUsers (sub : Nat) (rs : List TrafficBucket) :
    GoMap.total (fun _ m => p.worth records sub m) (dailyUsers rs) =
      p.worth records sub (users rs) := by
  have none : p.worth records sub ∅ = 0 := total_empty
  refine foldl_rel (r := fun days m => total (fun _ m => p.worth records sub m) days =
    p.worth records sub m) (by rw [none, total_empty]) fun r _ days m same => ?_
  rw [total_insert, worth_addUsers, worth_addUsers, ← same, ← total_erase_add days (day r) none]
  abel

theorem sumFor_resolved (sub : Nat) (email : String) (b : TrafficBytes) :
    sumFor sub ((p.subscriptionOf records email).toList.map (⟨·, b⟩)) =
      if p.subscriptionOf records email = some sub then b else 0 := by
  cases p.subscriptionOf records email with
  | none => rfl
  | some id =>
    rw [toList_some, map_singleton, sumFor_eq]
    simp

theorem sumFor_subs (sub : Nat) :
    sumFor sub (((users records).toList.map fun e =>
      p.emailDeltas records e.1 e.2).flatMap (·.subs)) =
    p.worth records sub ((users records).filter fun _ b => !decide (b.total ≤ 0)) := by
  rw [flatMap_map, sumFor_flatMap, worth, total_filter, total]
  refine congrArg sum (map_congr_left fun e _ => ?_)
  rw [emailDeltas_subs]
  by_cases none : e.2.total ≤ 0
  · simp [none, sumFor]
  · simpa [none] using sumFor_resolved sub e.1 e.2

theorem sumFor_daily (sub : Nat) :
    sumFor sub (((dailyUsers records).toList.flatMap fun d => d.2.toList.flatMap fun e =>
      p.dailyDeltas records d.1 e.1 e.2).map (·.toUsageDelta)) =
      GoMap.total (fun _ m => p.worth records sub m) (dailyUsers records) := by
  rw [map_flatMap, sumFor_flatMap, total]
  refine congrArg sum (map_congr_left fun d _ => ?_)
  rw [map_flatMap, sumFor_flatMap, worth, total]
  refine congrArg sum (map_congr_left fun e _ => ?_)
  obtain ⟨email, b⟩ := e
  rw [dailyDeltas_eq]
  split
  case isTrue none =>
    rw [none, ite_self]
    rfl
  case isFalse =>
    rw [List.map_map]
    exact sumFor_resolved sub email b

end Panel

/-! ## The law -/

/-- What the records have of an email, in the source's wrapping sums. -/
def used (records : List TrafficBucket) (email : String) : TrafficBytes :=
  (records.map (bytesOf · email)).sum

/-- The email has one entry among the totals, which adds its exact bytes to the subscription and to
no other. -/
def Panel.Booked (p : Panel) (records : List TrafficBucket) (email : String) (sub : Nat) : Prop :=
  ∃ b, (users records)[email]? = some b ∧
    (p.emailDeltas records email b).subs = [⟨sub, b⟩] ∧ Exact b records email

open Panel

/-- The same on a day. -/
def Panel.BookedOn (p : Panel) (records : List TrafficBucket) (email : String) (sub : Nat)
    (date : Int) : Prop :=
  ∃ byEmail b, (dailyUsers records)[date]? = some byEmail ∧ byEmail[email]? = some b ∧
    p.dailyDeltas records date email b = [⟨⟨sub, b⟩, date⟩] ∧
    Exact b (records.filter (day · = date)) email

/-- The bytes of the emails of a subscription whose total is not positive. -/
def Panel.withheld (p : Panel) (records : List TrafficBucket) (sub : Nat) : TrafficBytes :=
  (((users records).keys.filter fun email => (used records email).total ≤ 0 ∧
    p.ownerOf records email = some sub).map (used records)).sum

section
variable {p : Panel} {records : List TrafficBucket} {email : String} {r : TrafficBucket} {sub : Nat}
  {date : Int}

theorem getD_users_eq : (users records).getD email 0 = used records email :=
  getD_users records email

theorem mem_keys_of_used (some : used records email ≠ 0) : email ∈ (users records).keys := by
  rw [← getD_users_eq] at some
  exact Std.ExtTreeMap.mem_keys.mpr (mem_iff_isSome_getElem?.mpr
    (by rw [getElem?_of_getD_ne some]; rfl))

theorem used_ne_zero (positive : ¬ (used records email).total ≤ 0) : used records email ≠ 0 := by
  intro zero
  rw [zero] at positive
  exact positive (by decide)

/-- **When an email is booked in the totals.** -/
theorem booked_iff : p.Booked records email sub ↔ Exact (used records email) records email ∧
    ¬ (used records email).total ≤ 0 ∧ p.ownerOf records email = some sub := by
  constructor
  · rintro ⟨b, here, subs, exact⟩
    have same : b = used records email := by
      rw [← getD_users_eq, getD_eq, here, getD_some]
    rw [emailDeltas_subs] at subs
    split at subs
    · cases subs
    next positive =>
      rw [same] at exact positive
      rw [subscriptionOf_eq (mem_keys_of_used (used_ne_zero positive))] at subs
      refine ⟨exact, positive, ?_⟩
      cases owner : p.ownerOf records email with
      | none => simp [owner] at subs
      | some id => simpa [owner] using subs
  · rintro ⟨exact, positive, owner⟩
    have some := used_ne_zero positive
    rw [← subscriptionOf_eq (mem_keys_of_used some)] at owner
    refine ⟨used records email, ?_, ?_, exact⟩
    · rw [← getD_users_eq] at some ⊢
      exact getElem?_of_getD_ne some
    · rw [emailDeltas_subs, if_neg positive, owner]
      rfl

/-- **When an email is booked on a day.** -/
theorem bookedOn_iff (there : email ∈ (users records).keys) : p.BookedOn records email sub date ↔
    Exact (used (records.filter (day · = date)) email) (records.filter (day · = date)) email ∧
      used (records.filter (day · = date)) email ≠ 0 ∧ p.ownerOf records email = some sub := by
  rw [← subscriptionOf_eq there]
  have sum : ((dailyUsers records).getD date ∅).getD email 0 =
      used (records.filter (day · = date)) email := getD_dailyUsers records date email
  constructor
  · rintro ⟨byEmail, b, today, here, deltas, exact⟩
    have same : b = used (records.filter (day · = date)) email := by
      rw [← sum, getD_eq (dailyUsers records), today, getD_some, getD_eq, here, getD_some]
    rw [dailyDeltas_eq] at deltas
    split at deltas
    · cases deltas
    next some =>
      rw [same] at exact some
      refine ⟨exact, some, ?_⟩
      cases owner : p.subscriptionOf records email with
      | none => simp [owner] at deltas
      | some id => simpa [owner] using deltas
  · rintro ⟨exact, some, owner⟩
    rw [← sum] at some exact
    have byEmail : (dailyUsers records).getD date ∅ ≠ ∅ := by
      intro none
      rw [none] at some
      exact some (by simp)
    refine ⟨_, _, getElem?_of_getD_ne byEmail, getElem?_of_getD_ne some, ?_, exact⟩
    rw [dailyDeltas_eq, if_neg some, owner]
    rfl

theorem worth_withheld : p.worth records sub ((users records).filter fun _ b =>
    decide (b.total ≤ 0)) = p.withheld records sub := by
  have listed : p.withheld records sub = ((users records).keys.map fun email =>
      if (used records email).total ≤ 0 ∧ p.ownerOf records email = some sub then
        used records email else 0).sum := by
    simp [withheld, sum_map_ite]
  rw [worth, total_filter, total, listed, ← Std.ExtTreeMap.map_fst_toList_eq_keys, List.map_map]
  refine congrArg sum (map_congr_left fun e mem => ?_)
  have here := mem_toList_iff_getElem?_eq_some.mp mem
  have same : e.2 = used records e.1 := by
    rw [← getD_users_eq, getD_eq, here, getD_some]
  have there : e.1 ∈ (users records).keys := by
    rw [← Std.ExtTreeMap.map_fst_toList_eq_keys]
    exact mem_map_of_mem mem
  rw [subscriptionOf_eq there, same]
  dsimp only [Function.comp_apply]
  by_cases none : (used records e.1).total ≤ 0
  · simp [none]
  · simp [none]

/-- A batch is booked if and only if its timestamps are positive. -/
theorem persist_ok (p : Panel) (records : List TrafficBucket) :
    (∀ r ∈ records, 0 < r.timestamp) ↔
      ∃ booking, p.persistBufferedTraffic records = .ok booking := by
  unfold persistBufferedTraffic
  by_cases none : records = []
  · simp [none]
  rw [if_neg none]
  by_cases bad : records.any fun r => decide (r.timestamp ≤ 0)
  · rw [if_pos bad]
    refine iff_of_false (fun all => ?_) (by simp)
    obtain ⟨r, mem, low⟩ := any_eq_true.mp bad
    exact absurd (all r mem) (by simpa using low)
  · rw [if_neg bad]
    simpa using bad

/-- **The totals and the days agree on a subscription** when what is withheld of it cancels. -/
theorem totals_eq_daily {booking : Booking}
    (booked : p.persistBufferedTraffic records = .ok booking)
    (sub : Nat) : (addUsageDeltas booking.subs).getD sub 0 =
        GoMap.total (fun _ b => b) ((addDailyUsageSplits booking.daily).getD sub ∅) ↔
      p.withheld records sub = 0 := by
  rw [getD_addUsageDeltas, total_addDailyUsageSplits]
  unfold persistBufferedTraffic at booked
  split at booked
  next none =>
    cases booked
    subst none
    exact iff_of_true rfl rfl
  split at booked
  · cases booked
  · cases booked
    rw [sumFor_subs, sumFor_daily, worth_dailyUsers, ← worth_withheld]
    have parts := total_filter_add (f := fun email b =>
      if p.subscriptionOf records email = some sub then b else 0) (users records)
      fun _ b => decide (b.total ≤ 0)
    rw [worth, worth, worth, ← parts]
    exact right_eq_add

end

/-- Every record has a time; each email with bytes and an owner is attributed to one, its sums over
the batch and over the day fit an `int64`, its total is positive and its day is not empty; and what
is withheld of a subscription's emails cancels. -/
structure Panel.Bookable (p : Panel) (records : List TrafficBucket) : Prop where
  stamped : ∀ r ∈ records, 0 < r.timestamp
  owned : ∀ r ∈ records, ∀ email, isReverseEmail email = false →
    (0 < r.read (.userUplink email) ∨ 0 < r.read (.userDownlink email)) →
    (∃ sub, p.Owner email sub) → p.Attributed records email ∧
      (Exact (used records email) records email ∧ ¬ (used records email).total ≤ 0) ∧
      Exact (used (records.filter (day · = day r)) email) (records.filter (day · = day r)) email ∧
        used (records.filter (day · = day r)) email ≠ 0
  even : ∀ sub, p.withheld records sub = 0

def usedBy (email : String) (up down : Int64) : TrafficBucket :=
  { timestamp := 60
    userUplink := (∅ : GoMap String Int64).insert email up
    userDownlink := (∅ : GoMap String Int64).insert email down }

/-- Node 1 with a peer of subscription 7. -/
def onePeer (status : PeerStatus) : Panel where
  db := { oneNode [⟨7, {}, false, "a@panel"⟩] with
    peers := [⟨1, 7, 2, "pub", "psk", "10.0.0.2", status⟩] }
  now := 0
  nodeID := 1
  accountRefs := []
  coreRefs := []
  coreUsage := true
  accountRefs_lt := none_fits
  coreRefs_lt := none_fits

theorem owner_onePeer (status : PeerStatus) : (onePeer status).Owner "wg:wg-1:10.0.0.2" 7 := by
  refine .inr ⟨⟨2, 1, "wg-1", "wireguard", false, false⟩,
    ⟨1, 7, 2, "pub", "psk", "10.0.0.2", status⟩, ⟨?_, mem_singleton.mpr rfl, rfl, ?_⟩, rfl⟩
  · simp [inbounds, onePeer, oneNode]
  · simp [wgEmailKey]

end NasnetPanel.Ingest
