import NasnetPanel.Ingest.Owned

/-!
# Ingest.Shares — how much of an email's bytes is handed out

The bytes of an email that goes to a subscription are also handed out: to the accounts of the email
on the inbounds that carried something, and to the subscription's core users. Each part is divided
evenly and rounded down, so it hands out what it is of but for the rest of the division
(`given_shares`).

The parts are not parts of one whole. The accounts get the whole total, and bytes that the agent
tagged with a core protocol, which are in the total too, are handed out to the protocol's core
users besides: `tagged_twice`. `shares_within` says when the two together stay within the total.
-/

namespace NasnetPanel.Ingest
open Traffic Access List Panel

def given (shares : List ShareDelta) : Int := (shares.map fun s => s.bytes.toInt).sum

def NonNeg (shares : List ShareDelta) : Prop := ∀ s ∈ shares, 0 ≤ s.bytes.toInt

/-! ## Parts of one amount -/

variable {bytes : Int64} {ids : List Nat}

theorem toInt_div_length {n : Nat} (nonneg : 0 ≤ bytes.toInt) (small : n < 2 ^ 63) :
    (bytes / Int64.ofNat n).toInt = bytes.toInt / n := by
  have divisor : (Int64.ofNat n).toInt = n := Int64.toInt_ofNat_of_lt small
  have top := bytes.toInt_lt
  have quotient : bytes.toInt / n ≤ bytes.toInt := Int.ediv_le_self _ nonneg
  have pos : 0 ≤ bytes.toInt / n := Int.ediv_nonneg nonneg (Int.natCast_nonneg n)
  rw [Int64.toInt_div, divisor, Int.tdiv_eq_ediv_of_nonneg nonneg]
  exact Int.bmod_eq_of_le (by omega) (by omega)

theorem rounded_le {a : Int} (nonneg : 0 ≤ a) (n : Nat) : a - a % n ≤ a := by
  by_cases none : (n : Int) = 0
  · rw [none, Int.emod_zero]
    omega
  · have rest := Int.emod_nonneg a none
    omega

theorem given_append (xs ys : List ShareDelta) : given (xs ++ ys) = given xs + given ys := by
  simp [given]

theorem given_nonneg {xs : List ShareDelta} (nonneg : NonNeg xs) : 0 ≤ given xs :=
  sum_nonneg (forall_mem_map.mpr nonneg)

theorem nonneg_nil : NonNeg [] := fun _ h => by cases h

section
variable (nonneg : 0 ≤ bytes.toInt) (small : ids.length < 2 ^ 63)
include nonneg small

theorem nonneg_shares : NonNeg (shares bytes ids) := by
  refine forall_mem_map.mpr fun id _ => ?_
  rw [toInt_div_length nonneg small]
  exact Int.ediv_nonneg nonneg (Int.natCast_nonneg _)

/-- **Even shares hand out all but the rest of the division.** -/
theorem given_shares : given (shares bytes ids) = bytes.toInt - bytes.toInt % ids.length := by
  have sum : given (shares bytes ids) = ids.length * (bytes.toInt / ids.length) := by
    rw [given, shares, map_map, ← toInt_div_length nonneg small]
    show (ids.map fun _ => (bytes / Int64.ofNat ids.length).toInt).sum = _
    rw [map_const', sum_replicate, nsmul_eq_mul]
  have parts := Int.mul_ediv_add_emod bytes.toInt ids.length
  omega

theorem nonneg_positiveShares : NonNeg (positiveShares bytes ids) := by
  unfold positiveShares
  split
  · exact nonneg_shares nonneg small
  · exact nonneg_nil

theorem given_positiveShares :
    given (positiveShares bytes ids) = bytes.toInt - bytes.toInt % ids.length := by
  unfold positiveShares
  split
  · exact given_shares nonneg small
  next nothing =>
    -- a part of nothing: the whole amount is the rest
    rw [Int64.lt_iff_toInt_lt, Int64.toInt_zero, toInt_div_length nonneg small] at nothing
    have zero : bytes.toInt / ids.length = 0 := by
      have pos := Int.ediv_nonneg nonneg (Int.natCast_nonneg ids.length)
      omega
    have parts := Int.mul_ediv_add_emod bytes.toInt ids.length
    rw [zero, mul_zero] at parts
    show (0 : Int) = _
    omega

end

/-! ## The parts of an email -/

/-- What the batch has of an email, as the panel's `int64` total. -/
def totalOf (records : List TrafficBucket) (email : String) : Int :=
  (used records email).total.toInt

namespace Panel
variable (p : Panel) (records : List TrafficBucket)

/-- The tagged bytes of an email that are handed out to the core users of each protocol. -/
def taggedOut (sub : Nat) (email : String) : Int :=
  (((coreTraffic records).getD email ∅).toList.map fun (protocol, bytes) =>
    let core := (p.coreRefs.filter fun ref =>
      ref.subscriptionID = sub ∧ ref.protocol = protocol).length
    if bytes ≤ 0 then 0 else bytes.toInt - bytes.toInt % core).sum

/-- What the accounts of an email share of its total: all but the rest of the division. -/
def sharedOut (email : String) : Int :=
  totalOf records email - totalOf records email % (p.matchedByEmail records email).length

/-- The sums of the email are not negative together; and where the email is no peer's and core usage
is on, the accounts' shares and the tagged bytes are within what was used. -/
def Apart (sub : Nat) (email : String) : Prop :=
  0 ≤ uploadOf records email + downloadOf records email ∧
    (0 < totalOf records email → ¬ p.Rendered email → p.coreUsage = true →
      p.sharedOut records email + p.taggedOut records sub email ≤
        uploadOf records email + downloadOf records email)

variable {p records} {email : String} {sub : Nat}

theorem length_matchedByEmail (email : String) :
    (p.matchedByEmail records email).length < 2 ^ 63 := by
  rw [matchedByEmail, length_map]
  exact lt_of_le_of_lt (length_filter_le _ _) p.accountRefs_lt

theorem length_coreTrafficRefs (keep : CoreTrafficRef → Bool) :
    (((p.coreTrafficRefs records).filter keep).map (·.id)).length < 2 ^ 63 := by
  rw [length_map]
  refine lt_of_le_of_lt (length_filter_le _ _) ?_
  unfold coreTrafficRefs
  split
  · exact p.coreRefs_lt
  · decide

theorem nonneg_taggedShares (sub : Nat) (email : String) :
    NonNeg (p.taggedShares records sub email) := by
  intro s mem
  obtain ⟨⟨protocol, bytes⟩, _, mem⟩ := mem_flatMap.mp mem
  dsimp only at mem
  split at mem
  · cases mem
  next out =>
    have positive : 0 < bytes.toInt := by
      have := (not_or.mp out).1
      rw [Int64.le_iff_toInt_le, Int64.toInt_zero] at this
      omega
    exact nonneg_positiveShares positive.le (length_coreTrafficRefs _) s mem

theorem given_flatMap {A : Type} (l : List A) (f : A → List ShareDelta) :
    given (l.flatMap f) = (l.map fun a => given (f a)).sum := by
  induction l with
  | nil => rfl
  | cons a l ih => rw [flatMap_cons, given_append, ih, map_cons, sum_cons]

/-- The cores' shares of a client add up to what they reported. -/
theorem given_taggedShares
    (read : (coreTraffic records).getD email ∅ ≠ ∅ → p.coreTrafficRefs records = p.coreRefs) :
    given (p.taggedShares records sub email) = p.taggedOut records sub email := by
  by_cases none : (coreTraffic records).getD email ∅ = ∅
  · rw [taggedShares, taggedOut, none]
    rfl
  rw [taggedShares, given_flatMap, taggedOut]
  refine congrArg sum (map_congr_left fun ⟨protocol, bytes⟩ _ => ?_)
  have users : p.coreByProtocol records sub protocol = (p.coreRefs.filter fun ref =>
      ref.subscriptionID = sub ∧ ref.protocol = protocol).map (·.id) := by
    rw [coreByProtocol, read none]
  dsimp only
  by_cases nothing : bytes ≤ 0
  · rw [if_pos (.inl nothing), if_pos nothing]
    rfl
  rw [if_neg nothing, ← length_map (·.id), ← users]
  have nonneg : 0 ≤ bytes.toInt := by
    rw [Int64.le_iff_toInt_le, Int64.toInt_zero] at nothing
    omega
  by_cases nobody : p.coreByProtocol records sub protocol = []
  · rw [if_pos (.inr nobody), nobody]
    simp [given]
  · rw [if_neg (not_or.mpr ⟨nothing, nobody⟩)]
    exact given_positiveShares nonneg (length_coreTrafficRefs _)

theorem nonneg_untaggedShares {total : Int64} (nonneg : 0 ≤ total.toInt) :
    NonNeg (p.untaggedShares records sub email total) := by
  unfold untaggedShares
  dsimp only
  split
  · exact nonneg_positiveShares nonneg (length_coreTrafficRefs _)
  · exact nonneg_nil

theorem nonneg_coreShares {total : Int64} (nonneg : 0 ≤ total.toInt) :
    NonNeg (p.coreShares records sub email total) := by
  unfold coreShares
  split
  · exact forall_mem_append.mpr ⟨nonneg_taggedShares sub email, nonneg_untaggedShares nonneg⟩
  · exact nonneg_nil

theorem given_peerAccount {total : Int64} (nonneg : 0 ≤ total.toInt)
    (account : Option AccountTrafficRef) :
    NonNeg ((account.toList.filter (·.id ≠ 0)).map fun a => ⟨a.id, total⟩) ∧
      given ((account.toList.filter (·.id ≠ 0)).map fun a => ⟨a.id, total⟩) ≤ total.toInt := by
  cases account with
  | none => exact ⟨nonneg_nil, nonneg⟩
  | some a =>
    by_cases unset : a.id = 0
    · rw [Option.toList_some, filter_cons_of_neg (by simp [unset])]
      exact ⟨nonneg_nil, nonneg⟩
    rw [Option.toList_some, filter_cons_of_pos (by simp [unset])]
    refine ⟨fun s mem => ?_, by simp [given]⟩
    rw [mem_singleton.mp mem]
    exact nonneg

/-- What the core users are given, where the core users are read if there are tags: the tagged
bytes, or at most the total if there is neither a tag nor an account. -/
theorem given_coreShares {total : Int64} (nonneg : 0 ≤ total.toInt) (on : p.coreUsage = true)
    (read : (coreTraffic records).getD email ∅ ≠ ∅ → p.coreTrafficRefs records = p.coreRefs) :
    given (p.coreShares records sub email total) = p.taggedOut records sub email ∨
      p.taggedOut records sub email = 0 ∧ p.matchedByEmail records email = [] ∧
        given (p.coreShares records sub email total) ≤ total.toInt := by
  rw [coreShares, if_pos on, given_append, given_taggedShares read]
  unfold untaggedShares
  dsimp only
  split
  next plain =>
    simp only [Bool.and_eq_true, List.isEmpty_iff] at plain
    have noTags : p.taggedOut records sub email = 0 := by
      rw [taggedOut, Std.ExtTreeMap.isEmpty_iff.mp plain.1.1]
      rfl
    refine .inr ⟨noTags, plain.1.2, ?_⟩
    have short : (p.coreBySub records sub).length < 2 ^ 63 := length_coreTrafficRefs _
    rw [noTags, zero_add]
    exact (given_positiveShares nonneg short).trans_le (rounded_le nonneg _)
  · left
    exact add_zero _

end Panel

/-! ## The law -/

theorem TrafficBytes.total_add (a b : TrafficBytes) : (a + b).total = a.total + b.total := by
  simp only [total, up_add, down_add]
  ac_rfl

/-- The panel's total of an email is what was used, as far as an `int64` holds it. -/
theorem total_used {records : List TrafficBucket} {email : String}
    (visible : isReverseEmail email = false) : (used records email).total =
      Int64.ofInt (uploadOf records email + downloadOf records email) := by
  induction records with
  | nil => rfl
  | cons r rs ih =>
    have own : (bytesOf r email).total =
        Int64.ofInt (r.read (.userUplink email) + r.read (.userDownlink email)) := by
      rw [bytesOf, visible, Int64.ofInt_add, XrayStatsSnapshot.read, XrayStatsSnapshot.read,
        Int64.ofInt_toInt, Int64.ofInt_toInt]
      rfl
    have split : uploadOf (r :: rs) email + downloadOf (r :: rs) email =
        r.read (.userUplink email) + r.read (.userDownlink email) +
          (uploadOf rs email + downloadOf rs email) := by
      simp only [uploadOf, downloadOf, map_cons, sum_cons]
      omega
    rw [split, Int64.ofInt_add, ← ih, ← own, ← TrafficBytes.total_add]
    rfl

theorem totalOf_le {records : List TrafficBucket} {email : String}
    (visible : isReverseEmail email = false)
    (nonneg : 0 ≤ uploadOf records email + downloadOf records email) :
    totalOf records email ≤ uploadOf records email + downloadOf records email := by
  have size : Int64.size = 18446744073709551616 := rfl
  rw [totalOf, total_used visible, Int64.toInt_ofInt, Int.bmod_eq_emod, size]
  split <;> omega

section
variable {p : Panel} {records : List TrafficBucket} {email : String} {b : TrafficBytes} {sub : Nat}

theorem nonneg_emailDeltas :
    NonNeg (p.emailDeltas records email b).accounts ∧
      NonNeg (p.emailDeltas records email b).core := by
  unfold emailDeltas
  split
  case isTrue => exact ⟨nonneg_nil, nonneg_nil⟩
  case isFalse some =>
    rw [Int64.le_iff_toInt_le, Int64.toInt_zero] at some
    have nonneg : 0 ≤ b.total.toInt := by omega
    cases (p.wgIndex records)[email]? with
    | some ref => exact ⟨(given_peerAccount nonneg _).1, nonneg_nil⟩
    | none =>
      cases (p.subs records)[email]? with
      | none => exact ⟨nonneg_nil, nonneg_nil⟩
      | some sub =>
        exact ⟨nonneg_shares nonneg (length_matchedByEmail email), nonneg_coreShares nonneg⟩

/-- The core users are read where an email that goes to a subscription by config email has tags. -/
theorem coreTrafficRefs_eq (on : p.coreUsage = true) (positive : ¬ (used records email).total ≤ 0)
    (noPeer : (p.wgIndex records)[email]? = none) (resolved : (p.subs records)[email]? = some sub)
    (tags : (coreTraffic records).getD email ∅ ≠ ∅) :
    p.coreTrafficRefs records = p.coreRefs := by
  have here : (users records)[email]? = some (used records email) := by
    have some := used_ne_zero positive
    rw [← getD_users_eq] at some ⊢
    exact GoMap.getElem?_of_getD_ne some
  have needed : p.needsCoreRefs records = true := by
    refine any_eq_true.mpr ⟨(email, used records email), ?_, ?_⟩
    · exact Std.ExtTreeMap.mem_toList_iff_getElem?_eq_some.mpr here
    · have some : ((coreTraffic records).getD email ∅).isEmpty = false := by
        simpa [Std.ExtTreeMap.isEmpty_iff] using tags
      simp [positive, resolved, noPeer, some]
  rw [coreTrafficRefs, on, needed]
  rfl

end

section Law
variable {p : Panel} {records : List TrafficBucket} {email : String} {sub : Nat}
  (positive : ¬ (used records email).total ≤ 0)
include positive

theorem totalOf_pos : 0 < totalOf records email := by
  rw [Int64.le_iff_toInt_le, Int64.toInt_zero] at positive
  exact Int.not_le.mp positive

/-- A peer's email hands out its total to one account at most. -/
theorem given_of_peer {q : WGPeer} (found : p.peerOf records email = some q) :
    given (p.emailDeltas records email (used records email)).accounts +
      given (p.emailDeltas records email (used records email)).core ≤ totalOf records email := by
  unfold emailDeltas
  rw [if_neg positive, wgIndex_eq, found]
  have account := (given_peerAccount (totalOf_pos positive).le
    (p.accountsBySub q.subscriptionID q.inboundID)).2
  exact (add_zero _).trans_le account

/-- Any other email hands out its total to the accounts, all but the rest of the division, and to
the core users what `coreShares` says. -/
theorem given_of_config (noPeer : p.peerOf records email = none)
    (resolved : (p.subs records)[email]? = some sub) :
    given (p.emailDeltas records email (used records email)).accounts +
        given (p.emailDeltas records email (used records email)).core =
      p.sharedOut records email +
        given (p.coreShares records sub email (used records email).total) := by
  unfold emailDeltas
  rw [if_neg positive, wgIndex_eq, noPeer, resolved]
  exact congrArg (· + _) (given_shares (totalOf_pos positive).le (length_matchedByEmail email))

theorem config_within (noPeer : p.peerOf records email = none)
    (resolved : (p.subs records)[email]? = some sub) {bound : Int}
    (atMost : 0 ≤ bound → totalOf records email ≤ bound) :
    p.sharedOut records email + given (p.coreShares records sub email (used records email).total) ≤
        bound ↔
      0 ≤ bound ∧ (p.coreUsage = true →
        p.sharedOut records email + p.taggedOut records sub email ≤ bound) := by
  have total := totalOf_pos positive
  have shared : p.sharedOut records email ≤ totalOf records email := rounded_le total.le _
  have core : 0 ≤ given (p.coreShares records sub email (used records email).total) :=
    given_nonneg (nonneg_coreShares total.le)
  have accounts : 0 ≤ p.sharedOut records email := by
    have short : (p.matchedByEmail records email).length < 2 ^ 63 := length_matchedByEmail email
    rw [sharedOut, totalOf, ← given_shares total.le short]
    exact given_nonneg (nonneg_shares total.le short)
  cases on : p.coreUsage with
  | false =>
    have nothing : given (p.coreShares records sub email (used records email).total) = 0 := by
      rw [coreShares, on]
      rfl
    rw [nothing, add_zero]
    constructor
    · exact fun h => ⟨by omega, fun off => by cases off⟩
    · exact fun h => shared.trans (atMost h.1)
  | true =>
    have read : (coreTraffic records).getD email ∅ ≠ ∅ → p.coreTrafficRefs records = p.coreRefs :=
      coreTrafficRefs_eq on positive (by rw [wgIndex_eq, noPeer]; rfl) resolved
    rcases @given_coreShares p records email sub _ total.le on read with
      tagged | ⟨noTags, nobody, le⟩
    · rw [tagged]
      constructor
      · exact fun h => ⟨by omega, fun _ => h⟩
      · exact fun h => h.2 rfl
    · have none : p.sharedOut records email = 0 := by
        rw [sharedOut, nobody]
        simp
      rw [noTags, none]
      have le : given (p.coreShares records sub email (used records email).total) ≤
        totalOf records email := le
      constructor
      · exact fun h => ⟨by omega, fun _ => by omega⟩
      · intro h
        have := atMost h.1
        omega

end Law

/-- **When no email hands out more than it used.** For every batch and every set of accounts, core
users and tagged usage: what the accounts and the core users get because of an email is at most its
upload plus its download, and no share is negative, if and only if the email's accounts and its
tagged bytes are `Apart`. -/
theorem shares_within (p : Panel) (records : List TrafficBucket) (email : String) (sub : Nat)
    (visible : isReverseEmail email = false) (owner : p.ownerOf records email = some sub) :
    (given (p.handedOut records email).accounts + given (p.handedOut records email).core ≤
        uploadOf records email + downloadOf records email ∧
      NonNeg (p.handedOut records email).accounts ∧ NonNeg (p.handedOut records email).core) ↔
      p.Apart records sub email := by
  have handed : p.handedOut records email = p.emailDeltas records email (used records email) := by
    rw [handedOut, getD_users_eq]
  rw [handed, and_iff_left nonneg_emailDeltas]
  have atMost : 0 ≤ uploadOf records email + downloadOf records email →
      totalOf records email ≤ uploadOf records email + downloadOf records email :=
    totalOf_le visible
  by_cases none : (used records email).total ≤ 0
  · have zero : totalOf records email ≤ 0 := Int64.le_iff_toInt_le.mp none
    rw [emailDeltas, if_pos none, Apart]
    exact ⟨fun h => ⟨h, fun positive => absurd zero (by omega)⟩, fun h => h.1⟩
  have there := mem_keys_of_used (used_ne_zero none)
  have rendered := peerOf_isSome (p := p) there
  have positive := totalOf_pos none
  unfold Apart
  cases found : p.peerOf records email with
  | some q =>
    have peer : p.Rendered email := rendered.mp (by rw [found]; rfl)
    have le := given_of_peer none found
    obtain ⟨accounts, core⟩ := @nonneg_emailDeltas p records email (used records email)
    have accounts := given_nonneg accounts
    have core := given_nonneg core
    constructor
    · exact fun h => ⟨by omega, fun _ other => absurd peer other⟩
    · exact fun h => le.trans (atMost h.1)
  | none =>
    have other : ¬ p.Rendered email := fun peer => by
      have some := rendered.mpr peer
      rw [found] at some
      cases some
    have resolved : (p.subs records)[email]? = some sub := by
      rw [ownerOf, found] at owner
      exact (getElem?_findByConfigEmails there).trans owner
    rw [given_of_config none found resolved, config_within none found resolved atMost]
    exact and_congr_right fun _ => ⟨fun h _ _ => h, fun h => h positive other⟩

/-- Subscription 7 with an account on `in-1` and a core user. -/
def oneAccount : Panel where
  db := oneNode [⟨7, {}, false, "a@panel"⟩]
  now := 0
  nodeID := 1
  accountRefs := [⟨1, "a@panel", 1, 7, .subscription, 0⟩]
  coreRefs := [⟨3, 7, "ssh"⟩]
  coreUsage := true
  accountRefs_lt := one_fits
  coreRefs_lt := one_fits

/-- A bucket in which `a@panel` used 100 bytes, `ssh` of them over ssh and `xray` through `in-1`. -/
def mixed (xray ssh : Int64) : TrafficBucket :=
  { timestamp := 60
    userUplink := (∅ : GoMap String Int64).insert "a@panel" 100
    inboundUplink := (∅ : GoMap String Int64).insert "in-1" xray
    coreUsage := (∅ : GoMap String (GoMap String CoreUsageCounts)).insert "ssh"
      ((∅ : GoMap String CoreUsageCounts).insert "a@panel" ⟨ssh, 0⟩) }

theorem shares_within_sshOnly :
    (oneAccount.handedOut [mixed 0 100] "a@panel").core = [⟨3, 100⟩] ∧
      given (oneAccount.handedOut [mixed 0 100] "a@panel").accounts +
        given (oneAccount.handedOut [mixed 0 100] "a@panel").core ≤ 100 := by
  have apart : oneAccount.Apart [mixed 0 100] 7 "a@panel" :=
    ⟨by decide +kernel, fun _ _ _ => by decide +kernel⟩
  have within := (shares_within oneAccount [mixed 0 100] "a@panel" 7 (by decide)
    (by decide +kernel)).mpr apart
  have used : uploadOf [mixed 0 100] "a@panel" + downloadOf [mixed 0 100] "a@panel" = 100 := by
    decide +kernel
  exact ⟨by decide +kernel, used ▸ within.1⟩

/-- **Tagged bytes are handed out twice**: of 100 bytes 40 came through an inbound and 60 over ssh.
The account gets 100 and the core user 60. -/
theorem tagged_twice :
    (users [mixed 40 60]).getD "a@panel" 0 = ⟨100, 0⟩ ∧
      (oneAccount.handedOut [mixed 40 60] "a@panel").accounts = [⟨1, 100⟩] ∧
      (oneAccount.handedOut [mixed 40 60] "a@panel").core = [⟨3, 60⟩] ∧
      given (oneAccount.handedOut [mixed 40 60] "a@panel").accounts +
        given (oneAccount.handedOut [mixed 40 60] "a@panel").core = 160 := by
  decide +kernel

end NasnetPanel.Ingest
