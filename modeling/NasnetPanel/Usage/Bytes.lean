import NasnetPanel.Usage.Ledger

/-!
# Usage.Bytes — the exact bytes in an agent's buckets

An agent's counts are `int64` and wrap. Where what it is given is not negative and no count passes
the largest `int64` (`fits`), a subscription's bytes in a bucket are the sum of what was put there,
and those in all the buckets an agent ever had are the sum of everything it was given
(`exact_accumulate`).
-/

namespace NasnetPanel.Usage

open Traffic

/-! ## Adding counts -/

def NonNegCounts (m : GoMap String Int64) : Prop := ∀ email, 0 ≤ (m.getD email 0).toInt

/-- The counts of `src` are not negative, and fit where they go. -/
def fitCounts (dst src : GoMap String Int64) : Bool :=
  src.toList.all fun e =>
    decide (0 ≤ e.2.toInt) && decide ((dst.getD e.1 0).toInt + e.2.toInt < 2 ^ 63)

theorem fitCounts_iff {dst src : GoMap String Int64} : fitCounts dst src = true ↔
    ∀ (email : String) (v : Int64), src[email]? = some v →
      0 ≤ v.toInt ∧ (dst.getD email 0).toInt + v.toInt < 2 ^ 63 := by
  simp only [fitCounts, List.all_eq_true, Bool.and_eq_true, decide_eq_true_eq]
  constructor
  · intro h email v found
    exact h (email, v) (Std.ExtTreeMap.mem_toList_iff_getElem?_eq_some.mpr found)
  · intro h e he
    exact h e.1 e.2 (Std.ExtTreeMap.mem_toList_iff_getElem?_eq_some.mp he)

section Counts
variable {dst src : GoMap String Int64} (nonneg : NonNegCounts dst)
  (fits : fitCounts dst src = true)
include nonneg fits

theorem toInt_addCounts (email : String) (v : Int64) (found : src[email]? = some v) :
    (dst.getD email 0 + v).toInt = (dst.getD email 0).toInt + v.toInt :=
  have ⟨pos, small⟩ := fitCounts_iff.mp fits email v found
  toInt_add_of_lt (nonneg email) pos small

theorem nonNeg_addCounts : NonNegCounts (XrayStatsSnapshot.addCounts dst src) := by
  intro email
  rw [XrayStatsSnapshot.addCounts, GoMap.getD_addAll]
  cases found : src[email]? with
  | none => exact nonneg email
  | some v =>
    have pos := (fitCounts_iff.mp fits email v found).1
    have old := nonneg email
    rw [toInt_addCounts nonneg fits email v found]
    omega

theorem userBytes_addCounts (sub : Nat) :
    userBytes sub (XrayStatsSnapshot.addCounts dst src) =
      userBytes sub dst + userBytes sub src := by
  refine GoMap.total_addAll dst src (fun email => ?_) fun email v found => ?_
  · rw [Int64.toInt_zero, Int.toNat_zero, ite_self]
  have pos := (fitCounts_iff.mp fits email v found).1
  have old := nonneg email
  rw [toInt_addCounts nonneg fits email v found]
  split
  · omega
  · rfl

end Counts

/-! ## Snapshots -/

structure NonNeg (s : XrayStatsSnapshot) : Prop where
  up : NonNegCounts s.userUplink
  down : NonNegCounts s.userDownlink

def fitSnapshot (dst src : XrayStatsSnapshot) : Bool :=
  fitCounts dst.userUplink src.userUplink && fitCounts dst.userDownlink src.userDownlink

theorem nonNeg_empty : NonNeg {} :=
  ⟨fun email => by simp, fun email => by simp⟩

variable {dst src : XrayStatsSnapshot} {a : Box}

theorem nonNeg_merge (nonneg : NonNeg dst)
    (fits : fitSnapshot dst src = true) : NonNeg (dst.merge src) :=
  have fits := Bool.and_eq_true_iff.mp fits
  ⟨nonNeg_addCounts nonneg.up fits.1, nonNeg_addCounts nonneg.down fits.2⟩

theorem subBytes_merge (nonneg : NonNeg dst) (fits : fitSnapshot dst src = true) (sub : Nat) :
    subBytes sub (dst.merge src) = subBytes sub dst + subBytes sub src := by
  have fits := Bool.and_eq_true_iff.mp fits
  exact Prod.ext (userBytes_addCounts nonneg.up fits.1 sub)
    (userBytes_addCounts nonneg.down fits.2 sub)

theorem subBytes_empty (sub : Nat) : subBytes sub {} = 0 := by
  have none : userBytes sub ∅ = 0 := by rw [userBytes, GoMap.total_empty]
  exact Prod.ext none none

/-! ## Agents -/

namespace Box

/-- Everything an agent was given of a subscription, up and down. -/
def ever (a : Box) (sub : Nat) : Nat × Nat := (a.log.map fun e => subBytes sub e.1).sum

/-- What an agent is given is not negative, and fits in its bucket. -/
def fits (a : Box) (delta : XrayStatsSnapshot) (now : Int) : Bool :=
  fitSnapshot (a.store.bucketAt (a.store.truncateTime now)).toXrayStatsSnapshot delta

end Box

/-- No count of a bucket the agent ever had is negative, and its buckets have what it was given. -/
structure Exact (a : Box) : Prop where
  nonneg : ∀ (ts : Int) (b : TrafficBucket), a.held.buckets[ts]? = some b →
    NonNeg b.toXrayStatsSnapshot
  sums : ∀ sub, GoMap.total (fun _ (b : TrafficBucket) => subBytes sub b.toXrayStatsSnapshot)
    a.held.buckets = a.ever sub

theorem Exact.bucketAt (exact_ : Exact a) (ts : Int) :
    NonNeg (a.held.bucketAt ts).toXrayStatsSnapshot := by
  rw [MemoryStore.bucketAt, GoMap.getD_eq]
  cases found : a.held.buckets[ts]? with
  | some b => exact exact_.nonneg ts b found
  | none => exact nonNeg_empty

/-- **The bytes in the buckets are the bytes given.** -/
theorem exact_accumulate {written : List Entry} {id : Nat} (kept : Kept a written id)
    (exact_ : Exact a) {delta : XrayStatsSnapshot} {now : Int}
    (newest : Newest a.held.buckets (a.store.truncateTime now)) (fits : a.fits delta now = true) :
    Exact (a.accumulate delta now) := by
  have bucket := kept.bucketAt newest
  rw [Box.fits, ← bucket] at fits
  have width := a.truncateTime_held now
  have grown : (a.held.grown delta now).toXrayStatsSnapshot =
      (a.held.bucketAt (a.store.truncateTime now)).toXrayStatsSnapshot.merge delta := by
    rw [MemoryStore.grown, width]
  refine ⟨fun ts b found => ?_, fun sub => ?_⟩
  · rw [Box.held_accumulate, MemoryStore.getElem?_add] at found
    split at found
    · cases found
      rw [grown]
      exact nonNeg_merge (exact_.bucketAt _) fits
    · exact exact_.nonneg ts b found
  · rw [Box.held_accumulate, MemoryStore.total_add (subBytes_empty sub)
      (by rw [grown, width, subBytes_merge (exact_.bucketAt _) fits]), exact_.sums sub, Box.ever,
      Box.ever, Box.accumulate, List.map_cons, List.sum_cons, add_comm]

theorem exact_drain (exact_ : Exact a) (t : Int) : Exact (a.drain t) :=
  { exact_ with }

theorem exact_init (store : MemoryStore) :
    Exact ⟨{ store with buckets := ∅, baseline := none }, []⟩ := by
  refine ⟨fun ts b found => by simp [Box.held] at found, fun sub => ?_⟩
  exact GoMap.total_empty

end NasnetPanel.Usage
