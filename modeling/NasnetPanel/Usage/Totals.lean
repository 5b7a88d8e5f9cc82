import Mathlib.Algebra.Group.Prod
import Mathlib.Algebra.GroupWithZero.Nat
import Mathlib.Algebra.Order.Monoid.Canonical.Defs

/-!
# Usage.Totals — pairs of byte counts that saturate

`Totals` of `usage/history.go`: two `uint64` counts added by `sat`, which stays at the largest value
instead of wrapping. Saturating addition is a commutative, ordered monoid, so sums of totals can be
regrouped at will, and `cap` takes exact byte counts to totals and respects addition: what the hub
counts is the exact sum, capped.
-/

namespace NasnetPanel.Usage
open UInt64

def maxUint64 : Nat := 2 ^ 64 - 1

/-- Adds without wrapping: a counter that cannot grow any more stays put. -/
def sat (a b : UInt64) : UInt64 :=
  let s := a + b
  if a ≤ s then s else UInt64.ofNat maxUint64

theorem sat_toNat (a b : UInt64) : (sat a b).toNat = min (a.toNat + b.toNat) maxUint64 := by
  have hb := b.toNat_lt
  have sum := UInt64.toNat_add a b
  rw [sat]
  split
  next le =>
    rw [le_iff_toNat_le, sum] at le
    rw [sum, maxUint64]
    omega
  next lt =>
    rw [le_iff_toNat_le, sum] at lt
    have top : (ofNat maxUint64).toNat = maxUint64 := rfl
    rw [top, maxUint64]
    omega

/-- Bytes the clients sent, and bytes sent to them. -/
@[ext] structure Totals where
  up : UInt64
  down : UInt64
deriving DecidableEq, Repr

namespace Totals

instance : Zero Totals := ⟨⟨0, 0⟩⟩

def plus (t o : Totals) : Totals := ⟨sat t.up o.up, sat t.down o.down⟩

instance : Add Totals := ⟨plus⟩

def isZero (t : Totals) : Bool := t == 0

theorem ext_toNat {a b : Totals} (up : a.up.toNat = b.up.toNat)
    (down : a.down.toNat = b.down.toNat) : a = b := by
  ext1
  · exact UInt64.toNat_inj.mp up
  · exact UInt64.toNat_inj.mp down

@[simp] theorem up_zero : (0 : Totals).up.toNat = 0 := rfl

@[simp] theorem down_zero : (0 : Totals).down.toNat = 0 := rfl

theorem up_add (a b : Totals) : (a + b).up.toNat = min (a.up.toNat + b.up.toNat) maxUint64 :=
  sat_toNat _ _

theorem down_add (a b : Totals) :
    (a + b).down.toNat = min (a.down.toNat + b.down.toNat) maxUint64 := sat_toNat _ _

theorem up_le (a : Totals) : a.up.toNat ≤ maxUint64 := Nat.le_sub_one_of_lt a.up.toNat_lt

theorem down_le (a : Totals) : a.down.toNat ≤ maxUint64 := Nat.le_sub_one_of_lt a.down.toNat_lt

instance : AddCommMonoid Totals where
  add_assoc a b c := by
    refine ext_toNat ?_ ?_
    · simp only [up_add]
      omega
    · simp only [down_add]
      omega
  zero_add a := by
    have up := up_le a
    have down := down_le a
    refine ext_toNat ?_ ?_
    · rw [up_add, up_zero]
      omega
    · rw [down_add, down_zero]
      omega
  add_zero a := by
    have up := up_le a
    have down := down_le a
    refine ext_toNat ?_ ?_
    · rw [up_add, up_zero]
      omega
    · rw [down_add, down_zero]
      omega
  add_comm a b := by
    refine ext_toNat ?_ ?_
    · rw [up_add, up_add, Nat.add_comm]
    · rw [down_add, down_add, Nat.add_comm]
  nsmul := nsmulRec

/-- Both counts at most the other's. -/
instance : LE Totals := ⟨fun a b => a.up.toNat ≤ b.up.toNat ∧ a.down.toNat ≤ b.down.toNat⟩

theorem le_def {a b : Totals} :
    a ≤ b ↔ a.up.toNat ≤ b.up.toNat ∧ a.down.toNat ≤ b.down.toNat := Iff.rfl

instance : PartialOrder Totals where
  le_refl a := ⟨Nat.le_refl _, Nat.le_refl _⟩
  le_trans a b c ab bc := ⟨ab.1.trans bc.1, ab.2.trans bc.2⟩
  le_antisymm a b ab ba :=
    ext_toNat (Nat.le_antisymm ab.1 ba.1) (Nat.le_antisymm ab.2 ba.2)

instance : IsOrderedAddMonoid Totals where
  add_le_add_left a b ab c := by
    rw [le_def] at ab ⊢
    simp only [up_add, down_add]
    omega

/-- What is missing from one total to a larger one can be added to it. -/
instance : CanonicallyOrderedAdd Totals where
  exists_add_of_le {a b} ab := by
    have up := up_le b
    have down := down_le b
    rw [le_def] at ab
    refine ⟨⟨UInt64.ofNat (b.up.toNat - a.up.toNat), UInt64.ofNat (b.down.toNat - a.down.toNat)⟩,
      ext_toNat ?_ ?_⟩
    · rw [up_add, UInt64.toNat_ofNat_of_lt' (by rw [maxUint64] at up; rw [UInt64.size]; omega)]
      omega
    · rw [down_add, UInt64.toNat_ofNat_of_lt' (by rw [maxUint64] at down; rw [UInt64.size]; omega)]
      omega
  le_add_self a b := by
    have up := up_le a
    have down := down_le a
    rw [le_def, up_add, down_add]
    omega
  le_self_add a b := by
    have up := up_le a
    have down := down_le a
    rw [le_def, up_add, down_add]
    omega

/-- An exact pair of byte counts, as totals hold it. -/
def cap (n : Nat × Nat) : Totals :=
  ⟨UInt64.ofNat (min n.1 maxUint64), UInt64.ofNat (min n.2 maxUint64)⟩

theorem up_cap (n : Nat × Nat) : (cap n).up.toNat = min n.1 maxUint64 :=
  toNat_ofNat_of_lt' (by rw [size, maxUint64]; omega)

theorem down_cap (n : Nat × Nat) : (cap n).down.toNat = min n.2 maxUint64 :=
  toNat_ofNat_of_lt' (by rw [size, maxUint64]; omega)

@[simp] theorem cap_zero : cap 0 = 0 := rfl

/-- **Capping respects addition.** -/
theorem cap_add (a b : Nat × Nat) : cap (a + b) = cap a + cap b := by
  refine ext_toNat ?_ ?_
  · rw [up_cap, up_add, up_cap, up_cap, Prod.fst_add]
    omega
  · rw [down_cap, down_add, down_cap, down_cap, Prod.snd_add]
    omega

/-- Capping as a homomorphism. -/
def capHom : Nat × Nat →+ Totals where
  toFun := cap
  map_zero' := cap_zero
  map_add' := cap_add

theorem exact_of_cap {life : Totals} {rest ever : Nat × Nat} (h : life + cap rest = cap ever) :
    (ever.1 < maxUint64 → life.up.toNat + rest.1 = ever.1) ∧
      (ever.2 < maxUint64 → life.down.toNat + rest.2 = ever.2) := by
  have hup := congrArg (fun t => t.up.toNat) h
  have hdown := congrArg (fun t => t.down.toNat) h
  simp only [up_add, up_cap, down_add, down_cap] at hup hdown
  omega

end Totals

end NasnetPanel.Usage
