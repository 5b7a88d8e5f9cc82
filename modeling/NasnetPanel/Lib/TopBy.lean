import Mathlib.Data.List.Sort

/-!
# Lib.TopBy — the largest entries of a list by a key

`rankBy f l` is the list with the largest keys first, and a cut at `n` keeps the `n` largest. Where
the keys are distinct, which side of the cut an entry falls on is a matter of counting:
`mem_drop_rankBy` says that an entry is cut off exactly when `n` entries have a larger key.
-/

namespace TopBy
open List

universe u
variable {α : Type u} {f : α → Nat} {l : List α} {a : α} {n : Nat}

/-- The entries, the largest key first. -/
def rankBy (f : α → Nat) (l : List α) : List α := l.insertionSort fun a b => f b ≤ f a

def above (f : α → Nat) (l : List α) (a : α) : Nat := l.countP fun b => decide (f a < f b)

theorem perm_rankBy : (rankBy f l).Perm l := perm_insertionSort _ l

@[simp] theorem mem_rankBy : a ∈ rankBy f l ↔ a ∈ l := perm_rankBy.mem_iff

theorem above_rankBy : above f (rankBy f l) a = above f l a := perm_rankBy.countP_eq _

theorem pairwise_rankBy (distinct : (l.map f).Nodup) :
    (rankBy f l).Pairwise fun a b => f b < f a := by
  have falling : (rankBy f l).Pairwise fun a b => f b ≤ f a := by exact pairwise_insertionSort _ l
  have apart : (rankBy f l).Pairwise fun a b => f a ≠ f b :=
    pairwise_map.mp ((perm_rankBy.map f).nodup_iff.mpr distinct)
  exact (falling.and apart).imp fun h => Nat.lt_of_le_of_ne h.1 (Ne.symm h.2)

theorem mem_drop_of_falling (falling : l.Pairwise fun a b => f b < f a) :
    a ∈ l.drop n ↔ a ∈ l ∧ n ≤ above f l a := by
  induction l generalizing n with
  | nil => simp
  | cons b l ih =>
    obtain ⟨first, falling⟩ := pairwise_cons.mp falling
    cases n with
    | zero => simp
    | succ n =>
      rw [drop_succ_cons, ih falling]
      constructor
      · rintro ⟨mem, count⟩
        refine ⟨mem_cons_of_mem _ mem, ?_⟩
        have larger := first a mem
        simp only [above, countP_cons, larger, decide_true, if_true]
        exact Nat.succ_le_succ count
      · rintro ⟨mem, count⟩
        rcases mem_cons.mp mem with rfl | mem
        · -- nothing is larger than the first
          have none : above f (a :: l) a = 0 := by
            apply countP_eq_zero.mpr
            intro c hc
            rcases mem_cons.mp hc with rfl | hc
            · simp
            · simp [Nat.le_of_lt (first c hc)]
          omega
        · have larger := first a mem
          simp only [above, countP_cons, larger, decide_true, if_true] at count
          exact ⟨mem, Nat.le_of_succ_le_succ count⟩

/-- **The cut keeps an entry unless there are `n` larger ones.** -/
theorem mem_drop_rankBy (distinct : (l.map f).Nodup) :
    a ∈ (rankBy f l).drop n ↔ a ∈ l ∧ n ≤ above f l a := by
  rw [mem_drop_of_falling (pairwise_rankBy distinct), mem_rankBy, above_rankBy]

theorem above_lt_length (mem : a ∈ l) : above f l a < l.length := by
  apply Nat.lt_of_le_of_ne countP_le_length
  intro all
  have larger := countP_eq_length.mp all a mem
  simp at larger

end TopBy
