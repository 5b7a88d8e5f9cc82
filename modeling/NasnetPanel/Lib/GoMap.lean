import Mathlib.Algebra.BigOperators.Group.List.Basic
import Mathlib.Tactic.Abel

/-!
# Lib.GoMap — finite maps with a zero value, merging and sums

A map from keys to values, read with a default for a missing key. `GoMap K V` is the standard
library's extensional ordered map, so two maps with the same entries are equal and the entries are
listed in key order, which stands for a sort by key.

* `collect`: the loop `for a := range l { m[key(a)] = val(a) }`; `getElem?_collect` reads it,
* `addAll`: the loop `for k, v := range src { dst[k] += v }` for any `plus`; `getElem?_addAll` reads
  it,
* `total`: a value computed from each entry, added up; `total_insert`, `total_erase`,
  `total_filter_add` and `total_addAll` say how it changes.
-/

/-- A finite map over an ordered type of keys. -/
abbrev GoMap (K : Type) (V : Type) [Ord K] := Std.ExtTreeMap K V compare

namespace GoMap
open List

variable {K V W M : Type} [Ord K] [Std.TransOrd K] [Std.LawfulEqOrd K]

/-! ## Reading -/

theorem getElem?_insert (m : GoMap K V) [DecidableEq K] (k a : K) (v : V) :
    (m.insert k v)[a]? = if a = k then some v else m[a]? := by
  rw [Std.ExtTreeMap.getElem?_insert]
  by_cases same : a = k
  · simp [same]
  · simp [same, Ne.symm same]

theorem getElem?_erase (m : GoMap K V) [DecidableEq K] (k a : K) :
    (m.erase k)[a]? = if a = k then none else m[a]? := by
  rw [Std.ExtTreeMap.getElem?_erase]
  by_cases same : a = k
  · simp [same]
  · simp [same, Ne.symm same]

omit [Std.LawfulEqOrd K] in
theorem getD_eq (m : GoMap K V) (k : K) (zero : V) : m.getD k zero = m[k]?.getD zero :=
  Std.ExtTreeMap.getD_eq_getD_getElem?

theorem getElem?_filter (m : GoMap K V) (p : K → V → Bool) (k : K) :
    (m.filter p)[k]? = m[k]?.filter (p k) := by
  rw [Std.ExtTreeMap.getElem?_filter']

theorem filter_of_forall {m : GoMap K V} {p : K → V → Bool}
    (all : ∀ k v, m[k]? = some v → p k v = true) : m.filter p = m := by
  refine Std.ExtTreeMap.ext_getElem? fun k => ?_
  rw [getElem?_filter]
  cases found : m[k]? with
  | none => rfl
  | some v => rw [Option.filter_some, if_pos (all k v found)]

theorem distinct_toList (m : GoMap K V) : m.toList.Pairwise fun a b => a.1 ≠ b.1 := by
  refine List.Pairwise.imp ?_ Std.ExtTreeMap.distinct_keys_toList
  intro a b differ same
  exact differ (Std.LawfulEqOrd.compare_eq_iff_eq.mpr same)

theorem nodup_toList (m : GoMap K V) : m.toList.Nodup :=
  (distinct_toList m).imp fun differ same => differ (congrArg Prod.fst same)

variable {k : K} {A : Type}

theorem insert_cases [DecidableEq K] {m : GoMap K V} {a : K} {v w : V}
    (found : (m.insert k v)[a]? = some w) : a = k ∧ w = v ∨ a ≠ k ∧ m[a]? = some w := by
  rw [getElem?_insert] at found
  split at found
  next same => exact .inl ⟨same, (Option.some.inj found).symm⟩
  next other => exact .inr ⟨other, found⟩

theorem forall_insert [DecidableEq K] {m : GoMap K V} {v : V} {P : K → V → Prop} (new : P k v)
    (old : ∀ a w, m[a]? = some w → P a w) : ∀ a w, (m.insert k v)[a]? = some w → P a w := by
  intro a w found
  rcases insert_cases found with ⟨rfl, rfl⟩ | ⟨-, found⟩
  · exact new
  · exact old a w found

theorem of_erase [DecidableEq K] {m : GoMap K V} {a : K} {w : V}
    (found : (m.erase k)[a]? = some w) : a ≠ k ∧ m[a]? = some w := by
  rw [getElem?_erase] at found
  split at found
  · cases found
  next other => exact ⟨other, found⟩

theorem of_filter {m : GoMap K V} {p : K → V → Bool} {v : V}
    (found : (m.filter p)[k]? = some v) : m[k]? = some v ∧ p k v = true := by
  rwa [getElem?_filter, Option.filter_eq_some_iff] at found

theorem of_map {W : Type} {m : GoMap K V} {f : K → V → W} {w : W}
    (found : (m.map f)[k]? = some w) : ∃ v, m[k]? = some v ∧ f k v = w := by
  rwa [Std.ExtTreeMap.getElem?_map, Option.map_eq_some_iff] at found

omit [Std.LawfulEqOrd K] in
theorem getElem?_of_getD_ne {m : GoMap K V} {zero : V} (ne : m.getD k zero ≠ zero) :
    m[k]? = some (m.getD k zero) := by
  rw [getD_eq] at ne ⊢
  cases found : m[k]? with
  | some v => rfl
  | none => exact absurd (by rw [found]; rfl) ne

/-- What a loop adds to a reading of its state, when each step adds its own gain. -/
theorem foldl_add {S : Type} [AddMonoid M] (obs : S → M) (gain : A → M) {f : S → A → S}
    (step : ∀ s a, obs (f s a) = obs s + gain a) (l : List A) (s : S) :
    obs (l.foldl f s) = obs s + (l.map gain).sum := by
  induction l generalizing s with
  | nil => simp
  | cons a l ih => rw [foldl_cons, ih, step, map_cons, sum_cons, add_assoc]

/-! ## Collecting -/

/-- The values of a list under their keys; a later one replaces an earlier one. -/
def collect {A : Type} (key : A → K) (val : A → V) (l : List A) : GoMap K V :=
  l.foldl (fun m a => m.insert (key a) (val a)) ∅

theorem getElem?_collect [DecidableEq K] (key : A → K) (val : A → V) (l : List A)
    (k : K) : (collect key val l)[k]? = (l.reverse.find? fun a => key a = k).map val := by
  unfold collect
  rw [← foldr_reverse]
  induction l.reverse with
  | nil => simp
  | cons a l ih =>
    rw [foldr_cons, getElem?_insert, ih, find?_cons]
    by_cases same : key a = k
    · simp [same]
    · simp [same, Ne.symm same]

theorem of_getElem?_collect [DecidableEq K] {key : A → K} {val : A → V} {l : List A}
    {v : V} (found : (collect key val l)[k]? = some v) : ∃ a ∈ l, key a = k ∧ val a = v := by
  rw [getElem?_collect] at found
  obtain ⟨a, last, rfl⟩ := Option.map_eq_some_iff.mp found
  exact ⟨a, mem_reverse.mp (mem_of_find?_eq_some last), by simpa using find?_some last, rfl⟩

theorem exists_getElem?_collect [DecidableEq K] (key : A → K) (val : A → V) {l : List A}
    {a : A} (mem : a ∈ l) : ∃ v, (collect key val l)[key a]? = some v := by
  rw [getElem?_collect]
  have there : (l.reverse.find? fun b => key b = key a).isSome :=
    find?_isSome.mpr ⟨a, mem_reverse.mpr mem, by simp⟩
  obtain ⟨b, last⟩ := Option.isSome_iff_exists.mp there
  exact ⟨val b, by rw [last]; rfl⟩

/-! ## Merging -/

/-- Every entry of `src` added to the one of `dst` under its key. -/
def addAll (plus : W → V → W) (zero : W) (dst : GoMap K W) (src : GoMap K V) : GoMap K W :=
  src.foldl (fun acc k v => acc.insert k (plus (acc.getD k zero) v)) dst

section Merge
variable [DecidableEq K] {plus : W → V → W} {zero : W} {l : List (K × V)} {acc : GoMap K W} {k : K}

theorem getElem?_foldl_of_ne {f : GoMap K W → K × V → W} (other : ∀ e ∈ l, e.1 ≠ k) :
    (l.foldl (fun acc e => acc.insert e.1 (f acc e)) acc)[k]? = acc[k]? := by
  induction l generalizing acc with
  | nil => rfl
  | cons e l ih =>
    have ne : k ≠ e.1 := fun same => other e mem_cons_self same.symm
    rw [foldl_cons, ih fun e he => other e (mem_cons_of_mem _ he), getElem?_insert, if_neg ne]

theorem getElem?_foldl_of_mem {v : V}
    (distinct : l.Pairwise fun a b => a.1 ≠ b.1) (mem : (k, v) ∈ l) :
    (l.foldl (fun acc e => acc.insert e.1 (plus (acc.getD e.1 zero) e.2)) acc)[k]? =
      some (plus (acc.getD k zero) v) := by
  induction l generalizing acc with
  | nil => cases mem
  | cons e l ih =>
    obtain ⟨apart, distinct⟩ := pairwise_cons.mp distinct
    rw [foldl_cons]
    rcases mem_cons.mp mem with rfl | mem
    · rw [getElem?_foldl_of_ne fun e he => (apart e he).symm, getElem?_insert, if_pos rfl]
    · have ne : k ≠ e.1 := fun same => apart (k, v) mem same.symm
      rw [ih distinct mem, getD_eq, getElem?_insert, if_neg ne, ← getD_eq]

/-- **What merging leaves under a key**: the sum where the source has the key, and what was there
where it has not. -/
theorem getElem?_addAll (dst : GoMap K W) (src : GoMap K V) (k : K) :
    (addAll plus zero dst src)[k]? =
      match src[k]? with
      | some v => some (plus (dst.getD k zero) v)
      | none => dst[k]? := by
  rw [addAll, Std.ExtTreeMap.foldl_eq_foldl_toList]
  cases found : src[k]? with
  | some v =>
    refine getElem?_foldl_of_mem (distinct_toList src) ?_
    exact Std.ExtTreeMap.mem_toList_iff_getElem?_eq_some.mpr found
  | none =>
    refine getElem?_foldl_of_ne fun e he same => ?_
    have here :=
      Std.ExtTreeMap.mem_toList_iff_getElem?_eq_some.mp (same ▸ he : (k, e.2) ∈ src.toList)
    cases found.symm.trans here

theorem getD_addAll (dst : GoMap K W) (src : GoMap K V) (k : K) :
    (addAll plus zero dst src).getD k zero =
      match src[k]? with
      | some v => plus (dst.getD k zero) v
      | none => dst.getD k zero := by
  rw [getD_eq, getElem?_addAll]
  cases src[k]? with
  | some v => rfl
  | none => exact (getD_eq _ _ _).symm

theorem getD_addAll_add [AddMonoid V] (dst src : GoMap K V) (k : K) :
    (addAll (· + ·) 0 dst src).getD k 0 = dst.getD k 0 + src.getD k 0 := by
  rw [getD_addAll, getD_eq src]
  cases src[k]? with
  | some v => rfl
  | none => exact (add_zero _).symm

/-- **A map is rebuilt from its entries.** -/
theorem foldl_insert_toList (m : GoMap K V) :
    m.toList.foldl (fun acc e => acc.insert e.1 e.2) ∅ = m := by
  refine Std.ExtTreeMap.ext_getElem? fun k => ?_
  cases found : m[k]? with
  | some v =>
    exact @getElem?_foldl_of_mem K V V _ _ _ _ (fun _ v => v) v _ _ _ _ (distinct_toList m)
      (Std.ExtTreeMap.mem_toList_iff_getElem?_eq_some.mpr found)
  | none =>
    have other : ∀ e ∈ m.toList, e.1 ≠ k := by
      rintro ⟨a, v⟩ he rfl
      cases found.symm.trans (Std.ExtTreeMap.mem_toList_iff_getElem?_eq_some.mp he)
    rw [getElem?_foldl_of_ne other]
    simp

end Merge

/-! ## Sums -/

/-- What `f` makes of each entry, added up. -/
def total [AddCommMonoid M] (f : K → V → M) (m : GoMap K V) : M :=
  (m.toList.map fun e => f e.1 e.2).sum

section Total
variable [AddCommMonoid M] {f : K → V → M}

omit [Std.LawfulEqOrd K] in
@[simp] theorem total_empty : total f (∅ : GoMap K V) = 0 := by rfl

omit [Std.LawfulEqOrd K] in
theorem total_hom {N : Type} [AddCommMonoid N] (g : M →+ N) (m : GoMap K V) :
    total (fun k v => g (f k v)) m = g (total f m) := by
  rw [total, total, map_list_sum, map_map]
  rfl

omit [Std.LawfulEqOrd K] in
theorem total_map (g : K → W → V) (m : GoMap K W) :
    total f (m.map g) = total (fun k v => f k (g k v)) m := by
  rw [total, total, Std.ExtTreeMap.toList_map, map_map]
  rfl

variable [DecidableEq K]

theorem total_insert (m : GoMap K V) (k : K) (v : V) :
    total f (m.insert k v) = f k v + total f (m.erase k) := by
  have perm : (m.insert k v).toList.Perm ((k, v) :: (m.erase k).toList) := by
    have fresh : (k, v) ∉ (m.erase k).toList := by
      rw [Std.ExtTreeMap.mem_toList_iff_getElem?_eq_some, getElem?_erase, if_pos rfl]
      nofun
    refine (perm_ext_iff_of_nodup (nodup_toList _) (nodup_cons.mpr ⟨fresh, nodup_toList _⟩)).mpr ?_
    rintro ⟨a, b⟩
    rw [mem_cons, Std.ExtTreeMap.mem_toList_iff_getElem?_eq_some,
      Std.ExtTreeMap.mem_toList_iff_getElem?_eq_some, getElem?_insert, getElem?_erase,
      Prod.mk.injEq]
    by_cases same : a = k
    · simp [same, eq_comm]
    · simp [same]
  rw [total, (perm.map _).sum_eq, map_cons, sum_cons, total]

variable {m : GoMap K V} {k : K} {zero : V}

theorem total_erase {v : V} (here : m[k]? = some v) : total f m = f k v + total f (m.erase k) := by
  have same : m.insert k v = m := by
    refine Std.ExtTreeMap.ext_getElem? fun a => ?_
    rw [getElem?_insert]
    split
    next h => rw [h, here]
    · rfl
  rw [← total_insert, same]

theorem erase_of_none (none : m[k]? = none) : m.erase k = m := by
  refine Std.ExtTreeMap.ext_getElem? fun a => ?_
  rw [getElem?_erase]
  split
  next h => rw [h, none]
  · rfl

/-- A key read with a default that counts for nothing contributes what is read. -/
theorem total_erase_add (m : GoMap K V) (k : K) (zeroes : f k zero = 0) :
    f k (m.getD k zero) + total f (m.erase k) = total f m := by
  rw [getD_eq]
  cases found : m[k]? with
  | some v => rw [Option.getD_some, ← total_erase found]
  | none => rw [Option.getD_none, zeroes, zero_add, erase_of_none found]

omit [DecidableEq K] in
theorem total_congr {g : K → V → M}
    (same : ∀ k v, m[k]? = some v → f k v = g k v) : total f m = total g m := by
  refine congrArg sum (map_congr_left fun e he => ?_)
  exact same e.1 e.2 (Std.ExtTreeMap.mem_toList_iff_getElem?_eq_some.mp he)

omit [DecidableEq K] in
theorem total_eq_zero (zero : ∀ k v, m[k]? = some v → f k v = 0) : total f m = 0 := by
  refine sum_eq_zero (forall_mem_map.mpr fun e he => ?_)
  exact zero e.1 e.2 (Std.ExtTreeMap.mem_toList_iff_getElem?_eq_some.mp he)

theorem total_single [AddCommMonoid V] (m : GoMap K V) (k : K) :
    total (fun a v => if a = k then v else 0) m = m.getD k 0 := by
  have others : ∀ n : GoMap K V, n[k]? = none →
      total (fun a v => if a = k then v else 0) n = 0 := by
    intro n none
    refine total_eq_zero fun a v found => if_neg ?_
    rintro rfl
    cases none.symm.trans found
  rw [getD_eq]
  cases found : m[k]? with
  | none => exact others m found
  | some v =>
    have rest : (m.erase k)[k]? = none := by rw [getElem?_erase, if_pos rfl]
    rw [total_erase found, if_pos rfl, others _ rest, add_zero, Option.getD_some]

omit [DecidableEq K] [Std.LawfulEqOrd K] in
theorem total_filter (m : GoMap K V) (p : K → V → Bool) :
    total f (m.filter p) = total (fun k v => if p k v then f k v else 0) m := by
  simp [total, Std.ExtTreeMap.toList_filter, sum_map_ite]

omit [DecidableEq K] [Std.LawfulEqOrd K] in
theorem total_filter_add (m : GoMap K V) (p : K → V → Bool) :
    total f (m.filter p) + total f (m.filter fun k v => !p k v) = total f m := by
  rw [total, total, total, Std.ExtTreeMap.toList_filter, Std.ExtTreeMap.toList_filter,
    ← sum_append, ← map_append]
  exact ((filter_append_perm (fun e : K × V => p e.1 e.2) m.toList).map _).sum_eq

/-- **Merging adds the sums**, where `f` adds up under every key the source has. -/
theorem total_addAll {plus : V → V → V} (dst src : GoMap K V) (zeroes : ∀ k, f k zero = 0)
    (adds : ∀ k v, src[k]? = some v →
      f k (plus (dst.getD k zero) v) = f k (dst.getD k zero) + f k v) :
    total f (addAll plus zero dst src) = total f dst + total f src := by
  rw [addAll, Std.ExtTreeMap.foldl_eq_foldl_toList]
  have mem : ∀ e ∈ src.toList, src[e.1]? = some e.2 := fun e he =>
    Std.ExtTreeMap.mem_toList_iff_getElem?_eq_some.mp he
  -- The entries still to come are under keys the loop has not touched.
  have loop : ∀ (l : List (K × V)) (acc : GoMap K V), l.Pairwise (fun a b => a.1 ≠ b.1) →
      (∀ e ∈ l, src[e.1]? = some e.2 ∧ acc.getD e.1 zero = dst.getD e.1 zero) →
      total f (l.foldl (fun acc e => acc.insert e.1 (plus (acc.getD e.1 zero) e.2)) acc) =
        total f acc + (l.map fun e => f e.1 e.2).sum := by
    intro l
    induction l with
    | nil => intro acc _ _; simp
    | cons e l ih =>
      intro acc distinct untouched
      obtain ⟨apart, distinct⟩ := pairwise_cons.mp distinct
      obtain ⟨here, same⟩ := untouched e mem_cons_self
      rw [foldl_cons, ih _ distinct, map_cons, sum_cons, total_insert, same,
        adds e.1 e.2 here, ← same]
      · rw [← total_erase_add acc e.1 (zeroes e.1)]
        abel
      intro a ha
      obtain ⟨there, kept⟩ := untouched a (mem_cons_of_mem _ ha)
      refine ⟨there, ?_⟩
      rw [getD_eq, getElem?_insert, if_neg (apart a ha).symm, ← getD_eq, kept]
  exact loop _ _ (distinct_toList src) fun e he => ⟨mem e he, rfl⟩

end Total

end GoMap
