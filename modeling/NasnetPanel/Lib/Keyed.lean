import Mathlib.Data.List.Nodup

/-!
# Lib.Keyed — lists of records with a key

A table kept as a list of records, searched from the front by a key: `find` is the first record of a
key, `change` and `remove` change and drop it. Where the keys are distinct, a record of the list is
the one found under its key (`find_eq_some_iff`), so a loop over the records and a search agree.
-/

namespace Keyed
open List

variable {A K : Type} [DecidableEq K]

/-- The first record of a key. -/
def find (key : A → K) (l : List A) (k : K) : Option A := l.find? fun a => key a = k

def change (key : A → K) (k : K) (f : A → A) : List A → List A
  | [] => []
  | a :: l => if key a = k then f a :: l else a :: change key k f l

def remove (key : A → K) (k : K) (l : List A) : List A := l.eraseP fun a => key a = k

variable {key : A → K} {l : List A} {k : K}

@[simp] theorem find_nil (k : K) : find key [] k = none := rfl

theorem find_cons (a : A) (l : List A) (k : K) :
    find key (a :: l) k = if key a = k then some a else find key l k := by
  unfold find
  by_cases same : key a = k
  · simp [same]
  · simp [same]

theorem find_append (l m : List A) (k : K) :
    find key (l ++ m) k = (find key l k).or (find key m k) :=
  find?_append

variable {a : A} {f : A → A}

theorem of_find (found : find key l k = some a) : a ∈ l ∧ key a = k :=
  ⟨mem_of_find?_eq_some found, by simpa using find?_some found⟩

theorem find_eq_none_iff : find key l k = none ↔ ∀ a ∈ l, key a ≠ k := by
  unfold find
  simp

/-- With distinct keys a record is found under its key. -/
theorem find_eq_some_iff (distinct : (l.map key).Nodup) :
    find key l k = some a ↔ a ∈ l ∧ key a = k := by
  refine ⟨of_find, ?_⟩
  rintro ⟨mem, rfl⟩
  cases found : find key l (key a) with
  | none => exact absurd rfl (find_eq_none_iff.mp found a mem)
  | some b =>
    obtain ⟨memb, same⟩ := of_find found
    rw [inj_on_of_nodup_map distinct memb mem same]

theorem find_change (keeps : ∀ a, key (f a) = key a) (k k' : K) :
    find key (change key k f l) k' = if k' = k then (find key l k).map f else find key l k' := by
  induction l with
  | nil => simp [change]
  | cons a l ih =>
    unfold change
    by_cases here : key a = k
    · rw [if_pos here, find_cons, find_cons, find_cons, keeps, if_pos here]
      by_cases same : k' = k
      · rw [if_pos (here.trans same.symm), if_pos same]
        rfl
      · rw [if_neg fun h => same (h.symm.trans here), if_neg same,
          if_neg fun h => same (h.symm.trans here)]
    · rw [if_neg here, find_cons, ih, find_cons, find_cons, if_neg here]
      by_cases same : k' = k
      · rw [if_neg fun h => here (h.trans same), if_pos same, if_pos same]
      · rw [if_neg same, if_neg same]

theorem map_change (keeps : ∀ a, key (f a) = key a) (k : K) :
    (change key k f l).map key = l.map key := by
  induction l with
  | nil => rfl
  | cons a l ih =>
    unfold change
    split
    · simp [keeps]
    · simp [ih]

theorem change_change {g : A → A} (keeps : ∀ a, key (f a) = key a) (k : K) :
    change key k g (change key k f l) = change key k (fun a => g (f a)) l := by
  induction l with
  | nil => rfl
  | cons a l ih =>
    by_cases here : key a = k
    · simp [change, here, keeps]
    · simp [change, here, ih]

theorem change_eq_self {k : K} (stays : ∀ a, find key l k = some a → f a = a) :
    change key k f l = l := by
  induction l with
  | nil => rfl
  | cons a l ih =>
    unfold change
    by_cases here : key a = k
    · rw [if_pos here, stays a (by rw [find_cons, if_pos here])]
    · rw [if_neg here, ih fun b found => stays b (by rw [find_cons, if_neg here, found])]

theorem change_append {l : List A} (rest : List A) (others : ∀ b ∈ l, key b ≠ key a) :
    change key (key a) f (l ++ a :: rest) = l ++ f a :: rest := by
  induction l with
  | nil => simp [change]
  | cons b l ih =>
    have apart := others b mem_cons_self
    rw [cons_append, change, if_neg apart, ih fun c mem => others c (mem_cons_of_mem _ mem)]
    rfl

theorem mem_change {b : A} (mem : b ∈ change key k f l) : b ∈ l ∨ ∃ a ∈ l, b = f a := by
  induction l with
  | nil => cases mem
  | cons a l ih =>
    unfold change at mem
    split at mem
    · rcases mem_cons.mp mem with rfl | mem
      · exact .inr ⟨a, by simp, rfl⟩
      · exact .inl (by simp [mem])
    rcases mem_cons.mp mem with rfl | mem
    · exact .inl (by simp)
    rcases ih mem with there | ⟨c, there, rfl⟩
    · exact .inl (by simp [there])
    · exact .inr ⟨c, by simp [there], rfl⟩

theorem find_reverse (distinct : (l.map key).Nodup) (k : K) :
    find key l.reverse k = find key l k := by
  have distinct' : (l.reverse.map key).Nodup := by
    rw [map_reverse]
    exact nodup_reverse.mpr distinct
  refine Option.ext fun a => ?_
  rw [find_eq_some_iff distinct, find_eq_some_iff distinct', mem_reverse]

theorem find_map (keeps : ∀ a, key (f a) = key a) (k : K) :
    find key (l.map f) k = (find key l k).map f := by
  unfold find
  rw [find?_map]
  simp only [Function.comp_def, keeps]

theorem find_remove (distinct : (l.map key).Nodup) (k k' : K) :
    find key (remove key k l) k' = if k' = k then none else find key l k' := by
  induction l with
  | nil => simp [remove]
  | cons a l ih =>
    rw [map_cons, nodup_cons] at distinct
    have rest := ih distinct.2
    unfold remove at rest ⊢
    by_cases here : key a = k
    · rw [eraseP_cons_of_pos (by simpa using here), find_cons]
      by_cases same : k' = k
      · rw [if_pos same, find_eq_none_iff]
        rintro b mem rfl
        exact distinct.1 (mem_map.mpr ⟨b, mem, same.trans here.symm⟩)
      · rw [if_neg same, if_neg fun h => same (h.symm.trans here)]
    · rw [eraseP_cons_of_neg (by simpa using here), find_cons, find_cons, rest]
      by_cases same : k' = k
      · rw [if_pos same, if_neg fun h => here (h.trans same), if_pos same]
      · rw [if_neg same, if_neg same]

theorem find_filter (keep : K → Bool) (k : K) :
    find key (l.filter fun a => keep (key a)) k = if keep k then find key l k else none := by
  induction l with
  | nil => simp
  | cons a l ih =>
    rw [filter_cons]
    by_cases kept : keep (key a) = true
    · rw [if_pos kept, find_cons, ih, find_cons]
      by_cases here : key a = k
      · rw [if_pos here, if_pos here, if_pos (here ▸ kept)]
      · rw [if_neg here, if_neg here]
    · rw [if_neg kept, ih, find_cons]
      by_cases here : key a = k
      · rw [if_neg (here ▸ kept), if_neg (here ▸ kept)]
      · rw [if_neg here]

end Keyed
