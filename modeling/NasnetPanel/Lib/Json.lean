
/-!
# Lib.Json — JSON values as Go has them

A JSON document with numbers of any type `N`, as it is written and as `json.Unmarshal` reads it into
an `interface{}`: an object is a map, so of fields with the same key the last one counts, and their
order does not. `unmarshal` puts the fields of every object in the order of their keys, each once;
`reflect.DeepEqual` of two such values is `deepEqual`.

What reading and writing numbers does to them is a function on `N`, carried through a value by
`map`, and through its parts (`field`, `object`, `list`) alike; a text is what it was. `Exact f v`
says that it does nothing to the numbers of `v`.
-/

inductive Json (N : Type) where
  | null
  | bool (b : Bool)
  | num (n : N)
  | str (s : String)
  | arr (items : List (Json N))
  | obj (fields : List (String × Json N))
deriving Repr

namespace Json
open List

variable {N P : Type}

abbrev Fields (N : Type) := List (String × Json N)

/-! ## Equality -/

mutual

def deepEqual [DecidableEq N] : Json N → Json N → Bool
  | .null, .null => true
  | .bool a, .bool b => a == b
  | .num a, .num b => a == b
  | .str a, .str b => a == b
  | .arr a, .arr b => deepEqualItems a b
  | .obj a, .obj b => deepEqualFields a b
  | _, _ => false

def deepEqualItems [DecidableEq N] : List (Json N) → List (Json N) → Bool
  | [], [] => true
  | a :: as, b :: bs => deepEqual a b && deepEqualItems as bs
  | _, _ => false

def deepEqualFields [DecidableEq N] : Fields N → Fields N → Bool
  | [], [] => true
  | (k, a) :: as, (l, b) :: bs => k == l && (deepEqual a b && deepEqualFields as bs)
  | _, _ => false

end

attribute [local simp] deepEqual deepEqualItems deepEqualFields

mutual

theorem deepEqual_iff [DecidableEq N] : ∀ a b : Json N, deepEqual a b = true ↔ a = b
  | .null, b => by cases b <;> simp
  | .bool a, b => by cases b <;> simp
  | .num a, b => by cases b <;> simp
  | .str a, b => by cases b <;> simp
  | .arr a, b => by cases b <;> simp [deepEqualItems_iff a]
  | .obj a, b => by cases b <;> simp [deepEqualFields_iff a]

theorem deepEqualItems_iff [DecidableEq N] :
    ∀ a b : List (Json N), deepEqualItems a b = true ↔ a = b
  | [], b => by cases b <;> simp
  | a :: as, b => by cases b <;> simp [deepEqual_iff a, deepEqualItems_iff as]

theorem deepEqualFields_iff [DecidableEq N] :
    ∀ a b : Fields N, deepEqualFields a b = true ↔ a = b
  | [], b => by cases b <;> simp
  | (k, a) :: as, b => by
    cases b <;> simp [deepEqual_iff a, deepEqualFields_iff as, Prod.ext_iff, and_assoc]

end

instance [DecidableEq N] : DecidableEq (Json N) := fun a b =>
  decidable_of_iff (deepEqual a b = true) (deepEqual_iff a b)

/-! ## Maps -/

/-- `m[key] = v`, with the fields in the order of their keys. -/
def set (key : String) (v : Json N) : Fields N → Fields N
  | [] => [(key, v)]
  | (k, w) :: m =>
    if key = k then (key, v) :: m
    else if key < k then (key, v) :: (k, w) :: m
    else (k, w) :: set key v m

/-- `delete(m, key)`. -/
def without (m : Fields N) (key : String) : Fields N := m.filter fun e => e.1 ≠ key

/-- `m[key]`; a field that is missing reads as null. -/
def field (m : Fields N) (key : String) : Json N :=
  ((m.find? fun e => e.1 = key).map (·.2)).getD .null

/-- `v.(map[string]interface{})`, the empty map where it is none. -/
def object : Json N → Fields N
  | .obj m => m
  | _ => []

/-- `v.([]interface{})`, nil where it is none. -/
def list : Json N → Option (List (Json N))
  | .arr l => some l
  | _ => none

/-- `v.(string)`, empty where it is none. -/
def text : Json N → String
  | .str s => s
  | _ => ""

theorem field_set_self (m : Fields N) (key : String) (v : Json N) :
    field (set key v m) key = v := by
  induction m with
  | nil => simp [set, field]
  | cons e m ih =>
    unfold set
    by_cases here : key = e.1
    · simp [here, field]
    by_cases less : key < e.1
    · simp [here, less, field]
    rw [if_neg here, if_neg less]
    unfold field at ih ⊢
    rw [find?_cons_of_neg (by simpa using fun h => here h.symm)]
    exact ih

theorem field_set_of_ne (m : Fields N) {key other : String} (ne : other ≠ key) (v : Json N) :
    field (set key v m) other = field m other := by
  induction m with
  | nil => simp [set, field, ne.symm]
  | cons e m ih =>
    unfold set
    by_cases here : key = e.1
    · simp [field, ne.symm, ← here]
    by_cases less : key < e.1
    · rw [if_neg here, if_pos less]
      simp [field, ne.symm]
    rw [if_neg here, if_neg less]
    unfold field at ih ⊢
    by_cases found : e.1 = other
    · simp [found]
    · rw [find?_cons_of_neg (by simpa using found), find?_cons_of_neg (by simpa using found)]
      exact ih

mutual

def unmarshal : Json N → Json N
  | .arr items => .arr (unmarshalItems items)
  | .obj fields => .obj (unmarshalFields fields [])
  | v => v

def unmarshalItems : List (Json N) → List (Json N)
  | [] => []
  | v :: rest => unmarshal v :: unmarshalItems rest

/-- The fields go into the map one by one. -/
def unmarshalFields : Fields N → Fields N → Fields N
  | [], m => m
  | (k, v) :: rest, m => unmarshalFields rest (set k (unmarshal v) m)

end

def unionKeys (a b : Fields N) : List String :=
  a.map (·.1) ++ (b.map (·.1)).filter fun k => k ∉ a.map (·.1)

theorem field_of_not_mem {m : Fields N} {key : String} (missing : key ∉ m.map (·.1)) :
    field m key = .null := by
  have none : m.find? (fun e => e.1 = key) = none := by
    refine find?_eq_none.mpr fun e mem same => missing ?_
    exact mem_map.mpr ⟨e, mem, of_decide_eq_true same⟩
  rw [field, none]
  rfl

/-! ## Numbers -/

mutual

def map (f : N → P) : Json N → Json P
  | .null => .null
  | .bool b => .bool b
  | .num n => .num (f n)
  | .str s => .str s
  | .arr items => .arr (mapItems f items)
  | .obj fields => .obj (mapFields f fields)

def mapItems (f : N → P) : List (Json N) → List (Json P)
  | [] => []
  | v :: rest => map f v :: mapItems f rest

def mapFields (f : N → P) : Fields N → Fields P
  | [] => []
  | (k, v) :: rest => (k, map f v) :: mapFields f rest

end

attribute [local simp] map mapItems mapFields

theorem mapItems_eq (f : N → P) (l : List (Json N)) : mapItems f l = l.map (map f) := by
  induction l with
  | nil => rfl
  | cons v l ih => simp [ih]

theorem mapFields_eq (f : N → P) (m : Fields N) :
    mapFields f m = m.map fun e => (e.1, e.2.map f) := by
  induction m with
  | nil => rfl
  | cons e m ih => simp [ih]

/-- The function does nothing to the numbers of a value. -/
def Exact (f : N → N) (v : Json N) : Prop := v.map f = v

instance [DecidableEq N] (f : N → N) (v : Json N) : Decidable (Exact f v) :=
  inferInstanceAs (Decidable (v.map f = v))

section Map

variable (f : N → P)

theorem field_mapFields (m : Fields N) (key : String) :
    field (mapFields f m) key = (field m key).map f := by
  unfold field
  rw [mapFields_eq, find?_map, Option.map_map]
  show ((m.find? fun e => e.1 = key).map fun e => e.2.map f).getD .null = _
  cases m.find? fun e => e.1 = key <;> rfl

@[simp] theorem object_map (v : Json N) : (v.map f).object = mapFields f v.object := by
  cases v <;> rfl

@[simp] theorem list_map (v : Json N) : (v.map f).list = v.list.map (List.map (map f)) := by
  cases v with
  | arr l => exact congrArg some (mapItems_eq f l)
  | _ => rfl

@[simp] theorem text_map (v : Json N) : (v.map f).text = v.text := by
  cases v <;> rfl

end Map

end Json
