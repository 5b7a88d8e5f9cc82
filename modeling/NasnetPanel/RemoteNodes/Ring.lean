import Mathlib.Data.List.Basic

/-!
# RemoteNodes.Ring — the last of the bridge's output

`ring` of `bridgectl/ring.go`, a buffer of a fixed size that writes go around. What it holds is
always the last bytes written. Its flag is up already when the buffer is just full, and `String`
then drops a first line of which no byte is lost. The length `Write` answers with is left out.
-/

namespace NasnetPanel.RemoteNodes.Bridge
open List

abbrev Bytes := List UInt8

/-- `copy(dst[i:], src)`, and how much it copied. -/
def copyTo (dst : Bytes) (i : Nat) (src : Bytes) : Bytes × Nat :=
  let n := min (dst.length - i) src.length
  (dst.take i ++ src.take n ++ dst.drop (i + n), n)

structure Ring where
  buf : Bytes
  next : Nat
  full : Bool

namespace Ring

def newRing (size : Nat) : Ring := ⟨replicate size 0, 0, false⟩

def Write (r : Ring) (p : Bytes) : Ring :=
  let size := r.buf.length
  if p.length = 0 then r
  else if size ≤ p.length then ⟨(copyTo r.buf 0 (p.drop (p.length - size))).1, 0, true⟩
  else
    let c := copyTo r.buf r.next p
    let next := (r.next + p.length) % size
    if c.2 < p.length then ⟨(copyTo c.1 0 (p.drop c.2)).1, next, true⟩
    else ⟨c.1, next, r.full || next == 0⟩

def snapshot (r : Ring) : Bytes × Bool :=
  if r.full then (r.buf.drop r.next ++ r.buf.take r.next, true) else (r.buf.take r.next, false)

/-- What follows the first line's end, if the ring has wrapped and holds one. -/
def String (r : Ring) : Bytes :=
  if r.snapshot.2 ∧ 10 ∈ r.snapshot.1 then (r.snapshot.1.dropWhile (· ≠ 10)).tail
  else r.snapshot.1

/-- By what stands before the place of the next byte and from there on. -/
def parts (a b : Bytes) (full : Bool) : Ring := ⟨a ++ b, a.length, full⟩

inductive Holds (size : Nat) : Bytes → Ring → Prop
  | intro (before a b : Bytes) (full : Bool) (room : 0 < b.length) (length : (a ++ b).length = size)
    (held : full = true ∧ b <:+ before ∨ full = false ∧ before = []) :
    Holds size (before ++ a) (parts a b full)

variable {size : Nat} {all p a b : Bytes} {r : Ring} {full : Bool}

theorem copyTo_of_le (a : Bytes) (le : p.length ≤ b.length) :
    copyTo (a ++ b) a.length p = (a ++ p ++ b.drop p.length, p.length) := by
  simp [copyTo, le, drop_append]

theorem copyTo_of_ge (ge : b.length ≤ p.length) :
    copyTo (a ++ b) a.length p = (a ++ p.take b.length, b.length) := by
  simp [copyTo, ge]

theorem write_long (some : p.length ≠ 0) (long : a.length + b.length ≤ p.length) :
    (parts a b full).Write p = parts [] (p.drop (p.length - (a.length + b.length))) true := by
  have fits : (p.drop (p.length - (a.length + b.length))).length = (a ++ b).length := by
    simp
    omega
  have copied := copyTo_of_le [] (Nat.le_of_eq fits)
  rw [fits, drop_length, append_nil] at copied
  rw [← length_append] at long copied ⊢
  rw [parts, Write, if_neg some, if_pos long]
  exact congrArg (Ring.mk ·.1 0 true) copied

theorem write_short (some : p.length ≠ 0) (short : p.length < b.length) :
    (parts a b full).Write p = parts (a ++ p) (b.drop p.length) full := by
  have next : (a.length + p.length) % (a.length + b.length) = a.length + p.length :=
    Nat.mod_eq_of_lt (by omega)
  rw [parts, Write, if_neg some, if_neg (by simp; omega)]
  simp [copyTo_of_le a (Nat.le_of_lt short), parts, next, some]

theorem write_around (some : p.length ≠ 0) (ge : b.length ≤ p.length)
    (lt : p.length < a.length + b.length) : (parts a b full).Write p =
      parts (p.drop b.length) (a.drop (p.length - b.length) ++ p.take b.length) true := by
  have next : (a.length + p.length) % (a.length + b.length) = p.length - b.length := by
    rw [Nat.mod_eq_sub_mod (by omega), Nat.mod_eq_of_lt (by omega)]
    omega
  have rest : p.length - b.length ≤ a.length := by omega
  have copied := @copyTo_of_le (p.drop b.length) (a ++ p.take b.length) [] (by simp; omega)
  rw [length_drop, nil_append, nil_append, drop_append_of_le_length rest] at copied
  rw [parts, parts, Write, if_neg some, if_neg (by simp; omega), length_drop]
  simp only [copyTo_of_ge ge, length_append, next]
  split
  · exact congrArg (Ring.mk ·.1 _ true) copied
  · have same : p.length = b.length := by omega
    simp [← same]

theorem Holds.write (h : Holds size all r) (p : Bytes) : Holds size (all ++ p) (r.Write p) := by
  by_cases some : p.length = 0
  · simpa [Write, some, length_eq_zero_iff.mp some] using h
  obtain ⟨before, a, b, full, room, rfl, held⟩ := h
  rw [length_append]
  by_cases long : a.length + b.length ≤ p.length
  · rw [write_long some long, ← append_nil (_ ++ p)]
    refine .intro _ _ _ _ ?_ ?_ (.inl ⟨rfl, (drop_suffix _ p).trans (suffix_append _ p)⟩)
    · simp
      omega
    · simp
      omega
  by_cases short : p.length < b.length
  · rw [write_short some short, append_assoc]
    refine .intro _ _ _ _ (by simpa using Nat.sub_pos_of_lt short) ?_ (held.imp_left ?_)
    · simp
      omega
    · exact And.imp_right (drop_suffix _ b).trans
  · have whole : before ++ a ++ p = before ++ a ++ p.take b.length ++ p.drop b.length := by simp
    rw [write_around some (by omega) (by omega), whole]
    refine .intro _ _ _ _ ?_ ?_ (.inl ⟨rfl, ?_⟩)
    · simp
      omega
    · simp
      omega
    · exact ⟨before ++ a.take (p.length - b.length), by simp [← append_assoc (a.take _)]⟩

theorem holds_writes (ws : List Bytes) (h : Holds size all r) :
    Holds size (all ++ ws.flatten) (ws.foldl Write r) := by
  induction ws generalizing all r with
  | nil => simpa using h
  | cons p ws ih =>
    rw [flatten_cons, ← append_assoc]
    exact ih (h.write p)

theorem Holds.snapshot (h : Holds size all r) :
    r.snapshot = (all.drop (all.length - size), decide (size ≤ all.length)) := by
  obtain ⟨before, a, b, full, room, rfl, held⟩ := h
  rcases held with ⟨rfl, lost, rfl⟩ | ⟨rfl, rfl⟩
  · have drops :
        lost.length + (b.length + a.length) - (a.length + b.length) = lost.length := by omega
    have le : a.length + b.length ≤ lost.length + (b.length + a.length) := by omega
    simp [parts, Ring.snapshot, drops, le]
  · rw [decide_eq_false (by rw [nil_append, length_append]; omega)]
    simp [parts, Ring.snapshot]

/-- What a ring shows after any writes: the last bytes, and a flag that is up once it is full. -/
theorem snapshot_writes (pos : 0 < size) (ws : List Bytes) :
    (ws.foldl Write (newRing size)).snapshot =
      (ws.flatten.drop (ws.flatten.length - size), decide (size ≤ ws.flatten.length)) := by
  have start : Holds size [] (newRing size) :=
    .intro [] [] _ _ (by simpa using pos) (by simp) (.inr ⟨rfl, rfl⟩)
  have held := (holds_writes ws start).snapshot
  rwa [nil_append] at held

/-- **The ring holds the last bytes**, as many as its size or all there are. Its flag says that a
byte is lost, and with none lost `String` is everything, just when not that many were written. -/
theorem ring_holds_last (size : Nat) (pos : 0 < size) (ws : List Bytes) :
    (ws.foldl Write (newRing size)).snapshot.1 = ws.flatten.drop (ws.flatten.length - size) ∧
      (((ws.foldl Write (newRing size)).snapshot.2 = true ↔ size < ws.flatten.length) ∧
        (ws.flatten.length ≤ size → (ws.foldl Write (newRing size)).String = ws.flatten) ↔
      ws.flatten.length ≠ size) := by
  have held := snapshot_writes pos ws
  refine ⟨by rw [held], fun ⟨flag, _⟩ full => ?_, fun other => ⟨?_, fun all => ?_⟩⟩
  · -- the flag is up, and nothing is lost
    rw [held, decide_eq_true_iff] at flag
    exact Nat.lt_irrefl size (full ▸ flag.mp (Nat.le_of_eq full.symm))
  · rw [held, decide_eq_true_iff]
    omega
  have none : ¬ size ≤ ws.flatten.length := by omega
  rw [String, held, decide_eq_false none, Nat.sub_eq_zero_of_le all]
  simp

theorem ring_holds_last_two :
    ([[10], [97, 98]].foldl Write (newRing 2)).snapshot.1 = [97, 98] ∧
      (([[10], [97, 98]].foldl Write (newRing 2)).snapshot.2 = true ↔ 2 < 3) :=
  (ring_holds_last 2 (by decide) [[10], [97, 98]]).imp_right fun h => (h.mpr (by decide)).1

/-- **A ring that is just full has lost nothing and drops its first line.** -/
theorem just_full_drops :
    ((newRing 2).Write [10, 97]).snapshot = ([10, 97], true) ∧
      ((newRing 2).Write [10, 97]).String = [97] := by decide

/-- **`String` begins where a line does**: what was written before it is nothing or ends with a
newline, unless the ring holds no newline. -/
theorem string_begins_line (size : Nat) (pos : 0 < size) (ws : List Bytes) :
    ∃ before, ws.flatten = before ++ (ws.foldl Write (newRing size)).String ∧
      (ws.foldl Write (newRing size)).String.length ≤ size ∧
      (before = [] ∨ before.getLast? = some 10 ∨
        10 ∉ (ws.foldl Write (newRing size)).snapshot.1) := by
  have held := snapshot_writes pos ws
  generalize ws.flatten = all at held ⊢
  have room : (all.drop (all.length - size)).length ≤ size := by
    rw [length_drop]
    omega
  rw [String, held]
  dsimp only
  split
  next cut =>
    obtain ⟨line, rest, split, before⟩ := eq_append_cons_of_mem cut.2
    have end' : (line ++ 10 :: rest).dropWhile (· ≠ 10) = 10 :: rest := by
      have plain : ∀ c ∈ line, decide (c ≠ 10) = true := fun c mem =>
        decide_eq_true fun same => before (same ▸ mem)
      rw [dropWhile_append_of_pos plain]
      rfl
    rw [split] at room ⊢
    rw [end', tail_cons]
    refine ⟨all.take (all.length - size) ++ line ++ [10], ?_, ?_, .inr (.inl (by simp))⟩
    · rw [append_assoc, append_assoc, singleton_append, ← split, take_append_drop]
    · simp at room
      omega
  next kept =>
    refine ⟨all.take (all.length - size), (take_append_drop _ all).symm, room, ?_⟩
    by_cases wrapped : size ≤ all.length
    · exact .inr (.inr fun mem => kept ⟨decide_eq_true wrapped, mem⟩)
    · exact .inl (by rw [Nat.sub_eq_zero_of_le (by omega), take_zero])

theorem string_begins_line_two : ∃ before,
    [97, 10, 98] = before ++ ([[97], [10, 98]].foldl Write (newRing 2)).String :=
  (string_begins_line 2 (by decide) [[97], [10, 98]]).imp fun _ h => h.1

end Ring

end NasnetPanel.RemoteNodes.Bridge
