import Mathlib.Tactic.IntervalCases

/-!
# Network.Mark — the 32-bit firewall mark word

The layout of `pkg/netmark`: the fields of one word, which three subsystems share.

* `maskTier` (`0x0000FFFF`) is the bandwidth tier,
* `maskGroup` (`0x00FF0000`) selects a group: 1 domestic, 2 foreign, `0x10 | i` foreign via
  uplink `i`,
* `maskPin` (`0x0F000000`) pins a flow to the uplink it came in on.

The highest four bits belong to the agent's own table. A rule compares `mark & mask` with a mark
that carries one field alone. `and_maskGroup_eq_iff` and `and_maskPin_eq_iff` turn that comparison
into one of field values, which is the form every routing proof uses.
-/

namespace NasnetPanel.Netmark

/-- The mark word, Go's `uint32`. -/
abbrev Word := BitVec 32

/-! ## The fields -/

def maskTier : Word := 0x0000FFFF#32
def maskGroup : Word := 0x00FF0000#32
def maskPin : Word := 0x0F000000#32

/-- The only mask the router's conntrack save and restore may use: all but the reserved nibble. -/
def maskAll : Word := maskTier ||| maskGroup ||| maskPin

def shiftGroup : Nat := 16
def shiftPin : Nat := 24

def groupDomestic : Word := 1
def groupForeign : Word := 2

def groupForeignViaBase : Word := 0x10#32

/-- The group that routes into uplink `i`'s slice of the tunnel pool. -/
def groupForeignVia (i : Word) : Word := groupForeignViaBase ||| (i &&& 0x0F#32)

/-- A mark word carrying only group index `g`. -/
def groupMark (g : Word) : Word := (g <<< shiftGroup) &&& maskGroup

/-- A mark word carrying only the ingress pin of uplink `i`. -/
def pinMark (i : Word) : Word := (i <<< shiftPin) &&& maskPin

/-- The group index; 0 means unclassified. -/
def group (mark : Word) : Word := (mark &&& maskGroup) >>> shiftGroup

/-- The ingress pin; 0 means unpinned. -/
def pin (mark : Word) : Word := (mark &&& maskPin) >>> shiftPin

/-- A mark or mask the way nft, ip rule and tc expect it. -/
def hex (v : Word) : String := "0x" ++ String.ofList (Nat.toDigits 16 v.toNat)

/-! ## What the fields determine

Each law is an equation of words, decided bit by bit: the masks are constants, so every one of the
32 positions is closed by evaluating its mask bits. -/

theorem groupMark_group (mark : Word) : groupMark (group mark) = mark &&& maskGroup := by
  apply BitVec.eq_of_getLsbD_eq
  intro i hi
  simp only [groupMark, group, shiftGroup, maskGroup, BitVec.getLsbD_and, BitVec.getLsbD_shiftLeft,
    BitVec.getLsbD_ushiftRight]
  interval_cases i <;> simp

theorem pinMark_pin (mark : Word) : pinMark (pin mark) = mark &&& maskPin := by
  apply BitVec.eq_of_getLsbD_eq
  intro i hi
  simp only [pinMark, pin, shiftPin, maskPin, BitVec.getLsbD_and, BitVec.getLsbD_shiftLeft,
    BitVec.getLsbD_ushiftRight]
  interval_cases i <;> simp

/-- A rule on the group field matches exactly the marks of that group, for a group that fits its
byte. -/
theorem and_maskGroup_eq_iff {mark g : Word} (fits : group (groupMark g) = g) :
    mark &&& maskGroup = groupMark g ↔ group mark = g := by
  constructor
  · intro h
    rw [← fits, ← h, group, group, BitVec.and_assoc, BitVec.and_self]
  · rintro rfl
    exact (groupMark_group mark).symm

/-- A rule on the pin field matches exactly the marks pinned to that uplink, for an index that
fits its nibble. -/
theorem and_maskPin_eq_iff {mark i : Word} (fits : pin (pinMark i) = i) :
    mark &&& maskPin = pinMark i ↔ pin mark = i := by
  constructor
  · intro h
    rw [← fits, ← h, pin, pin, BitVec.and_assoc, BitVec.and_self]
  · rintro rfl
    exact (pinMark_pin mark).symm

end NasnetPanel.Netmark
