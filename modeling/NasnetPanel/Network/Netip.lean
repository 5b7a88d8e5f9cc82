import Mathlib.Data.Set.BooleanAlgebra
import Mathlib.Order.CompletePartialOrder
import NasnetPanel.Network.Inet

/-!
# Network.Netip — addresses and networks as Go's `net/netip` reads them

The form checks use `net/netip` where the routing code uses `net`. Its addresses remember their
family and zone, and its prefixes keep the host bits. This module is the part of that package those
checks go through, after its documentation, on the text readers of `Network.Inet`, together with
`overlaps` and `unmap4in6` of `domain`.

A prefix stands for a set of addresses (`subnet`). `overlaps_iff` says that `overlaps` decides
whether two such sets meet, so that what the checks promise can be said about addresses.
-/

namespace NasnetPanel.Netip
open Inet

/-! ## Addresses -/

/-- `netip.Addr`: the 16-byte form, whether it is an IPv4 address, and the zone. -/
structure Addr where
  ip : IP
  is4 : Bool
  zone : String := ""
deriving DecidableEq, Repr

/-- `netip.ParseAddr`. The first of `.`, `:` and `%` decides which form is read. -/
def parseAddr (s : String) : Option Addr :=
  let cs := s.toList
  match cs.find? (fun c => c = '.' ∨ c = ':' ∨ c = '%') with
  | some '.' => (parseIPv4 cs).map fun a => { ip := ofV4 a, is4 := true }
  | some ':' =>
    let zone := (cs.dropWhile (· ≠ '%')).drop 1
    if cs.contains '%' && zone.isEmpty then none
    else (parseIPv6 (cs.takeWhile (· ≠ '%'))).map fun a =>
      { ip := a, is4 := false, zone := String.ofList zone }
  | _ => none

namespace Addr

def is4In6 (a : Addr) : Bool := !a.is4 && (to4 a.ip).isSome

def unmap (a : Addr) : Addr := if a.is4In6 then { ip := a.ip, is4 := true } else a

/-- The IPv4 address in 4 bytes, `Addr.As4`. -/
def as4 (a : Addr) : BitVec 32 := a.ip.extractLsb' 0 32

def octet0 (a : Addr) : Nat := (a.as4.extractLsb' 24 8).toNat

def octet1 (a : Addr) : Nat := (a.as4.extractLsb' 16 8).toNat

/-- `Addr.IsLoopback`. Like the tests after it, it looks through the IPv4-mapped form. -/
def isLoopback (a : Addr) : Bool :=
  if a.unmap.is4 then a.unmap.octet0 == 127 else a.ip == 1

def isUnspecified (a : Addr) : Bool := if a.is4 then a.as4 == 0 else a.ip == 0 && a.zone == ""

def isLinkLocalUnicast (a : Addr) : Bool :=
  if a.unmap.is4 then a.unmap.octet0 == 169 && a.unmap.octet1 == 254
  else a.ip.extractLsb' 118 10 == 0x3FA#10

def isMulticast (a : Addr) : Bool :=
  if a.unmap.is4 then a.unmap.octet0 / 16 == 14 else a.ip.extractLsb' 120 8 == 0xFF#8

def isPrivate (a : Addr) : Bool :=
  if a.unmap.is4 then
    a.unmap.octet0 == 10 || (a.unmap.octet0 == 172 && a.unmap.octet1 / 16 == 1) ||
      (a.unmap.octet0 == 192 && a.unmap.octet1 == 168)
  else a.ip.extractLsb' 121 7 == 0x7E#7

/-- `Addr.IsGlobalUnicast`: private addresses count, the limited broadcast does not. -/
def isGlobalUnicast (a : Addr) : Bool :=
  !(a.unmap.is4 && (a.unmap.as4 == 0 || a.unmap.as4 == BitVec.allOnes 32)) &&
    !(a == { ip := 0, is4 := false }) && !a.isLoopback && !a.isMulticast && !a.isLinkLocalUnicast

end Addr

/-! ## Networks -/

/-- `netip.Prefix`: an address with its host bits, and a length. -/
structure Prefix where
  addr : Addr
  bits : Nat
deriving DecidableEq, Repr

open Prefix

/-- `netip.ParsePrefix`: no zone, and no sign or leading zero in the length. -/
def parsePrefix (s : String) : Option Prefix := do
  let cs := s.toList
  guard (cs.contains '/')
  let addr ← parseAddr (String.ofList (cs.takeWhile (· ≠ '/')))
  guard (addr.zone = "")
  let length := (cs.dropWhile (· ≠ '/')).drop 1
  guard (length.length = 1 ∨ length.head? ≠ some '0')
  let bits ← number? 10 digit? length
  guard (bits ≤ if addr.is4 then 32 else 128)
  return { addr := addr, bits := bits }

/-- The leading bits of a 16-byte form, of an address of the family: an IPv4 address stands in the
last four bytes. -/
def leading (is4 : Bool) (bits : Nat) (ip : IP) : IP :=
  ip &&& cidrMask 128 (if is4 then 96 + bits else bits)

def Prefix.contains (p : Prefix) (a : Addr) : Bool :=
  a.zone == "" && a.is4 == p.addr.is4 &&
    leading a.is4 p.bits a.ip == leading p.addr.is4 p.bits p.addr.ip

/-- `Prefix.Overlaps`: of one family, and equal in the bits of the shorter. -/
def Prefix.overlaps (p q : Prefix) : Bool :=
  p.addr.is4 == q.addr.is4 &&
    leading p.addr.is4 (min p.bits q.bits) p.addr.ip ==
      leading q.addr.is4 (min p.bits q.bits) q.addr.ip

/-- A `::ffff:a.b.c.d` prefix in its plain IPv4 form. -/
def unmap4in6 (p : Prefix) : Prefix :=
  if !p.addr.is4In6 || p.bits < 96 then p
  else { addr := p.addr.unmap, bits := p.bits - 96 }

/-- `overlaps` of `domain`: two networks as text. What does not parse overlaps nothing. -/
def overlaps (a b : String) : Bool :=
  match parsePrefix a, parsePrefix b with
  | some p, some q => (unmap4in6 p).overlaps (unmap4in6 q)
  | _, _ => false

/-! ## The addresses of a network -/

/-- The addresses a text's network holds, none when it is not a network. -/
def subnet (s : String) : Set Addr :=
  { a | ∃ p, parsePrefix s = some p ∧ (unmap4in6 p).contains a = true }

variable {m n : Nat} {p : Prefix} {a b : String}

theorem cidrMask_and_cidrMask {w : Nat} (h : m ≤ n) :
    cidrMask w n &&& cidrMask w m = cidrMask w m := by
  apply BitVec.eq_of_getLsbD_eq
  intro i hi
  simp only [cidrMask, BitVec.getLsbD_and, BitVec.getLsbD_shiftLeft, BitVec.getLsbD_allOnes]
  by_cases here : i < w - m
  · simp [here]
  have longer : ¬ i < w - n := by omega
  have left : i - (w - n) < w := by omega
  simp [here, longer, hi, left]

theorem leading_mono {is4 : Bool} {x y : IP} (h : m ≤ n)
    (agree : leading is4 n x = leading is4 n y) : leading is4 m x = leading is4 m y := by
  have shorter : (if is4 then 96 + m else m) ≤ (if is4 then 96 + n else n) := by split <;> omega
  unfold leading at agree ⊢
  rw [← cidrMask_and_cidrMask shorter, ← BitVec.and_assoc, ← BitVec.and_assoc, agree]

theorem contains_addr (h : p.addr.zone = "") : p.contains p.addr = true := by simp [contains, h]

/-- **`Prefix.Overlaps` decides whether two networks share an address.** -/
theorem Prefix.overlaps_iff {q : Prefix} (hp : p.addr.zone = "") (hq : q.addr.zone = "") :
    p.overlaps q = true ↔ ∃ a, p.contains a = true ∧ q.contains a = true := by
  constructor
  · intro h
    simp only [overlaps, Bool.and_eq_true, beq_iff_eq] at h
    obtain ⟨family, agree⟩ := h
    -- the address of the longer prefix lies in both
    rcases Nat.le_total p.bits q.bits with le | le
    · refine ⟨q.addr, ?_, contains_addr hq⟩
      rw [Nat.min_eq_left le] at agree
      simp [contains, hq, family, ← agree]
    · refine ⟨p.addr, contains_addr hp, ?_⟩
      rw [Nat.min_eq_right le] at agree
      simp [contains, hp, family, ← agree]
  · rintro ⟨a, inP, inQ⟩
    simp only [contains, Bool.and_eq_true, beq_iff_eq] at inP inQ
    obtain ⟨⟨_, famP⟩, agreeP⟩ := inP
    obtain ⟨⟨_, famQ⟩, agreeQ⟩ := inQ
    rw [← famP] at agreeP
    rw [← famQ] at agreeQ
    simp only [overlaps, ← famP, ← famQ, beq_self_eq_true, Bool.true_and, beq_iff_eq]
    exact (leading_mono (Nat.min_le_left _ _) agreeP).symm.trans
      (leading_mono (Nat.min_le_right _ _) agreeQ)

theorem zone_unmap4in6 {s : String} (h : parsePrefix s = some p) :
    (unmap4in6 p).addr.zone = "" := by
  have zone : p.addr.zone = "" := by
    simp only [parsePrefix, Option.bind_eq_bind, Option.bind_eq_some_iff] at h
    obtain ⟨_, _, addr, _, _, hz, _, _, bits, _, _, _, h⟩ := h
    cases h
    by_contra hn
    rw [guard, if_neg hn] at hz
    cases hz
  unfold unmap4in6
  split
  · exact zone
  simp only [Addr.unmap]
  split
  · rfl
  · exact zone

/-- **`overlaps` decides whether two networks share an address.** -/
theorem overlaps_iff : overlaps a b = true ↔ (subnet a ∩ subnet b).Nonempty := by
  unfold overlaps
  split
  next p q hp hq =>
    rw [Prefix.overlaps_iff (zone_unmap4in6 hp) (zone_unmap4in6 hq)]
    constructor
    · rintro ⟨x, inP, inQ⟩
      exact ⟨x, ⟨p, hp, inP⟩, ⟨q, hq, inQ⟩⟩
    rintro ⟨x, ⟨p', hp', inP⟩, ⟨q', hq', inQ⟩⟩
    cases hp.symm.trans hp'
    cases hq.symm.trans hq'
    exact ⟨x, inP, inQ⟩
  next bad =>
    constructor
    · intro h
      cases h
    · rintro ⟨x, ⟨p, hp, _⟩, ⟨q, hq, _⟩⟩
      exact absurd hq (bad p q hp)

theorem disjoint_of_not_overlaps (h : overlaps a b = false) : Disjoint (subnet a) (subnet b) := by
  rw [Set.disjoint_iff]
  intro x both
  have meet : overlaps a b = true := overlaps_iff.mpr ⟨x, both⟩
  rw [h] at meet
  cases meet

end NasnetPanel.Netip
