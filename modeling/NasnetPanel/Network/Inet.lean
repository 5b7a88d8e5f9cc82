
/-!
# Network.Inet — addresses and networks as Go's `net` package reads them

The router keeps addresses as text and parses them where it decides. This module is the part of
Go's `net` package those decisions go through, after its documentation: `parseIP` (dotted quads
without leading zeros, and the IPv6 text form with at most one `::` and an optional dotted tail),
`parseCIDR`, `IP.To4` and `IPNet.Contains`.

An `IP` is its 16-byte form, as in Go; `to4` recognises the IPv4-mapped range. A zone is refused,
as `net.ParseIP` does.
-/

namespace NasnetPanel.Inet

/-- An address in its 16-byte form. -/
abbrev IP := BitVec 128

/-- The top 96 bits of the IPv4-mapped range `::ffff:0:0/96`. -/
def v4InV6Bits : BitVec 96 := 0xFFFF#96

def ofV4 (a : BitVec 32) : IP := v4InV6Bits ++ a

/-- `IP.To4`: the 4-byte form of an IPv4 address, `none` for any other. -/
def to4 (ip : IP) : Option (BitVec 32) :=
  if ip.extractLsb' 32 96 = v4InV6Bits then some (ip.extractLsb' 0 32) else none

def isLoopback (ip : IP) : Bool :=
  match to4 ip with
  | some a => a.extractLsb' 24 8 == 127#8
  | none => ip == 1

/-- `net.IPNet` as `parseCIDR` builds it: the masked address, whether the text was a dotted quad
(and so the mask 4 bytes long) and the ones of the mask. -/
structure IPNet where
  ip : IP
  is4 : Bool
  ones : Nat
deriving DecidableEq, Repr

/-- `net.CIDRMask`: `ones` set bits from the top of a `w`-bit mask. -/
def cidrMask (w ones : Nat) : BitVec w := BitVec.allOnes w <<< (w - ones)

/-- The mask of a network in 16 bytes. A 4-byte mask is used against the low 4 bytes alone. -/
def IPNet.mask16 (n : IPNet) : BitVec 128 :=
  if n.is4 then BitVec.allOnes 96 ++ cidrMask 32 n.ones else cidrMask 128 n.ones

/-- `IPNet.Contains`. An IPv4 network holds IPv4 addresses only, compared under the low 4 bytes of
the mask, and an IPv6 network IPv6 addresses only. -/
def IPNet.contains (n : IPNet) (ip : IP) : Bool :=
  match to4 n.ip, to4 ip with
  | some net, some a =>
    let m := n.mask16.extractLsb' 0 32
    net &&& m == a &&& m
  | none, none => n.ip &&& n.mask16 == ip &&& n.mask16
  | _, _ => false

/-! ## Reading the text -/

/-- The pieces of `cs` between the separators, as `strings.Split` gives them. -/
def splitOn (sep : Char) : List Char → List (List Char)
  | [] => [[]]
  | c :: cs =>
    if c = sep then [] :: splitOn sep cs
    else match splitOn sep cs with
      | [] => [[c]]
      | piece :: rest => (c :: piece) :: rest

def digit? (c : Char) : Option Nat :=
  if '0' ≤ c ∧ c ≤ '9' then some (c.toNat - '0'.toNat) else none

def hexDigit? (c : Char) : Option Nat :=
  if '0' ≤ c ∧ c ≤ '9' then some (c.toNat - '0'.toNat)
  else if 'a' ≤ c ∧ c ≤ 'f' then some (c.toNat - 'a'.toNat + 10)
  else if 'A' ≤ c ∧ c ≤ 'F' then some (c.toNat - 'A'.toNat + 10)
  else none

/-- The number a nonempty run of digits writes in base `b`. -/
def number? (b : Nat) (value : Char → Option Nat) : List Char → Option Nat
  | [] => none
  | c :: cs => (c :: cs).foldlM (fun n d => (value d).map (n * b + ·)) 0

/-- One field of a dotted quad: no leading zero and at most 255. -/
def octet? (cs : List Char) : Option Nat := do
  guard (cs.head? ≠ some '0' ∨ cs.length = 1)
  let n ← number? 10 digit? cs
  guard (n ≤ 255)
  return n

def parseIPv4 (cs : List Char) : Option (BitVec 32) :=
  match splitOn '.' cs with
  | [a, b, c, d] => do
    return BitVec.ofNat 32 ((((← octet? a) * 256 + (← octet? b)) * 256 + (← octet? c)) * 256
      + (← octet? d))
  | _ => none

/-- One 16-bit group of an IPv6 address: one to four hexadecimal digits. -/
def hextet? (cs : List Char) : Option Nat := do
  guard (cs.length ≤ 4)
  number? 16 hexDigit? cs

/-- The groups of one side of an IPv6 address. Only the last group of the whole address may be a
dotted quad, which stands for two groups. -/
def hextets? (dottedTail : Bool) : List (List Char) → Option (List Nat)
  | [] => some []
  | [last] =>
    if dottedTail && last.contains '.' then
      (parseIPv4 last).map fun a => [a.toNat / 65536, a.toNat % 65536]
    else (hextet? last).map ([·])
  | group :: rest => do return (← hextet? group) :: (← hextets? dottedTail rest)

/-- The sides of the first `::`, `none` when the address has no `::`. -/
def cutEllipsis : List Char → Option (List Char × List Char)
  | ':' :: ':' :: rest => some ([], rest)
  | c :: rest => (cutEllipsis rest).map fun (l, r) => (c :: l, r)
  | [] => none

/-- The groups of one side of a `::`; an empty side has none. -/
def sideHextets? (dottedTail : Bool) (cs : List Char) : Option (List Nat) :=
  if cs.isEmpty then some [] else hextets? dottedTail (splitOn ':' cs)

def ofHextets (groups : List Nat) : IP := BitVec.ofNat 128 (groups.foldl (· * 65536 + ·) 0)

/-- An IPv6 address. A `::` stands for at least one group of zeros. -/
def parseIPv6 (cs : List Char) : Option IP :=
  match cutEllipsis cs with
  | none => do
    let groups ← hextets? true (splitOn ':' cs)
    guard (groups.length = 8)
    return ofHextets groups
  | some (l, r) => do
    let left ← sideHextets? false l
    let right ← sideHextets? true r
    guard (left.length + right.length < 8)
    return ofHextets (left ++ List.replicate (8 - left.length - right.length) 0 ++ right)

/-- The address a text names, with whether it was written as a dotted quad. The first of `.` and
`:` decides which form is read; a zone is refused. -/
def parseAddr (cs : List Char) : Option (IP × Bool) :=
  match cs.find? (fun c => c = '.' ∨ c = ':' ∨ c = '%') with
  | some '.' => (parseIPv4 cs).map fun a => (ofV4 a, true)
  | some ':' => if cs.contains '%' then none else (parseIPv6 cs).map fun a => (a, false)
  | _ => none

def parseIP (s : String) : Option IP := (parseAddr s.toList).map (·.1)

/-- `net.ParseCIDR`'s network: the address up to the first `/`, masked to the length after it. -/
def parseCIDR (s : String) : Option IPNet := do
  let cs := s.toList
  guard (cs.contains '/')
  let (ip, is4) ← parseAddr (cs.takeWhile (· ≠ '/'))
  let ones ← number? 10 digit? ((cs.dropWhile (· ≠ '/')).drop 1)
  guard (ones ≤ if is4 then 32 else 128)
  let net : IPNet := { ip := ip, is4 := is4, ones := ones }
  return { net with ip := ip &&& net.mask16 }

/-- The text of an IPv4-mapped address reads as the IPv4 address it maps. -/
example : (parseIP "::ffff:8.8.8.8").bind to4 = (parseIP "8.8.8.8").bind to4 := by decide

end NasnetPanel.Inet
