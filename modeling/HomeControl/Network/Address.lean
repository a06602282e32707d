import HomeControl.Text.Column

/-!
# Addresses

Internet addresses and their text. Reading is strict: four decimal numbers without leading zeros, or
groups of hexadecimal digits in which one double colon stands for the missing groups and the last
two groups may be written as four decimal numbers. An address is written in the shortest form:
lower-case groups without leading zeros, and a double colon for the longest run of zero groups.
-/

namespace HomeControl

/-- An address of either family. -/
inductive IpAddress where
  /-- Four bytes. -/
  | v4 (bytes : Vector UInt8 4)
  /-- Eight groups of sixteen bits. -/
  | v6 (groups : Vector UInt16 8)
  deriving DecidableEq

namespace IpAddress

/-! ## Reading -/

/-- The number of a digit in a base up to sixteen. -/
def digit? (base : Nat) (c : Char) : Option Nat :=
  let n := c.toNat
  let d :=
    if 48 ≤ n ∧ n ≤ 57 then n - 48
    else if 97 ≤ n ∧ n ≤ 102 then n - 87
    else if 65 ≤ n ∧ n ≤ 70 then n - 55
    else 16
  if d < base then some d else none

/-- Takes a number of one up to `most` digits. -/
def number? (base most : Nat) (cs : List Char) : Option (List Char × Nat × List Char) :=
  let ds := cs.takeWhile fun c => (digit? base c).isSome
  if ds.isEmpty || most < ds.length then none
  else
    let value := ds.foldl (fun n c => n * base + (digit? base c).getD 0) 0
    some (ds, value, cs.drop ds.length)

/-- Takes a byte in decimal digits, without leading zeros. -/
def octet? (cs : List Char) : Option (UInt8 × List Char) := do
  let (ds, value, rest) ← number? 10 3 cs
  if 256 ≤ value ∨ (1 < ds.length ∧ ds.head? = some '0') then none
  else return (UInt8.ofNat value, rest)

/-- Takes one given character. -/
def mark? (c : Char) : List Char → Option (List Char)
  | x :: rest => if x = c then some rest else none
  | [] => none

/-- Takes four decimal numbers with points between them. -/
def quad? (cs : List Char) : Option (Vector UInt8 4 × List Char) := do
  let (a, cs) ← octet? cs
  let cs ← mark? '.' cs
  let (b, cs) ← octet? cs
  let cs ← mark? '.' cs
  let (c, cs) ← octet? cs
  let cs ← mark? '.' cs
  let (d, cs) ← octet? cs
  return (#v[a, b, c, d], cs)

/-- Takes a group of hexadecimal digits. -/
def group? (cs : List Char) : Option (UInt16 × List Char) := do
  let (_, value, rest) ← number? 16 4 cs
  return (UInt16.ofNat value, rest)

/-- The colon that stands in front of every group but the first. -/
def separator? (first : Bool) (cs : List Char) : Option (List Char) :=
  if first then some cs else mark? ':' cs

/-- The group that two bytes fill. -/
def groupOf (high low : UInt8) : UInt16 :=
  high.toUInt16 * 256 + low.toUInt16

/-- The two groups that four bytes fill. -/
def pair (q : Vector UInt8 4) : List UInt16 :=
  [groupOf q[0] q[1], groupOf q[2] q[3]]

/-- Groups that have been read, whether the last two were written as four decimal numbers, and the
text that is left. -/
structure Run where
  /-- The groups. -/
  groups : List UInt16
  /-- Whether the last two were written as four decimal numbers, which ends the run. -/
  endsInQuad : Bool
  /-- The text that is left. -/
  rest : List Char

/-- Takes as many groups as there are, but not more than `room`. Four decimal numbers need room for
two groups. -/
def run (first : Bool) : Nat → List Char → Run
  | 0, cs => ⟨[], false, cs⟩
  | room + 1, cs =>
    match (if room = 0 then none else (separator? first cs).bind quad?) with
    | some (q, rest) => ⟨pair q, true, rest⟩
    | none =>
      match (separator? first cs).bind group? with
      | some (g, rest) =>
        let more := run false room rest
        ⟨g :: more.groups, more.endsInQuad, more.rest⟩
      | none => ⟨[], false, cs⟩

/-- The address that groups make, if there are eight of them. -/
def ofGroups? (gs : List UInt16) : Option IpAddress :=
  if h : gs.length = 8 then some (.v6 ⟨gs.toArray, by simp [h]⟩) else none

/-- Reads an address of groups. -/
def readGroups? (cs : List Char) : Option IpAddress :=
  let head := run true 8 cs
  if head.groups.length = 8 then
    if head.rest.isEmpty then ofGroups? head.groups else none
  else if head.endsInQuad then none
  else
    match head.rest with
    | ':' :: ':' :: rest =>
      let tail := run true (7 - head.groups.length) rest
      let zeros := List.replicate (8 - head.groups.length - tail.groups.length) 0
      if tail.rest.isEmpty then ofGroups? (head.groups ++ zeros ++ tail.groups) else none
    | _ => none

/-- Reads an address of either family. -/
def parse? (s : String) : Option IpAddress :=
  match quad? s.toList with
  | some (q, rest) => if rest.isEmpty then some (.v4 q) else none
  | none => readGroups? s.toList

/-! ## Writing -/

/-- The first of four bytes. -/
def firstByte (q : Vector UInt8 4) : UInt8 :=
  q[0]

/-- The last of eight groups. -/
def lastGroup (groups : Vector UInt16 8) : UInt16 :=
  groups[7]

/-- Four decimal numbers. -/
def quadText (q : Vector UInt8 4) : String :=
  ".".intercalate (q.toList.map fun b => toString b.toNat)

/-- Groups with colons between them. -/
def groupsText (gs : List UInt16) : String :=
  ":".intercalate (gs.map fun g => String.ofList (Nat.toDigits 16 g.toNat))

/-- Where a run of zeros starts and how long it is. -/
structure ZeroRun where
  /-- The position of its first group. -/
  start : Nat := 0
  /-- The number of its groups. -/
  length : Nat := 0

/-- The longer of two runs, the earlier if they are equally long. -/
def ZeroRun.longer (a b : ZeroRun) : ZeroRun :=
  if a.length < b.length then b else a

/-- The longest run of zeros, the first of several; the list starts at position `here`. -/
def longestZeros : Nat → List UInt16 → ZeroRun
  | _, [] => {}
  | here, g :: gs =>
    let zeros := ((g :: gs).takeWhile (· == 0)).length
    ZeroRun.longer ⟨here, zeros⟩ (longestZeros (here + 1) gs)

/-- The four bytes of an address that stands for one of the other family. -/
def mapped? : IpAddress → Option (Vector UInt8 4)
  | .v4 _ => none
  | .v6 groups =>
    if (groups.toList.take 5).all (· == 0) && groups[5] == 0xFFFF then
      let byte (g : UInt16) := (g / 256).toUInt8
      some #v[byte groups[6], groups[6].toUInt8, byte groups[7], groups[7].toUInt8]
    else none

/-- The text of an address. -/
def text (a : IpAddress) : String :=
  match a, a.mapped? with
  | .v4 q, _ => quadText q
  | .v6 _, some q => "::ffff:" ++ quadText q
  | .v6 groups, none =>
    let gs := groups.toList
    let zeros := longestZeros 0 gs
    if 1 < zeros.length then
      groupsText (gs.take zeros.start) ++ "::" ++ groupsText (gs.drop (zeros.start + zeros.length))
    else groupsText gs

end IpAddress

/-- Where a server listens. -/
structure SocketAddress where
  /-- The address. -/
  ip : IpAddress
  /-- The port. -/
  port : UInt16
  deriving DecidableEq

/-- The text of an address with its port; groups are bracketed, to tell them from the port. -/
def SocketAddress.text (a : SocketAddress) : String :=
  match a.ip with
  | .v4 _ => s!"{a.ip.text}:{a.port.toNat}"
  | .v6 _ => s!"[{a.ip.text}]:{a.port.toNat}"

end HomeControl
