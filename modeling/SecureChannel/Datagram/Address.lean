/-!
# Addresses of hosts

An IPv4 address is written as four decimal numbers between dots, each with at most three digits and
no zero in front.

An IPv6 address is written as eight groups of at most four hexadecimal digits between colons. Two
colons stand for one or more groups of zero, once in an address, and the last two groups may be
written as an IPv4 address. `IPv6.toText` writes the longest run of two or more zero groups as two
colons, and shows the IPv4 address inside one that stands for it.

Reading takes an address off the front of a text and gives back the rest.
-/

namespace SecureChannel

namespace Address

/-- Takes a separator off the front of a text. -/
def skip (c : Char) : List Char → Option (List Char)
  | x :: rest => if x = c then some rest else none
  | [] => none

def decimal (digits : List Char) : Nat :=
  digits.foldl (fun n c => 10 * n + (c.toNat - 48)) 0

end Address

open Address

structure IPv4 where
  a : UInt8
  b : UInt8
  c : UInt8
  d : UInt8
deriving DecidableEq

namespace IPv4

def unspecified : IPv4 := ⟨0, 0, 0, 0⟩

/-- The usual address that leads back to the host that uses it. -/
def loopback : IPv4 := ⟨127, 0, 0, 1⟩

/-- Whether the address leads back to the host that uses it. -/
def isLoopback (address : IPv4) : Bool := address.a = 127

def toText (address : IPv4) : String :=
  s!"{address.a}.{address.b}.{address.c}.{address.d}"

def readOctet (text : List Char) : Option (UInt8 × List Char) :=
  let (digits, rest) := text.span Char.isDigit
  if digits = [] || 3 < digits.length || (digits.head? = some '0' && 1 < digits.length) then none
  else if decimal digits < UInt8.size then some (UInt8.ofNat (decimal digits), rest)
  else none

def read (text : List Char) : Option (IPv4 × List Char) := do
  let (a, rest) ← readOctet text
  let (b, rest) ← readOctet (← skip '.' rest)
  let (c, rest) ← readOctet (← skip '.' rest)
  let (d, rest) ← readOctet (← skip '.' rest)
  return (⟨a, b, c, d⟩, rest)

/-- The two groups that the address makes up in one of the sixth version. -/
def groups (address : IPv4) : List UInt16 :=
  [address.a.toUInt16 * 256 + address.b.toUInt16, address.c.toUInt16 * 256 + address.d.toUInt16]

/-- The address that two groups make up. -/
def ofGroups (high low : UInt16) : IPv4 :=
  ⟨(high / 256).toUInt8, high.toUInt8, (low / 256).toUInt8, low.toUInt8⟩

end IPv4

structure IPv6 where
  groups : Vector UInt16 8
deriving DecidableEq

namespace IPv6

/-- The address that starts with the given groups. -/
def ofList (groups : List UInt16) : IPv6 :=
  ⟨.ofFn fun i => groups.getD i 0⟩

def unspecified : IPv6 := ofList []

/-- The address that leads back to the host that uses it. -/
def loopback : IPv6 := ofList [0, 0, 0, 0, 0, 0, 0, 1]

/-- Whether the address stands for one of the fourth version. -/
def isMapped (address : IPv6) : Bool :=
  address.groups.toList.take 6 = [0, 0, 0, 0, 0, 0xffff]

def groupsText (groups : List UInt16) : String :=
  ":".intercalate (groups.map fun group => String.ofList (Nat.toDigits 16 group.toNat))

/-- Where the longest run of zeros starts, the first of several, and how long it is. -/
def longestZeros (groups : List UInt16) : Nat × Nat :=
  (List.range groups.length).foldl (fun longest start =>
    let length := ((groups.drop start).takeWhile (· = 0)).length
    if longest.2 < length then (start, length) else longest) (0, 0)

def toText (address : IPv6) : String :=
  match address.groups.toList with
  | [0, 0, 0, 0, 0, 0xffff, high, low] => "::ffff:" ++ (IPv4.ofGroups high low).toText
  | groups =>
      let (start, length) := longestZeros groups
      if 1 < length then
        groupsText (groups.take start) ++ "::" ++ groupsText (groups.drop (start + length))
      else groupsText groups

def isDigit (c : Char) : Bool :=
  c.isDigit || ('a' ≤ c && c ≤ 'f') || ('A' ≤ c && c ≤ 'F')

def digitValue (c : Char) : Nat :=
  if c.isDigit then c.toNat - 48 else c.toLower.toNat - 87

def readGroup (text : List Char) : Option (UInt16 × List Char) :=
  let (digits, rest) := text.span isDigit
  if digits = [] || 4 < digits.length then none
  else some (UInt16.ofNat (digits.foldl (fun n c => 16 * n + digitValue c) 0), rest)

/-- Groups as they are written one after the other. -/
structure Written where
  groups : List UInt16
  /-- The last two groups are written as an IPv4 address. -/
  dotted : Bool

/-- At most so many groups. Where there is room for two, an IPv4 address may stand for them, and
ends the groups. `first` says that none was read yet, so that no colon comes first. -/
def readGroups : (room : Nat) → (first : Bool) → List Char → Written × List Char
  | 0, _, text => (⟨[], false⟩, text)
  | room + 1, first, text =>
      let start := if first then some text else skip ':' text
      match if 0 < room then start.bind IPv4.read else none with
      | some (address, rest) => (⟨address.groups, true⟩, rest)
      | none =>
          match start.bind readGroup with
          | some (group, rest) =>
              let (behind, rest) := readGroups room false rest
              (⟨group :: behind.groups, behind.dotted⟩, rest)
          | none => (⟨[], false⟩, text)

/-- An address. In front of two colons there is no IPv4 address, and they stand for at least one
group. -/
def read (text : List Char) : Option (IPv6 × List Char) :=
  let (head, rest) := readGroups 8 true text
  if head.groups.length = 8 then some (ofList head.groups, rest)
  else if head.dotted then none
  else do
    let rest ← skip ':' (← skip ':' rest)
    let (tail, rest) := readGroups (7 - head.groups.length) true rest
    let zeros := List.replicate (8 - head.groups.length - tail.groups.length) 0
    return (ofList (head.groups ++ zeros ++ tail.groups), rest)

end IPv6

end SecureChannel
