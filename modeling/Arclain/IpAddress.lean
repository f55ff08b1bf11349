import Arclain.Text

namespace Arclain.Network

/-!
# Internet addresses

Addresses of both families as the standard library has them: their octets or segments, their
text, and the ranges of its predicates.
-/

open Text

/-- `Ipv4Addr`: its octets. -/
structure Ipv4Addr where
  first : UInt8
  second : UInt8
  third : UInt8
  fourth : UInt8
  deriving DecidableEq

/-- `Ipv6Addr`: its segments. -/
structure Ipv6Addr where
  segment0 : UInt16
  segment1 : UInt16
  segment2 : UInt16
  segment3 : UInt16
  segment4 : UInt16
  segment5 : UInt16
  segment6 : UInt16
  segment7 : UInt16
  deriving DecidableEq

inductive IpAddr where
  | v4 (address : Ipv4Addr)
  | v6 (address : Ipv6Addr)
  deriving DecidableEq

structure SocketAddr where
  ip : IpAddr
  port : UInt16

def SocketAddr.isIpv4 (address : SocketAddr) : Bool :=
  match address.ip with
  | .v4 _ => true
  | .v6 _ => false

namespace Ipv4Addr

section

variable (address : Ipv4Addr)

/-- `is_loopback`: 127.0.0.0/8. -/
def isLoopback : Bool := address.first == 127

/-- `is_private`: 10.0.0.0/8, 172.16.0.0/12 and 192.168.0.0/16. -/
def isPrivate : Bool :=
  address.first == 10 || (address.first == 172 && 16 ≤ address.second && address.second ≤ 31) ||
    (address.first == 192 && address.second == 168)

/-- `is_link_local`: 169.254.0.0/16. -/
def isLinkLocal : Bool := address.first == 169 && address.second == 254

def isUnspecified : Bool := address == ⟨0, 0, 0, 0⟩

def isBroadcast : Bool := address == ⟨255, 255, 255, 255⟩

/-- `is_documentation`: 192.0.2.0/24, 198.51.100.0/24 and 203.0.113.0/24. -/
def isDocumentation : Bool :=
  (address.first == 192 && address.second == 0 && address.third == 2) ||
    (address.first == 198 && address.second == 51 && address.third == 100) ||
    (address.first == 203 && address.second == 0 && address.third == 113)

def text : Str :=
  join ['.'] ([address.first, address.second, address.third, address.fourth].map
    fun octet => decimal octet.toNat)

end

/-- An octet as it is parsed: up to three digits, no leading zero. -/
def parseOctet (digits : Str) : Option UInt8 :=
  if digits.length = 0 ∨ 3 < digits.length ∨ !digits.all Char.isDigit then none
  else if 1 < digits.length ∧ digits.head? = some '0' then none
  else
    let value := Nat.ofDigitChars 10 digits 0
    if value < 256 then some (UInt8.ofNat value) else none

/-- `Ipv4Addr::from_str`. -/
def parse (text : Str) : Option Ipv4Addr :=
  match text.splitOn '.' with
  | [first, second, third, fourth] => do
    return ⟨← parseOctet first, ← parseOctet second, ← parseOctet third, ← parseOctet fourth⟩
  | _ => none

end Ipv4Addr

namespace Ipv6Addr

def segments (address : Ipv6Addr) : List UInt16 :=
  [address.segment0, address.segment1, address.segment2, address.segment3,
    address.segment4, address.segment5, address.segment6, address.segment7]

def ofSegments : List UInt16 → Option Ipv6Addr
  | [segment0, segment1, segment2, segment3, segment4, segment5, segment6, segment7] =>
    some ⟨segment0, segment1, segment2, segment3, segment4, segment5, segment6, segment7⟩
  | _ => none

/-- `to_ipv4_mapped`: the IPv4 address in ::ffff:0:0/96. -/
def toIpv4Mapped (address : Ipv6Addr) : Option Ipv4Addr :=
  if address.segment0 = 0 ∧ address.segment1 = 0 ∧ address.segment2 = 0 ∧
    address.segment3 = 0 ∧ address.segment4 = 0 ∧ address.segment5 = 0xffff then
    some
      { first := (address.segment6 >>> 8).toUInt8
        second := address.segment6.toUInt8
        third := (address.segment7 >>> 8).toUInt8
        fourth := address.segment7.toUInt8 }
  else none

def isLoopback (address : Ipv6Addr) : Bool := address == ⟨0, 0, 0, 0, 0, 0, 0, 1⟩

def isUnspecified (address : Ipv6Addr) : Bool := address == ⟨0, 0, 0, 0, 0, 0, 0, 0⟩

/-- The first of the longest runs of zeros: where it starts and how long it is. -/
def longestZeros (segments : List UInt16) : Nat × Nat :=
  let runs :=
    (List.range segments.length).map fun start =>
      (start, ((segments.drop start).takeWhile (· == 0)).length)
  runs.foldl (fun best run => if best.2 < run.2 then run else best) (0, 0)

/-- The text of an address: a run of at least two zeros is written as `::`. -/
def text (address : Ipv6Addr) : Str :=
  let written (segments : List UInt16) : Str :=
    join [':'] (segments.map fun segment => Nat.toDigits 16 segment.toNat)
  match address.toIpv4Mapped with
  | some mapped => "::ffff:".toList ++ mapped.text
  | none =>
    let (start, length) := longestZeros address.segments
    if 1 < length then
      written (address.segments.take start) ++ "::".toList ++
        written (address.segments.drop (start + length))
    else written address.segments

def hexDigit (char : Char) : Option Nat :=
  if char.isDigit then some (char.toNat - '0'.toNat)
  else if 'a' ≤ char ∧ char ≤ 'f' then some (char.toNat - 'a'.toNat + 10)
  else if 'A' ≤ char ∧ char ≤ 'F' then some (char.toNat - 'A'.toNat + 10)
  else none

def parseSegment (digits : Str) : Option UInt16 :=
  if digits.length = 0 ∨ 4 < digits.length then none
  else do
    let values ← digits.mapM hexDigit
    return UInt16.ofNat (values.foldl (fun value digit => 16 * value + digit) 0)

/-- Pieces between colons.  The last one may be an IPv4 address. -/
def parsePieces (mayEmbed : Bool) : List Str → Option (List UInt16)
  | [] => some []
  | [piece] =>
    match mayEmbed, Ipv4Addr.parse piece with
    | true, some address =>
      some [UInt16.ofNat (address.first.toNat * 256 + address.second.toNat),
        UInt16.ofNat (address.third.toNat * 256 + address.fourth.toNat)]
    | _, _ => (parseSegment piece).map fun segment => [segment]
  | piece :: rest => do
    return (← parseSegment piece) :: (← parsePieces mayEmbed rest)

/-- The segments of one side of `::`, where there may be none. -/
def parseSide (mayEmbed : Bool) (text : Str) : Option (List UInt16) :=
  if text = [] then some [] else parsePieces mayEmbed (text.splitOn ':')

/-- The texts before and after the first `::`. -/
def splitDouble : Str → Option (Str × Str)
  | [] => none
  | ':' :: ':' :: rest => some ([], rest)
  | char :: rest => (splitDouble rest).map fun (before, after) => (char :: before, after)

/-- `Ipv6Addr::from_str`. -/
def parse (text : Str) : Option Ipv6Addr :=
  match splitDouble text with
  | none => (parsePieces true (text.splitOn ':')).bind ofSegments
  | some (before, after) => do
    let head ← parseSide false before
    let tail ← parseSide true after
    if head.length + tail.length < 8 then
      ofSegments (head ++ List.replicate (8 - head.length - tail.length) 0 ++ tail)
    else none

end Ipv6Addr

/-- `IpAddr::to_string`. -/
def IpAddr.text : IpAddr → Str
  | .v4 address | .v6 address => address.text

/-- `host.parse::<IpAddr>()`. -/
def IpAddr.parse (text : Str) : Option IpAddr :=
  match Ipv4Addr.parse text with
  | some address => some (.v4 address)
  | none => (Ipv6Addr.parse text).map .v6

example : (IpAddr.parse "2001:DB8::8:800:200c:417a".toList).map IpAddr.text =
    some "2001:db8::8:800:200c:417a".toList := by
  decide +kernel

def isPublicIpv4 (address : Ipv4Addr) : Bool :=
  let ⟨first, second, third, _⟩ := address
  if first = 0 ∨ first = 10 ∨ first = 127 ∨ 224 ≤ first then false
  else if first = 100 ∧ 64 ≤ second ∧ second ≤ 127 then false
  else if first = 169 ∧ second = 254 then false
  else if first = 172 ∧ 16 ≤ second ∧ second ≤ 31 then false
  else if first = 192 ∧ second = 0 ∧ third = 0 then false
  else if first = 192 ∧ second = 0 ∧ third = 2 then false
  else if first = 192 ∧ second = 31 ∧ third = 196 then false
  else if first = 192 ∧ second = 52 ∧ third = 193 then false
  else if first = 192 ∧ second = 88 ∧ third = 99 then false
  else if first = 192 ∧ second = 168 then false
  else if first = 192 ∧ second = 175 ∧ third = 48 then false
  else if first = 198 ∧ (second = 18 ∨ second = 19) then false
  else if first = 198 ∧ second = 51 ∧ third = 100 then false
  else if first = 203 ∧ second = 0 ∧ third = 113 then false
  else true

/-- `is_public_ipv6`: global unicast without its special allocations. -/
def isPublicIpv6 (address : Ipv6Addr) : Bool :=
  if ¬ (0x2000 ≤ address.segment0 ∧ address.segment0 ≤ 0x3fff) then false
  else if address.segment0 = 0x2001 ∧ address.segment1 ≤ 0x01ff then false
  else if address.segment0 = 0x2001 ∧ 0x0020 ≤ address.segment1 ∧ address.segment1 ≤ 0x002f then
    false
  else if address.segment0 = 0x2001 ∧ address.segment1 = 0x0db8 then false
  else if address.segment0 = 0x2002 then false
  else if address.segment0 = 0x3fff ∧ address.segment1 ≤ 0x0fff then false
  else if address.segment0 = 0x2620 ∧ address.segment1 = 0x004f ∧ address.segment2 = 0x8000 then
    false
  else true

def isPublicAddress : IpAddr → Bool
  | .v4 address => isPublicIpv4 address
  | .v6 address => if address.toIpv4Mapped.isSome then false else isPublicIpv6 address

/-- `is_off_public_internet` of an IPv4 address. -/
def isOffPublicInternetV4 (address : Ipv4Addr) : Bool :=
  address.isLoopback || address.isPrivate || address.isLinkLocal ||
    address.isUnspecified || address.isBroadcast || address.isDocumentation

def isOffPublicInternet : IpAddr → Bool
  | .v4 address => isOffPublicInternetV4 address
  | .v6 address =>
    match address.toIpv4Mapped with
    | some mapped => isOffPublicInternetV4 mapped
    | none =>
      address.isLoopback || address.isUnspecified ||
        -- Unique local and link local, matched by their prefixes.
        (address.segment0 &&& 0xfe00) == 0xfc00 ||
        (address.segment0 &&& 0xffc0) == 0xfe80

end Arclain.Network
