import Arclain.IpAddress

namespace Arclain.Network

/-!
# URLs

The parts of a parsed URL that the program reads.  Parsing and joining belong to
the URL library, which is a parameter: `UrlLibrary`.  What is relied on is that a
parsed URL is parsed from its own text to itself, `UrlLibrary.Reparses`.
-/

open Text

inductive Host where
  | domain (name : Str)
  | ipv4 (address : Ipv4Addr)
  | ipv6 (address : Ipv6Addr)
  deriving DecidableEq

def Host.literal? : Host → Option IpAddr
  | .domain _ => none
  | .ipv4 address => some (.v4 address)
  | .ipv6 address => some (.v6 address)

def Host.str : Host → Str
  | .domain name => name
  | .ipv4 address => address.text
  | .ipv6 address => ['['] ++ address.text ++ [']']

structure Url where
  /-- `as_str`. -/
  text : Str
  scheme : Str
  username : Str
  password : Option Str
  host : Option Host
  port : Option UInt16
  fragment : Option Str

namespace Url

def hostStr (url : Url) : Option Str := url.host.map Host.str

def knownDefaultPort (scheme : Str) : Option UInt16 :=
  if scheme = "http".toList ∨ scheme = "ws".toList then some 80
  else if scheme = "https".toList ∨ scheme = "wss".toList then some 443
  else if scheme = "ftp".toList then some 21
  else none

def portOrKnownDefault (url : Url) : Option UInt16 := url.port.or (knownDefaultPort url.scheme)

/-- `origin`: scheme, host and port.  The origins of other schemes are opaque,
and an opaque origin is equal to no other. -/
def origin? (url : Url) : Option (Str × Host × UInt16) := do
  let defaultPort ← knownDefaultPort url.scheme
  let host ← url.host
  return (url.scheme, host, url.port.getD defaultPort)

/-- `first.origin() == second.origin()`. -/
def SameOrigin (first second : Url) : Prop :=
  ∃ origin, first.origin? = some origin ∧ second.origin? = some origin

instance (first second : Url) : Decidable (SameOrigin first second) :=
  match left : first.origin?, right : second.origin? with
  | some first, some second =>
    if same : first = second then isTrue ⟨first, left, same ▸ right⟩
    else
      isFalse fun ⟨_, equalsFirst, equalsSecond⟩ =>
        same <| (Option.some.inj (left.symm.trans equalsFirst)).trans
          (Option.some.inj (right.symm.trans equalsSecond)).symm
  | none, _ => isFalse fun ⟨_, found, _⟩ => by
    rw [left] at found
    cases found
  | some _, none => isFalse fun ⟨_, _, found⟩ => by
    rw [right] at found
    cases found

theorem SameOrigin.trans {first second third : Url} (left : SameOrigin first second)
    (right : SameOrigin second third) : SameOrigin first third := by
  obtain ⟨origin, firstOrigin, secondOrigin⟩ := left
  obtain ⟨other, otherOrigin, thirdOrigin⟩ := right
  obtain rfl : origin = other := Option.some.inj (secondOrigin.symm.trans otherOrigin)
  exact ⟨origin, firstOrigin, thirdOrigin⟩

end Url

structure UrlLibrary where
  /-- `Url::parse`. -/
  parse : Str → Except Str Url
  /-- `Url::join`. -/
  join : Url → Str → Except Str Url

/-- The text of a parsed URL is parsed to the same URL. -/
def UrlLibrary.Reparses (library : UrlLibrary) : Prop :=
  ∀ {text : Str} {url : Url}, library.parse text = .ok url → library.parse url.text = .ok url

end Arclain.Network
