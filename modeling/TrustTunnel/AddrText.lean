import TrustTunnel.NetUtils

/-!
# Addresses as text (`core::net::parser`)

`str::parse` for the address types. A parser that fails has read nothing.
-/

namespace TrustTunnel.NetUtils

abbrev Parser (α : Type) := List Char → Option (α × List Char)

namespace Parser

def readGivenChar (target : Char) : Parser Unit
  | c :: rest => if c = target then some ((), rest) else none
  | [] => none

def readSeparator {α : Type} (sep : Char) (index : Nat) (inner : Parser α) : Parser α := fun s =>
  if index > 0 then (readGivenChar sep s).bind (fun x => inner x.2) else inner s

def toDigit (radix : Nat) (c : Char) : Option Nat :=
  let n :=
    if '0' ≤ c ∧ c ≤ '9' then some (c.toNat - '0'.toNat)
    else if 'a' ≤ c ∧ c ≤ 'z' then some (c.toNat - 'a'.toNat + 10)
    else if 'A' ≤ c ∧ c ≤ 'Z' then some (c.toNat - 'A'.toNat + 10)
    else none
  n.filter (fun d => d < radix)

def digitsValue (radix : Nat) (digits : List Char) : Nat :=
  digits.foldl (fun n c => n * radix + (toDigit radix c).getD 0) 0

/-- All the digits there are, at most `maxDigits`, with a value below `bound`. -/
def readNumber (radix : Nat) (maxDigits : Option Nat) (allowZeroPrefix : Bool) (bound : Nat) :
    Parser Nat := fun s =>
  let digits := s.takeWhile (fun c => (toDigit radix c).isSome)
  let hasLeadingZero := s.head? = some '0'
  if digits = [] then none
  else if maxDigits.any (fun m => digits.length > m) then none
  else if !allowZeroPrefix && hasLeadingZero && decide (digits.length > 1) then none
  else if digitsValue radix digits < bound then
    some (digitsValue radix digits, s.drop digits.length)
  else none

def readOctet (index : Nat) : Parser Nat :=
  readSeparator '.' index (readNumber 10 (some 3) false (2 ^ 8))

def readIpv4Addr : Parser Ipv4Addr := fun s => do
  let (a, s) ← readOctet 0 s
  let (b, s) ← readOctet 1 s
  let (c, s) ← readOctet 2 s
  let (d, s) ← readOctet 3 s
  pure (⟨.ofNat a, .ofNat b, .ofNat c, .ofNat d⟩, s)

/-- Groups until one is missing; an embedded IPv4 address ends the list, and the flag says so. -/
def readGroups : (left index : Nat) → List Char → List UInt16 × Bool × List Char
  | 0, _, s => ([], false, s)
  | left + 1, index, s =>
    match if left > 0 then readSeparator ':' index readIpv4Addr s else none with
    | some (ip, s) => ([beU16 ip.a ip.b, beU16 ip.c ip.d], true, s)
    | none =>
      match readSeparator ':' index (readNumber 16 (some 4) true (2 ^ 16)) s with
      | none => ([], false, s)
      | some (g, s) =>
        let (groups, ipv4, s) := readGroups left (index + 1) s
        (.ofNat g :: groups, ipv4, s)

def ipv6OfGroups : List UInt16 → Option Ipv6Addr
  | [a, b, c, d, e, f, g, h] => some ⟨a, b, c, d, e, f, g, h⟩
  | _ => none

/-- The groups before `::`, which stands for one at least, and after it. -/
def readIpv6Addr : Parser Ipv6Addr := fun s =>
  let (head, headIpv4, s) := readGroups 8 0 s
  if head.length = 8 then (ipv6OfGroups head).map (fun ip => (ip, s))
  else if headIpv4 then none
  else do
    let (_, s) ← readGivenChar ':' s
    let (_, s) ← readGivenChar ':' s
    let (tail, _, s) := readGroups (8 - (head.length + 1)) 0 s
    let ip ← ipv6OfGroups (head ++ List.replicate (8 - head.length - tail.length) 0 ++ tail)
    pure (ip, s)

def readIpAddr : Parser IpAddr := fun s =>
  match readIpv4Addr s with
  | some (ip, s) => some (.v4 ip, s)
  | none => (readIpv6Addr s).map (fun x => (.v6 x.1, x.2))

def readPort : Parser UInt16 := fun s => do
  let (_, s) ← readGivenChar ':' s
  let (port, s) ← readNumber 10 none true (2 ^ 16) s
  pure (.ofNat port, s)

def readScopeId : Parser UInt32 := fun s => do
  let (_, s) ← readGivenChar '%' s
  let (id, s) ← readNumber 10 none true (2 ^ 32) s
  pure (.ofNat id, s)

def readSocketAddrV4 : Parser SocketAddr := fun s => do
  let (ip, s) ← readIpv4Addr s
  let (port, s) ← readPort s
  pure (.v4 ip port, s)

def readSocketAddrV6 : Parser SocketAddr := fun s => do
  let (_, s) ← readGivenChar '[' s
  let (ip, s) ← readIpv6Addr s
  let (scopeId, s) := (readScopeId s).getD (0, s)
  let (_, s) ← readGivenChar ']' s
  let (port, s) ← readPort s
  pure (.v6 ip port 0 scopeId, s)

def readSocketAddr : Parser SocketAddr := fun s =>
  (readSocketAddrV4 s).orElse (fun _ => readSocketAddrV6 s)

/-- `parse_with`: the whole text must be read. -/
def parseWith {α : Type} (inner : Parser α) (s : List Char) : Option α :=
  match inner s with
  | some (a, []) => some a
  | _ => none

end Parser

/-- `str::parse::<SocketAddr>`. -/
def parseSocketAddr (s : String) : Option SocketAddr :=
  Parser.parseWith Parser.readSocketAddr s.toList

/-- `str::parse::<IpAddr>`. -/
def parseIpAddr (s : String) : Option IpAddr :=
  Parser.parseWith Parser.readIpAddr s.toList

/-- The address a URI's host is a literal of; IPv6 in brackets. -/
def ipLiteral (host : String) : Option IpAddr :=
  (parseIpAddr host).or ((Parser.parseWith bracketed host.toList).map .v6)
where
  bracketed : Parser Ipv6Addr := fun s => do
    let (_, s) ← Parser.readGivenChar '[' s
    let (ip, s) ← Parser.readIpv6Addr s
    let (_, s) ← Parser.readGivenChar ']' s
    pure (ip, s)

end TrustTunnel.NetUtils
