/-
Eggtunnel/Host.lean

`validate_target_host`, the single host-text validator of the wire target and
of the client endpoint, with the parts of the standard library it rests on:
`char::is_whitespace`, `char::is_control` and `Ipv6Addr`'s `FromStr`.

Only the success of the IPv6 parse is used by the validator, so the readers
below return what is left of the input and no address.
-/
import Eggtunnel.Codec

namespace Eggtunnel

/-! ### Character classes -/

/-- `char::is_whitespace`: the Unicode `White_Space` property. -/
def isWhitespace (c : Char) : Bool :=
  let n := c.toNat
  (0x9 ≤ n && n ≤ 0xD) || n == 0x20 || n == 0x85 || n == 0xA0 || n == 0x1680 ||
    (0x2000 ≤ n && n ≤ 0x200A) || n == 0x2028 || n == 0x2029 || n == 0x202F ||
    n == 0x205F || n == 0x3000

/-- `char::is_control`: general category `Cc`. -/
def isControl (c : Char) : Bool :=
  let n := c.toNat
  n ≤ 0x1F || (0x7F ≤ n && n ≤ 0x9F)

/-- `is_format_char`. -/
def isFormatChar (c : Char) : Bool :=
  let n := c.toNat
  n == 0xAD || (0x200B ≤ n && n ≤ 0x200F) || (0x2028 ≤ n && n ≤ 0x202E) ||
    (0x2060 ≤ n && n ≤ 0x2064) || n == 0xFEFF

/-- The characters that would be ambiguous inside a URL authority. -/
def authorityChars : List Char :=
  ['/', '?', '#', '@', '[', ']', '\\', '"', '\'', '<', '>']

/-! ### `Ipv6Addr::from_str` -/

/-- `char::to_digit`. -/
def toDigit (radix : Nat) (c : Char) : Option Nat :=
  let n := c.toNat
  let d? : Option Nat :=
    if 48 ≤ n ∧ n ≤ 57 then some (n - 48)
    else if 97 ≤ n ∧ n ≤ 122 then some (n - 97 + 10)
    else if 65 ≤ n ∧ n ≤ 90 then some (n - 65 + 10)
    else none
  d?.filter (· < radix)

/-- `Parser::read_number` with a digit bound. -/
def readNumber (radix maxDigits : Nat) (allowZero : Bool) (limit : Nat) (cs : List Char) :
    Option (List Char) :=
  let digits := cs.takeWhile fun c => (toDigit radix c).isSome
  let value := digits.foldl (fun acc c => acc * radix + (toDigit radix c).getD 0) 0
  if digits.length = 0 ∨ maxDigits < digits.length then none
  else if !allowZero && cs.head? == some '0' && 1 < digits.length then none
  else if value ≤ limit then some (cs.drop digits.length)
  else none

/-- `Parser::read_separator`: the separator stands before every item but the
first. -/
def readSeparator (sep : Char) (index : Nat) (inner : List Char → Option (List Char))
    (cs : List Char) : Option (List Char) :=
  if index = 0 then inner cs
  else match cs with
    | c :: rest => if c = sep then inner rest else none
    | [] => none

/-- `Parser::read_ipv4_addr`. -/
def readIpv4Addr (cs : List Char) : Option (List Char) := do
  let octet := readNumber 10 3 false 255
  let cs ← readSeparator '.' 0 octet cs
  let cs ← readSeparator '.' 1 octet cs
  let cs ← readSeparator '.' 2 octet cs
  readSeparator '.' 3 octet cs

/-- `read_groups`: the number of groups read, whether the last two came from
an embedded IPv4 address, and the rest.  The first argument counts the slots
left. -/
def readGroups : Nat → Nat → List Char → Nat × Bool × List Char
  | 0, i, cs => (i, false, cs)
  | r + 1, i, cs =>
      match (if 1 ≤ r then readSeparator ':' i readIpv4Addr cs else none) with
      | some rest => (i + 2, true, rest)
      | none =>
          match readSeparator ':' i (readNumber 16 4 true 0xFFFF) cs with
          | some rest => readGroups r (i + 1) rest
          | none => (i, false, cs)

/-- `Parser::read_ipv6_addr`. -/
def readIpv6Addr (cs : List Char) : Option (List Char) :=
  match readGroups 8 0 cs with
  | (8, _, rest) => some rest
  | (_, true, _) => none
  | (n, false, ':' :: ':' :: rest) => some (readGroups (8 - (n + 1)) 0 rest).2.2
  | _ => none

/-- `host.parse::<Ipv6Addr>().is_ok()`: the parse has to use up the text. -/
def isIpv6Literal (host : String) : Bool := readIpv6Addr host.toList == some []

/-! ### The validator -/

/-- A character no host may contain. -/
def isForbiddenHostChar (c : Char) : Bool :=
  isWhitespace c || isControl c || isFormatChar c || authorityChars.contains c

/-- `validate_target_host(host).is_ok()`, with the length bound
`MAX_TARGET_HOST_BYTES`. -/
def validateTargetHost (host : String) : Bool :=
  host.utf8ByteSize ≠ 0 && host.utf8ByteSize ≤ 253 &&
    !host.toList.any isForbiddenHostChar &&
    (!host.toList.contains ':' || isIpv6Literal host)

end Eggtunnel
