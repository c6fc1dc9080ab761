import Clipboard.Shape.Link
import Clipboard.Text.Case
import Clipboard.Text.Quoted

/-!
The host that a web address names. The part of the address between the two slashes and the path
may hold a user before an `@`, a host in brackets, and a number behind a colon.
-/

namespace Clipboard.Link

open Text

inductive HostFault
  /-- Brackets that do not enclose just the host. -/
  | brackets
  /-- A bracketed host of a future version that is malformed. -/
  | futureVersion
  /-- A bracketed host that is no address. -/
  | noAddress (host : List Char)
  /-- A bracketed address of the old version. -/
  | bracketedV4
  /-- A character that stands for others, one of which parts an address. -/
  | separator (authority : List Char)
  deriving DecidableEq, Repr

def HostFault.message : HostFault → String
  | brackets => "Invalid IPv6 URL"
  | futureVersion => "IPvFuture address is invalid"
  | noAddress host => .ofList (quoted host) ++ " does not appear to be an IPv4 or IPv6 address"
  | bracketedV4 => "An IPv4 address cannot be in brackets"
  | separator authority =>
    "netloc '" ++ .ofList authority ++ "' contains invalid characters under NFKC normalization"

/-! ## Numeric addresses -/

/-- A number from 0 to 255 without leading zeros. -/
def isOctet (cs : List Char) : Bool :=
  !cs.isEmpty && cs.all Char.isDigit && cs.length ≤ 3 && (cs == ['0'] || cs.head? != some '0')
    && cs.foldl (fun n c => 10 * n + (c.toNat - 48)) 0 ≤ 255

def isV4 (cs : List Char) : Bool :=
  let parts := pieces (· == '.') cs
  parts.length == 4 && parts.all isOctet

def isHexDigit (c : Char) : Bool :=
  c.isDigit || ('a' ≤ c && c ≤ 'f') || ('A' ≤ c && c ≤ 'F')

/-- One to four hexadecimal digits. -/
def isGroup (cs : List Char) : Bool := !cs.isEmpty && cs.length ≤ 4 && cs.all isHexDigit

/-- The groups between colons, a dotted address at the end counted as two. -/
def groups? (cs : List Char) : Option (List (List Char)) :=
  let parts := pieces (· == ':') cs
  match parts.getLast? with
  | some last =>
    if last.contains '.' then
      if isV4 last then some (parts.dropLast ++ [['0'], ['0']]) else none
    else some parts
  | none => none

/-- Groups on one side of a gap: none at all, which leaves one empty piece, or proper ones. -/
def isSide (parts : List (List Char)) : Bool := parts == [[]] || parts.all isGroup

/-- The number of groups on one side of a gap. -/
def sideLength (parts : List (List Char)) : Nat := if parts == [[]] then 0 else parts.length

/-- Eight groups, or fewer with one gap between two colons. -/
def isV6Groups (parts : List (List Char)) : Bool :=
  let inner := parts.tail.dropLast
  if inner.contains [] then
    let gap := 1 + inner.findIdx (·.isEmpty)
    let high := parts.take gap
    let low := parts.drop (gap + 1)
    inner.countP (·.isEmpty) == 1 && isSide high && isSide low
      && sideLength high + sideLength low < 8
  else parts.length == 8 && parts.all isGroup

/-- An address of the new version, perhaps with the name of a zone. -/
def isV6 (cs : List Char) : Bool :=
  let (address, zone) := cutAt '%' cs
  zone.all (fun z => !z.isEmpty && !z.contains '%')
    && 3 ≤ (pieces (· == ':') address).length
    && (groups? address).any fun parts => parts.length ≤ 9 && isV6Groups parts

/-! ## The parts of an address -/

/-- Characters that are taken out of an address. -/
def isSkipped (c : Char) : Bool := c == '\t' || c == '\r' || c == '\n'

/-- The address without the control characters in front and without line breaks and tabs. -/
def bare (cs : List Char) : List Char := (cs.dropWhile (·.toNat ≤ 32)).filter (!isSkipped ·)

def isSchemeChar (c : Char) : Bool := c.isAlphanum || c == '+' || c == '-' || c == '.'

/-- What follows the scheme and its colon; all of it if there is no proper scheme. -/
def afterScheme (cs : List Char) : List Char :=
  match cutAt ':' cs with
  | (c :: scheme, some rest) => if c.isAlpha && scheme.all isSchemeChar then rest else cs
  | _ => cs

/-- The part between the two slashes and the path, empty without the slashes. -/
def authority (cs : List Char) : List Char :=
  match afterScheme cs with
  | '/' :: '/' :: rest => rest.takeWhile fun c => c != '/' && c != '?' && c != '#'
  | _ => []

/-- The authority without the user in front. -/
def withoutUser (cs : List Char) : List Char :=
  (cs.reverse.takeWhile (· != '@')).reverse

/-- The host of an authority: what stands in brackets, or else before the first colon. -/
def hostIn (authority : List Char) : List Char :=
  let cs := withoutUser authority
  match (cutAt '[' cs).2 with
  | some inner => (cutAt ']' inner).1
  | none => (cutAt ':' cs).1

/-- A host of a future version: `v`, its number, a point and something more. -/
def isFutureHost (cs : List Char) : Bool :=
  match cutAt '.' (cs.drop 1) with
  | (version, some rest) => !version.isEmpty && version.all isHexDigit && !rest.isEmpty
  | _ => false

/-- What may stand in brackets. -/
def checkBracketed (host : List Char) : Except HostFault Unit :=
  if host.head? == some 'v' then if isFutureHost host then .ok () else .error .futureVersion
  else if isV4 host then .error .bracketedV4
  else if isV6 host then .ok ()
  else .error (.noAddress host)

/-- Brackets come in pairs and enclose an address, before which only a user may stand and after
which only a colon and what belongs to it. -/
def checkBrackets (authority : List Char) : Except HostFault Unit :=
  let isOpen := authority.contains '['
  let isClosed := authority.contains ']'
  if isOpen != isClosed then .error .brackets
  else if !isOpen then .ok ()
  else
    let cs := withoutUser authority
    match cutAt '[' cs with
    | (before, some inner) =>
      let behind := (cutAt ']' inner).2.getD []
      if !before.isEmpty || (behind.head?.any (· != ':')) then .error .brackets
      else checkBracketed (hostIn authority)
    | _ => checkBracketed (hostIn authority)

/-- Characters whose plain form has a character that parts addresses. -/
def foldedSeparators : List Nat := [
  0x2047, 0x2048, 0x2049, 0x2100, 0x2101, 0x2105, 0x2106, 0x2a74, 0xfe13, 0xfe16, 0xfe55, 0xfe56,
  0xfe5f, 0xfe6b, 0xff03, 0xff0f, 0xff1a, 0xff1f, 0xff20]

/-- The host in lower case, the name of a zone apart; an address may have none. -/
def host? (address : List Char) : Except HostFault (Option (List Char)) := do
  let a := authority (bare address)
  checkBrackets a
  if a.any (foldedSeparators.contains ·.toNat) then throw (.separator a)
  match hostIn a with
  | [] => return none
  | host =>
    let (name, zone) := cutAt '%' host
    return some (lower name ++ zone.elim [] ('%' :: ·))

def hasScheme (cs : List Char) : Bool := hasPart "://".toList cs

/-- A title for a text that is or holds an address: the host, or the text itself. -/
def title (text : List Char) : Except HostFault (List Char) := do
  let address := (first? text).getD (trim text)
  let host ← host? (if hasScheme address then address else "http://".toList ++ address)
  return host.getD (trim text)

end Clipboard.Link
