import RepoManifest.Number.Reading
import RepoManifest.Text.Cut
import RepoManifest.Text.Quoted

/-!
# Bracketed hosts

A host in square brackets has to be an address of version 6 of the Internet Protocol, with an
optional zone after a percent sign, or an address of a future version. What is no address at all and
what is an address of version 4 are refused with different causes.
-/

namespace RepoManifest.Url

open Text

/-- Why a host in brackets is refused. -/
inductive HostFault where
  | notAddress (host : String)
  | versionFour
  | future
  deriving DecidableEq, Repr

/-- The wording of a refusal. -/
def HostFault.message : HostFault → String
  | notAddress host => quote host ++ " does not appear to be an IPv4 or IPv6 address"
  | versionFour => "An IPv4 address cannot be in brackets"
  | future => "IPvFuture address is invalid"

/-- A hexadecimal digit of ASCII. -/
def isHexDigit (c : Char) : Bool :=
  c.isDigit || ('a' ≤ c && c ≤ 'f') || ('A' ≤ c && c ≤ 'F')

/-- A decimal number below 256 without leading zeros. -/
def isOctet (text : List Char) : Bool :=
  !text.isEmpty && text.all Char.isDigit && text.length ≤ 3 &&
    (text.length == 1 || text.head? != some '0') && decimalValue text ≤ 255

/-- Four octets between points. -/
def isVersionFour (text : List Char) : Bool :=
  let octets := parts '.' text
  octets.length == 4 && octets.all isOctet

/-- One to four hexadecimal digits. -/
def isGroup (text : List Char) : Bool :=
  !text.isEmpty && text.length ≤ 4 && text.all isHexDigit

/-- Eight groups between colons, of which one run of groups may be left out. `groups` are the parts
between the colons: an empty part in the middle stands for the missing run, and the outer parts may
be empty only next to it. -/
def areGroups (groups : List (List Char)) : Bool :=
  let size := groups.length
  let gaps := (List.range size).filter fun i ↦
    0 < i && i + 1 < size && (groups.getD i []).isEmpty
  match gaps with
  | [] => size == 8 && groups.all isGroup
  | [gap] =>
    let front := groups.take gap
    let back := groups.drop (gap + 1)
    let front := if front == [[]] then [] else front
    let back := if back == [[]] then [] else back
    front.length + back.length ≤ 7 && front.all isGroup && back.all isGroup
  | _ => false

/-- An address of version 6 without a zone. The last part may be an address of version 4, which
counts as two groups. -/
def isVersionSixBare (text : List Char) : Bool :=
  let groups := parts ':' text
  let last := groups.getLast?.getD []
  3 ≤ groups.length &&
    if last.contains '.' then
      isVersionFour last && groups.length + 1 ≤ 9 && areGroups (groups.dropLast ++ [['0'], ['0']])
    else groups.length ≤ 9 && areGroups groups

/-- An address of version 6. A zone is not empty and holds no percent sign. -/
def isVersionSix (text : List Char) : Bool :=
  match cutAt? ['%'] text with
  | some (address, zone) => !zone.isEmpty && !zone.contains '%' && isVersionSixBare address
  | none => isVersionSixBare text

/-- An address of a future version: `v`, hexadecimal digits, a point and at least one character. -/
def isFuture : List Char → Bool
  | 'v' :: rest =>
    let digits := rest.takeWhile isHexDigit
    match rest.dropWhile isHexDigit with
    | '.' :: address => !digits.isEmpty && !address.isEmpty && !address.contains '\n'
    | _ => false
  | _ => false

/-- Check a host in brackets. -/
def checkHost (host : List Char) : Except HostFault Unit :=
  if host.head? == some 'v' then
    if isFuture host then .ok () else .error .future
  else if isVersionFour host then .error .versionFour
  else if isVersionSix host then .ok ()
  else .error (.notAddress (String.ofList host))

end RepoManifest.Url
