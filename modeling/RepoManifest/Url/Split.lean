import RepoManifest.Url.Host

/-!
# Taking URLs apart

A URL is taken apart into scheme, authority and path; queries, fragments and the parameters of the
last path segment are cut off. Blanks and control characters in front are ignored, and so are
tabulators and line breaks anywhere. Nothing is decoded.
-/

namespace RepoManifest

/-- The parts of a URL that say where something is. -/
structure Url where
  scheme : String
  authority : String
  path : String
  deriving DecidableEq, Repr, Inhabited

/-- Why a text is no URL. -/
inductive UrlFault where
  | brackets
  | host (fault : Url.HostFault)
  | lookalike (authority : String)
  deriving DecidableEq, Repr

/-- The wording of a fault. -/
def UrlFault.message : UrlFault → String
  | brackets => "Invalid IPv6 URL"
  | host fault => fault.message
  | lookalike authority =>
    "netloc '" ++ authority ++ "' contains invalid characters under NFKC normalization"

namespace Url

open Text

/-- Characters outside ASCII whose compatibility form holds one of `/ ? # @ :`. -/
def lookalikes : List Nat :=
  [0x2047, 0x2048, 0x2049, 0x2100, 0x2101, 0x2105, 0x2106, 0x2a74, 0xfe13, 0xfe16, 0xfe55, 0xfe56,
    0xfe5f, 0xfe6b, 0xff03, 0xff0f, 0xff1a, 0xff1f, 0xff20]

/-- A character that a scheme may hold after its first letter. -/
def isSchemeChar (c : Char) : Bool := c.isAlphanum || c == '+' || c == '-' || c == '.'

/-- The text without leading blanks and control characters, and without tabs and line breaks. -/
def cleaned (text : List Char) : List Char :=
  (text.dropWhile fun c ↦ c.toNat ≤ 0x20).filter fun c ↦ c != '\t' && c != '\r' && c != '\n'

/-- Cut off the scheme, in lower case. A text without a scheme has the empty one. -/
def cutScheme (text : List Char) : List Char × List Char :=
  match cutAt? [':'] text with
  | some (c :: scheme, rest) =>
    if c.isAlpha && scheme.all isSchemeChar then ((c :: scheme).map Char.toLower, rest)
    else ([], text)
  | _ => ([], text)

/-- Cut off the authority, which follows two slashes and ends before the path, the query or the
fragment. -/
def cutAuthority : List Char → List Char × List Char
  | '/' :: '/' :: rest =>
    let inside (c : Char) : Bool := c != '/' && c != '?' && c != '#'
    (rest.takeWhile inside, rest.dropWhile inside)
  | text => ([], text)

/-- Check the brackets of an authority that holds both kinds. What follows the last `@` is the host
and the port; a bracket may open only at its start, and only a port may follow where it closes. -/
def checkBracketed (authority : List Char) : Except UrlFault Unit :=
  let hostAndPort := (parts '@' authority).getLast?.getD []
  let check (host : List Char) : Except UrlFault Unit := (checkHost host).mapError .host
  match cutAt? ['['] hostAndPort with
  | some (before, bracketed) =>
    let (host, port) := (cutAt? [']'] bracketed).getD (bracketed, [])
    if !before.isEmpty || (!port.isEmpty && port.head? != some ':') then .error .brackets
    else check host
  | none => check (hostAndPort.takeWhile (· != ':'))

/-- Check the brackets of an authority: both kinds or none. -/
def checkBrackets (authority : List Char) : Except UrlFault Unit :=
  match authority.contains '[', authority.contains ']' with
  | true, true => checkBracketed authority
  | false, false => .ok ()
  | _, _ => .error .brackets

/-- The path in what follows the authority: query and fragment are cut off, and so are the
parameters of the last segment of a web address. -/
def cutPath (scheme rest : List Char) : List Char :=
  let path := (rest.takeWhile (· != '#')).takeWhile (· != '?')
  let web := ["", "http", "https"].contains (String.ofList scheme)
  let final := (path.reverse.takeWhile (· != '/')).reverse
  if web && final.contains ';' then
    path.take (path.length - final.length) ++ final.takeWhile (· != ';')
  else path

/-- Take a URL apart. -/
def split (text : String) : Except UrlFault Url := do
  let (scheme, rest) := cutScheme (cleaned text.toList)
  let (authority, rest) := cutAuthority rest
  checkBrackets authority
  if authority.any fun c ↦ lookalikes.contains c.toNat then
    throw (.lookalike (String.ofList authority))
  return ⟨String.ofList scheme, String.ofList authority, String.ofList (cutPath scheme rest)⟩

/-- The segments of the path that are not empty. -/
def segments (url : Url) : List (List Char) := nonEmptyParts '/' url.path.toList

end Url
end RepoManifest
