import Loom.Text.Letter
import Loom.Text.Slice

/-!
# Addresses

The parts of an address that decide whether it may be fetched: its scheme and
its domain. Control characters and blanks before an address, and line ends and
tabs in it, do not count. A host in brackets has to be an address of the
sixth version of the protocol or of a later one.
-/

namespace Loom.Web

open Loom.Text

structure Url where
  scheme : String
  /-- What stands between `//` and the path: host, user and port. -/
  authority : String

inductive UrlProblem where
  | unpaired
  /-- An address of a later version of the protocol is not written as one. -/
  | laterVersion
  /-- The brackets hold an address of the fourth version. -/
  | dotted
  | noAddress (host : String)
  /-- A character stands for a separator in another form. -/
  | separators (authority : String)

def isSchemeChar (c : Char) : Bool :=
  c.isAlphanum || c == '+' || c == '-' || c == '.'

/-- The scheme in small letters and the rest after its colon. -/
def splitScheme (cs : List Char) : List Char × List Char :=
  let name := cs.takeWhile (· != ':')
  match cs.drop name.length, name with
  | ':' :: rest, c :: _ =>
    if c.isAlpha && name.all isSchemeChar then (name.map Char.toLower, rest) else ([], cs)
  | _, _ => ([], cs)

def isHexChar (c : Char) : Bool :=
  c.isDigit || ('a' ≤ c && c ≤ 'f') || ('A' ≤ c && c ≤ 'F')

/-- A group of an address: one to four hexadecimal digits. -/
def isGroup (s : String) : Bool :=
  1 ≤ s.length && s.length ≤ 4 && s.toList.all isHexChar

/-- A decimal part of a dotted address, without leading zeros. -/
def isOctet (s : String) : Bool :=
  1 ≤ s.length && s.length ≤ 3 && s.toList.all Char.isDigit &&
    (s == "0" || !startsWith s "0") && (s.toNat?.getD 256) ≤ 255

def isDotted (s : String) : Bool :=
  let parts := splitOn s "."
  parts.length == 4 && parts.all isOctet

/-- Whether colon-separated groups make a whole address: eight of them, or fewer
    with one gap for the missing ones. -/
def areGroups (parts : List String) : Bool :=
  let inner := (parts.drop 1).dropLast
  let gaps := inner.countP String.isEmpty
  let first := parts.head?.getD ""
  let last := parts.getLast?.getD ""
  if parts.length < 3 || parts.length > 9 || gaps > 1 then false
  else if gaps == 1 then
    -- an empty group at an end stands only next to the gap
    let gap := (parts.drop 1).findIdx String.isEmpty + 1
    let before := parts.take gap
    let after := parts.drop (gap + 1)
    let headOk := !first.isEmpty || before.length == 1
    let tailOk := !last.isEmpty || after.length == 1
    let given := (before ++ after).filter (!·.isEmpty)
    headOk && tailOk && given.length ≤ 7 && given.all isGroup
  else parts.length == 8 && parts.all isGroup

/-- Whether a text is an address of the sixth version. Its last two groups may
    be dotted, and a zone may follow a percent sign. -/
def isAddress6 (s : String) : Bool :=
  let (address, zone) := partition s "%"
  let zoneOk := match zone with
    | some z => !z.isEmpty && !z.toList.contains '%'
    | none => true
  let parts := splitOn address ":"
  let last := parts.getLast?.getD ""
  let parts' :=
    if last.toList.contains '.' then
      if isDotted last then parts.dropLast ++ ["0", "0"] else []
    else parts
  zoneOk && !s.toList.contains '/' && parts.length ≥ 3 && areGroups parts'

/-- `v1.host`: an address of a later version. -/
def isFutureAddress (s : String) : Bool :=
  match s.toList with
  | 'v' :: rest =>
    let version := rest.takeWhile isHexChar
    match rest.drop version.length with
    | '.' :: host => !version.isEmpty && !host.isEmpty && !host.contains '\n'
    | _ => false
  | _ => false

def separatorForms : List Nat :=
  [0x2047, 0x2048, 0x2049, 0x2100, 0x2101, 0x2105, 0x2106, 0x2A74, 0xFE13, 0xFE16, 0xFE55, 0xFE56,
    0xFE5F, 0xFE6B, 0xFF03, 0xFF0F, 0xFF1A, 0xFF1F, 0xFF20]

def hostProblem? (host : String) : Option UrlProblem :=
  if startsWith host "v" then if isFutureAddress host then none else some .laterVersion
  else if isAddress6 host then none
  else if isDotted host then some .dotted
  else some (.noAddress host)

/-- What is wrong with an authority. Brackets come before the other characters. -/
def authorityProblem? (authority : String) : Option UrlProblem :=
  let opening := authority.toList.contains '['
  let closing := authority.toList.contains ']'
  let brackets :=
    if opening && closing then
      hostProblem? (partition ((partition authority "[").2.getD "") "]").1
    else if opening || closing then some .unpaired
    else none
  brackets <|>
    if authority.toList.any (separatorForms.contains ·.toNat) then some (.separators authority)
    else none

namespace Url

def parse (url : String) : Except UrlProblem Url :=
  let cs := (url.toList.dropWhile fun c => c.toNat ≤ 32).filter fun c =>
    c != '\t' && c != '\r' && c != '\n'
  let (scheme, rest) := splitScheme cs
  let authority := match rest with
    | '/' :: '/' :: more =>
      String.ofList (more.takeWhile fun c => c != '/' && c != '?' && c != '#')
    | _ => ""
  match authorityProblem? authority with
  | none => .ok ⟨String.ofList scheme, authority⟩
  | some p => .error p

def isHttp (u : Url) : Bool :=
  u.scheme == "http" || u.scheme == "https"

def domain (u : Url) : String :=
  let host := ((splitOn u.authority "@").getLast?).getD ""
  lower ((splitOn host ":").head?.getD "")

end Url

end Loom.Web
