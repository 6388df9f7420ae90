import Loom.Value.Access

/-!
# Fixtures

Documents that stand in for the network. They are found by path; a path may
wander through its parent directories as long as it ends at a document.
-/

namespace Loom.Web

open Loom.Text

def recentFeed : String :=
  "<?xml version=\"1.0\" encoding=\"UTF-8\"?>
<feed xmlns=\"http://www.w3.org/2005/Atom\">
  <title>arXiv Recent</title>
  <entry>
    <title>Quantum Kittens and the Lattice of Meows</title>
    <id>http://arxiv.org/abs/0000.00001</id>
  </entry>
  <entry>
    <title>Graph Transformers for Small, Cute Data</title>
    <id>http://arxiv.org/abs/0000.00002</id>
  </entry>
</feed>
"

def minimalFeed : String :=
  "<?xml version=\"1.0\" encoding=\"UTF-8\"?>
<feed xmlns=\"http://www.w3.org/2005/Atom\">
  <title>arXiv Query Results</title>
  <updated>2025-01-01T00:00:00Z</updated>
  <entry>
    <id>http://arxiv.org/abs/1234.5678v1</id>
    <title>Graph Neural Networks: A Tiny Fixture</title>
    <updated>2025-01-01T00:00:00Z</updated>
    <summary>This is a minimal Atom entry used for deterministic CI tests.</summary>
    <author><name>Fixture Author</name></author>
  </entry>
</feed>
"

def fixtures : List (List String × String) :=
  [(["fixtures", "arxiv.atom.xml"], recentFeed),
    (["agents", "loomweaver", "fixtures", "arxiv_minimal.atom.xml"], minimalFeed)]

def followPath (done : List String) : List String → List String
  | [] => done
  | "" :: rest => followPath done rest
  | "." :: rest => followPath done rest
  | ".." :: rest => followPath done.tail rest
  | name :: rest => followPath (name :: done) rest

def fixture? (path : String) : Option (List UInt8) :=
  let names := (followPath [] (splitOn path "/")).reverse
  if startsWith path "/" then none
  else (fixtures.find? fun f => f.1 == names).map fun f => utf8 f.2

/-!
### Fetching

Getting a document under a limit on its size. The network is given as a table of
replies, so that a fetch is a function of it. A reply comes in pieces; reading
takes at most the limit and then looks for one more byte, to tell whether
anything was left out. A reply that reports a failure of the server is taken
whole.
-/

inductive Reply where
  | document (status : Int) (headers : List (String × String)) (pieces : List (List UInt8))
  | failure (reason : String)
  | refusal (code : Int) (headers : List (String × String)) (body : List UInt8)

abbrev Network := Fields Reply

def readPiece (n : Nat) : List (List UInt8) → List UInt8 × List (List UInt8)
  | [] => ([], [])
  | [] :: rest => readPiece n rest
  | piece :: rest => (piece.take n, piece.drop n :: rest)

def readingSize : Nat := 65536

/-- Read until the limit or the end: the bytes, whether any are left out, and
    what stays unread. The fuel bounds the readings. -/
def readLimitedFrom {σ : Type} (read : Nat → σ → List UInt8 × σ) :
    Nat → Int → List UInt8 → σ → List UInt8 × Bool × σ
  | 0, _, done, source => (done, false, source)
  | fuel + 1, limit, done, source =>
    let need := limit - done.length
    if need ≤ 0 then
      let (extra, rest) := read 1 source
      (done, !extra.isEmpty, rest)
    else
      match read (min readingSize need.toNat) source with
      | ([], rest) => (done, false, rest)
      | (part, rest) => readLimitedFrom read fuel limit (done ++ part) rest

/-- Every reading but the last takes a byte. -/
def readLimited (limit : Int) (pieces : List (List UInt8)) :
    List UInt8 × Bool × List (List UInt8) :=
  readLimitedFrom readPiece (pieces.flatten.length + 2) limit [] pieces

structure Document where
  url : String
  status : Int
  headers : Fields String
  body : List UInt8
  truncated : Bool
  contentType : String

def Document.toValue (d : Document) : Value :=
  .obj [("url", d.url), ("status", .int d.status),
    ("headers", .obj (d.headers.map fun h => (h.1, .str h.2))), ("body", .bytes d.body),
    ("truncated", d.truncated), ("content_type", d.contentType)]

def defaultLimit : Int := 256 * 1024

def agentName : String :=
  "Loom/0.2 (+https://github.com/Redmountain73/loomweaver)"

def requestHeaders (headers : Fields Value) : Fields Value :=
  let given := Fields.merge [("User-Agent", .str agentName)] headers
  given.foldl (fun acc h => acc.put (capitalize h.1) h.2) []

def bareAddress (url : String) : String :=
  let s := strip url
  let s :=
    if startsWith s "<" && endsWith s ">" then strip (String.ofList (s.toList.drop 1).dropLast)
    else s
  if startsWith s "URL:" then strip (dropChars 4 s) else s

/-- Whether an address starts with a scheme, the part after its last `#` left
    aside. -/
def hasScheme (address : String) : Bool :=
  let cs := address.toList
  let body :=
    if cs.contains '#' then ((cs.reverse.dropWhile (· != '#')).drop 1).reverse else cs
  let name := body.takeWhile fun c => c != '/' && c != ':'
  !name.isEmpty && (body.drop name.length).head? == some ':'

def lowerHeaders (headers : List (String × String)) : Fields String :=
  headers.foldl (fun acc h => acc.put (lower h.1) h.2) []

def firstHeader? (headers : List (String × String)) (name : String) : Option String :=
  (headers.find? fun h => lower h.1 == lower name).map Prod.snd

/-- Headers with names in small letters; of two with one name the first counts. -/
def firstHeaders (headers : List (String × String)) : Fields String :=
  headers.foldl (fun acc h => acc.putNew (lower h.1) h.2) []

/-- The address under which the network is asked. It needs a scheme and a host
    that is well-formed. -/
def requestAddress (url : String) : Except Error String :=
  let address := bareAddress url
  if !hasScheme address then .error (.unknownUrl address)
  else
    match Url.parse address with
    | .ok _ => .ok address
    | .error p => .error (.badUrl p)

def fetchHttp (network : Network) (url : String) (limit : Int) : Except Error Document := do
  match network.get? (← requestAddress url) with
  | none => throw (.fetch "no stub")
  | some (.failure reason) => throw (.fetch reason)
  | some (.document status headers pieces) =>
    let hs := lowerHeaders headers
    let (body, truncated, _) := readLimited limit pieces
    pure ⟨url, status, hs, body, truncated, hs.getD "content-type" ""⟩
  | some (.refusal code headers body) =>
    pure ⟨url, code, firstHeaders headers, body, false,
      (firstHeader? headers "Content-Type").getD ""⟩

def fixtureMark : String := "fixture://"

/-- The first `limit` bytes; a limit below zero counts from the end. -/
def takeLimit (limit : Int) (bs : List UInt8) : List UInt8 :=
  if limit ≥ 0 then bs.take limit.toNat else bs.take (bs.length - limit.natAbs)

def fetchFixture (url : String) (limit : Int) : Except Error Document :=
  if !startsWith url fixtureMark then .error .notFixture
  else
    let path := dropChars fixtureMark.length url
    match fixture? path with
    | none => .error (.fixtureMissing path)
    | some bytes =>
      let body := takeLimit limit bytes
      .ok ⟨url, 200, [("content-type", "application/atom+xml")], body,
        bytes.length > body.length, "application/atom+xml"⟩

end Loom.Web
