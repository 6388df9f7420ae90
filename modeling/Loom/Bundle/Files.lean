import Loom.Files
import Loom.Json.Writer
import Loom.Receipt
import Loom.Web.Fetch

/-!
# The Agent at Hand

The tools come with an agent: a program, what it is allowed, its modules, its tests and the
receipts that they are compared with. All of them are documents where the tools look for them.
-/

namespace Loom.Bundle

open Loom.Text

def fileText (doc : Value) : String :=
  Json.Style.prettyOpen.write doc ++ "\n"

def texts (ss : List String) : Value :=
  .list (ss.map .str)

def programText : String :=
  Json.Style.prettyOpen.write (.obj [("type", "Program"), ("name", "Loomweaver Mentor"),
    ("purposeAndIdentity", texts ["Teach others to write Loom modules.",
      "Speak in a patient, schema-obsessed but friendly tone."]),
    ("modules", .list []), ("version", "1.0"), ("astVersion", "2.1.0")])

def capabilitiesText : String :=
  "\x7b
  \"capabilities\": \x7b
    \"network:fetch\": \x7b
      \"domains\": [\"export.arxiv.org\"]
    \x7d
  \x7d
\x7d
"

/-! ### Steps -/

def variableExpr (name : String) : Value :=
  .obj [("name", name), ("type", "Identifier")]

def textExpr (s : String) : Value :=
  .obj [("type", "String"), ("value", s)]

def numberExpr (i : Int) : Value :=
  .obj [("type", "Number"), ("value", .int i)]

def binaryExpr (op : String) (left right : Value) : Value :=
  .obj [("left", left), ("op", op), ("right", right), ("type", "Binary")]

def stepOf (verb : String) (args : Fields Value) : Value :=
  .obj [("args", .obj args), ("verb", verb)]

def returning (e : Value) : Value :=
  stepOf "Return" [("expr", e)]

def choosing (condition yes no : Value) : Value :=
  stepOf "Choose" [("branches", .list [
    .obj [("steps", .list [returning yes]), ("when", condition)],
    .obj [("otherwise", true), ("steps", .list [returning no])]])]

def summarizing : List Value :=
  [stepOf "Call" [("from", "xml"), ("into", "title"), ("op", "xml.firstTitle")]]

def reporting : List Value :=
  [stepOf "Make" [("expr", binaryExpr "+" (textExpr "Found paper: ") (variableExpr "title")),
      ("name", "report")],
    stepOf "Show" [("expr", variableExpr "report")], returning (variableExpr "report")]

def feedAddress : String :=
  "fixture://agents/loomweaver/fixtures/arxiv_minimal.atom.xml"

def researching (verb : String) : List Value :=
  stepOf verb [("into", "xml"), ("intoBytes", "bytes"), ("intoStatus", "status"),
    ("url", feedAddress)] :: (summarizing ++ reporting)

/-! ### Modules -/

def isNobody : Value :=
  binaryExpr "==" (variableExpr "name") (textExpr "")

def isPass : Value :=
  binaryExpr ">=" (variableExpr "score") (numberExpr 90)

def outlined (name purpose input output : String) (examples criteria : List String)
    (flow : List Value) : Value :=
  .obj [("astVersion", "2.1.0"), ("examples", texts examples), ("flow", flow),
    ("inputs", texts [input]), ("name", name), ("outputs", texts [output]),
    ("purpose", purpose), ("successCriteria", texts criteria), ("type", "Module"),
    ("version", "1.0"), ("tests", .list [])]

def unadorned (name : String) (flow : List Value) : Value :=
  .obj [("flow", flow), ("name", name), ("type", "Module"),
    ("astVersion", "2.1.0"), ("version", "1.0"), ("purpose", ""),
    ("inputs", .list []), ("outputs", .list []), ("tests", .list []),
    ("successCriteria", .list []), ("examples", .list [])]

def modulesText : String :=
  fileText (.obj [("modules", .list [
    outlined "Greeting Module" "Generate a friendly greeting. Maintain warmth and clarity."
      "name (Text)" "message (Text)"
      ["Example dialogue: User: \"hi\" → Output: \"Hello, hi!\""]
      ["Always return a greeting string.", "Never fail silently."]
      [stepOf "Make" [("expr", variableExpr "name"), ("var", "message")],
        choosing isNobody (textExpr "anonymous user") (variableExpr "message")],
    outlined "Score Gate Module" "Evaluate a numeric score. Produce a simple pass/fail verdict."
      "score (Number)" "verdict (Text)" []
      ["Numeric comparison uses thresholds as written.",
        "Output is always one of: \"pass\", \"fail\"."]
      [choosing isPass (textExpr "pass") (textExpr "fail")],
    outlined "Echo Module" "Echo back a provided name. Stay minimal and deterministic."
      "name (Text)" "echo (Text)" [] []
      [stepOf "Make" [("expr", variableExpr "name"), ("var", "echo")],
        returning (variableExpr "echo")],
    unadorned "Summarize Title" (summarizing ++ [returning (variableExpr "title")]),
    unadorned "Report Result" reporting,
    unadorned "ArxivAgent E2E" (researching "Call")])])

/-! ### Stored receipts -/

def entryOf (verb event : String) (fields : Fields Value) : Value :=
  .obj ((Lineage.ofValue .null).mark ([("event", .str event), ("verb", .str verb)] ++ fields))

def made (name value : String) : Value :=
  entryOf "Make" "make" [("name", name), ("value", value)]

def shown (value : String) : Value :=
  entryOf "Show" "show" [("value", value)]

def returned (value : String) : Value :=
  entryOf "Return" "return" [("value", value)]

def titleFound : Value :=
  entryOf "Call" "parse" [("op", "xml.firstTitle")]

def tried (condition : Value) (holds : Bool) : Value :=
  entryOf "Choose" "choose" [
    ("predicateTrace", .list [.obj [("expr", condition), ("value", holds)]]),
    ("selected", if holds then .obj [("branch", .int 0), ("kind", "when")] else .null)]

def tookOther : Value :=
  entryOf "Choose" "choose" [("predicateTrace", .list []),
    ("selected", .obj [("branch", .int 1), ("kind", "otherwise")])]

def receiptText (env : Fields Value) (logs : List String) (steps : List Value) : String :=
  let receipt := { Receipt.empty with env := env, logs := logs.map .str, steps := steps }
  Json.Style.prettySortedOpen.write (receipt.toValue.setField "overlaysLoaded" (texts ["core"])) ++
    "\n"

def reported (text : String) : List Value :=
  [made "report" text, shown text, returned text]

def receiptTexts : List (String × String) :=
  let title := "Graph Neural Networks: A Tiny Fixture"
  let report (title : String) : String := "Found paper: " ++ title
  [("arxivagent-e2e__arxiv-e2e-chain.receipt.json", receiptText
      [("bytes", .int 471), ("query", "all:graph"), ("report", report title),
        ("status", .int 200), ("title", title), ("xml", Web.minimalFeed)]
      [report title]
      (entryOf "Call" "fetch" [("bytes", .int 471), ("status", .int 200),
        ("truncated", false), ("url", feedAddress)] :: titleFound ::
        reported (report title))),
    ("echo-module__test-5.receipt.json", receiptText [("echo", "Bob"), ("name", "Bob")]
      [] [made "echo" "Bob", returned "Bob"]),
    ("greeting-module__test-1.receipt.json", receiptText
      [("message", "Alice"), ("name", "Alice")] []
      [made "message" "Alice", tried isNobody false, returned "Alice", tookOther]),
    ("greeting-module__test-2.receipt.json", receiptText
      [("message", ""), ("name", "")] []
      [made "message" "", tried isNobody true, returned "anonymous user"]),
    ("report-result__report-result-formats.receipt.json", receiptText
      [("report", report "Graph Neural Nets"), ("title", "Graph Neural Nets")]
      [report "Graph Neural Nets"] (reported (report "Graph Neural Nets"))),
    ("score-gate-module__test-3.receipt.json", receiptText [("score", .int 95)] []
      [tried isPass true, returned "pass"]),
    ("score-gate-module__test-4.receipt.json", receiptText [("score", .int 42)] []
      [tried isPass false, returned "fail", tookOther]),
    ("summarize-title__summarize-title-parses.receipt.json", receiptText
      [("title", "Sample"), ("xml", "<entry><title>Sample</title></entry>")] []
      [titleFound, returned "Sample"])]

/-! ### Tests -/

def testOf (module input : String) (given : Value) (expect : String) : Value :=
  .obj [("expect", expect), ("inputs", .obj [(input, given)]), ("module", module)]

def ownTest (name module input given : String) (flow : List Value) (expected : String) : Value :=
  .obj [("expected", expected), ("inputs", .obj [(input, .str given)]),
    ("module", module), ("moduleAst", .obj [("flow", flow), ("name", module)]),
    ("name", name)]

def testsText : String :=
  fileText (.obj [("tests", .list [
    testOf "Greeting Module" "name" "Alice" "Alice",
    testOf "Greeting Module" "name" "" "anonymous user",
    testOf "Score Gate Module" "score" (.int 95) "pass",
    testOf "Score Gate Module" "score" (.int 42) "fail",
    testOf "Echo Module" "name" "Bob" "Bob",
    ownTest "summarize-title-parses" "Summarize Title" "xml"
      "<entry><title>Sample</title></entry>" (summarizing ++ [returning (variableExpr "title")])
      "Sample",
    ownTest "report-result-formats" "Report Result" "title" "Graph Neural Nets" reporting
      "Found paper: Graph Neural Nets",
    ownTest "arxiv-e2e-chain" "ArxivAgent E2E" "query" "all:graph" (researching "Fetch")
      "Found paper: Graph Neural Networks: A Tiny Fixture"])])

/-! ### Files -/

def agentFolder (home : String) : String :=
  home ++ "/agents/loomweaver"

def documents : List (String × String) :=
  [("loomweaver.program.json", programText), ("loomweaver.capabilities.json", capabilitiesText),
    ("loomweaver.modules.ast.json", modulesText), ("loomweaver.tests.json", testsText)] ++
    receiptTexts.map fun r => ("goldens/" ++ r.1, r.2)

def bundledFiles (home : String) : Files :=
  documents.foldl (fun fs d => fs.write (agentFolder home ++ "/" ++ d.1) d.2) .empty

end Loom.Bundle
