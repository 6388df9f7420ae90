import Loom.Expr.Token
import Loom.Json.Reader
import Loom.Value.Display
import Loom.Web.Url

/-!
# Errors

What can go wrong, by cause. Each error has one wording, `Error.message`, which
reports print.

The first group is faults of dynamic values: an operation met a value of a sort
it is not defined on. The others belong to one part of the language each.
-/

namespace Loom

open Loom.Text

inductive RunError where
  | missingName
  | booleanOperands (op : String)
  | signOperand (op : String)
  | unsupportedBinary (op : Value)
  | unsupportedUnary (op : Value)
  | rangeBounds
  | fetchDisallowed
  | unsupportedVerb (verb : String)
  | verification (complaints : List String)

/-- What is wrong with a pack of verbs, or with a step under it. -/
inductive OverlayError where
  | noCore (path : String)
  | noPack (name path : String)
  | unknownVerb (verb : Value)
  | notGranted (verb : Value) (missing : List String)
  | notCanonical (verb : Value)
  | badStage (verb stage : Value)

inductive Error where
  -- faults of dynamic values
  | noMember (owner member : String)
  | noField (name : String)
  | notIterable (k : Kind)
  | notContainer (k : Kind)
  | noLength (k : Kind)
  | notSubscriptable (k : Kind)
  | badIndex (k : Kind)
  | unhashable (k : Kind)
  | notCallable (k : Kind)
  | notMapping (k : Kind)
  | operands (op : String) (left right : Kind)
  | concat (left right : Kind)
  | repetition (k : Kind)
  | repetitionCount
  | repetitionLength (k : Kind)
  | outOfMemory
  | ordering (op : String) (left right : Kind)
  | divisionByZero
  | floatDivisionByZero
  | intTooLarge
  | quotientTooLarge
  | badInt (v : Value)
  | badFloat (v : Value)
  | notNumeric (target : String) (k : Kind)
  | nanToInt
  | infinityToInt
  | longNumeral (digits : Nat)
  | longInteger
  | badPair (index length : Nat)
  | pairKind (index : Nat)
  | notText (k : Kind)
  | notJoinable
  | badJoin (index : Nat) (k : Kind)
  | badUnpack (expected found : Nat)
  | notSerializable (k : Kind)
  -- expressions
  | expression (p : Expr.Problem)
  -- outlines
  | treeExpected
  | noAgentName
  | noAgentPurpose
  -- files
  | noFile (path : String)
  | longPath (path : String)
  | isFolder (path : String)
  | notFolder (path : String)
  | fileExists (path : String)
  | badPattern
  | json (failure : Json.Failure)
  | badMarkup
  | unknownCharset (name : String)
  /-- An encoding in which some characters take several bytes. -/
  | wideCharset
  | missing (path : String)
  | stepsExpected
  -- overlays
  | overlay (e : OverlayError)
  -- fetching
  | fetch (reason : String)
  | unknownUrl (url : String)
  | badUrl (p : Web.UrlProblem)
  | notFixture
  | fixtureMissing (path : String)
  -- guarded calls
  /-- There is nothing that makes guarded calls. -/
  | noGuard
  -- running
  | run (e : RunError)
  | typed (e : RunError)
  | tooDeep
  | noEngine
  | badInput (item : String)
  | noItem
  | tooManyArguments (given limit : Nat)
  | unknownSetting (name : String)

namespace Error

def escapeMessage (p : Expr.EscapeProblem) : String :=
  let n (k : Nat) := Decimal.showInt k
  if p.stop == p.first + 1 then
    "'unicodeescape' codec can't decode byte 0x5c in position " ++ n p.first ++ ": " ++ p.reason
  else
    "'unicodeescape' codec can't decode bytes in position " ++ n p.first ++ "-" ++
      n (p.stop - 1) ++ ": " ++ p.reason

def longNumeralMessage (digits : Nat) : String :=
  "Exceeds the limit (4300 digits) for integer string conversion: value has " ++
    Decimal.showInt digits ++ " digits; use sys.set_int_max_str_digits() to increase the limit"

def tooDeepMessage : String := "maximum recursion depth exceeded"

def expressionMessage : Expr.Problem → String
  | .badToken position near => "Bad token at " ++ Decimal.showInt position ++ ": " ++ quoted near
  | .longNumeral n => longNumeralMessage n
  | .badEscape p => escapeMessage p
  | .signExpected t => "Expected ('op',), got " ++ t.show
  | .unexpected t => "Unexpected token: " ++ t.show
  | .trailing => "Unexpected trailing tokens"
  | .tooDeep => tooDeepMessage

def runMessage : RunError → String
  | .missingName => "Make: missing 'name'"
  | .booleanOperands op => "Boolean " ++ quoted op ++ " requires boolean operands"
  | .signOperand op => "Unary " ++ quoted op ++ " requires number"
  | .unsupportedBinary op => "Unsupported binary op: " ++ op.display
  | .unsupportedUnary op => "Unsupported unary op: " ++ op.display
  | .rangeBounds => "Repeat range bounds must be numeric"
  | .fetchDisallowed => "network fetch disallowed under capability enforcement"
  | .unsupportedVerb verb => "Unsupported verb: " ++ verb
  | .verification complaints =>
    "Static verification failed:\n" ++ join "\n" (complaints.map ("- " ++ ·))

def overlayMessage : OverlayError → String
  | .noCore path => "Missing required core overlay: " ++ path
  | .noPack name path => "Requested overlay '" ++ name ++ "' not found at " ++ path
  | .unknownVerb verb => "Unknown verb (no overlay mapping): " ++ verb.display
  | .notGranted verb lacking =>
    "Capabilities required by '" ++ verb.display ++ "' not granted: " ++ join ", " lacking
  | .notCanonical verb => "Overlay mapped to non-canonical verb: " ++ verb.display
  | .badStage verb stage =>
    "Invalid pipeline stage in overlay for " ++ verb.display ++ ": " ++ stage.display

def jsonMessage : Json.Failure → String
  | .malformed p => p.message
  | .longNumeral n => longNumeralMessage n
  | .tooDeep what =>
    tooDeepMessage ++ " while decoding a JSON " ++ what ++ " from a unicode string"

def urlMessage : Web.UrlProblem → String
  | .unpaired => "Invalid IPv6 URL"
  | .laterVersion => "IPvFuture address is invalid"
  | .dotted => "An IPv4 address cannot be in brackets"
  | .noAddress host => quoted host ++ " does not appear to be an IPv4 or IPv6 address"
  | .separators authority =>
    "netloc '" ++ authority ++ "' contains invalid characters under NFKC normalization"

def message : Error → String
  | noMember owner member => quoted owner ++ " object has no attribute " ++ quoted member
  | noField name => quoted name
  | notIterable k => quoted k.name ++ " object is not iterable"
  | notContainer k => "argument of type " ++ quoted k.name ++ " is not iterable"
  | noLength k => "object of type " ++ quoted k.name ++ " has no len()"
  | notSubscriptable k => quoted k.name ++ " object is not subscriptable"
  | badIndex .str => "string indices must be integers, not 'str'"
  | badIndex k => k.name ++ " indices must be integers or slices, not str"
  | unhashable k => "unhashable type: " ++ quoted k.name
  | notMapping k => quoted k.name ++ " object is not a mapping"
  | notCallable k => quoted k.name ++ " object is not callable"
  | operands op l r =>
    "unsupported operand type(s) for " ++ op ++ ": " ++ quoted l.name ++ " and " ++ quoted r.name
  | concat l r =>
    if l == .bytes then "can't concat " ++ r.name ++ " to bytes"
    else "can only concatenate " ++ l.name ++ " (not \"" ++ r.name ++ "\") to " ++ l.name
  | repetition k => "can't multiply sequence by non-int of type " ++ quoted k.name
  | repetitionCount => "cannot fit 'int' into an index-sized integer"
  | repetitionLength .bytes => "repeated bytes are too long"
  | repetitionLength _ => "repeated string is too long"
  | outOfMemory => ""
  | ordering op l r =>
    quoted op ++ " not supported between instances of " ++ quoted l.name ++ " and " ++
      quoted r.name
  | divisionByZero => "division by zero"
  | floatDivisionByZero => "float division by zero"
  | intTooLarge => "int too large to convert to float"
  | quotientTooLarge => "integer division result too large for a float"
  | badInt v => "invalid literal for int() with base 10: " ++ v.inner
  | badFloat v => "could not convert string to float: " ++ v.inner
  | notNumeric target k =>
    if target == "int" then
      "int() argument must be a string, a bytes-like object or a real number, not " ++
        quoted k.name
    else "float() argument must be a string or a real number, not " ++ quoted k.name
  | nanToInt => "cannot convert float NaN to integer"
  | infinityToInt => "cannot convert float infinity to integer"
  | longNumeral n => longNumeralMessage n
  | longInteger =>
    "Exceeds the limit (4300 digits) for integer string conversion; " ++
      "use sys.set_int_max_str_digits() to increase the limit"
  | badPair i n =>
    "dictionary update sequence element #" ++ Decimal.showInt i ++ " has length " ++
      Decimal.showInt n ++ "; 2 is required"
  | pairKind i =>
    "cannot convert dictionary update sequence element #" ++ Decimal.showInt i ++
      " to a sequence"
  | notText k => "expected string or bytes-like object, got " ++ quoted k.name
  | notJoinable => "can only join an iterable"
  | badJoin i k =>
    "sequence item " ++ Decimal.showInt i ++ ": expected str instance, " ++ k.name ++ " found"
  | badUnpack expected found =>
    if found > expected then
      "too many values to unpack (expected " ++ Decimal.showInt expected ++ ")"
    else
      "not enough values to unpack (expected " ++ Decimal.showInt expected ++ ", got " ++
        Decimal.showInt found ++ ")"
  | notSerializable k => "Object of type " ++ k.name ++ " is not JSON serializable"
  | expression p => expressionMessage p
  | treeExpected => "build_ast expects the parser tree (dict)."
  | noAgentName => "Agent Name not found in outline."
  | noAgentPurpose => "Agent Purpose and Identity is empty or missing."
  | noFile path => "[Errno 2] No such file or directory: " ++ quoted path
  | longPath path => "[Errno 36] File name too long: " ++ quoted path
  | isFolder path => "[Errno 21] Is a directory: " ++ quoted path
  | notFolder path => "[Errno 20] Not a directory: " ++ quoted path
  | fileExists path => "[Errno 17] File exists: " ++ quoted path
  | badPattern => "Invalid pattern: '**' can only be an entire path component"
  | json f => jsonMessage f
  | badMarkup => "not well-formed"
  | unknownCharset name => "unknown encoding: " ++ name
  | wideCharset => "multi-byte encodings are not supported"
  | missing path => path
  | stepsExpected => "Input JSON must be a list of steps [\x7bverb, args\x7d]."
  | overlay e => overlayMessage e
  | fetch reason => reason
  | unknownUrl url => "unknown url type: " ++ quoted url
  | badUrl p => urlMessage p
  | notFixture => "fixture_fetcher can only handle fixture:// URLs"
  | fixtureMissing path => "fixture not found: " ++ path
  | noGuard =>
    "The 'zfc' backend is not installed. " ++
      "Install the optional dependency or configure the VM to use a different backend."
  | run e => runMessage e
  | typed e => runMessage e
  | tooDeep => tooDeepMessage
  | noEngine =>
    "VM engine not wired (or no known entrypoint found). Tried: " ++
      "src.compiler.run_loom_text_with_vm, src.vm.run_loom_text_with_vm, " ++
      "src.(compiler|vm|interpreter).run_module_from_file, " ++
      "python -m src.loom_cli (subprocess fallback). " ++
      "If you want overlay-only expansion, use: " ++
      "`python -m src.overlay_cli --in samples/overlay_sample.steps.json --pretty`."
  | badInput item => "--in expects key=value, got: " ++ quoted item
  | noItem => "list index out of range"
  | unknownSetting name => "unexpected setting " ++ quoted name
  | tooManyArguments given limit =>
    "main() takes from 0 to " ++ Decimal.showInt limit ++ " positional arguments but " ++
      Decimal.showInt given ++ " were given"

end Error

end Loom
