import Loom.Fields
import Loom.Text.Pattern
import Loom.Text.Slice

/-!
# Command Lines

The words of a command line are options, which begin with a hyphen, and the
arguments that fill slots. An option may be cut short as long as it is clear which
one is meant, and its value is the next word or follows an equals sign. After two
hyphens alone every word is an argument.

Slots are filled whenever arguments are met between options, as many slots as the
arguments at hand can fill. A slot that needs no argument counts as filled even if
there is none left for it, so its arguments cannot be scattered among options.
-/

namespace Loom.Command

open Loom.Text Loom.Text.Pattern

inductive Effect where
  | flag
  /-- It has a value, the last one given. -/
  | value
  /-- It has all the values given. -/
  | values
  | help
  deriving DecidableEq

structure Choice where
  name : String
  effect : Effect
  required : Bool := false
  label : String := ""
  about : String := ""

namespace Choice

def flag (name about : String) : Choice :=
  { name, effect := .flag, about }

def value (name label about : String) : Choice :=
  { name, effect := .value, label, about }

def values (name label about : String) : Choice :=
  { name, effect := .values, label, about }

def needed (c : Choice) : Choice :=
  { c with required := true }

end Choice

inductive Filling where
  | one
  | atMostOne
  | many
  | remainder
  deriving DecidableEq

structure Slot where
  name : String
  filling : Filling
  label : String
  about : String

structure Usage where
  choices : List Choice
  slots : List Slot := []
  /-- The name of the command, empty if it goes by the name it was started under. -/
  program : String := ""
  about : String := ""
  /-- The verbs that the first argument can be, and what they do. -/
  verbs : List (String × String) := []

inductive Refusal where
  | misuse
  | helpAsked (u : Usage)

/-- What a command line gave: the options that were given, with their values, and
    the words in each slot. -/
structure Arguments where
  given : List (String × Option String) := []
  filled : Fields (List String) := []
  extra : List String := []

namespace Arguments

def has (a : Arguments) (name : String) : Bool :=
  a.given.any fun g => g.1 == name

def values (a : Arguments) (name : String) : List String :=
  a.given.filterMap fun g => if g.1 == name then g.2 else none

def value? (a : Arguments) (name : String) : Option String :=
  (a.values name).getLast?

def words (a : Arguments) (slot : String) : List String :=
  a.filled.getD slot []

def word? (a : Arguments) (slot : String) : Option String :=
  (a.words slot).head?

end Arguments

namespace Usage

def helpChoices : List Choice :=
  [{ name := "-h", effect := .help }, { name := "--help", effect := .help }]

def allChoices (u : Usage) : List Choice :=
  helpChoices ++ u.choices

def choice? (u : Usage) (name : String) : Option Choice :=
  u.allChoices.find? fun c => c.name == name

inductive Role where
  | argument
  | divider
  /-- An option, with the value written into the same word. -/
  | option (choice : Choice) (value : Option String)
  | unknown

def Role.isOption : Role → Bool
  | option .. => true
  | unknown => true
  | _ => false

def Role.letter : Role → Char
  | argument => 'A'
  | divider => '-'
  | _ => 'O'

/-- A number below zero, which is no option. -/
def negativeNumber : Pattern :=
  text "-" ++ oneOf [many1 isDigit, many isDigit ++ text "." ++ many1 isDigit] ++ finish

def candidates (u : Usage) (word : String) : List (Choice × Option String) :=
  if startsWith word "--" then
    let (beginning, value) := partition word "="
    (u.allChoices.filter fun c => startsWith c.name beginning).map fun c => (c, value)
  else
    u.allChoices.filterMap fun c =>
      if c.name == takeChars 2 word then some (c, some (dropChars 2 word))
      else if startsWith c.name word then some (c, none)
      else none

def optionRole (u : Usage) (word : String) : Except Refusal Role :=
  match u.candidates word with
  | [(c, value)] => .ok (.option c value)
  | _ :: _ :: _ => .error .misuse
  | [] => .ok (if negativeNumber.fits word || word.contains ' ' then .argument else .unknown)

def role (u : Usage) (word : String) : Except Refusal Role :=
  if !startsWith word "-" then .ok .argument
  else
    match u.choice? word with
    | some c => .ok (.option c none)
    | none =>
      if word.length == 1 then .ok .argument
      else
        match partition word "=" with
        | (name, some value) =>
          match u.choice? name with
          | some c =>
            -- what follows a letter may be more letters, unless a sign sets it apart
            .ok (.option c (some (if startsWith name "--" then value else "=" ++ value)))
          | none => u.optionRole word
        | (_, none) => u.optionRole word

/-- The roles of words. After the divider every word is an argument. -/
def roles (u : Usage) : List String → Except Refusal (List (String × Role))
  | [] => .ok []
  | "--" :: rest => .ok (("--", .divider) :: rest.map fun w => (w, .argument))
  | word :: rest => do
    let r ← u.role word
    pure ((word, r) :: (← u.roles rest))

/-- The words that a slot takes, as a pattern over the letters of their roles. -/
def Filling.pattern : Filling → Pattern
  | .one => many (· == '-') ++ chr 'A' ++ many (· == '-')
  | .atMostOne => many (· == '-') ++ optional (chr 'A') ++ many (· == '-')
  | .many => many (· == '-') ++ many fun c => c == 'A' || c == '-'
  | .remainder => many (· == '-') ++ chr 'A' ++ many fun _ => true

/-- How many words each of the slots takes, as many slots as can be filled. -/
def shares (letters : String) : List Slot → List Nat
  | [] => []
  | s :: rest =>
    let all := s :: rest
    let pattern := all.foldr (fun slot p => named slot.name (Filling.pattern slot.filling) ++ p)
      .nothing
    match pattern.match? letters with
    | some m => all.map fun slot => (m.group slot.name).length
    | none => shares letters (s :: rest).dropLast
termination_by slots => slots.length

/-- The words of a slot. A divider among them is no argument. -/
def slotWords (s : Slot) (words : List String) : List String :=
  if s.filling == .remainder then words else words.erase "--"

structure State where
  rest : List (String × Role)
  slots : List Slot
  arguments : Arguments

def fill (st : State) : State :=
  let letters := String.ofList (st.rest.map fun w => w.2.letter)
  (shares letters st.slots).foldl (fun st n =>
    match st.slots with
    | [] => st
    | s :: slots =>
      let words := (st.rest.take n).map Prod.fst
      { rest := st.rest.drop n, slots,
        arguments := { st.arguments with
          filled := st.arguments.filled.put s.name (slotWords s words) } }) st

/-- Carry out an option that the next words follow. -/
def take (u : Usage) (c : Choice) (value : Option String) (rest : List (String × Role))
    (a : Arguments) : Except Refusal (List (String × Role) × Arguments) :=
  match c.effect, value with
  | .help, none => .error (.helpAsked u)
  | .help, some v =>
    if startsWith c.name "--" || v.isEmpty || startsWith v "-" || startsWith v "=" then
      .error .misuse
    else .error (.helpAsked u)
  | .flag, none => .ok (rest, { a with given := a.given ++ [(c.name, none)] })
  | .flag, some _ => .error .misuse
  | _, some v => .ok (rest, { a with given := a.given ++ [(c.name, some v)] })
  | _, none =>
    match rest with
    | (word, .argument) :: rest => .ok (rest, { a with given := a.given ++ [(c.name, some word)] })
    | _ => .error .misuse

/-- Read on, option after option. `fuel` bounds the number of rounds, of which each
    takes a word. -/
def readOn (u : Usage) : Nat → State → Except Refusal State
  | 0, st => .ok st
  | fuel + 1, st =>
    if !st.rest.any fun w => w.2.isOption then
      let st := fill st
      .ok { st with rest := [], arguments :=
        { st.arguments with extra := st.arguments.extra ++ st.rest.map Prod.fst } }
    else
      match st.rest with
      | [] => .ok st
      | (_, .option c value) :: rest => do
        let (rest, a) ← take u c value rest st.arguments
        readOn u fuel { st with rest, arguments := a }
      | (word, .unknown) :: rest =>
        readOn u fuel { st with rest, arguments :=
          { st.arguments with extra := st.arguments.extra ++ [word] } }
      | _ =>
        let next := fill st
        if next.rest.length < st.rest.length then readOn u fuel next
        else
          let skipped := (st.rest.takeWhile fun w => !w.2.isOption).map Prod.fst
          readOn u fuel { next with
            rest := st.rest.dropWhile fun w => !w.2.isOption
            arguments := { next.arguments with extra := next.arguments.extra ++ skipped } }

def readKnown (u : Usage) (words : List String) : Except Refusal Arguments := do
  let roles ← u.roles words
  let st ← u.readOn (2 * words.length + 1) ⟨roles, u.slots, {}⟩
  let lacking := u.choices.any fun c => c.required && !st.arguments.has c.name
  if lacking || st.slots.any (fun s => s.filling == .one || s.filling == .remainder) then
    throw .misuse
  pure st.arguments

def read (u : Usage) (words : List String) : Except Refusal Arguments := do
  let a ← u.readKnown words
  if a.extra.isEmpty then pure a else throw .misuse

end Usage

open Loom.Text

/-!
### How a Command Is Used

The text that tells how a command is used: its options and arguments in short, what
it does, and a list of the arguments and options with what they are for. Lines are
filled up to a width. What an argument is for stands in a column of its own, or
below the argument if that is too wide.
-/

def lineWidth : Nat := 78

def columnLimit : Nat := 24

def margin (n : Nat) : String :=
  repeated " " n

/-- Fill lines with words, as many as fit in the room. A line has at least one word. -/
def fillLines (room : Nat) (line : String) : List String → List String
  | [] => [line]
  | word :: rest =>
    if line.length + 1 + word.length ≤ room then fillLines room (line ++ " " ++ word) rest
    else line :: fillLines room word rest

def wrapped (room : Nat) : List String → List String
  | [] => []
  | word :: rest => fillLines room word rest

def Choice.written (c : Choice) : String :=
  if c.label.isEmpty then c.name else c.name ++ " " ++ c.label

/-- The words of an option in short. An option that may be left out stands in
    brackets, which keep it together. -/
def Choice.short (c : Choice) : List String :=
  if c.required then if c.label.isEmpty then [c.name] else [c.name, c.label]
  else ["[" ++ c.written ++ "]"]

def Slot.short (s : Slot) : List String :=
  match s.filling with
  | .one => [s.label]
  | .atMostOne => ["[" ++ s.label ++ "]"]
  | .many => ["[" ++ s.label ++ " ...]"]
  | .remainder => [s.label, "..."]

/-- A line of a list: how far it is set in, what it is about, and what that is for. -/
structure Entry where
  depth : Nat
  head : String
  about : String

def Entry.text (column : Nat) (e : Entry) : String :=
  let room := column - e.depth - 2
  let start := margin e.depth ++ e.head
  match wrapped (lineWidth - column) (fields e.about) with
  | [] => start ++ "\n"
  | first :: rest =>
    let lines := (first :: rest).map (· ++ "\n")
    if e.head.length ≤ room then
      start ++ margin (room - e.head.length + 2) ++ join (margin column) lines
    else start ++ "\n" ++ margin column ++ join (margin column) lines

namespace Usage

def shortChoices (u : Usage) : List String :=
  "[-h]" :: u.choices.flatMap Choice.short

def shortSlots (u : Usage) : List String :=
  u.slots.flatMap Slot.short

/-- The options and arguments in short. If they need several lines, the arguments
    begin a line. -/
def summary (u : Usage) (program : String) : String :=
  let start := "usage: " ++ program
  let whole := join " " (start :: (u.shortChoices ++ u.shortSlots))
  if whole.length ≤ lineWidth then whole
  else
    let indent := start.length + 1
    let below := "\n" ++ margin indent
    let options := wrapped (lineWidth - indent) u.shortChoices
    let arguments := wrapped (lineWidth - indent) u.shortSlots
    start ++ " " ++ join below (options ++ arguments)

/-- The arguments. The verbs of a command are listed below its first argument. -/
def slotEntries (u : Usage) : List Entry :=
  u.slots.map (fun s => ⟨2, s.label, s.about⟩) ++ u.verbs.map fun v => ⟨4, v.1, v.2⟩

def choiceEntries (u : Usage) : List Entry :=
  ⟨2, "-h, --help", "show this help message and exit"⟩ ::
    u.choices.map fun c => ⟨2, c.written, c.about⟩

def column (u : Usage) : Nat :=
  let widest := (u.slotEntries ++ u.choiceEntries).foldl (fun n e => max n e.head.length) 0
  min (widest + 4) columnLimit

def listed (u : Usage) (title : String) (entries : List Entry) : List String :=
  if entries.isEmpty then []
  else [title ++ ":\n" ++ join "" (entries.map (Entry.text u.column))]

def help (u : Usage) (program : String) : String :=
  join "\n" ([u.summary program ++ "\n"] ++
    (if u.about.isEmpty then [] else [join "\n" (wrapped lineWidth (fields u.about)) ++ "\n"]) ++
    u.listed "positional arguments" u.slotEntries ++ u.listed "options" u.choiceEntries)

end Usage

end Loom.Command
