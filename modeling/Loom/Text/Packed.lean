/-!
# Packed Text

A long text of few different characters is kept as the digits of one fraction, each digit a
sign that can be printed. The bits of the characters cut an interval that holds the fraction
shorter and shorter: a part of it belongs to `1`, the rest to `0`, and where the fraction lies
tells the bit. The parts are as large as what came after the same characters before makes
either bit likely, so a bit that was to be expected takes up little of a digit.

What came before can be looked at in several ways, and each of them speaks for one of the bits
more or less strongly. Their scores are added up with weights, and the ways that spoke for the
right bit get more weight the next time.
-/

namespace Loom.Text.Packed

def alphabet : Array Char :=
  " #-.0123456789;=@ABCDEFGHIJKLMNOPQRSTUVWXYZ_abcdefghij~".toList.toArray

/-- The value of a digit. Quotation marks, braces and the backslash are none. -/
def digit? (c : Char) : Option Nat :=
  "!#$%&()*+,-./0123456789:;<=>?@ABCDEFGHIJKLMNOPQRSTUVWXYZ[]^_abcdefghijklmnopqrstuvwxyz|~'`"
    |>.toList.idxOf? c

def base : Nat := 90

def shortest : Nat := base * base * base * base

/-- Reads digits until the interval is long enough. -/
def refill : List Nat → Nat → Nat → List Nat × Nat × Nat
  | [], range, offset => ([], range, offset)
  | d :: ds, range, offset =>
    if range < shortest then refill ds (range * base) (offset * base + d)
    else (d :: ds, range, offset)

def blend (a b : UInt64) : UInt64 :=
  (a + b) * 0x9E3779B97F4A7C15

/-- What has been read. The text is a list of names, and a small letter before a name tells how
    many words it shares with the one before. -/
structure Past where
  /-- The last characters, in base 64. -/
  recent : UInt64 := 0
  /-- A mark of the letters of the present word, zero at its start. -/
  word : UInt64 := 0
  /-- How many letters these are. -/
  length : Nat := 0
  /-- The marks of the words before it in its name. -/
  name : Array UInt64 := #[]
  /-- The marks of the words of the name before. -/
  nameBefore : Array UInt64 := #[]
  shared : Nat := 0

namespace Past

def place (p : Past) : Nat := p.shared * 16 + min p.name.size 15

/-- The ways to look at what has been read: the last none to eight characters, and the word so
    far with others of its name or of the name before. -/
def contexts (p : Past) : List UInt64 :=
  let last (count : UInt64) : UInt64 := p.recent &&& ((1 <<< (6 * count)) - 1)
  let above (i : Nat) : UInt64 := p.nameBefore.getD (p.name.size + i) 0
  let left (i : Nat) : UInt64 := p.name.getD (p.name.size - i) 0
  let (below, after) := (blend p.word (above 0), blend p.word (left 1))
  [0, last 1, last 3, last 5, p.word, after, below, blend p.word (p.name.getD 0 0),
    last 2 + 4096 * p.place.toUInt64, last 2, last 8, blend below (above 1), blend below (left 1),
    blend after (left 2)]

def add (c : Char) (value : UInt64) : Past → Past
  | ⟨recent, word, length, name, nameBefore, shared⟩ =>
    let recent := recent * 64 + value
    if c.isUpper || c.isDigit then
      ⟨recent, blend word (value + 1), length + 1, name, nameBefore, shared⟩
    else
      let name := if word == 0 then name else name.push word
      if c == ';' || c.isLower then
        let shared := if c == ';' then 0 else c.toNat - 'a'.toNat
        ⟨recent, 0, 0, name.take shared, name, shared⟩
      else ⟨recent, 0, 0, name, nameBefore, shared⟩

end Past

/-- A context of a bit: where its counts are kept, with a tag that tells whose they are, how
    often a `0`, 256 times over, and a `1` came after it, and how strongly it speaks for a `1`. -/
structure Slot where
  index : Nat
  tag : Nat
  seen : Nat
  score : Int

/-- How strongly a number of times speaks: the logarithm of ten times the number and one, in
    units of 1/256. -/
def strengths : Array Int :=
  #[0, 614, 779, 879, 951, 1007, 1052, 1091, 1125, 1155, 1181, 1206, 1228, 1248, 1267, 1284, 1301,
    1316, 1331, 1345, 1358]

namespace Slot

/-- Where the slots of a character begin, and their tag. -/
def spot (kind : Nat) (context : UInt64) : Nat × Nat :=
  let mark := blend (context * 16) kind.toUInt64
  ((mark >>> 40).toNat, ((mark >>> 32) &&& 255).toNat)

def find (counts : Array Nat) (known : Nat) : Nat × Nat → Slot
  | (start, tag) =>
    let held := counts.getD (start + known) 0
    let seen := if held / 65536 == tag then held % 65536 else 0
    ⟨start + known, tag, seen, strengths.getD (seen % 256) 0 - strengths.getD (seen / 256) 0⟩

/-- One more of a bit's kind. Most of the other kind is forgotten, unless there are few. -/
def oneMore (same other : Nat) : Nat × Nat :=
  (if same < 20 then same + 1 else same, if other > 2 then other / 3 + 1 else other)

def count (s : Slot) (bit : Bool) : Nat :=
  if bit then
    let (ones, zeros) := oneMore (s.seen % 256) (s.seen / 256)
    (s.tag * 256 + zeros) * 256 + ones
  else
    let (zeros, ones) := oneMore (s.seen / 256) (s.seen % 256)
    (s.tag * 256 + zeros) * 256 + ones

end Slot

/-- How likely a bit is whose scores come to -8, -7.5 and so on up to 8, in units of 1/65536. -/
def curve : Array Int :=
  #[22, 36, 60, 98, 162, 267, 439, 720, 1179, 1921, 3108, 4971, 7812, 11955, 17625, 24743, 32768,
    40793, 47911, 53581, 57724, 60565, 62428, 63615, 64357, 64816, 65097, 65269, 65374, 65438,
    65476, 65500, 65514]

/-- How likely a `1` is, given the sum of the scores. -/
def likely (sum : Int) : Int :=
  let x := (max (-2047) (min sum 2047) + 2048).toNat
  let (i, part) := (x / 128, x % 128)
  (curve.getD i 0 * (128 - part) + curve.getD (i + 1) 0 * part) / 128

def weigh (weights : Array Int) : List Slot → Nat → Int → Int
  | [], _, sum => sum
  | s :: slots, i, sum => weigh weights slots (i + 1) (sum + weights.getD i 0 * s.score / 65536)

/-- Weights for the scores that have turned out to be off. -/
def reweigh (off : Int) : List Slot → Nat → Array Int → Array Int
  | [], _, weights => weights
  | s :: slots, i, weights => reweigh off slots (i + 1) (weights.modify i (· + off * s.score / 11000))

structure Reader where
  counts : Array Nat
  weights : Array Int
  digits : List Nat
  range : Nat
  offset : Nat

namespace Reader

/-- Reads a bit of a character, given those before it. The scores are weighed twice, with
    weights for these bits at some place in the word and with weights for the place in the name. -/
def readBit (spots : List (Nat × Nat)) (length place known : Nat) : Reader → Bool × Reader
  | ⟨counts, weights, digits, range, offset⟩ =>
    let slots := spots.map (Slot.find counts known)
    let (atBits, atPlace) := ((64 * length + known) * 14, place * 14)
    let (sum, sum') := (weigh weights slots atBits 0, weigh weights slots atPlace 0)
    let share := range * (likely ((sum + sum') * 12 / 25)).toNat / 65536
    let bit := offset < share
    let found : Int := if bit then 65536 else 0
    let weights := reweigh (found - likely sum) slots atBits weights
    let weights := reweigh (found - likely sum') slots atPlace weights
    let counts := slots.foldl (fun cs s => cs.setIfInBounds s.index (s.count bit)) counts
    let (digits, range, offset) :=
      if bit then refill digits share offset else refill digits (range - share) (offset - share)
    (bit, ⟨counts, weights, digits, range, offset⟩)

/-- Reads the last bits of a character. A `1` before the bits keeps their number. -/
def readBits (spots : List (Nat × Nat)) (length place : Nat) : Nat → Nat → Reader → Nat × Reader
  | 0, known, r => (known, r)
  | n + 1, known, r =>
    let (bit, r) := r.readBit spots length place known
    readBits spots length place n (2 * known + if bit then 1 else 0) r

def readChars (past : Past) (found : List Char) : Nat → Reader → List Char
  | 0, _ => found
  | n + 1, r =>
    let place := 1024 + past.place * 2 + if past.word == 0 then 0 else 1
    let (known, r) := readBits (past.contexts.mapIdx Slot.spot) (min past.length 15) place 6 1 r
    let c := alphabet.getD (known - 64) ' '
    readChars (past.add c (known - 64).toUInt64) (c :: found) n r

end Reader

/-- The text of some characters that digits stand for. What is no digit is passed over. -/
def unpack (length : Nat) (packed : String) : String :=
  let (digits, range, offset) := refill (packed.toList.filterMap digit?) 1 0
  let reader : Reader :=
    ⟨Array.replicate 16777280 0, Array.replicate 20000 10000, digits, range, offset⟩
  String.ofList (reader.readChars {} [] length).reverse

end Loom.Text.Packed
