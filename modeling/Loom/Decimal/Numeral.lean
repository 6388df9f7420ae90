import Loom.Text.Slice

/-!
# Binary Fractions

A finite `Float` is `mantissa * 2 ^ exponent`, and that is how it is taken apart
and put together here: all arithmetic on the parts is exact arithmetic on
natural numbers, and a result becomes a `Float` in one rounding step.

The layout of the 64 bits makes the last step short. For a mantissa below
`2 ^ 53` the bit pattern is the mantissa plus `2 ^ 52` for each step of the
exponent above the least one, and this stays true when rounding carries the
mantissa to `2 ^ 53`.
-/

namespace Loom.Decimal

/-- A float taken apart. A finite one is `mantissa * 2 ^ exponent`. -/
inductive View where
  | nan
  | infinite (negative : Bool)
  | finite (negative : Bool) (mantissa : Nat) (exponent : Int)

def leastExponent : Int := -1074

def signBit : Nat := 0x8000000000000000

/-- The weight of the leading bit of a mantissa; the exponent is counted in it. -/
def leadingBit : Nat := 0x10000000000000

def view (x : Float) : View :=
  let bits := x.toBits.toNat
  let negative := bits ≥ signBit
  let biased : Nat := bits / leadingBit % 2048
  let fraction : Nat := bits % leadingBit
  if biased == 2047 then
    if fraction == 0 then .infinite negative else .nan
  else if biased == 0 then .finite negative fraction leastExponent
  else .finite negative (leadingBit + fraction) ((biased : Int) - 1075)

/-- `n / d` rounded to the nearest integer, a half going to the even one. -/
def divRound (n d : Nat) : Nat :=
  let q := n / d
  let r := n % d
  if 2 * r > d || (2 * r == d && q % 2 == 1) then q + 1 else q

/-- `num / den * 2 ^ (-e)` as a fraction. -/
def scaleDown (num den : Nat) (e : Int) : Nat × Nat :=
  if e ≥ 0 then (num, den * Nat.pow 2 e.toNat) else (num * Nat.pow 2 (-e).toNat, den)

/-- The largest `e` with `2 ^ e ≤ num / den`, for positive `num` and `den`. -/
def binaryOrder (num den : Nat) : Int :=
  let e := (num.log2 : Int) - den.log2
  let (n, d) := scaleDown num den e
  if n < d then e - 1 else e

/-- The float nearest to `num / den`, a half going to the even mantissa. `none`
    if that lies beyond the largest float. -/
def ofRatio? (negative : Bool) (num den : Nat) : Option Float :=
  let sign : Nat := if negative then signBit else 0
  if num == 0 then some (Float.ofBits (UInt64.ofNat sign))
  else
    let e := max (binaryOrder num den - 52) leastExponent
    let (n, d) := scaleDown num den e
    let bits := (e - leastExponent).toNat * leadingBit + divRound n d
    if bits ≥ 2047 * leadingBit then none
    else some (Float.ofBits (UInt64.ofNat (sign + bits)))

def infinity (negative : Bool) : Float :=
  Float.ofBits (UInt64.ofNat ((if negative then signBit else 0) + 2047 * leadingBit))

def nan : Float :=
  Float.ofBits (UInt64.ofNat (2047 * leadingBit + leadingBit / 2))

def ofInt? (i : Int) : Option Float :=
  ofRatio? (i < 0) i.natAbs 1

def truncate? (x : Float) : Option Int :=
  match view x with
  | .finite negative m e =>
    let n := if e ≥ 0 then m * Nat.pow 2 e.toNat else m / Nat.pow 2 (-e).toNat
    some (if negative then -n else n)
  | _ => none

/-- How an integer compares with a float, exactly; `none` for a float that is
    not a number. -/
def compareInt? (i : Int) (x : Float) : Option Ordering :=
  match view x with
  | .nan => none
  | .infinite negative => some (if negative then .gt else .lt)
  | .finite negative m e =>
    let signed : Int := if negative then -m else m
    if e ≥ 0 then some (compare i (signed * Nat.pow 2 e.toNat))
    else some (compare (i * Nat.pow 2 (-e).toNat) signed)

/-!
### Shortest Decimals

The decimal with the fewest digits that reads back as a given float, and of
those the one nearest to it.

A float stands for every real that rounds to it: an interval around
`mantissa * 2 ^ exponent`, with its ends included when the mantissa is even.
For one digit, two digits and so on, only the float's two neighbours on the
decimal grid of that many digits can be the first grid point inside the
interval, so two exact comparisons per digit count decide. Seventeen digits
always suffice.
-/

structure Digits where
  digits : Nat
  exponent : Int

/-- `n * 10 ^ e` as a fraction over `d`. -/
def scaleTen (n d : Nat) (e : Int) : Nat × Nat :=
  if e ≥ 0 then (n * Nat.pow 10 e.toNat, d) else (n, d * Nat.pow 10 (-e).toNat)

def countDigits (n : Nat) : Nat :=
  (Nat.toDigits 10 n).length

/-- The `p` with `10 ^ (p - 1) ≤ num / den < 10 ^ p`, for positive `num` and
    `den`. -/
def decimalOrder (num den : Nat) : Int :=
  if num ≥ den then countDigits (num / den)
  else
    -- the fraction is below one: the order counts the zeros after the point
    let zeros := ((List.range 400).find? fun j => num * Nat.pow 10 (j + 1) ≥ den).getD 400
    (0 : Int) - zeros

/-- The reals that round to `mantissa * 2 ^ exponent`, in units of a quarter of
    the mantissa's last place. -/
structure Interval where
  low : Nat
  middle : Nat
  high : Nat
  closed : Bool

def Interval.of (mantissa : Nat) (exponent : Int) : Interval where
  -- below a power of two the floats lie twice as close
  low := 4 * mantissa - (if mantissa == leadingBit && exponent > leastExponent then 1 else 2)
  middle := 4 * mantissa
  high := 4 * mantissa + 2
  closed := mantissa % 2 == 0

def Interval.holds (i : Interval) (n d : Nat) : Bool :=
  if i.closed then i.low * d ≤ n && n ≤ i.high * d else i.low * d < n && n < i.high * d

/-- The decimal of `count` digits inside the interval, if there is one, for a
    value of decimal order `p` with last place `2 ^ unit`. -/
def onGrid? (i : Interval) (unit : Int) (p : Int) (count : Nat) : Option Digits :=
  let e := p - count
  -- the grid point `c` is `c * 10 ^ e`; in units of the interval, `c * num / den`
  let (ten, one) := scaleTen 1 1 e
  let (num, den) := scaleDown ten one unit
  let below := i.middle * den / num
  let above := below + 1
  match i.holds (below * num) den, i.holds (above * num) den with
  | false, false => none
  | true, false => some ⟨below, e⟩
  | false, true => some ⟨above, e⟩
  | true, true =>
    let down := i.middle * den - below * num
    let up := above * num - i.middle * den
    some (if down < up || (down == up && below % 2 == 0) then ⟨below, e⟩ else ⟨above, e⟩)

def shortest (mantissa : Nat) (exponent : Int) : Digits :=
  let i := Interval.of mantissa exponent
  let unit := exponent - 2
  let (num, den) :=
    if exponent ≥ 0 then (mantissa * Nat.pow 2 exponent.toNat, 1)
    else (mantissa, Nat.pow 2 (-exponent).toNat)
  let p := decimalOrder num den
  ((List.range 17).findSome? fun n => onGrid? i unit p (n + 1)).getD ⟨mantissa, 0⟩

open Loom.Text

/-!
### Numerals

How numbers are written and read. A float is written with the fewest digits
that read back, positionally where its exponent allows and with an exponent
mark otherwise. An integer numeral may be signed, may use the digits of any
script, and may group digits with single underscores; reading refuses one of
more than `digitLimit` digits.
-/

structure Layout where
  /-- Exponents below this one are marked. -/
  least : Int
  /-- Exponents from this one on are marked. -/
  most : Int
  nan : String
  infinity : String

/-- Positional from `0.0001` up to below `10 ^ 16`. -/
def Layout.plain : Layout := ⟨-4, 16, "nan", "inf"⟩

def Layout.data : Layout := ⟨-4, 16, "NaN", "Infinity"⟩

/-- Trailing zeros moved into the exponent, at most `fuel` of them. -/
def Digits.trim : Nat → Digits → Digits
  | 0, d => d
  | fuel + 1, d =>
    if d.digits != 0 && d.digits % 10 == 0 then trim fuel ⟨d.digits / 10, d.exponent + 1⟩ else d

def zeroDigits (n : Nat) : List Char := List.replicate n '0'

/-- An exponent mark with a sign and at least two digits. -/
def exponentMark (e : Int) : List Char :=
  let ds := Nat.toDigits 10 e.natAbs
  ['e', if e < 0 then '-' else '+'] ++ zeroDigits (2 - ds.length) ++ ds

def Layout.showDigits (l : Layout) (d : Digits) : List Char :=
  let t := d.trim 20
  let ds := Nat.toDigits 10 t.digits
  -- the value is `0.ds * 10 ^ point`
  let point : Int := t.exponent + ds.length
  let e := point - 1
  if e < l.least || e ≥ l.most then
    match ds with
    | [] => []
    | [c] => c :: exponentMark e
    | c :: cs => c :: '.' :: cs ++ exponentMark e
  else if point ≤ 0 then ['0', '.'] ++ zeroDigits (-point).toNat ++ ds
  else if point ≥ ds.length then ds ++ zeroDigits (point.toNat - ds.length) ++ ['.', '0']
  else ds.take point.toNat ++ ['.'] ++ ds.drop point.toNat

def Layout.show (l : Layout) (x : Float) : String :=
  match view x with
  | .nan => l.nan
  | .infinite negative => (if negative then "-" else "") ++ l.infinity
  | .finite negative m e =>
    (if negative then "-" else "") ++
      if m == 0 then "0.0" else String.ofList (l.showDigits (shortest m e))

def showInt (i : Int) : String :=
  (if i < 0 then "-" else "") ++ Nat.repr i.natAbs

/-- Integer numerals of more digits are refused. -/
def digitLimit : Nat := 4300

/-- The digits of a numeral with single underscores between digits, `none` if it
    is empty or holds anything else. -/
def digitsOf? : List Char → Option (List Nat)
  | [] => none
  | [c] => (digitValue? c).map ([·])
  | c :: '_' :: cs => do
    let d ← digitValue? c
    let ds ← digitsOf? cs
    pure (d :: ds)
  | c :: cs => do
    let d ← digitValue? c
    let ds ← digitsOf? cs
    pure (d :: ds)

def ofDigits (ds : List Nat) : Nat :=
  ds.foldl (fun n d => 10 * n + d) 0

def signOf : List Char → Bool × List Char
  | '-' :: cs => (true, cs)
  | '+' :: cs => (false, cs)
  | cs => (false, cs)

/-- A blank that may stand around a numeral. The information separators divide
    text and are not passed over. -/
def isMargin (c : Char) : Bool :=
  isBlank c && !(28 ≤ c.toNat && c.toNat ≤ 31)

def numeralOf (s : String) : Bool × List Char :=
  signOf (stripChars isMargin s.toList)

def readInt? (s : String) : Option Int := do
  let (negative, cs) := numeralOf s
  let ds ← digitsOf? cs
  if ds.length > digitLimit then none
  else
    let n := ofDigits ds
    pure (if negative then -n else n)

/-- The float nearest to `digits * 10 ^ e`. Exponents far beyond the range of
    floats are settled by the size of the number alone. -/
def ofDecimal (negative : Bool) (digits : List Nat) (e : Int) : Float :=
  let ds := digits.dropWhile (· == 0)
  let order : Int := ds.length + e
  if ds.isEmpty || order < -330 then (ofRatio? negative 0 1).getD nan
  else if order > 320 then infinity negative
  else
    let (num, den) := scaleTen (ofDigits ds) 1 e
    (ofRatio? negative num den).getD (infinity negative)

def exponentOf? : List Char → Option Int
  | [] => some 0
  | c :: cs =>
    if c == 'e' || c == 'E' then do
      let (negative, rest) := signOf cs
      let ds ← digitsOf? rest
      let n := ofDigits ds
      pure (if negative then -n else n)
    else none

def partOf? (cs : List Char) : Option (List Nat) :=
  if cs.isEmpty then some [] else digitsOf? cs

/-- A float numeral: an optional sign, digits with an optional point and
    exponent, or the name of a special value in any case. Margins around it are
    allowed. -/
def readFloat? (s : String) : Option Float :=
  let (negative, cs) := numeralOf s
  let name := String.ofList (cs.map Char.toLower)
  if name == "inf" || name == "infinity" then some (infinity negative)
  else if name == "nan" then some nan
  else
    let isMark (c : Char) : Bool := c == 'e' || c == 'E'
    let (whole, rest) := (cs.takeWhile fun c => c != '.' && !isMark c,
      cs.dropWhile fun c => c != '.' && !isMark c)
    match rest with
    | '.' :: after => do
      let fraction := after.takeWhile (!isMark ·)
      let w ← partOf? whole
      let f ← partOf? fraction
      let e ← exponentOf? (after.dropWhile (!isMark ·))
      if w.isEmpty && f.isEmpty then none
      else pure (ofDecimal negative (w ++ f) (e - f.length))
    | _ => do
      let w ← digitsOf? whole
      let e ← exponentOf? rest
      pure (ofDecimal negative w e)

end Loom.Decimal
