import Loom.Text.Packed

/-!
# Ranges of Characters

A property of characters is kept as a list of closed ranges of code points, in
increasing order. Every property used here is decided by a plain rule on ASCII,
so the tables hold the characters above it only, and the common case never
walks a table.
-/

namespace Loom.Text

/-- The numbers in some digits of a row, the last digit first, when part of a number has been
    read. A digit holds three bits, and from eight on it has another digit follow. -/
def numbersFrom : (digits row part : Nat) → List Nat
  | 0, _, _ => []
  | n + 1, row, part =>
    let part := 8 * part + row % 16 % 8
    if row % 16 < 8 then part :: numbersFrom n (row / 16) 0 else numbersFrom n (row / 16) part

/-- The numbers in a row. Its first digit only keeps the others in their places. -/
def rowNumbers (row : Nat) : List Nat :=
  numbersFrom (row.log2 / 4) row 0

/-- The numbers that digits stand for, when part of a number has been read. A digit from 64 on has
    another one follow. -/
def numbersThrough (part : Nat) : List Nat → List Nat
  | [] => []
  | d :: ds =>
    if d < 64 then (64 * part + d) :: numbersThrough 0 ds else numbersThrough (24 * part + d - 64) ds

def textNumbers (digits : String) : List Nat :=
  numbersThrough 0 (digits.toList.filterMap Packed.digit?)

abbrev Ranges := List (Nat × Nat)

namespace Ranges

/-- Ranges by the steps from one end to the next: from the last range to the first
    character of a range, and from there to its last. -/
def ofSteps (last : Nat) : List Nat → Ranges
  | gap :: span :: rest => (last + gap, last + gap + span) :: ofSteps (last + gap + span) rest
  | _ => []

def ofRows (rows : List Nat) : Ranges :=
  ofSteps 0 (rows.flatMap rowNumbers)

def ofText (digits : String) : Ranges :=
  ofSteps 0 (textNumbers digits)

def holds (r : Ranges) (c : Char) : Bool :=
  r.any fun (lo, hi) => lo ≤ c.toNat && c.toNat ≤ hi

end Ranges

/-!
### Blank Characters

What counts as white space in an outline: the characters with a bidirectional
class or a category that marks them as separators, and the ASCII information
separators `U+001C` to `U+001F`.
-/

def blankRanges : Ranges :=
  [(0x85, 0x85), (0xA0, 0xA0), (0x1680, 0x1680), (0x2000, 0x200A), (0x2028, 0x2029),
    (0x202F, 0x202F), (0x205F, 0x205F), (0x3000, 0x3000)]

def isBlank (c : Char) : Bool :=
  if c.toNat < 128 then (9 ≤ c.toNat && c.toNat ≤ 13) || (28 ≤ c.toNat && c.toNat ≤ 32)
  else blankRanges.holds c

/-!
### Decimal Digits

Numerals may be written in any script that has decimal digits. Each script
places its ten digits in a row, so the table holds the zeros.
-/

/-- The zero of every script above ASCII. -/
def zeros : List Nat :=
  [0x660, 0x6F0, 0x7C0, 0x966, 0x9E6, 0xA66, 0xAE6, 0xB66, 0xBE6, 0xC66, 0xCE6, 0xD66, 0xDE6,
    0xE50, 0xED0, 0xF20, 0x1040, 0x1090, 0x17E0, 0x1810, 0x1946, 0x19D0, 0x1A80, 0x1A90, 0x1B50,
    0x1BB0, 0x1C40, 0x1C50, 0xA620, 0xA8D0, 0xA900, 0xA9D0, 0xA9F0, 0xAA50, 0xABF0, 0xFF10,
    0x104A0, 0x10D30, 0x11066, 0x110F0, 0x11136, 0x111D0, 0x112F0, 0x11450, 0x114D0, 0x11650,
    0x116C0, 0x11730, 0x118E0, 0x11950, 0x11C50, 0x11D50, 0x11DA0, 0x16A60, 0x16AC0, 0x16B50,
    0x1D7CE, 0x1D7D8, 0x1D7E2, 0x1D7EC, 0x1D7F6, 0x1E140, 0x1E2F0, 0x1E950, 0x1FBF0]

def digitValue? (c : Char) : Option Nat :=
  if c.toNat < 128 then
    if '0' ≤ c && c ≤ '9' then some (c.toNat - '0'.toNat) else none
  else
    (zeros.find? fun z => z ≤ c.toNat && c.toNat ≤ z + 9).map (c.toNat - ·)

def isDigit (c : Char) : Bool :=
  (digitValue? c).isSome

/-!
### Word Characters

Letters, numerals and the underscore. A word ends where a word character meets
any other one.
-/

def wordRanges : Ranges :=
  .ofRows [
    0x115196A2D6D352B0990D7035C25CA1929A22A923A2022207023312428A0200947939519F26B26A222140210902DA,
    0x15A31375792195190903A045E3F1D2A527A629090B0B04029055A6051292D790490B96B5B201A03690910A022C92,
    0x112625A31374902919510A03A044212625A222091A2319090230C121212625A31551903533952216901A04340262,
    0x151210C04421926A2227502619195130323B047926A22273A496A07A3942414120214322452049621952217B0442,
    0x101C331929024302912192027A2420210D1929659127D2A190C63020927A41A6522A51922601A030D222092A1219,
    0x13320F2693320263320C3320D33202633249D22D306025C719205949520914043557295A2D4E944B3C27593A0C,
    0x1395896021C34090B97197A1971940504C3E0A2249791A792A691A0929429961B20A33D994535A91A7943A79289,
    0x11897FA604125232D232D090930E4195B3C3B7E695B2D19472A6D6B9069197194D4E296A6C2971B53D49437C0D6B,
    0x11F20546332923202020744021930506C94972965314E962264955334622402624E36B202020273535C3535AC,
    0x12275A9543409092B26AF01A9626262626262626296A1A0097E306025C302914374CB5D9A5B7E995A7993F7AB9,
    0x17F36C93090D79936B1A6D5A3B449C35D48949ABD1897FEC918D690D191C69277B191C791E7B39345B922D6321B9,
    0x12034314021E4046A71957220B0D20B247295B6D094B2B6A395C2120451B195B1E793E395696A23222791B420216,
    0x12C3D92121202424921920645967C1D935DD58C8A0E56A593CEDA719692E975922D262629535355920929321B0,
    0x11A0E44B5EB12A0F594D592F93C593692122A21B2394C235353540B9491B71B09194A68A245E9391D5E37F3A2DD,
    0x156890921D251B7395A296EC4891262692292126269229593E197C53C53C71935BA3D42753C35B395C65B293C52B,
    0x160B1B62B35A395E1A473B271C7B26B0B09394B22230A6D33A57E7891B50C6122A1E09195C36B36A304123D203,
    0x1305190A3C2919090B1C4D6903125B3B4E596A5A3B7D1A4B3495A197C799171D26B7CC19591D092E692E0F0991A9,
    0x17D7B2619633A4E7BA45903A044212625A313749192A6D09192692320265A90B21A493A50229493797D59042C190,
    0x101A6C3778919790200A7A21273037592A95E93D2FA65396A2B7E19090692D7C194905A7D5C32D6D7CA19190215A,
    0x14D4A0A06FA2A7EC19090797B21257192906A5C21261E95B64B0A02A4C20909C0993A04A5D4906A0097C3905B02,
    0x12D96A91EA92A64A262195931A7D3A5B719269971926B090F892FE8A68992AFF6D8A0A0C9599D38B2A6D97C91BE9,
    0x109A0B5D93A789B919090944962D958CC39E1932A26D2CC2126230DB9A093D5ABA197EFB95B0211894938906299,
    0x12CF6B18CB1E3720B26B20B26B20B26B20B26B20B20B33AD2640242323B2627332089262023923313031268924A9,
    0x1202321920302122B2338B6924D59932222F0BC91950093891E09348B2692123267CBA1953D3A5B28D051936394D,
    0x135BB090F8891C7BBBA9788A194CBD4958990A242260A2192023232623302120202020203021222020205070,
    0x129D993CFA5B890C8E0ECE97918AB9]

def isWord (c : Char) : Bool :=
  if c.toNat < 128 then c.isAlphanum || c == '_' else wordRanges.holds c

end Loom.Text
