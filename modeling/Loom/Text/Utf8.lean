/-!
# Text as Bytes

Text and its UTF-8 bytes. Decoding never fails: a byte that starts no
character, and the longest beginning of a character that breaks off, each
become one replacement character.
-/

namespace Loom.Text

def utf8Char (c : Char) : List UInt8 :=
  let n := c.toNat
  let tail (shift : Nat) : UInt8 := UInt8.ofNat (0x80 + n / shift % 0x40)
  if n < 0x80 then [UInt8.ofNat n]
  else if n < 0x800 then [UInt8.ofNat (0xC0 + n / 0x40), tail 1]
  else if n < 0x10000 then [UInt8.ofNat (0xE0 + n / 0x1000), tail 0x40, tail 1]
  else [UInt8.ofNat (0xF0 + n / 0x40000), tail 0x1000, tail 0x40, tail 1]

def utf8 (s : String) : List UInt8 :=
  s.toList.flatMap utf8Char

/-- What a leading byte announces: how many bytes follow, the range of the first
    of them, and the bits the leading byte itself gives. -/
structure Lead where
  more : Nat
  low : Nat
  high : Nat
  bits : Nat

def lead? (b : Nat) : Option Lead :=
  if b < 0x80 then some ⟨0, 0x80, 0xBF, b⟩
  else if 0xC2 ≤ b && b ≤ 0xDF then some ⟨1, 0x80, 0xBF, b - 0xC0⟩
  else if b == 0xE0 then some ⟨2, 0xA0, 0xBF, 0⟩
  else if b == 0xED then some ⟨2, 0x80, 0x9F, 0xD⟩
  else if 0xE1 ≤ b && b ≤ 0xEF then some ⟨2, 0x80, 0xBF, b - 0xE0⟩
  else if b == 0xF0 then some ⟨3, 0x90, 0xBF, 0⟩
  else if 0xF1 ≤ b && b ≤ 0xF3 then some ⟨3, 0x80, 0xBF, b - 0xF0⟩
  else if b == 0xF4 then some ⟨3, 0x80, 0x8F, 4⟩
  else none

/-- The bytes that continue a character, and its code if none is missing. -/
def follow : Nat → Nat → Nat → Nat → List UInt8 → Nat × Option Nat
  | 0, _, _, code, _ => (0, some code)
  | _ + 1, _, _, _, [] => (0, none)
  | n + 1, low, high, code, b :: bs =>
    if low ≤ b.toNat && b.toNat ≤ high then
      let (used, result) := follow n 0x80 0xBF (code * 0x40 + b.toNat % 0x40) bs
      (used + 1, result)
    else (0, none)

/-- Decode, passing over the first `skip` bytes. -/
def decodeFrom (skip : Nat) : List UInt8 → List Char
  | [] => []
  | b :: bs =>
    match skip with
    | k + 1 => decodeFrom k bs
    | 0 =>
      match lead? b.toNat with
      | none => '\uFFFD' :: decodeFrom 0 bs
      | some l =>
        match follow l.more l.low l.high l.bits bs with
        | (used, some code) => Char.ofNat code :: decodeFrom used bs
        | (used, none) => '\uFFFD' :: decodeFrom used bs

def decodeUtf8 (bs : List UInt8) : String :=
  String.ofList (decodeFrom 0 bs)

end Loom.Text
