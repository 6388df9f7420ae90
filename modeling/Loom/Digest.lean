import Loom.Text.Quoted

/-!
# Digests

What the digests share: a message is padded to whole blocks of sixty-four bytes,
with its length in bits at the end, and a block is sixteen words of thirty-two
bits, most significant byte first.
-/

namespace Loom.Digest

def bigEndian (count : Nat) (n : Nat) : List UInt8 :=
  (List.range count).map fun i => UInt8.ofNat (n >>> (8 * (count - 1 - i)))

/-- A message, one set bit, zeros, and the length of the message in bits. -/
def padded (message : List UInt8) : List UInt8 :=
  let used := (message.length + 9) % 64
  let zeros := if used == 0 then 0 else 64 - used
  message ++ 0x80 :: (List.replicate zeros 0 ++ bigEndian 8 (message.length * 8))

def words : List UInt8 → List UInt32
  | a :: b :: c :: d :: rest =>
    ((a.toUInt32 <<< 24) ||| (b.toUInt32 <<< 16) ||| (c.toUInt32 <<< 8) ||| d.toUInt32)
      :: words rest
  | _ => []

def piecesFrom (n : Nat) : Nat → List α → List (List α)
  | 0, _ => []
  | _, [] => []
  | fuel + 1, xs => xs.take (n + 1) :: piecesFrom n fuel (xs.drop (n + 1))

def blocks (message : List UInt8) : List (List UInt32) :=
  let ws := words (padded message)
  piecesFrom 15 ws.length ws

def rotateLeft (x : UInt32) (n : UInt32) : UInt32 :=
  (x <<< n) ||| (x >>> (32 - n))

def rotateRight (x : UInt32) (n : UInt32) : UInt32 :=
  (x >>> n) ||| (x <<< (32 - n))

def hexOfWords (ws : List UInt32) : String :=
  String.ofList (ws.flatMap fun w => Text.hex 8 w.toNat)

/-! ### One hundred and sixty bits -/

namespace Sha1

def initial : List UInt32 :=
  [0x67452301, 0xefcdab89, 0x98badcfe, 0x10325476, 0xc3d2e1f0]

/-- The words so far, last first, grown by a number of words. -/
def grow : Nat → List UInt32 → List UInt32
  | 0, back => back
  | n + 1, back =>
    let w (i : Nat) : UInt32 := back.getD (i - 1) 0
    grow n (rotateLeft (w 3 ^^^ w 8 ^^^ w 14 ^^^ w 16) 1 :: back)

def schedule (block : List UInt32) : List UInt32 :=
  (grow 64 block.reverse).reverse

structure State where
  (a b c d e : UInt32)

def State.ofList (ws : List UInt32) : State :=
  let w (i : Nat) : UInt32 := ws.getD i 0
  ⟨w 0, w 1, w 2, w 3, w 4⟩

def State.toList (s : State) : List UInt32 :=
  [s.a, s.b, s.c, s.d, s.e]

/-- What a round mixes in, by its number: a function of three words, and a
    constant. -/
def mixture (s : State) (i : Nat) : UInt32 × UInt32 :=
  if i < 20 then ((s.b &&& s.c) ||| ((~~~ s.b) &&& s.d), 0x5a827999)
  else if i < 40 then (s.b ^^^ s.c ^^^ s.d, 0x6ed9eba1)
  else if i < 60 then ((s.b &&& s.c) ||| (s.b &&& s.d) ||| (s.c &&& s.d), 0x8f1bbcdc)
  else (s.b ^^^ s.c ^^^ s.d, 0xca62c1d6)

def round (s : State) (i : Nat) (w : UInt32) : State :=
  let (f, k) := mixture s i
  ⟨rotateLeft s.a 5 + f + s.e + k + w, s.a, rotateLeft s.b 30, s.c, s.d⟩

def mix (digest block : List UInt32) : List UInt32 :=
  let rounds := (List.range 80).zip (schedule block)
  let mixed := rounds.foldl (fun s r => round s r.1 r.2) (State.ofList digest)
  List.zipWith (· + ·) digest mixed.toList

def digest (message : List UInt8) : List UInt32 :=
  (blocks message).foldl mix initial

end Sha1

def sha1 (message : List UInt8) : String :=
  hexOfWords (Sha1.digest message)

/-! ### Two hundred and fifty-six bits -/

namespace Sha256

def primes : List Nat :=
  (List.range 312).filter fun n => n > 1 && (List.range n).all fun d => d < 2 || n % d != 0

/-- The largest number whose power is at most `n`, found bit by bit. -/
def root (k n : Nat) : Nat :=
  (List.range 38).foldr (fun i r =>
    let next := r + Nat.pow 2 i
    if Nat.pow next k ≤ n then next else r) 0

/-- The first bits of the fractional part of a root. -/
def rootBits (k n : Nat) : UInt32 :=
  .ofNat (root k (n * Nat.pow 2 (32 * k)))

def roundConstants : List UInt32 :=
  primes.map (rootBits 3)

def initial : List UInt32 :=
  (primes.take 8).map (rootBits 2)

def nextWord (back : List UInt32) : UInt32 :=
  let w (i : Nat) : UInt32 := back.getD (i - 1) 0
  let s0 := rotateRight (w 15) 7 ^^^ rotateRight (w 15) 18 ^^^ (w 15 >>> 3)
  let s1 := rotateRight (w 2) 17 ^^^ rotateRight (w 2) 19 ^^^ (w 2 >>> 10)
  w 16 + s0 + w 7 + s1

/-- The words so far, last first, grown by a number of words. -/
def grow : Nat → List UInt32 → List UInt32
  | 0, back => back
  | n + 1, back => grow n (nextWord back :: back)

def schedule (block : List UInt32) : List UInt32 :=
  (grow 48 block.reverse).reverse

structure State where
  (a b c d e f g h : UInt32)

def State.ofList (ws : List UInt32) : State :=
  let w (i : Nat) : UInt32 := ws.getD i 0
  ⟨w 0, w 1, w 2, w 3, w 4, w 5, w 6, w 7⟩

def State.toList (s : State) : List UInt32 :=
  [s.a, s.b, s.c, s.d, s.e, s.f, s.g, s.h]

def round (s : State) (k w : UInt32) : State :=
  let s1 := rotateRight s.e 6 ^^^ rotateRight s.e 11 ^^^ rotateRight s.e 25
  let choice := (s.e &&& s.f) ^^^ ((~~~ s.e) &&& s.g)
  let t1 := s.h + s1 + choice + k + w
  let s0 := rotateRight s.a 2 ^^^ rotateRight s.a 13 ^^^ rotateRight s.a 22
  let majority := (s.a &&& s.b) ^^^ (s.a &&& s.c) ^^^ (s.b &&& s.c)
  ⟨t1 + s0 + majority, s.a, s.b, s.c, s.d + t1, s.e, s.f, s.g⟩

def mix (digest block : List UInt32) : List UInt32 :=
  let rounds := roundConstants.zip (schedule block)
  let mixed := rounds.foldl (fun s r => round s r.1 r.2) (State.ofList digest)
  List.zipWith (· + ·) digest mixed.toList

def digest (message : List UInt8) : List UInt32 :=
  (blocks message).foldl mix initial

end Sha256

def sha256 (message : List UInt8) : String :=
  hexOfWords (Sha256.digest message)

end Loom.Digest
