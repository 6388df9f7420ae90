import Loom.Value.Access
import Mathlib

/-!
# Equality of Scalars

Numbers of three sorts are compared: booleans, integers without a bound, and floats. Two
of them are equal if they denote the same number, and no rounding comes in between. So a
number is counted in the smallest positive float, of which every float and every integer
is a multiple, and equality of scalars is equality of what they denote. From this it
follows that equality is transitive, which sets of values rely on.
-/

namespace Loom.Decimal

open Float.Model UnpackedFloat Nat View Format

variable {m n : Nat} {e d : Int}

inductive Denotation where
  | null
  | text (s : String)
  | bytes (bs : List UInt8)
  | infinite (negative : Bool)
  /-- A number, counted in the smallest positive float. -/
  | units (n : Int)

def signed (negative : Bool) (n : Nat) : Int := if negative then -n else n

def View.denotation? : View → Option Denotation
  | .nan => none
  | .infinite negative => some (.infinite negative)
  | .finite negative m e => some (.units (signed negative (m * 2 ^ (e - leastExponent).toNat)))

theorem View.denotation?_ne (w : View) :
    w.denotation? ≠ some .null ∧ (∀ s, w.denotation? ≠ some (.text s)) ∧
      ∀ bs, w.denotation? ≠ some (.bytes bs) := by
  cases w <;> simp [denotation?]

/-- Whether a sign is that of numbers below zero. -/
def isNegative : Sign → Bool
  | .negative => true
  | .positive => false

/-- The parts of a float as the library's own operations see them. -/
def viewOf : UnpackedFloat → View
  | .notANumber => .nan
  | .infinity s => .infinite (isNegative s)
  | .zero s => .finite (isNegative s) 0 leastExponent
  | .finite s m e _ => .finite (isNegative s) m e

theorem toNat_unpackMantissa (b : BitVec 64) :
    (@unpackMantissa Format.binary64 b).toNat = b.toNat % leadingBit := by
  simp [unpackMantissa, leadingBit]

theorem toNat_unpackExponent (b : BitVec 64) :
    (@unpackExponent Format.binary64 b).toNat = b.toNat / leadingBit % 2048 := by
  simp [unpackExponent, leadingBit, shiftRight_eq_div_pow]

theorem isNegative_unpackSign (b : BitVec 64) :
    isNegative (Sign.ofBitVec (@unpackSign Format.binary64 b)) = decide (b.toNat ≥ signBit) := by
  have hlt : b.toNat < 2 ^ 64 := b.isLt
  have hbit : (@unpackSign binary64 b).toNat = b.toNat / signBit := by
    simp [unpackSign, signBit, shiftRight_eq_div_pow]
    omega
  unfold Sign.ofBitVec
  rcases lt_or_ge b.toNat signBit with hsmall | hlarge
  · have hzero : @unpackSign binary64 b = 0#1 := by
      apply BitVec.eq_of_toNat_eq
      rw [hbit, div_eq_of_lt hsmall]
      rfl
    rw [if_pos hzero]
    exact (decide_eq_false (Nat.not_le_of_lt hsmall)).symm
  · have hone : @unpackSign binary64 b ≠ 0#1 := by
      intro hzero
      rw [hzero] at hbit
      have hpos : 0 < b.toNat / signBit := div_pos hlarge (by decide)
      exact absurd hbit.symm (ne_of_gt hpos)
    rw [if_neg hone]
    exact (decide_eq_true hlarge).symm

theorem toNat_leading (mantissa : BitVec 52) :
    (1#1 ++ mantissa).toNat = leadingBit + mantissa.toNat := by
  change 2 ^ 52 ||| mantissa.toNat = _
  rw [Nat.or_comm, Nat.or_two_pow_eq_add_of_lt mantissa.isLt, Nat.add_comm]
  rfl

theorem toNat_beq_iff {w : Nat} {v : BitVec w} (u : BitVec w) :
    (v.toNat == u.toNat) ↔ v = u := by
  rw [beq_iff_eq, BitVec.toNat_inj]

theorem view_eq (x : Float) : view x = viewOf x.toModel.unpack := by
  have hm : (@unpackMantissa binary64 x.toModel.toBits.toBitVec).toNat =
      x.toBits.toNat % leadingBit := toNat_unpackMantissa _
  have he : (@unpackExponent binary64 x.toModel.toBits.toBitVec).toNat =
      x.toBits.toNat / leadingBit % 2048 := toNat_unpackExponent _
  have hs : isNegative (Sign.ofBitVec (@unpackSign binary64 x.toModel.toBits.toBitVec)) =
      decide (x.toBits.toNat ≥ signBit) := isNegative_unpackSign _
  have htop := @toNat_beq_iff 11 (@unpackExponent binary64 x.toModel.toBits.toBitVec) (-1#11)
  have hlow := @toNat_beq_iff 11 (@unpackExponent binary64 x.toModel.toBits.toBitVec) 0#11
  have hzero := @toNat_beq_iff 52 (@unpackMantissa binary64 x.toModel.toBits.toBitVec) 0#52
  rw [Float.Model.unpack]
  unfold view UnpackedFloat.unpack
  dsimp only
  rw [← he, ← hm, ← hs]
  -- The tests are on numbers on one side and on bits on the other.
  split
  · rename_i h
    rw [if_pos (htop.mp h)]
    split
    · rename_i h
      rw [if_pos (hzero.mp h)]
      rfl
    · rename_i h
      rw [if_neg (fun h' => h (hzero.mpr h'))]
      rfl
  · rename_i h
    rw [if_neg (fun h' => h (htop.mpr h'))]
    split
    · rename_i h
      rw [if_pos (hlow.mp h), hlow.mp h]
      split
      · rename_i h
        rw [h]
        rfl
      · rfl
    · rename_i h
      rw [if_neg (fun h' => h (hlow.mpr h'))]
      exact congrArg (finite _ · _) (toNat_leading _).symm

/-- A mantissa and an exponent that a float can have: the exponent is the least, or the
    mantissa has its leading bit. -/
structure IsCanonical (m : Nat) (e : Int) : Prop where
  least_le : leastExponent ≤ e
  lt : m < 2 * leadingBit
  leading_le : leastExponent < e → leadingBit ≤ m

theorem canonical_of_view {x : Float} {negative : Bool}
    (h : view x = .finite negative m e) : IsCanonical m e := by
  have hlt : x.toBits.toNat % leadingBit < leadingBit := mod_lt _ (by decide)
  unfold view at h
  dsimp only at h
  split at h
  · split at h <;> cases h
  · split at h
    · cases h
      exact ⟨Int.le_refl _, by omega, fun hlow => absurd hlow (Int.lt_irrefl _)⟩
    · rename_i hlow
      cases h
      have hpos : x.toBits.toNat / leadingBit % 2048 ≠ 0 := fun h => hlow (beq_iff_eq.mpr h)
      refine ⟨?_, by omega, fun _ => by omega⟩
      unfold leastExponent
      omega

theorem shifted_lt (hn : n < 2 * leadingBit) (hd : leastExponent ≤ d)
    (he : leadingBit ≤ m) (hlt : d < e) :
    n * 2 ^ (d - leastExponent).toNat < m * 2 ^ (e - leastExponent).toNat := by
  have hsplit : (e - leastExponent).toNat = (e - d - 1).toNat + 1 + (d - leastExponent).toNat := by
    omega
  have hpow : 1 ≤ 2 ^ (e - d - 1).toNat := Nat.one_le_two_pow
  rw [hsplit, pow_add, ← mul_assoc, pow_succ]
  refine Nat.mul_lt_mul_of_pos_right ?_ (Nat.two_pow_pos _)
  calc n < 2 * leadingBit := hn
    _ ≤ 2 * m := mul_le_mul_left 2 he
    _ ≤ m * (2 ^ (e - d - 1).toNat * 2) := by
      rw [mul_comm 2 m]
      exact mul_le_mul_left m (by omega)

theorem shifted_inj (hm : IsCanonical m e) (hn : IsCanonical n d)
    (h : m * 2 ^ (e - leastExponent).toNat = n * 2 ^ (d - leastExponent).toNat) :
    e = d ∧ m = n := by
  rcases Int.lt_trichotomy e d with hlt | rfl | hlt
  · have hleading := hn.leading_le (Int.lt_of_le_of_lt hm.least_le hlt)
    have := shifted_lt hm.lt hm.least_le hleading hlt
    omega
  · exact ⟨rfl, Nat.eq_of_mul_eq_mul_right (Nat.two_pow_pos _) h⟩
  · have hleading := hm.leading_le (Int.lt_of_le_of_lt hn.least_le hlt)
    have := shifted_lt hn.lt hn.least_le hleading hlt
    omega

theorem signed_inj {s t : Bool} {a b : Nat} (ha : 0 < a) :
    signed s a = signed t b ↔ s = t ∧ a = b := by
  unfold signed
  cases s <;> cases t <;> simp <;> omega

theorem signed_ne_zero {s : Bool} {a : Nat} (ha : 0 < a) : signed s a ≠ 0 := by
  unfold signed
  cases s <;> simp <;> omega

theorem signed_mul (s : Bool) (a b : Nat) : signed s (a * b) = signed s a * b := by
  cases s
  · exact Int.natCast_mul a b
  · exact (congrArg Neg.neg (Int.natCast_mul a b)).trans (Int.neg_mul _ _).symm

theorem compare_finite_iff {s t : Sign} (hm : IsCanonical m e)
    (hn : IsCanonical n d) (hmpos : 0 < m) (hnpos : 0 < n) :
    (UnpackedFloat.finite s m e hmpos).compare (.finite t n d hnpos) = some .eq ↔
      signed (isNegative s) (m * 2 ^ (e - leastExponent).toNat) =
        signed (isNegative t) (n * 2 ^ (d - leastExponent).toNat) := by
  have hshift : (compare e d).then (compare m n) = .eq ↔
      m * 2 ^ (e - leastExponent).toNat = n * 2 ^ (d - leastExponent).toNat := by
    rw [Ordering.then_eq_eq, Int.compare_eq_eq, Nat.compare_eq_eq]
    constructor
    · rintro ⟨rfl, rfl⟩
      rfl
    · exact shifted_inj hm hn
  rw [signed_inj (Nat.mul_pos hmpos (Nat.two_pow_pos _)), ← hshift]
  cases s <;> cases t <;> simp [UnpackedFloat.compare, isNegative]

theorem denotation?_zero (s : Sign) : (viewOf (.zero s)).denotation? = some (.units 0) := by
  cases s <;> rfl

theorem compare_eq_iff {u v : UnpackedFloat}
    (hu : ∀ {s m e}, viewOf u = .finite s m e → IsCanonical m e)
    (hv : ∀ {s m e}, viewOf v = .finite s m e → IsCanonical m e) : u.compare v = some .eq ↔
      ∃ a, (viewOf u).denotation? = some a ∧ (viewOf v).denotation? = some a := by
  have hiff : ∀ {a b : Denotation}, (∃ c, some a = some c ∧ some b = some c) ↔ a = b := by
    intro a b
    simp [eq_comm]
  cases u with
  | notANumber => simp [UnpackedFloat.compare, viewOf, denotation?]
  | infinity s =>
    cases v with
    | infinity t =>
      cases s <;> cases t <;>
        simp [UnpackedFloat.compare, viewOf, denotation?, isNegative, compare]
    | _ => cases s <;> simp [UnpackedFloat.compare, viewOf, denotation?]
  | zero s =>
    rw [denotation?_zero]
    cases v with
    | notANumber => simp [UnpackedFloat.compare, viewOf, denotation?]
    | infinity t => cases t <;> simp [UnpackedFloat.compare, viewOf, denotation?]
    | zero t => simp [UnpackedFloat.compare, denotation?_zero]
    | finite t n d hn =>
      have hne := signed_ne_zero (s := isNegative t)
        (Nat.mul_pos hn (Nat.two_pow_pos (d - leastExponent).toNat))
      rw [viewOf, denotation?, hiff, Denotation.units.injEq, eq_false hne.symm]
      cases t <;> simp [UnpackedFloat.compare]
  | finite s m e hm =>
    cases v with
    | notANumber => cases s <;> simp [UnpackedFloat.compare, viewOf, denotation?]
    | infinity t =>
      cases s <;> cases t <;> simp [UnpackedFloat.compare, viewOf, denotation?]
    | zero t =>
      have hne := signed_ne_zero (s := isNegative s)
        (Nat.mul_pos hm (Nat.two_pow_pos (e - leastExponent).toNat))
      rw [denotation?_zero, viewOf, denotation?, hiff, Denotation.units.injEq, eq_false hne]
      cases s <;> simp [UnpackedFloat.compare]
    | finite t n d hn =>
      rw [compare_finite_iff (hu rfl) (hv rfl), viewOf, viewOf, denotation?,
        denotation?, hiff, Denotation.units.injEq]

theorem beq_iff (x y : Float) :
    (x == y) ↔ ∃ a, (view x).denotation? = some a ∧ (view y).denotation? = some a := by
  change (x.toModel.unpack.compare y.toModel.unpack == some .eq) = true ↔ _
  rw [beq_iff_eq, view_eq, view_eq]
  refine compare_eq_iff ?_ ?_
  · intro s m e h
    exact canonical_of_view ((view_eq x).trans h)
  · intro s m e h
    exact canonical_of_view ((view_eq y).trans h)

/-- An integer counted in the smallest positive float. -/
@[irreducible] def unitsOf (i : Int) : Int := i * (2 ^ (-leastExponent).toNat : Nat)

theorem natCast_two_pow_ne_zero (k : Nat) : ((2 ^ k : Nat) : Int) ≠ 0 :=
  Int.ofNat_ne_zero.mpr (Nat.ne_of_gt (Nat.two_pow_pos k))

theorem unitsOf_inj {i j : Int} : unitsOf i = unitsOf j ↔ i = j := by
  unfold unitsOf
  exact Int.mul_eq_mul_right_iff (natCast_two_pow_ne_zero _)

theorem compareInt?_eq_iff (i : Int) (x : Float) :
    compareInt? i x = some .eq ↔ (view x).denotation? = some (.units (unitsOf i)) := by
  unfold compareInt?
  cases hx : view x with
  | nan => simp [denotation?]
  | infinite negative => cases negative <;> simp [denotation?]
  | finite negative m e =>
    have hlow := (canonical_of_view hx).least_le
    simp only [denotation?, Option.some.injEq, Denotation.units.injEq]
    unfold unitsOf
    change (if e ≥ 0 then some (compare i (signed negative m * (2 ^ e.toNat : Nat)))
      else some (compare (i * (2 ^ (-e).toNat : Nat)) (signed negative m))) = some .eq ↔ _
    -- Both sides are brought to the smallest float, from whichever has fewer places.
    by_cases he : e ≥ 0
    · have hsplit : (e - leastExponent).toNat = e.toNat + (-leastExponent).toNat := by
        unfold leastExponent
        omega
      rw [if_pos he, Option.some.injEq, Int.compare_eq_eq, hsplit, pow_add, ← mul_assoc,
        signed_mul, signed_mul, eq_comm]
      exact (Int.mul_eq_mul_right_iff (natCast_two_pow_ne_zero _)).symm
    · have hsplit : (-leastExponent).toNat = (-e).toNat + (e - leastExponent).toNat := by
        omega
      rw [if_neg he, Option.some.injEq, Int.compare_eq_eq, hsplit, pow_add,
        Int.natCast_mul, ← Int.mul_assoc, signed_mul, eq_comm]
      exact (Int.mul_eq_mul_right_iff (natCast_two_pow_ne_zero _)).symm

end Loom.Decimal

namespace Loom.Value

open Loom.Decimal

/-- What a scalar denotes. What is not a number denotes nothing, nor do lists and objects
    here. -/
def denotation? : Value → Option Denotation
  | null => some .null
  | str s => some (.text s)
  | bytes bs => some (.bytes bs)
  | float x => (view x).denotation?
  | v => v.integer?.map fun i => .units (unitsOf i)

theorem sameScalar_iff {a b : Value} :
    sameScalar a b ↔ ∃ d, a.denotation? = some d ∧ b.denotation? = some d := by
  cases a <;> cases b <;>
    simp [sameScalar, denotation?, integer?, beq_iff, compareInt?_eq_iff, unitsOf_inj,
      View.denotation?_ne] <;>
    exact eq_comm

/-- A value that can be asked for in a set. -/
def isName (v : Value) : Bool := v.toName.isOk

theorem same_eq_sameScalar {a b : Value} (ha : a.isName) : a.same b = sameScalar a b := by
  cases a <;> first | rfl | cases ha

theorem same_trans {a b c : Value} (ha : a.isName) (hb : b.isName)
    (hab : a.same b) (hbc : b.same c) : a.same c := by
  rw [same_eq_sameScalar ha, sameScalar_iff] at hab ⊢
  rw [same_eq_sameScalar hb, sameScalar_iff] at hbc
  obtain ⟨d, had, hbd⟩ := hab
  obtain ⟨d', hbd', hcd⟩ := hbc
  obtain rfl := Option.some.inj (hbd.symm.trans hbd')
  exact ⟨d, had, hcd⟩

end Loom.Value
