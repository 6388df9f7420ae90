import Loom.Proofs.Fields
import Loom.Web.Fetch

/-!
# The Limit of a Fetch

A fetch is asked for so many bytes at most, and tells whether it left any out. What comes over
the network is read piece by piece, however it was cut up, and keeps to that. Two ways around
do not: what a server refuses with is taken whole, and a limit below zero takes bytes off the
end of a fixture.
-/

namespace Loom.Web

open List

variable {σ : Type} {read : Nat → σ → List UInt8 × σ} {left : σ → List UInt8}
variable {limit : Int} {done bytes : List UInt8}

def Reply.whole : Reply → List UInt8
  | document _ _ pieces => pieces.flatten
  | failure _ => []
  | refusal _ _ body => body

def Reply.isRefusal : Reply → Bool
  | refusal .. => true
  | _ => false

/-- A document is as much of a body as the limit allows, and tells whether there was more. -/
def Document.Keeps (d : Document) (limit : Int) (bytes : List UInt8) : Prop :=
  d.body = bytes.take limit.toNat ∧ (d.truncated = true ↔ limit.toNat < bytes.length)

/-- A reading takes some of the bytes that are left, as many as it likes up to the number asked
    for, until none is. -/
def Delivers (read : Nat → σ → List UInt8 × σ) (left : σ → List UInt8) : Prop :=
  ∀ n, 0 < n → ∀ s, ∃ part rest, read n s = (part, rest) ∧ part ++ left rest = left s ∧
    part.length ≤ n ∧ (part = [] → left rest = [])

theorem delivers_readPiece : Delivers readPiece flatten := by
  intro n hn pieces
  fun_induction readPiece n pieces with
  | case1 => exact ⟨[], [], rfl, rfl, Nat.zero_le n, fun _ => rfl⟩
  | case2 rest ih => exact ih
  | case3 piece rest hpiece =>
    refine ⟨_, _, rfl, ?_, length_take_le n piece, fun h => ?_⟩
    · rw [flatten_cons, ← append_assoc, take_append_drop, flatten_cons]
    · exact absurd ((take_eq_nil_iff.mp h).resolve_left (Nat.ne_of_gt hn)) hpiece

/-- The fuel lasts, as every reading but the last takes a byte. -/
theorem readLimitedFrom_eq (hdelivers : Delivers read left) {fuel : Nat} {source : σ}
    (hdone : done.length ≤ limit.toNat) (hfuel : (left source).length < fuel) :
    ∃ rest, readLimitedFrom read fuel limit done source =
      ((done ++ left source).take limit.toNat,
        decide (limit.toNat < (done ++ left source).length), rest) := by
  induction fuel generalizing done source with
  | zero => exact absurd hfuel (Nat.not_lt_zero _)
  | succ fuel ih =>
    rw [readLimitedFrom]
    split
    · obtain ⟨part, rest, hread, happend, _, hnil⟩ := hdelivers 1 Nat.one_pos source
      have hfull : limit.toNat = done.length := by omega
      rw [hread, ← happend, hfull, take_left]
      cases part with
      | nil => exact ⟨rest, by simp [hnil rfl]⟩
      | cons b part => exact ⟨rest, by simp⟩
    · obtain ⟨part, rest, hread, happend, hle, hnil⟩ :=
        hdelivers (min readingSize (limit - done.length).toNat)
          (by unfold readingSize; omega) source
      rw [hread, ← happend]
      cases part with
      | nil => exact ⟨rest, by simp [hnil rfl, take_of_length_le hdone, hdone]⟩
      | cons b part =>
        rw [← happend, length_append, length_cons] at hfuel
        rw [← append_assoc]
        exact ih (by rw [length_append]; omega) (by omega)

/-- However a source cuts up its bytes, reading it ends with as many of them as the limit allows,
    and tells whether there were more. -/
theorem readLimitedFrom_eq_take (hdelivers : Delivers read left) (limit : Int) (source : σ)
    {fuel : Nat} (hfuel : (left source).length < fuel) :
    ∃ rest, readLimitedFrom read fuel limit [] source = ((left source).take limit.toNat,
      decide (limit.toNat < (left source).length), rest) :=
  readLimitedFrom_eq hdelivers (Nat.zero_le _) hfuel

theorem readLimitedFrom_eq_take_pieces :
    ∃ rest, readLimitedFrom readPiece 5 3 [] [[1, 2], [], [3, 4]] = ([1, 2, 3], true, rest) :=
  readLimitedFrom_eq_take delivers_readPiece 3 _ (by decide)

end Loom.Web
