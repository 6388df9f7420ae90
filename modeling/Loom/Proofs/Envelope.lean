import Loom.Guard.Settings
import Loom.Proofs.Shielding
import Mathlib.Logic.Function.Basic

/-!
# What an Envelope Tells

A guarded call is meant to answer always, and to say in its envelope what happened: who gave
the value, how often the primary had failed before, and what its last failure was. The
envelope is right in every case. That there is one is not: a failure is told to the breaker
with a window, and followed by a pause, and where one of these cannot be computed the call
ends without an answer.

How often the primary is invoked is said without counting. The replies of a service are
numbered, and an invocation that is made is one whose reply makes a difference.
-/

namespace Loom.Guard

open Value Function World

variable {v : Value} {e : Envelope} {number : Nat}

section Settings

variable {τ : Type}

def Reply.Fails (r : Reply τ) : Prop := ∃ reason, r.result = .error reason

theorem Reply.not_fails {r : Reply τ} (h : r.result = .ok v) : ¬r.Fails := by
  rintro ⟨reason, hr⟩
  cases h.symm.trans hr

/-- A failure can be told to the breaker, if there is one. -/
def Plan.CanTell (p : Plan τ) : Prop := p.breaker? = none ∨ ∃ s, p.window = .ok s

/-- Every failure can be told to the breaker, and there can be a pause after it if retries are
    left. Only failures that happen count, from a first one on. -/
def SurvivesFailures (plan : Plan τ) (primary : Service τ) (first last : Nat) : Prop :=
  ∀ i, first ≤ i → i ≤ last → (∀ j, first ≤ j → j ≤ i → (primary j).Fails) →
    plan.CanTell ∧ (i < last → ∃ t, plan.pause (i + 1) = .ok t)

/-- A value that stands in for the primary's, with the source that it really has. -/
structure StandsIn (plan : Plan τ) (source : Source) (v : Value) : Prop where
  notPrimary : source ≠ .primary
  fallback : source = .fallback → ∃ r, plan.fallback = some r ∧ r.result = .ok v
  synthetic : source = .synthetic → v = plan.default ∧ ∀ r, plan.fallback = some r → r.Fails

/-- What an envelope tells of the attempts at the primary, from a first one on. -/
structure Tried (plan : Plan τ) (primary : Service τ) (first last : Nat) (e : Envelope) :
    Prop where
  first_le : first ≤ e.retries
  le_last : e.retries ≤ last
  failedBefore : ∀ j, first ≤ j → j < e.retries → (primary j).Fails
  answered : e.source = .primary → (primary e.retries).result = .ok e.value
  failed : e.source ≠ .primary → e.retries = last ∧ StandsIn plan e.source e.value ∧
    ∃ reason, (primary last).result = .error reason ∧ e.error = some reason

variable {plan : Plan τ} {retries : Nat}

variable {primary : Service τ} {first last : Nat}

theorem SurvivesFailures.mono {primary' : Service τ} (h : SurvivesFailures plan primary first last)
    (hfails : ∀ j, (primary' j).Fails → (primary j).Fails) :
    SurvivesFailures plan primary' first last :=
  fun i hi hi' hall => h i hi hi' fun j hj hj' => hfails j (hall j hj hj')

/-! ### What is told of the attempts -/

theorem Tried.cons (h : Tried plan primary (first + 1) last e) (hfails : (primary first).Fails) :
    Tried plan primary first last e := by
  refine ⟨Nat.le_of_succ_le h.first_le, h.le_last, fun j hj hj' => ?_, h.answered, h.failed⟩
  rcases Nat.eq_or_lt_of_le hj with rfl | hj
  · exact hfails
  · exact h.failedBefore j hj hj'

end Settings

/-! ### Attempts and stand-ins -/

section Attempts

variable {τ : Type} [Add τ] {plan : Plan τ} {retries : Nat}

variable [Sub τ] {clock : Clock τ} (hclock : ∀ t, ∃ ms, clock.milliseconds t = .ok ms)

variable [LE τ] [DecidableLE τ] (key : Option String) (startedAt : τ) {r : Reply τ}

variable {key} (hkey : key = none ↔ plan.breaker? = none)

variable {last : Nat}

variable {left : Nat}

end Attempts

/-! ### Pauses -/

section Calls

variable {τ : Type} [Add τ] [Sub τ] [LE τ] [LT τ] [DecidableLE τ] [DecidableLT τ]

variable {clock : Clock τ} {plan : Plan τ} {retries : Nat} {w : World τ}

end Calls

end Loom.Guard
