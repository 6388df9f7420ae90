import Loom.Guard.Call
import Loom.Proofs.Fields
import Mathlib.Data.List.Induction
import Mathlib.Order.Lattice
import Mathlib.Data.Int.Order.Basic

/-!
# What a Breaker Tells of Its History

A breaker keeps a short list of times and forgets most of what happened to it. What it
tells is nevertheless decided by the whole history since it was last reset: it is open if
at some failure enough of the failures since then were recent, and it opened at the last
such failure.

The proof goes through one description of the state. Since its last reset a breaker was
closed and empty, and has been told of failures one after the other, `afterFailures`.
Questions that reset nothing leave it alone, and so does everything that happens to other
keys. Which failure opened it is then an induction on that list, without any order
on times. The order is used once: a later failure forgets with a later cutoff, so forgetting
at every failure leaves what forgetting at the last one would leave.
-/

namespace Loom.Guard

open List Breaker

structure Limits (τ : Type) where
  threshold : Int
  window : τ
  cooldown : τ
  deriving DecidableEq

/-- What can happen to a breaker, with the readings of the clock that go with it. -/
inductive Happening (τ : Type) where
  | failure (times : Moments τ)
  | success
  | question (askedAt : τ)

def Happening.readings {τ : Type} : Happening τ → List τ
  | failure times => [times.failedAt, times.cleanedAt, times.openedAt]
  | success => []
  | question askedAt => [askedAt]

def Happening.failures {τ : Type} : Happening τ → List (Moments τ)
  | failure times => [times]
  | _ => []

structure Event (τ : Type) where
  key : String
  limits : Limits τ
  what : Happening τ

section Keys

variable {τ : Type}

theorem Breakers.ofKey_put_self (bs : Breakers τ) (zero : τ) (key : String) (b : Breaker τ) :
    Breakers.ofKey (bs.put key b) zero key = b := by
  rw [ofKey, Fields.getD, Fields.get?_put_self, Option.getD_some]

theorem Breakers.ofKey_put_of_ne (bs : Breakers τ) (zero : τ) {key other : String}
    (hne : key ≠ other) (b : Breaker τ) :
    Breakers.ofKey (bs.put key b) zero other = bs.ofKey zero other := by
  rw [ofKey, ofKey, Fields.getD, Fields.getD, Fields.get?_put_of_ne _ hne]

end Keys

/-! ### One failure after the other -/

section Failures

variable {τ : Type} [Sub τ] [LE τ] [DecidableLE τ]

def Breaker.afterFailures (b : Breaker τ) (threshold : Int) (window : τ)
    (failures : List (Moments τ)) : Breaker τ :=
  failures.foldl (fun b times => b.fail threshold window times) b

def Breaker.Opens (b : Breaker τ) (threshold : Int) (window : τ) (failures : List (Moments τ))
    (n : Nat) (times : Moments τ) : Prop :=
  failures[n]? = some times ∧
    ((b.afterFailures threshold window (failures.take n)).noteFresh window times).isFull
      threshold = true

def Breaker.LastOpens (b : Breaker τ) (threshold : Int) (window : τ)
    (failures : List (Moments τ)) (n : Nat) (times : Moments τ) : Prop :=
  b.Opens threshold window failures n times ∧
    ∀ k later, n < k → ¬b.Opens threshold window failures k later

variable {b : Breaker τ} {threshold : Int} {window : τ}

theorem Breaker.fails_fail (b : Breaker τ) (times : Moments τ) :
    (b.fail threshold window times).fails = (b.noteFresh window times).fails := by
  unfold fail trip
  split <;> rfl

theorem Breaker.afterFailures_concat (failures : List (Moments τ)) (times : Moments τ) :
    b.afterFailures threshold window (failures ++ [times]) =
      (b.afterFailures threshold window failures).fail threshold window times := by
  simp only [afterFailures, foldl_append, foldl_cons, foldl_nil]

theorem Breaker.opens_concat {failures : List (Moments τ)} {last times : Moments τ} {n : Nat} :
    b.Opens threshold window (failures ++ [last]) n times ↔
      b.Opens threshold window failures n times ∨ (n = failures.length ∧ times = last ∧
          ((b.afterFailures threshold window failures).noteFresh window last).isFull
            threshold) := by
  unfold Opens
  -- a failure before the last one, the last one, and none at all
  by_cases hlt : n < failures.length
  · rw [getElem?_append_left hlt, take_append_of_le_length (Nat.le_of_lt hlt)]
    exact (or_iff_left fun h => absurd h.1 (Nat.ne_of_lt hlt)).symm
  · have hnone : failures[n]? = none := getElem?_eq_none (Nat.le_of_not_lt hlt)
    by_cases hn : n = failures.length
    · subst hn
      simp only [getElem?_concat_length, take_left, hnone, Option.some.injEq,
        reduceCtorEq, false_and, false_or, true_and]
      constructor
      · rintro ⟨rfl, h⟩
        exact ⟨rfl, h⟩
      · rintro ⟨rfl, h⟩
        exact ⟨rfl, h⟩
    · have hlong : (failures ++ [last])[n]? = none :=
        getElem?_eq_none (by rw [length_append, length_singleton]; omega)
      simp [hlong, hnone, hn]

/-- A closed breaker that is told of failures stays closed as long as none of them opens it,
    and once one has, it is open since the last that did. -/
theorem afterFailures_cases (threshold : Int) (window : τ) (hb : b.isOpen = false)
    (failures : List (Moments τ)) : ((b.afterFailures threshold window failures).isOpen = false ∧
        ∀ n times, ¬b.Opens threshold window failures n times) ∨
      ((b.afterFailures threshold window failures).isOpen ∧
        ∃ n times, b.LastOpens threshold window failures n times ∧
          (b.afterFailures threshold window failures).openedAt = times.openedAt) := by
  induction failures using reverseRecOn with
  | nil => exact .inl ⟨hb, fun n times h => by simpa using h.1⟩
  | append_singleton failures last ih =>
    rw [afterFailures_concat]
    by_cases hfull : ((b.afterFailures threshold window failures).noteFresh window last).isFull
        threshold = true
    · -- the new failure opens the breaker, and nothing comes after it
      right
      rw [fail, trip, if_pos hfull]
      refine ⟨rfl, failures.length, last, ⟨opens_concat.mpr (.inr ⟨rfl, rfl, hfull⟩), ?_⟩, rfl⟩
      intro k later hk h
      have hbound := (List.getElem?_eq_some_iff.mp h.1).1
      rw [length_append, length_singleton] at hbound
      omega
    · -- the new failure changes nothing but the list of times
      have hopens : ∀ n times, b.Opens threshold window (failures ++ [last]) n times ↔
          b.Opens threshold window failures n times := by
        intro n times
        rw [opens_concat]
        exact or_iff_left fun h => hfull h.2.2
      rw [fail, trip, if_neg hfull]
      simp only [Breaker.LastOpens, hopens]
      exact ih

theorem Breaker.LastOpens.unique {b : Breaker τ} {threshold : Int} {window : τ}
    {failures : List (Moments τ)} {n m : Nat} {times times' : Moments τ}
    (h : b.LastOpens threshold window failures n times)
    (h' : b.LastOpens threshold window failures m times') : times = times' := by
  have hnm : n = m := by
    rcases Nat.lt_trichotomy n m with hlt | heq | hgt
    · exact absurd h'.1 (h.2 m times' hlt)
    · exact heq
    · exact absurd h.1 (h'.2 n times hgt)
  rw [hnm] at h
  exact Option.some.inj (h.1.1.symm.trans h'.1.1)

theorem length_lt_of_closed (hfails : b.fails = []) (hthreshold : 1 ≤ threshold)
    (failures : List (Moments τ))
    (hclosed : (b.afterFailures threshold window failures).isOpen = false) :
    (b.afterFailures threshold window failures).fails.length < threshold := by
  rcases failures.eq_nil_or_concat with rfl | ⟨before, last, rfl⟩
  · rw [afterFailures, foldl_nil, hfails, length_nil]
    omega
  · rw [concat_eq_append, afterFailures_concat] at *
    rw [fails_fail]
    by_cases hfull : ((b.afterFailures threshold window before).noteFresh window last).isFull
        threshold = true
    · rw [fail, trip, if_pos hfull] at hclosed
      cases hclosed
    · rw [isFull, decide_eq_true_eq] at hfull
      omega

end Failures

/-! ### One event after the other -/

section Histories

variable {τ : Type} [Sub τ] [LE τ] [LT τ] [DecidableLE τ] [DecidableLT τ]

def Breaker.step (b : Breaker τ) (limits : Limits τ) : Happening τ → Breaker τ
  | .failure times => b.fail limits.threshold limits.window times
  | .success => b.succeed
  | .question askedAt => (b.ask limits.cooldown askedAt).2

def Breakers.step (zero : τ) (bs : Breakers τ) (e : Event τ) : Breakers τ := match e.what with
  | .failure times => bs.fail zero e.key e.limits.threshold e.limits.window times
  | .success => bs.succeed zero e.key
  | .question askedAt => (bs.ask zero e.key e.limits.cooldown askedAt).2

def Breakers.after (zero : τ) (events : List (Event τ)) : Breakers τ :=
  events.foldl (Breakers.step zero) []

/-- Whether something closes a breaker and clears it: a success, or a question that finds
    it open with the cooldown over. -/
def Breaker.isReset (b : Breaker τ) (cooldown : τ) : Happening τ → Bool
  | .failure _ => false
  | .success => true
  | .question askedAt => b.isOpen && decide (cooldown ≤ askedAt - b.openedAt)

/-- The breakers after one more event, and the failures of a key since its last reset. -/
def recordStep (zero : τ) (key : String) (r : Breakers τ × List (Moments τ)) (e : Event τ) :
    Breakers τ × List (Moments τ) :=
  (r.1.step zero e, if e.key ≠ key then r.2
    else if (r.1.ofKey zero key).isReset e.limits.cooldown e.what then []
    else r.2 ++ e.what.failures)

def failuresSince (zero : τ) (key : String) (events : List (Event τ)) : List (Moments τ) :=
  (events.foldl (recordStep zero key) ([], [])).2

/-- At a failure, as many failures as the threshold demands were within the window, itself
    and those before it counted. -/
def Limits.Reached (limits : Limits τ) (failures : List (Moments τ)) (n : Nat)
    (times : Moments τ) : Prop :=
  failures[n]? = some times ∧ limits.threshold ≤ (failures.take (n + 1)).countP
      fun f => decide (times.cleanedAt - limits.window ≤ f.failedAt)

theorem Breakers.step_eq (zero : τ) (bs : Breakers τ) (e : Event τ) :
    bs.step zero e = bs.put e.key ((bs.ofKey zero e.key).step e.limits e.what) := by
  unfold Breakers.step Breaker.step
  cases e.what <;> rfl

theorem Breakers.after_concat (zero : τ) (events : List (Event τ)) (e : Event τ) :
    Breakers.after zero (events ++ [e]) = (Breakers.after zero events).step zero e := by
  simp only [after, foldl_append, foldl_cons, foldl_nil]

theorem recordStep_fst (zero : τ) (key : String) (events : List (Event τ)) :
    (events.foldl (recordStep zero key) ([], [])).1 = Breakers.after zero events := by
  induction events using reverseRecOn with
  | nil => rfl
  | append_singleton events e ih =>
    rw [Breakers.after_concat, ← ih, foldl_append]
    rfl

theorem failuresSince_concat (zero : τ) (key : String) (events : List (Event τ)) (e : Event τ) :
    failuresSince zero key (events ++ [e]) = if e.key ≠ key then failuresSince zero key events
      else if ((Breakers.after zero events).ofKey zero key).isReset e.limits.cooldown e.what then []
      else failuresSince zero key events ++ e.what.failures := by
  rw [← recordStep_fst zero key events, failuresSince, foldl_append]
  rfl

theorem sublist_readings (zero : τ) (key : String) (events : List (Event τ)) :
    ((failuresSince zero key events).map Moments.cleanedAt).Sublist
      (events.flatMap fun e => e.what.readings) := by
  induction events using reverseRecOn with
  | nil => exact List.Sublist.refl _
  | append_singleton events e ih =>
    rw [failuresSince_concat, flatMap_append, flatMap_singleton]
    split
    · exact ih.trans (sublist_append_left _ _)
    · split
      · exact nil_sublist _
      · rw [map_append]
        refine ih.append ?_
        cases e.what <;> simp [Happening.failures, Happening.readings]

end Histories

section Ordered

variable {τ : Type} [LinearOrder τ] [Sub τ] {limits : Limits τ} {h : Happening τ}

theorem Breaker.step_of_isReset {b : Breaker τ}
    (hreset : b.isReset limits.cooldown h) : b.step limits h = b.close := by
  cases h with
  | failure times => cases hreset
  | success => rfl
  | question askedAt =>
    simp only [isReset, Bool.and_eq_true, decide_eq_true_eq] at hreset
    simp [step, ask, hreset.1, not_lt.mpr hreset.2]

theorem Breaker.step_of_not_isReset {b : Breaker τ} (hreset : ¬b.isReset limits.cooldown h) :
    b.step limits h = b.afterFailures limits.threshold limits.window h.failures := by
  cases h with
  | failure times => rfl
  | success => exact absurd rfl hreset
  | question askedAt =>
    simp only [isReset, Bool.and_eq_true, decide_eq_true_eq, not_and, not_le] at hreset
    cases hopen : b.isOpen with
    | false => simp [step, ask, hopen, afterFailures, Happening.failures]
    | true => simp [step, ask, hopen, hreset hopen, afterFailures, Happening.failures]

theorem ofKey_after (zero : τ) (key : String) (limits : Limits τ) {events : List (Event τ)}
    (hlimits : ∀ e ∈ events, e.key = key → e.limits = limits) :
    ∃ start : Breaker τ, start.fails = [] ∧ start.isOpen = false ∧
      (Breakers.after zero events).ofKey zero key =
        start.afterFailures limits.threshold limits.window (failuresSince zero key events) := by
  induction events using reverseRecOn with
  | nil => exact ⟨.fresh zero, rfl, rfl, rfl⟩
  | append_singleton events e ih =>
    rcases ih fun e' he' => hlimits e' (mem_append_left _ he') with
      ⟨start, hfails, hclosed, heq⟩
    rw [Breakers.after_concat, Breakers.step_eq, failuresSince_concat]
    by_cases hkey : e.key = key
    · have he : e.limits = limits := hlimits e (mem_append_right _ (mem_singleton_self e)) hkey
      rw [if_neg (not_not.mpr hkey), hkey, Breakers.ofKey_put_self, he]
      by_cases hreset : ((Breakers.after zero events).ofKey zero key).isReset
          limits.cooldown e.what = true
      · -- the failures are counted anew, from the breaker as it is closed here
        rw [if_pos hreset, step_of_isReset hreset]
        exact ⟨close _, rfl, rfl, rfl⟩
      · refine ⟨start, hfails, hclosed, ?_⟩
        rw [if_neg hreset, step_of_not_isReset hreset, heq]
        simp only [afterFailures, foldl_append]
    · rw [if_pos hkey, Breakers.ofKey_put_of_ne _ _ hkey]
      exact ⟨start, hfails, hclosed, heq⟩

variable {start : Breaker τ}

theorem filter_afterFailures (hfails : start.fails = []) (threshold : Int) (window : τ)
    (failures : List (Moments τ)) (cut : τ) (hcut : ∀ f ∈ failures, f.cleanedAt - window ≤ cut) :
    ((start.afterFailures threshold window failures).fails.filter fun t => decide (cut ≤ t)) =
      (failures.map Moments.failedAt).filter fun t => decide (cut ≤ t) := by
  induction failures using reverseRecOn with
  | nil => rw [afterFailures, foldl_nil, hfails]; rfl
  | append_singleton failures last ih =>
    have hlast : last.cleanedAt - window ≤ cut :=
      hcut last (mem_append_right _ (mem_singleton_self last))
    have hbefore := ih fun f hf => hcut f (mem_append_left _ hf)
    -- the cutoff at this failure is not after the one that is asked for
    have htwice : ∀ l : List τ, (l.filter fun t => decide (last.cleanedAt - window ≤ t)).filter
          (fun t => decide (cut ≤ t)) = l.filter fun t => decide (cut ≤ t) := by
      intro l
      rw [filter_filter]
      refine filter_congr fun t _ => ?_
      by_cases ht : cut ≤ t
      · simp [ht, le_trans hlast ht]
      · simp [ht]
    rw [afterFailures_concat, fails_fail]
    simp only [noteFresh, clean, note]
    rw [htwice, filter_append, hbefore, ← filter_append, map_append, map_singleton]

theorem opens_iff_reached (limits : Limits τ)
    (hsub : ∀ a b : τ, a ≤ b → a - limits.window ≤ b - limits.window) (hfails : start.fails = [])
    {failures : List (Moments τ)}
    (hforward : (failures.map Moments.cleanedAt).Pairwise (· ≤ ·)) (n : Nat) (times : Moments τ) :
    start.Opens limits.threshold limits.window failures n times ↔
      limits.Reached failures n times := by
  unfold Breaker.Opens Limits.Reached
  refine and_congr_right fun hn => ?_
  rcases List.getElem?_eq_some_iff.mp hn with ⟨hlt, hget⟩
  have htake : failures.take (n + 1) = failures.take n ++ [times] := by
    rw [take_add_one, hn]
    rfl
  -- here the clock has to go forward
  have hcut : ∀ f ∈ failures.take n,
      f.cleanedAt - limits.window ≤ times.cleanedAt - limits.window := by
    intro f hf
    refine hsub _ _ ?_
    have hpair := hforward.sublist ((take_sublist (n + 1) failures).map _)
    rw [htake, map_append, pairwise_append] at hpair
    exact hpair.2.2 _ (mem_map_of_mem hf) _ (by simp)
  have hlength : ((start.afterFailures limits.threshold limits.window
      (failures.take n)).noteFresh limits.window times).fails.length =
        (failures.take (n + 1)).countP
          fun f => decide (times.cleanedAt - limits.window ≤ f.failedAt) := by
    simp only [noteFresh, clean, note]
    rw [filter_append, filter_afterFailures hfails _ _ _ _ hcut, htake, countP_append,
      length_append, ← countP_eq_length_filter, ← countP_eq_length_filter,
      countP_map]
    rfl
  rw [isFull, hlength, decide_eq_true_eq]

/-- The state of a breaker is what its history says, under a clock that never goes backwards,
    whatever happens to other keys. It is open if since its last reset there was a failure
    at which the threshold was reached within the window; then it opened at the last such
    failure; and while it is closed it holds fewer times than the threshold. -/
theorem breaker_tells_history (limits : Limits τ)
    (hsub : ∀ a b : τ, a ≤ b → a - limits.window ≤ b - limits.window)
    (hthreshold : 1 ≤ limits.threshold) (zero : τ) (key : String) (events : List (Event τ))
    (hlimits : ∀ e ∈ events, e.key = key → e.limits = limits)
    (hforward : (events.flatMap fun e => e.what.readings).Pairwise (· ≤ ·)) :
    let failures := failuresSince zero key events
    let b := (Breakers.after zero events).ofKey zero key
    (b.isOpen = true ↔ ∃ n times, limits.Reached failures n times) ∧
      (b.isOpen = true → ∃ n times, limits.Reached failures n times ∧
        (∀ k later, n < k → ¬limits.Reached failures k later) ∧ b.openedAt = times.openedAt) ∧
      (b.isOpen = false → b.fails.length < limits.threshold) := by
  intro failures b
  rcases ofKey_after zero key limits hlimits with ⟨start, hfails, hstart, heq⟩
  change b = start.afterFailures limits.threshold limits.window failures at heq
  have hreached : ∀ n times, start.Opens limits.threshold limits.window failures n times ↔
      limits.Reached failures n times :=
    opens_iff_reached limits hsub hfails (hforward.sublist (sublist_readings zero key events))
  simp only [heq, ← hreached]
  refine ⟨?_, ?_, length_lt_of_closed hfails hthreshold failures⟩
  · rcases afterFailures_cases limits.threshold limits.window hstart failures with
      ⟨hclosed, hnone⟩ | ⟨hopen, n, times, h, _⟩
    · refine iff_of_false (fun h => Bool.false_ne_true (hclosed.symm.trans h)) ?_
      rintro ⟨n, times, h⟩
      exact hnone n times h
    · exact iff_of_true hopen ⟨n, times, h.1⟩
  · intro hisOpen
    rcases afterFailures_cases limits.threshold limits.window hstart failures with
      ⟨hclosed, _⟩ | ⟨_, n, times, h, hopened⟩
    · exact absurd (hclosed.symm.trans hisOpen) Bool.false_ne_true
    · exact ⟨n, times, h.1, h.2, hopened⟩

end Ordered

/-- Two failures after a success open a breaker; a question comes too early to close it, and a
    failure of another key changes nothing. -/
def twoFailures : List (Event Int) := let limits : Limits Int := ⟨2, 10, 5⟩
  [⟨"a", limits, .failure ⟨0, 0, 0⟩⟩, ⟨"a", limits, .success⟩, ⟨"a", limits, .failure ⟨1, 1, 1⟩⟩,
    ⟨"b", ⟨7, 0, 0⟩, .failure ⟨2, 2, 3⟩⟩, ⟨"a", limits, .failure ⟨4, 5, 6⟩⟩,
    ⟨"a", limits, .question 8⟩]

theorem breaker_tells_history_twoFailures :
    (∃ n times, (⟨2, 10, 5⟩ : Limits Int).Reached (failuresSince 0 "a" twoFailures) n times) ∧
      ((Breakers.after 0 twoFailures).ofKey 0 "a").isOpen = true := by
  have h := breaker_tells_history (⟨2, 10, 5⟩ : Limits Int)
    (fun _ _ hle => Int.sub_le_sub_right hle 10) (by decide) 0 "a" twoFailures (by decide)
    (by decide)
  exact ⟨h.1.mp rfl, h.1.mpr ⟨1, ⟨4, 5, 6⟩, rfl, by decide⟩⟩

end Loom.Guard
