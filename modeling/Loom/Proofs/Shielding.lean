import Loom.Proofs.BreakerHistory

/-!
# When an Open Breaker Shields the Primary

A guarded call asks its breaker once, before it tries the primary, and tells it of every
failure. So the breaker keeps the primary from being invoked by the calls that come after
it opened, but not by the call that opened it: this one goes through its retries.

An invocation is described by the world it happens in and the failures that came before it
in the same call, as a `Trial`. `Invoked` tells which of them a call makes. It is tied to the
call from both sides: the call goes on from every trial (`call_eq_of_invoked`), and it asks
the primary for no other reply (`call_congr_of_invoked`). The breaker in the world of a
trial is then the breaker at the start, told of these failures, and what is known of a
breaker after failures says when it is open.
-/

namespace Loom.Guard

open World

structure Trial (τ : Type) where
  /-- When the call started. -/
  startedAt : τ
  /-- When the breaker was told of the failures of this call. -/
  failures : List (Moments τ)
  /-- How many retries are left. -/
  left : Nat
  /-- The world that the primary is invoked in. -/
  world : World τ

/-- A call that somebody wants. -/
structure Request (τ : Type) where
  plan : Plan τ
  primary : Service τ

section Readings

variable {τ : Type} [Add τ]

/-! ### What leaves the breakers alone -/

@[simp]
theorem World.breakers_read (w : World τ) : w.read.2.breakers = w.breakers := by
  unfold read
  split <;> rfl

@[simp]
theorem World.breakers_invoke (w : World τ) (r : Reply τ) : (w.invoke r).breakers = w.breakers := by
  unfold invoke
  split <;> rfl

@[simp]
theorem World.breakers_remember (w : World τ) (label : Option Key) (v : Value) :
    (w.remember label v).2.breakers = w.breakers := by
  unfold remember
  split
  · rfl
  · dsimp only
    split <;> exact w.breakers_read

variable [Sub τ]

@[simp]
theorem World.breakers_spent (w : World τ) (clock : Clock τ) (startedAt : Option τ) :
    (w.spent clock startedAt).2.breakers = w.breakers := by
  unfold spent
  split
  · rfl
  · exact w.breakers_read

theorem breakers_invokePrimary (clock : Clock τ) (plan : Plan τ) (startedAt : τ) (r : Reply τ)
    (w : World τ) : (invokePrimary clock plan startedAt r w).2.breakers = w.breakers := by
  unfold invokePrimary
  cases r.result with
  | error e => exact w.breakers_invoke r
  | ok v =>
    have hremember := (w.invoke r).breakers_remember plan.label v
    rw [breakers_invoke] at hremember
    rcases hr : (w.invoke r).remember plan.label v with ⟨kept | kept, w'⟩
    · simp only [hr] at hremember ⊢
      exact hremember
    · have hspent := w'.breakers_spent clock (some startedAt)
      rcases hs : w'.spent clock (some startedAt) with ⟨ms | ms, w''⟩ <;>
        simp only [hr, hs] at hremember hspent ⊢ <;> exact hspent.trans hremember

end Readings

/-! ### What a breaker is asked -/

variable {key : String}

section Asking

variable {τ : Type} [Add τ] [Sub τ] [LT τ] [DecidableLT τ] {cooldown zero : τ}

variable {w : World τ}

theorem World.ofKey_of_ask {w' : World τ} (h : w.ask zero key (.ok cooldown) = (.ok false, w')) :
    w'.breakers.ofKey zero key = ((w.breakers.ofKey zero key).ask cooldown w.read.1).2 ∧
      (w'.breakers.ofKey zero key).isOpen = false := by
  unfold ask at h
  dsimp only at h
  by_cases hopen : (w.breakers.ofKey zero key).isOpen = true
  · rw [hopen] at h
    simp only [Bool.not_true, Bool.false_eq_true, if_false, Breakers.ask, breakers_read,
      Prod.mk.injEq, Except.ok.injEq] at h
    rcases h with ⟨hsaid, rfl⟩
    refine ⟨Breakers.ofKey_put_self .., ?_⟩
    rw [Breakers.ofKey_put_self]
    simp only [Breaker.ask, hopen, Bool.not_true, Bool.false_eq_true, if_false] at hsaid ⊢
    -- it said that it is not open, so the cooldown is over and it was closed just now
    split at hsaid
    · cases hsaid
    · rw [if_neg ‹_›]
      rfl
  · rw [Bool.not_eq_true] at hopen
    simp only [hopen, Bool.not_false, if_true, Prod.mk.injEq, true_and] at h
    rw [← h, Breakers.ofKey_put_self]
    refine ⟨?_, hopen⟩
    rw [Breaker.ask, hopen]
    rfl

theorem World.ask_of_isOpen (hopen : (w.breakers.ofKey zero key).isOpen)
    (hsoon : w.read.1 - (w.breakers.ofKey zero key).openedAt < cooldown) :
    (w.ask zero key (.ok cooldown)).1 = .ok true := by
  simp only [ask, Breakers.ask, breakers_read, Breaker.ask, hopen, Bool.not_true,
    Bool.false_eq_true, if_false, if_pos hsoon]

end Asking

/-! ### What a breaker is told -/

variable {left : Nat}

section Telling

variable {τ : Type} [Add τ] [Sub τ] [LE τ] [DecidableLE τ]

theorem World.breakers_fail (w : World τ) (zero : τ) (key : String) (threshold : Int) (window : τ) :
    (w.fail zero key (.ok threshold) (.ok window)).2.breakers =
      w.breakers.fail zero key threshold window w.moments := by
  unfold fail
  dsimp only
  split <;> simp only [breakers_read]

variable {reason : String} {after : World τ}

theorem breakers_of_attempt {clock : Clock τ} {plan : Plan τ} {startedAt : τ}
    {number : Nat} {r : Reply τ} {limits : Limits τ}
    (hthreshold : plan.threshold = .ok limits.threshold) (hwindow : plan.window = .ok limits.window)
    (h : attempt clock plan (some key) startedAt number r w = (.ok (.failed reason), after)) :
    after.breakers = w.breakers.fail clock.zero key limits.threshold limits.window
      (invokePrimary clock plan startedAt r w).2.moments := by
  have hframe := breakers_invokePrimary clock plan startedAt r w
  unfold attempt at h
  rw [hthreshold, hwindow] at h
  rcases hi : invokePrimary clock plan startedAt r w with ⟨reason' | ⟨v, spent⟩, w'⟩
  · rw [hi] at h hframe
    simp only [Prod.mk.injEq] at h
    rw [← h.2, breakers_fail, hframe]
  · rw [hi] at h
    cases h

namespace Trial

def attempt (t : Trial τ) (clock : Clock τ) (plan : Plan τ) (key : String)
    (primary : Service τ) : Except Error Attempt × World τ :=
  Guard.attempt clock plan (some key) t.startedAt t.failures.length (primary t.failures.length)
    t.world

/-- The times that the breaker is told of if the attempt fails. -/
def failureTimes (t : Trial τ) (clock : Clock τ) (plan : Plan τ) (primary : Service τ) :
    Moments τ :=
  (invokePrimary clock plan t.startedAt (primary t.failures.length) t.world).2.moments

def next (t : Trial τ) (times : Moments τ) (left : Nat) (w : World τ) : Trial τ :=
  ⟨t.startedAt, t.failures ++ [times], left, w⟩

def goOn (t : Trial τ) (clock : Clock τ) (plan : Plan τ) (key : String)
    (primary : Service τ) : Except Error Envelope × World τ :=
  tryPrimary clock plan (some key) primary t.startedAt t.failures.length t.left t.world

variable {clock : Clock τ} {plan : Plan τ} {key : String} {primary : Service τ} {t : Trial τ}

theorem goOn_of_failed {pause : τ} (hleft : t.left = left + 1)
    (hfailed : t.attempt clock plan key primary = (.ok (.failed reason), after))
    (hpause : plan.pause (t.failures.length + 1) = .ok pause) (times : Moments τ) :
    t.goOn clock plan key primary =
      (t.next times left (after.pause pause)).goOn clock plan key primary := by
  unfold attempt at hfailed
  rw [goOn, hleft]
  unfold tryPrimary
  simp only [hfailed, hpause, goOn, next, List.length_append, List.length_singleton]

variable {primary' : Service τ}

theorem goOn_congr_of_attempt
    (hattempt : t.attempt clock plan key primary' = t.attempt clock plan key primary)
    (hnext : ∀ left reason after pause, t.left = left + 1 →
      t.attempt clock plan key primary = (.ok (.failed reason), after) →
      plan.pause (t.failures.length + 1) = .ok pause →
        (t.next (t.failureTimes clock plan primary) left (after.pause pause)).goOn clock plan key
            primary' =
          (t.next (t.failureTimes clock plan primary) left (after.pause pause)).goOn clock plan
            key primary) : t.goOn clock plan key primary' = t.goOn clock plan key primary := by
  rcases hfailed : t.attempt clock plan key primary with ⟨e | (e | reason), after⟩
  -- a failure is the only way to another attempt
  case ok.failed =>
    cases hleft : t.left with
    | zero =>
      rw [hfailed] at hattempt
      unfold attempt at hattempt hfailed
      unfold goOn tryPrimary
      simp only [hattempt, hfailed, hleft]
    | succ left =>
      cases hpause : plan.pause (t.failures.length + 1) with
      | error e =>
        rw [hfailed] at hattempt
        unfold attempt at hattempt hfailed
        unfold goOn tryPrimary
        simp only [hattempt, hfailed, hleft, hpause]
      | ok pause =>
        rw [goOn_of_failed hleft hfailed hpause (t.failureTimes clock plan primary),
          goOn_of_failed hleft (hattempt.trans hfailed) hpause
            (t.failureTimes clock plan primary)]
        exact hnext left reason after pause hleft hfailed hpause
  all_goals
    rw [hfailed] at hattempt
    unfold attempt at hattempt hfailed
    unfold goOn tryPrimary
    simp only [hattempt, hfailed]

end Trial

end Telling

/-! ### From one invocation to the next -/

section Calling

variable {τ : Type} [Add τ] [Sub τ] [LE τ] [LT τ] [DecidableLE τ] [DecidableLT τ]

def World.afterCalls (clock : Clock τ) (requests : List (Request τ)) (w : World τ) : World τ :=
  requests.foldl (fun w r => (call clock r.plan r.primary w).2) w

/-- The invocations of the primary that a call makes if its breaker has the key. The first
    comes after the breaker said that it is not open, every other after a failure and
    a pause. -/
inductive Invoked (clock : Clock τ) (plan : Plan τ) (key : String) (primary : Service τ)
    (start : World τ) : Trial τ → Prop where
  | first {w : World τ} {budget : Int}
      (hask : start.ask clock.zero key plan.cooldown = (.ok false, w))
      (hbudget : plan.budget = .ok budget) :
      Invoked clock plan key primary start ⟨w.read.1, [], budget.toNat, w.read.2⟩
  | again {t : Trial τ} {left : Nat} {reason : String} {after : World τ} {pause : τ}
      (h : Invoked clock plan key primary start t) (hleft : t.left = left + 1)
      (hfailed : t.attempt clock plan key primary = (.ok (.failed reason), after))
      (hpause : plan.pause (t.failures.length + 1) = .ok pause) :
      Invoked clock plan key primary start
        (t.next (t.failureTimes clock plan primary) left (after.pause pause))

variable {clock : Clock τ} {plan : Plan τ} {key : String} {primary : Service τ} {start : World τ}
  {t : Trial τ} {k : Key}

theorem call_of_ask (hk : plan.breaker? = some k) (hkey : k.text = .ok key)
    (hask : start.ask clock.zero key plan.cooldown = (.ok false, w)) {budget : Int}
    (hbudget : plan.budget = .ok budget) : call clock plan primary start =
      Trial.goOn ⟨w.read.1, [], budget.toNat, w.read.2⟩ clock plan key primary := by
  simp only [call, hk, hkey, hask, callClosed, hbudget]
  rfl

theorem call_eq_of_invoked (hk : plan.breaker? = some k) (hkey : k.text = .ok key)
    (h : Invoked clock plan key primary start t) :
    call clock plan primary start = t.goOn clock plan key primary := by
  induction h with
  | first hask hbudget => exact call_of_ask hk hkey hask hbudget
  | again _ hleft hfailed hpause ih =>
    rw [ih]
    exact Trial.goOn_of_failed hleft hfailed hpause _

theorem Trial.goOn_congr (hleft : t.left = left) (h : Invoked clock plan key primary start t)
    (hsame : ∀ t, Invoked clock plan key primary start t →
      primary' t.failures.length = primary t.failures.length) :
    t.goOn clock plan key primary' = t.goOn clock plan key primary := by
  -- on the retries that are left, with every trial on the way among the invocations
  induction left generalizing t with
  | zero =>
    refine goOn_congr_of_attempt (by rw [attempt, attempt, hsame t h]) ?_
    intro left _ _ _ hleft'
    rw [hleft] at hleft'
    cases hleft'
  | succ left ih =>
    refine goOn_congr_of_attempt (by rw [attempt, attempt, hsame t h]) ?_
    intro left' reason after pause hleft' hfailed hpause
    rw [hleft, Nat.add_right_cancel_iff] at hleft'
    subst hleft'
    exact ih rfl (.again h hleft hfailed hpause)

theorem call_congr_of_invoked (hk : plan.breaker? = some k) (hkey : k.text = .ok key)
    (hsame : ∀ t, Invoked clock plan key primary start t →
      primary' t.failures.length = primary t.failures.length) :
    call clock plan primary' start = call clock plan primary start := by
  rcases hask : start.ask clock.zero key plan.cooldown with ⟨e | (said | said), w⟩
  · simp only [call, hk, hkey, hask]
  · cases hbudget : plan.budget with
    | error e => simp only [call, hk, hkey, hask, callClosed, hbudget]
    | ok budget =>
      rw [call_of_ask hk hkey hask hbudget, call_of_ask hk hkey hask hbudget]
      exact Trial.goOn_congr rfl (.first hask hbudget) hsame
  · simp only [call, hk, hkey, hask]

theorem ask_of_invoked (h : Invoked clock plan key primary start t) :
    (start.ask clock.zero key plan.cooldown).1 = .ok false := by
  induction h with
  | first hask _ => rw [hask]
  | again _ _ _ _ ih => exact ih

/-- The breaker at an invocation is one that was closed when the call began, told of the
    failures of the call so far. -/
theorem ofKey_of_invoked {limits : Limits τ} (hthreshold : plan.threshold = .ok limits.threshold)
    (hwindow : plan.window = .ok limits.window) (hcooldown : plan.cooldown = .ok limits.cooldown)
    (h : Invoked clock plan key primary start t) : t.world.breakers.ofKey clock.zero key =
      ((start.breakers.ofKey clock.zero key).ask limits.cooldown start.read.1).2.afterFailures
        limits.threshold limits.window t.failures := by
  induction h with
  | first hask _ =>
    rw [hcooldown] at hask
    rw [breakers_read, (ofKey_of_ask hask).1]
    rfl
  | again _ _ hfailed _ ih =>
    have htold := breakers_of_attempt hthreshold hwindow hfailed
    simp only [Trial.next, Trial.failureTimes, pause]
    rw [htold, Breakers.fail, Breakers.ofKey_put_self, ih, Breaker.afterFailures_concat]

theorem isOpen_of_invoked {limits : Limits τ} (hcooldown : plan.cooldown = .ok limits.cooldown)
    (h : Invoked clock plan key primary start t) :
    ((start.breakers.ofKey clock.zero key).ask limits.cooldown start.read.1).2.isOpen = false := by
  rcases hask : start.ask clock.zero key plan.cooldown with ⟨said, w⟩
  have hsaid := ask_of_invoked h
  rw [hask] at hsaid
  subst hsaid
  rw [hcooldown] at hask
  rw [← (ofKey_of_ask hask).1]
  exact (ofKey_of_ask hask).2

/-- After any sequence of calls, a call that finds its breaker open, with the cooldown not
    over, does not invoke the primary. A call that invokes the primary does so for the first
    time with the breaker closed. From then on the breaker is not asked again: an invocation
    happens while it is open and the cooldown lasts if and only if a failure of this very
    call has opened it within the cooldown. -/
theorem invoked_while_open_iff (clock : Clock τ) (requests : List (Request τ)) (w : World τ)
    (plan : Plan τ) (primary : Service τ) (k : Key) (hk : plan.breaker? = some k) (key : String)
    (hkey : k.text = .ok key) (limits : Limits τ)
    (hthreshold : plan.threshold = .ok limits.threshold) (hwindow : plan.window = .ok limits.window)
    (hcooldown : plan.cooldown = .ok limits.cooldown) : let start := w.afterCalls clock requests
    let found := start.breakers.ofKey clock.zero key
    (found.isOpen = true → start.read.1 - found.openedAt < limits.cooldown →
        ∀ primary', call clock plan primary' start = call clock plan primary start) ∧
      ∀ t, Invoked clock plan key primary start t → let b := t.world.breakers.ofKey clock.zero key
        call clock plan primary start = t.goOn clock plan key primary ∧
          (t.failures = [] → b.isOpen = false) ∧
          (b.isOpen = true ∧ t.world.now - b.openedAt < limits.cooldown ↔
            ∃ n times, (found.ask limits.cooldown start.read.1).2.LastOpens limits.threshold
                limits.window t.failures n times ∧
              t.world.now - times.openedAt < limits.cooldown) := by
  intro start found
  refine ⟨?_, ?_⟩
  · -- nothing is invoked, so any service will do
    intro hopen hsoon primary'
    refine call_congr_of_invoked hk hkey ?_
    intro t ht
    have hsaid := ask_of_invoked ht
    rw [hcooldown, ask_of_isOpen hopen hsoon] at hsaid
    cases hsaid
  · intro t ht
    have hb := ofKey_of_invoked hthreshold hwindow hcooldown ht
    have hclosed := isOpen_of_invoked hcooldown ht
    simp only [hb]
    refine ⟨call_eq_of_invoked hk hkey ht, ?_, ?_⟩
    · intro hnone
      rw [hnone]
      exact hclosed
    · rcases afterFailures_cases limits.threshold limits.window hclosed t.failures with
        ⟨hstill, hnever⟩ | ⟨hopened, m, last, hlast, hat⟩
      · -- no failure of this call has opened the breaker
        refine iff_of_false (fun h => Bool.false_ne_true (hstill.symm.trans h.1)) ?_
        rintro ⟨n, times, h, _⟩
        exact hnever n times h.1
      · -- the failure that opened it last is the one that the breaker remembers
        rw [hat]
        constructor
        · rintro ⟨_, hsoon⟩
          exact ⟨m, last, hlast, hsoon⟩
        · rintro ⟨n, times, h, hsoon⟩
          rw [h.unique hlast] at hsoon
          exact ⟨hopened, hsoon⟩

end Calling

/-- One failure opens the breaker, and one retry is left. -/
def oneRetry : Plan Int where
  default := .null
  budget := .ok 1
  pause := fun _ => .ok 2
  breakerKey := some (.ofText "k")
  threshold := .ok 1
  window := .ok 60
  cooldown := .ok 30
  cacheKey := none
  lifetime := .ok 600
  preferCache := true
  fallback := none

def down : Service Int := fun _ => ⟨none, .error "down"⟩

/-- With one retry the primary is invoked a second time, two seconds after its first failure
    opened the breaker for thirty. -/
theorem invoked_while_open_oneRetry :
    ∃ t, Invoked ⟨0, .ok⟩ oneRetry "k" down ⟨0, [], [], [], []⟩ t ∧
      (t.world.breakers.ofKey 0 "k").isOpen = true ∧
        t.world.now - (t.world.breakers.ofKey 0 "k").openedAt < 30 := by
  have hask : ask ⟨0, [], [], [], []⟩ 0 "k" (.ok 30) =
      (.ok false, ⟨(0 : Int), [("k", .fresh 0)], [], [], []⟩) := rfl
  have hfirst : Invoked ⟨0, .ok⟩ oneRetry "k" down ⟨0, [], [], [], []⟩ _ := .first hask rfl
  have hagain := hfirst.again rfl rfl rfl
  have h := invoked_while_open_iff ⟨0, .ok⟩ [] ⟨0, [], [], [], []⟩ oneRetry down _ rfl "k" rfl
    ⟨1, 60, 30⟩ rfl rfl rfl
  refine ⟨_, hagain, (h.2 _ hagain).2.2.mpr ⟨0, ⟨0, 0, 0⟩, ⟨⟨rfl, rfl⟩, ?_⟩, by decide⟩⟩
  intro k later hk hopens
  have hnone : ([⟨0, 0, 0⟩] : List (Moments Int))[k]? = none := List.getElem?_eq_none hk
  exact absurd (hnone.symm.trans hopens.1) (Option.some_ne_none later).symm

end Loom.Guard
