import Loom.Proofs.Shielding

/-!
# The Last Good Value

When the primary does not answer, a guarded call may be answered by the last good value. What
it finds is decided by the values that earlier calls have produced under its label, and by the
clock: the last of these values, if it is not null and not too old, and none otherwise.

The store keeps one value for each label. To compare it with everything that was produced, a
call is read as a `Course`: the values that its attempts at the primary produce, each with the
time at which it was there, and the world in which a stand-in is looked for. `course_leadsTo`
ties the course to the call: the store after the call is the store before it, with the values of
the course listed in it one after the other, and the answer is that of the primary unless a
stand-in was looked for. Of the values listed under a name the last one is found.

Nothing is asked of the clock. It may even go backwards, and then a value from the future is
young enough.
-/

namespace Loom.Guard

open Plan Option World

/-! ### What leaves the store alone -/

section Frame

variable {τ : Type} [Add τ]

@[simp]
theorem World.cache_read (w : World τ) : w.read.2.cache = w.cache := by
  unfold read
  split <;> rfl

@[simp]
theorem World.cache_invoke (w : World τ) (r : Reply τ) : (w.invoke r).cache = w.cache := by
  unfold invoke
  split <;> rfl

@[simp]
theorem World.cache_pause (w : World τ) (t : τ) : (w.pause t).cache = w.cache := rfl

variable [Sub τ]

@[simp]
theorem World.cache_spent (w : World τ) (clock : Clock τ) (startedAt : Option τ) :
    (w.spent clock startedAt).2.cache = w.cache := by
  unfold spent
  split
  · rfl
  · exact w.cache_read

theorem World.cache_ask [LT τ] [DecidableLT τ] (w : World τ) (zero : τ) (key : String)
    (cooldown : Except Error τ) : (w.ask zero key cooldown).2.cache = w.cache := by
  unfold ask
  dsimp only
  split
  · rfl
  · split <;> exact w.cache_read

variable [LE τ] [DecidableLE τ]

theorem World.cache_fail (w : World τ) (zero : τ) (key : String) (threshold : Except Error Int)
    (window : Except Error τ) : (w.fail zero key threshold window).2.cache = w.cache := by
  unfold fail
  split
  · dsimp only
    split <;> simp only [cache_read]
  · simp
  · simp

theorem World.cache_lastGood (w : World τ) (label : Option Key) (lifetime : Except Error τ) :
    (w.lastGood label lifetime).2.cache = w.cache := by
  unfold lastGood
  split
  · rfl
  · split
    · rfl
    · rfl
    · exact w.cache_read

end Frame

/-! ### What a call produces -/

/-- What a call does on its way to an answer. -/
structure Course (τ : Type) where
  /-- The values that its attempts at the primary produce, with the times. -/
  tried : List (τ × Value)
  /-- The world in which a stand-in is looked for, if one is. -/
  seeking : Option (World τ)

section Producing

variable {τ : Type}

/-- The name that the last good value is listed under. -/
def Plan.listedAs (plan : Plan τ) : Option String := plan.label.bind fun k => k.text.toOption

def Plan.list (plan : Plan τ) (vs : List (τ × Value)) (cache : Fields (τ × Value)) :
    Fields (τ × Value) :=
  match plan.listedAs with
  | none => cache
  | some name => vs.foldl (fun cache v => cache.put name v) cache

@[simp]
theorem Plan.list_nil (plan : Plan τ) (cache : Fields (τ × Value)) :
    plan.list [] cache = cache := by
  unfold list
  split <;> rfl

theorem Plan.list_append (plan : Plan τ) (vs more : List (τ × Value)) (cache : Fields (τ × Value)) :
    plan.list (vs ++ more) cache = plan.list more (plan.list vs cache) := by
  unfold list
  split
  · rfl
  · exact List.foldl_append

theorem Plan.get?_list (plan : Plan τ) (vs : List (τ × Value)) (cache : Fields (τ × Value))
    (name : String) : (plan.list vs cache).get? name =
      if plan.listedAs = some name then vs.getLast?.or (cache.get? name) else cache.get? name := by
  induction vs using List.reverseRecOn with
  | nil => simp
  | append_singleton vs v ih =>
    rw [list_append]
    cases hname : plan.listedAs with
    | none => simp [list, hname]
    | some other =>
      have hlast : plan.list [v] (plan.list vs cache) = (plan.list vs cache).put other v := by
        simp [list, hname]
      rw [hlast]
      by_cases h : other = name
      · rw [h, Fields.get?_put_self]
        simp
      · rw [Fields.get?_put_of_ne _ h, ih, hname]
        simp [h]

variable [Add τ]

/-- The value that an invocation produces, with the time at which it is there. -/
def Reply.yields (r : Reply τ) (w : World τ) : List (τ × Value) := match r.result with
  | .ok v => [((w.invoke r).read.1, v)]
  | .error _ => []

variable {r : Reply τ} {v : Value}

theorem World.cache_remember (plan : Plan τ) (hr : r.result = .ok v) (w : World τ) :
    ((w.invoke r).remember plan.label v).2.cache = plan.list (r.yields w) w.cache := by
  unfold remember list listedAs Reply.yields
  rw [hr]
  cases plan.label with
  | none => exact w.cache_invoke r
  | some k =>
    cases htext : k.text <;>
      simp only [bind_some, Except.toOption, htext, cache_read, cache_invoke,
        List.foldl_cons, List.foldl_nil]

theorem Reply.yields_of_error {reason : String} (hr : r.result = .error reason)
    (w : World τ) : r.yields w = [] := by
  rw [yields, hr]

variable [Sub τ]

theorem cache_invokePrimary (clock : Clock τ) (plan : Plan τ) (startedAt : τ) (r : Reply τ)
    (w : World τ) :
    (invokePrimary clock plan startedAt r w).2.cache = plan.list (r.yields w) w.cache := by
  unfold invokePrimary
  cases hr : r.result with
  | error reason =>
    rw [Reply.yields_of_error hr, list_nil]
    exact w.cache_invoke r
  | ok v =>
    have hremember := cache_remember plan hr w
    dsimp only
    rcases hk : (w.invoke r).remember plan.label v with ⟨_ | _, w₁⟩
    · rwa [hk] at hremember
    · rw [hk] at hremember
      have hspent := w₁.cache_spent clock (some startedAt)
      rcases hs : w₁.spent clock (some startedAt) with ⟨_ | _, w₂⟩
      all_goals
        rw [hs] at hspent
        simp only [hs]
        exact hspent.trans hremember

theorem cache_fallBack (clock : Clock τ) (plan : Plan τ) (startedAt : Option τ) (r : Reply τ)
    (w : World τ) :
    (fallBack clock plan startedAt r w).2.cache = plan.list (r.yields w.read.2) w.cache := by
  unfold fallBack
  cases hr : r.result with
  | error reason =>
    rw [Reply.yields_of_error hr, list_nil]
    exact (w.read.2.cache_invoke r).trans w.cache_read
  | ok v =>
    have hremember := cache_remember plan hr w.read.2
    rw [cache_read] at hremember
    dsimp only
    rcases hk : (w.read.2.invoke r).remember plan.label v with ⟨_ | _, w₁⟩
    · rwa [hk] at hremember
    · rw [hk] at hremember
      exact (w₁.cache_spent clock (some (startedAt.getD w.read.1))).trans hremember

variable [LE τ] [DecidableLE τ]

theorem cache_attempt (clock : Clock τ) (plan : Plan τ) (key : Option String) (startedAt : τ)
    (number : Nat) (r : Reply τ) (w : World τ) :
    (attempt clock plan key startedAt number r w).2.cache = plan.list (r.yields w) w.cache := by
  rw [← cache_invokePrimary clock plan startedAt r w]
  unfold attempt
  rcases invokePrimary clock plan startedAt r w with ⟨reason | ⟨v, spent⟩, w₁⟩
  · cases key with
    | none => rfl
    | some k => exact w₁.cache_fail clock.zero k plan.threshold plan.window
  · cases key <;> rfl

def Plan.sought (plan : Plan τ) (w : World τ) : Except Error (Option Value) × World τ :=
  if plan.preferCache then w.lastGood plan.label plan.lifetime else (.ok none, w)

theorem Plan.cache_sought (plan : Plan τ) (w : World τ) : (plan.sought w).2.cache = w.cache := by
  unfold sought
  split
  · exact w.cache_lastGood plan.label plan.lifetime
  · rfl

/-- What is produced where a stand-in is looked for: the value of the fallback, if it comes
    to that. -/
def Plan.fallbackYields (plan : Plan τ) (w : World τ) : List (τ × Value) :=
  match (plan.sought w).1, plan.fallback with
  | .ok none, some r => r.yields (plan.sought w).2.read.2
  | _, _ => []

theorem cache_standIn (clock : Clock τ) (plan : Plan τ) (startedAt : Option τ) (w : World τ) :
    (standIn clock plan startedAt w).2.cache = plan.list (plan.fallbackYields w) w.cache := by
  have hsought := plan.cache_sought w
  unfold standIn fallbackYields
  rw [← sought]
  rcases hs : plan.sought w with ⟨e | (_ | v), w₁⟩
  all_goals
    rw [hs] at hsought
    dsimp only at hsought ⊢
  · rw [list_nil, hsought]
  · cases plan.fallback with
    | none => rw [list_nil, cache_spent, hsought]
    | some r =>
      have hback := cache_fallBack clock plan startedAt r w₁
      rw [hsought] at hback
      dsimp only
      rcases hf : fallBack clock plan startedAt r w₁ with ⟨_ | _, w₂⟩
      all_goals rw [hf] at hback
      · exact (w₂.cache_spent clock startedAt).trans hback
      · exact hback
  · rw [list_nil, cache_spent, hsought]

variable {plan : Plan τ} {clock : Clock τ} {w : World τ}

theorem source_of_standIn {startedAt : Option τ} {source : Source} {spent : Int}
    (h : (standIn clock plan startedAt w).1 = .ok (source, v, spent)) :
    ∃ found, (plan.sought w).1 = .ok found ∧
      (source = .cache ↔ found = some v) ∧ (found = none ∨ found = some v) := by
  have hmap {given : Source} {u : Value} {result : Except Error Int}
      (h : (result.map fun t => (given, u, t)) = .ok (source, v, spent)) :
      source = given ∧ v = u := by
    cases result with
    | error e => cases h
    | ok t => cases h; exact ⟨rfl, rfl⟩
  unfold standIn at h
  rw [← sought] at h
  rcases hs : plan.sought w with ⟨e | (_ | found), w₁⟩
  all_goals
    rw [hs] at h
  · cases h
  · refine ⟨none, rfl, ?_, .inl rfl⟩
    cases hf : plan.fallback with
    | none =>
      rw [hf] at h
      rcases hmap h with ⟨rfl, rfl⟩
      simp
    | some r =>
      rw [hf] at h
      dsimp only at h
      rcases hb : fallBack clock plan startedAt r w₁ with ⟨_ | ⟨u, t⟩, w₂⟩
      · rw [hb] at h
        rcases hmap h with ⟨rfl, rfl⟩
        simp
      · rw [hb] at h
        cases h
        simp
  · rcases hmap h with ⟨rfl, rfl⟩
    exact ⟨some v, rfl, by simp, .inr rfl⟩

theorem Plan.sought_eq {k : Key} {name : String} {lifetime : τ} (w : World τ)
    (hlabel : plan.label = some k) (hused : k.isUsed) (htext : k.text = .ok name)
    (hprefer : plan.preferCache) (hlifetime : plan.lifetime = .ok lifetime) :
    (plan.sought w).1 = .ok ((w.cache.get? name).bind fun x =>
      if w.read.1 - x.1 ≤ lifetime && !x.2.isNull then some x.2 else none) := by
  simp only [sought, hprefer, if_true, lastGood, hlabel, filter_some, hused, htext,
    hlifetime, Except.map]
  cases w.cache.get? name <;> rfl

/-! ### The course of a call -/

def tryCourse (clock : Clock τ) (plan : Plan τ) (key : Option String) (primary : Service τ)
    (startedAt : τ) (number : Nat) : Nat → World τ → Course τ
  | left, w =>
    let tried := (primary number).yields w
    match attempt clock plan key startedAt number (primary number) w, left with
    | (.ok (.failed _), w), 0 => ⟨tried, some w⟩
    | (.ok (.failed _), w), left + 1 =>
      match plan.pause (number + 1) with
      | .error _ => ⟨tried, none⟩
      | .ok t =>
        let rest := tryCourse clock plan key primary startedAt (number + 1) left (w.pause t)
        ⟨tried ++ rest.tried, rest.seeking⟩
    | _, _ => ⟨tried, none⟩

def Course.produced (c : Course τ) (plan : Plan τ) : List (τ × Value) :=
  c.tried ++ (c.seeking.map plan.fallbackYields).getD []

/-- A course leads to an answer: what it produces is listed, and the answer is that of the
    primary unless a stand-in was looked for. -/
structure Course.LeadsTo (c : Course τ) (clock : Clock τ) (plan : Plan τ) (w : World τ)
    (answer : Except Error Envelope × World τ) : Prop where
  cache : answer.2.cache = plan.list (c.produced plan) w.cache
  seeking : ∀ seek, c.seeking = some seek → seek.cache = plan.list c.tried w.cache ∧
    ∀ e, answer.1 = .ok e →
      ∃ startedAt spent, (standIn clock plan startedAt seek).1 = .ok (e.source, e.value, spent)
  primary : c.seeking = none → ∀ e, answer.1 = .ok e → e.source = .primary

variable {w₁ : World τ}

section Leading

variable {clock : Clock τ} {plan : Plan τ} {w : World τ} {tried : List (τ × Value)}
  {answer : Except Error Envelope × World τ}

theorem Course.leadsTo_of_answered (hcache : answer.2.cache = plan.list tried w.cache)
    (hprimary : ∀ e, answer.1 = .ok e → e.source = .primary) :
    Course.LeadsTo ⟨tried, none⟩ clock plan w answer where
  cache := by simpa [produced] using hcache
  seeking := nofun
  primary := fun _ => hprimary

theorem Course.leadsTo_of_error {reason : Error}
    (h : answer.1 = .error reason) (hcache : answer.2.cache = plan.list tried w.cache) :
    Course.LeadsTo ⟨tried, none⟩ clock plan w answer := by
  refine leadsTo_of_answered hcache fun e he => ?_
  rw [h] at he
  cases he

theorem Course.leadsTo_of_standIn {seek : World τ} (hseek : seek.cache = plan.list tried w.cache)
    (startedAt : Option τ) {f : Source × Value × Int → Envelope}
    (hf : ∀ x, (f x).source = x.1 ∧ (f x).value = x.2.1) :
    Course.LeadsTo ⟨tried, some seek⟩ clock plan w
      ((standIn clock plan startedAt seek).1.map f, (standIn clock plan startedAt seek).2) where
  cache := by
    dsimp only [produced, map_some, getD_some]
    rw [cache_standIn, list_append, hseek]
  seeking := by
    rintro _ ⟨⟩
    refine ⟨hseek, fun e he => ⟨startedAt, ?_⟩⟩
    cases hs : (standIn clock plan startedAt seek).1 with
    | error reason =>
      rw [hs] at he
      cases he
    | ok x =>
      rw [hs] at he
      cases he
      exact ⟨x.2.2, by rw [(hf x).1, (hf x).2]⟩
  primary := nofun

theorem Course.LeadsTo.after {c : Course τ} (h : c.LeadsTo clock plan w₁ answer)
    (hw : w₁.cache = plan.list tried w.cache) :
    Course.LeadsTo ⟨tried ++ c.tried, c.seeking⟩ clock plan w answer where
  cache := by
    rw [h.cache, hw, ← list_append, produced, produced, List.append_assoc]
  seeking := fun seek hseek => by
    rw [list_append, ← hw]
    exact h.seeking seek hseek
  primary := h.primary

end Leading

theorem source_of_attempt {key : Option String} {startedAt : τ}
    {number : Nat} {w' : World τ} {e : Envelope}
    (h : attempt clock plan key startedAt number r w = (.ok (.answered e), w')) :
    e.source = .primary := by
  unfold attempt at h
  rcases hi : invokePrimary clock plan startedAt r w with ⟨reason | ⟨v, spent⟩, w₁⟩
  all_goals rw [hi] at h
  · cases key with
    | none => cases h
    | some k =>
      cases hf : (w₁.fail clock.zero k plan.threshold plan.window).1 <;>
        simp [hf, Except.map] at h
  · cases key <;> cases h <;> rfl

theorem tryCourse_leadsTo (clock : Clock τ) (plan : Plan τ) (key : Option String)
    (primary : Service τ) (startedAt : τ) (number left : Nat) (w : World τ) :
    (tryCourse clock plan key primary startedAt number left w).LeadsTo clock plan w
      (tryPrimary clock plan key primary startedAt number left w) := by
  induction left generalizing number w
  -- the attempt comes to the same whether or not there are others left
  all_goals
    have hcache := cache_attempt clock plan key startedAt number (primary number) w
    unfold tryCourse tryPrimary
    rcases ha : attempt clock plan key startedAt number (primary number) w with
      ⟨e | (e | reason), w₁⟩
    case error => rw [ha] at hcache; exact Course.leadsTo_of_error rfl hcache
    case ok.answered =>
      rw [ha] at hcache
      exact Course.leadsTo_of_answered hcache fun _ h => by cases h; exact source_of_attempt ha
    rw [ha] at hcache
  case zero => exact Course.leadsTo_of_standIn hcache (some startedAt) fun _ => ⟨rfl, rfl⟩
  case succ left ih =>
    · dsimp only
      cases plan.pause (number + 1) with
      | error e => exact Course.leadsTo_of_error rfl hcache
      | ok t => exact (ih (number + 1) (w₁.pause t)).after hcache

/-- The course of a call whose breaker is not open. -/
def closedCourse (clock : Clock τ) (plan : Plan τ) (key : Option String) (primary : Service τ)
    (w : World τ) : Course τ :=
  match plan.budget with
  | .error _ => ⟨[], none⟩
  | .ok budget => tryCourse clock plan key primary w.read.1 0 budget.toNat w.read.2

theorem closedCourse_leadsTo (clock : Clock τ) (plan : Plan τ) (key : Option String)
    (primary : Service τ) (hw : w₁.cache = w.cache) :
    (closedCourse clock plan key primary w₁).LeadsTo clock plan w
      (callClosed clock plan key primary w₁) := by
  unfold closedCourse callClosed
  have hread : w₁.read.2.cache = plan.list [] w.cache := by
    rw [w₁.cache_read, hw, list_nil]
  cases plan.budget with
  | error e => exact Course.leadsTo_of_error rfl hread
  | ok budget =>
    exact (tryCourse_leadsTo clock plan key primary w₁.read.1 0 budget.toNat w₁.read.2).after hread

variable [LT τ] [DecidableLT τ]

/-- The course of a guarded call. While its breaker is open, a stand-in is looked for at
    once. -/
def course (clock : Clock τ) (plan : Plan τ) (primary : Service τ) (w : World τ) : Course τ :=
  match plan.breaker? with
  | none => closedCourse clock plan none primary w
  | some k =>
    match k.text with
    | .error _ => ⟨[], none⟩
    | .ok key =>
      match w.ask clock.zero key plan.cooldown with
      | (.error _, _) => ⟨[], none⟩
      | (.ok true, w) => ⟨[], some w⟩
      | (.ok false, w) => closedCourse clock plan (some key) primary w

theorem course_leadsTo (clock : Clock τ) (plan : Plan τ) (primary : Service τ) (w : World τ) :
    (course clock plan primary w).LeadsTo clock plan w (call clock plan primary w) := by
  unfold course call
  cases plan.breaker? with
  | none => exact closedCourse_leadsTo clock plan none primary rfl
  | some k =>
    dsimp only
    cases k.text with
    | error e => exact Course.leadsTo_of_error rfl (plan.list_nil _).symm
    | ok key =>
      have hask := w.cache_ask clock.zero key plan.cooldown
      dsimp only
      rcases ha : w.ask clock.zero key plan.cooldown with ⟨e | (_ | _), w₁⟩
      all_goals rw [ha] at hask
      · exact Course.leadsTo_of_error rfl (hask.trans (plan.list_nil _).symm)
      · exact closedCourse_leadsTo clock plan (some key) primary hask
      · exact Course.leadsTo_of_standIn (hask.trans (plan.list_nil _).symm) none
          fun _ => ⟨rfl, rfl⟩

/-- The values that calls have produced under a name, in order. Calls with another name are
    passed over. -/
def World.produced (w : World τ) (clock : Clock τ) (name : String) :
    List (Request τ) → List (τ × Value)
  | [] => []
  | r :: rest =>
    let next := (call clock r.plan r.primary w).2
    (if r.plan.listedAs = some name then (course clock r.plan r.primary w).produced r.plan else [])
      ++ next.produced clock name rest

theorem World.get?_cache_afterCalls (clock : Clock τ) (requests : List (Request τ)) (w : World τ)
    (name : String) : (w.afterCalls clock requests).cache.get? name =
      (w.produced clock name requests).getLast?.or (w.cache.get? name) := by
  induction requests generalizing w with
  | nil => rfl
  | cons r rest ih =>
    have hcall := (course_leadsTo clock r.plan r.primary w).cache
    rw [produced, List.getLast?_append, Option.or_assoc]
    refine (ih (call clock r.plan r.primary w).2).trans ?_
    rw [hcall, get?_list]
    split
    · rfl
    · rfl

/-- **A call is answered by the last good value.** After any sequence of calls, a call with a
    label that prefers the last good value and is not answered by its primary has looked for
    a stand-in, at some moment. The answer is the last good value just if the last value
    produced under its label by then is not null and not too old at that moment, and then this
    value is the answer. Calls with other labels play no part. -/
theorem cache_answers_last_good (clock : Clock τ) (requests : List (Request τ)) (w₀ : World τ)
    (plan : Plan τ) (primary : Service τ) {k : Key} {name : String} {lifetime : τ} {e : Envelope}
    (hcache : w₀.cache.get? name = none) (hlabel : plan.label = some k) (hused : k.isUsed = true)
    (htext : k.text = .ok name) (hprefer : plan.preferCache = true)
    (hlifetime : plan.lifetime = .ok lifetime)
    (hcall : (call clock plan primary (w₀.afterCalls clock requests)).1 = .ok e)
    (hsource : e.source ≠ .primary) :
    let c := course clock plan primary (w₀.afterCalls clock requests)
    ∃ seek, c.seeking = some seek ∧
      let last := (w₀.produced clock name requests ++ c.tried).getLast?
      (e.source = .cache ↔
        ∃ t v, last = some (t, v) ∧ v.isNull = false ∧ seek.read.1 - t ≤ lifetime) ∧
      (e.source = .cache → last.map Prod.snd = some e.value) := by
  intro c
  have hleads := course_leadsTo clock plan primary (w₀.afterCalls clock requests)
  cases hseeking : c.seeking with
  | none => exact absurd (hleads.primary hseeking e hcall) hsource
  | some seek =>
    refine ⟨seek, rfl, ?_⟩
    intro last
    rcases hleads.seeking seek hseeking with ⟨hstore, hstand⟩
    rcases hstand e hcall with ⟨startedAt, spent, hstand⟩
    rcases source_of_standIn hstand with ⟨found, hfound, hiff, hvalue⟩
    have hlisted : plan.listedAs = some name := by
      simp only [listedAs, hlabel, bind_some, htext, Except.toOption]
    have hlast : seek.cache.get? name = last := by
      rw [hstore, get?_list, if_pos hlisted, get?_cache_afterCalls, hcache,
        or_none, ← List.getLast?_append]
    rw [sought_eq seek hlabel hused htext hprefer hlifetime, hlast, Except.ok.injEq] at hfound
    rw [hiff]
    cases hl : last with
    | none =>
      rw [hl] at hfound
      cases hfound
      simp
    | some x =>
      rw [hl, bind_some] at hfound
      by_cases hgood : (decide (seek.read.1 - x.1 ≤ lifetime) && !x.2.isNull) = true
      · rw [if_pos hgood] at hfound
        rw [← hfound] at hvalue ⊢
        rw [Bool.and_eq_true, decide_eq_true_eq, Bool.not_eq_true'] at hgood
        rcases hvalue with hnone | hsome
        · cases hnone
        · exact ⟨iff_of_true hsome ⟨x.1, x.2, rfl, hgood.2, hgood.1⟩, fun _ => hsome⟩
      · rw [if_neg hgood] at hfound
        rw [← hfound]
        refine ⟨iff_of_false (some_ne_none _).symm ?_, nofun⟩
        rintro ⟨t, v, ⟨rfl⟩, hnull, hage⟩
        simp [hnull, hage] at hgood

end Producing

/-- A service that is up, and takes a second to answer. -/
def up (v : Value) : Service Int := fun _ => ⟨some 1, .ok v⟩

/-- A service is up, and then a service with another key. -/
def twoServices : List (Request Int) :=
  [⟨oneRetry, up (.int 7)⟩, ⟨{ oneRetry with breakerKey := some (.ofText "other") }, up .null⟩]

/-- When the first service goes down, the call is answered by what it answered before. -/
theorem cache_answers_last_good_twoServices : ∃ e, (call ⟨0, .ok⟩ oneRetry down
        (World.afterCalls ⟨0, .ok⟩ twoServices ⟨0, [], [], [], []⟩)).1 = .ok e ∧
      e.source = .cache ∧ e.value = .int 7 := by
  have hproduced : produced ⟨0, [], [], [], []⟩ ⟨0, .ok⟩ "k" twoServices = [(1, .int 7)] := rfl
  obtain ⟨found, hcourse, hnow⟩ : ∃ found, course ⟨0, .ok⟩ oneRetry down
      (afterCalls ⟨0, .ok⟩ twoServices ⟨0, [], [], [], []⟩) = ⟨[], some found⟩ ∧
        found.read.1 = 4 := ⟨_, rfl, rfl⟩
  obtain ⟨e, hcall, hstale⟩ : ∃ e, (call ⟨0, .ok⟩ oneRetry down
      (afterCalls ⟨0, .ok⟩ twoServices ⟨0, [], [], [], []⟩)).1 = .ok e ∧ e.source ≠ .primary :=
    ⟨⟨"primary failed; served from cache", some "down", 1, 2, .cache, .int 7⟩, rfl, nofun⟩
  obtain ⟨seek, hseek, hiff, hvalue⟩ := cache_answers_last_good ⟨0, .ok⟩ twoServices
    ⟨0, [], [], [], []⟩ oneRetry down rfl rfl rfl rfl rfl rfl hcall hstale
  rw [hcourse] at hseek
  cases hseek
  rw [hcourse, hproduced] at hiff hvalue
  have hsource := hiff.mpr ⟨1, .int 7, rfl, rfl, by rw [hnow]; decide⟩
  exact ⟨e, hcall, hsource, (some.inj (hvalue hsource)).symm⟩

end Loom.Guard
