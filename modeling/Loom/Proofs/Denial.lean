import Loom.Proofs.Confinement

/-!
# Refused Addresses in Receipts

A run that is refused an address logs the refusal and fails. The log is that of the session in
which the step was taken. A module that is called runs in a session of its own, and if it fails
its receipt is lost: the caller fails with the same error and has logged nothing.

Besides refusals only a `Show` logs, and what it logs it records too. So the log of a session
is told by its steps at any time, and where a run has failed for an address, the log tells of
it if the refusal was its own, and otherwise only what was shown.
-/

namespace Loom

def Receipt.shown (r : Receipt) : List Value := r.steps.filterMap fun entry =>
    if (entry.field "event").isText "show" then some (entry.field "value") else none

theorem Receipt.shown_addStep (r : Receipt) (l : Lineage) (entry : Fields Value) :
    (r.addStep l entry).shown = r.shown ++
      if (entry.getD "event" .null).isText "show" then [entry.getD "value" .null] else [] := by
  rw [shown, addStep, List.filterMap_append, List.filterMap_cons, List.filterMap_nil,
    l.field_mark entry (by decide), l.field_mark entry (by decide)]
  by_cases hshow : (entry.getD "event" .null).isText "show" = true
  · rw [if_pos hshow, if_pos hshow]
    rfl
  · rw [if_neg hshow, if_neg hshow]
    rfl

namespace Run

open Session Law

/-- A run that was refused an address ended in a session. The refusal was its own, or that of
    a module it called, so many calls down. -/
inductive Denied : Nat → Session → String → Prop
  | own {s : Session} {url : String} {entry : Value} (hs : s.enforce)
      (hmay : ¬MayFetch s.capabilities url) (hentry : IsDenial url entry)
      (hlogs : s.receipt.logs = s.receipt.shown ++ [entry]) : Denied 0 s url
  | inCall {calls depth : Nat} {s inner : Session} {name url : String} {m : Value}
      {inputs : Fields Value} (hlogs : s.receipt.logs = s.receipt.shown)
      (hm : s.module? name = some m)
      (hrun : (calleeSession s).run (called depth m inputs) =
        (.error (.run .fetchDisallowed), inner)) (h : Denied calls inner url) :
      Denied (calls + 1) { s with printed := inner.printed, fetched := inner.fetched } url

/-- While a run goes on, its log is what was shown; if it fails for an address, it was refused
    that address. -/
def Tells : Option Error → Session → Prop
  | none, s => s.receipt.logs = s.receipt.shown
  | some (.run .fetchDisallowed), s => ∃ calls url, Denied calls s url
  | some _, _ => True

theorem tells_of_ne {e : Error} (he : e ≠ .run .fetchDisallowed) (s : Session) :
    Tells (some e) s := by
  cases e with
  | run r =>
    cases r with
    | fetchDisallowed => exact absurd rfl he
    | _ => trivial
  | _ => trivial

theorem tells_of_isOrdinary {e : Error} (he : e.isOrdinary) (s : Session) :
    Tells (some e) s := by
  refine tells_of_ne ?_ s
  rintro rfl
  exact Bool.false_ne_true he

def telling : Law where
  holds := Tells
  faults he _ := tells_of_isOrdinary he _
  binds _ _ h := h
  records := by
    intro s entry lineage hentry h
    change s.receipt.logs = (s.receipt.addStep lineage entry).shown
    rw [Receipt.shown_addStep, hentry, if_neg Bool.false_ne_true, List.append_nil]
    exact h
  calls _ h := h
  shows := by
    intro s lineage v h
    refine ⟨fun e he => tells_of_isOrdinary he _, fun line _ => ?_⟩
    change s.receipt.logs ++ [v] = (s.receipt.addStep lineage (showEntry v)).shown
    rw [Receipt.shown_addStep, show s.receipt.logs = _ from h]
    rfl
  fetches _ h := h
  refuses hs hmay hentry h := ⟨0, _, .own hs hmay hentry (congrArg (· ++ [_]) h)⟩

theorem telling_moduleWith {take : Value → Run Outcome} (htake : ∀ v, telling.Governs (take v))
    (s : Session) (m : Value) (inputs : Fields Value) :
    telling.RelatesAt s (moduleWith take m inputs) (moduleWith take m inputs) :=
  relatesAt_moduleWith rfl (fun _ _ _ _ v _ => htake v) fun _ h => h

/-- A failure to read a module or its inputs is no refusal. -/
theorem telling_lift {α β : Type} {s : Session} {r : Except Error α} {f : α → Run β} (hr : Quiet r)
    (hf : ∀ a, telling.RelatesAt s (f a) (f a)) :
    telling.RelatesAt s (liftExcept r >>= f) (liftExcept r >>= f) := by
  refine ⟨rfl, ?_⟩
  rw [run_bind, run_liftExcept]
  cases r with
  | ok a => exact (hf a).2
  | error e => exact tells_of_isOrdinary hr s

theorem calls_telling {depth : Nat} (h : ∀ v, telling.Governs (takeStep depth v)) :
    telling.Calls (called depth) := by
  intro s name m inputs hs hm
  have hcalled : telling.RelatesAt (calleeSession s) (called depth m inputs)
      (called depth m inputs) :=
    telling_lift (quiet_unwrap m) fun m => telling_moduleWith h (calleeSession s) m inputs
  obtain ⟨_, hcalled⟩ := hcalled
  rcases hrun : (calleeSession s).run (called depth m inputs) with ⟨e | v, inner⟩
  · rw [hrun] at hcalled
    by_cases he : e = .run .fetchDisallowed
    · subst he
      obtain ⟨calls, url, hdenied⟩ := hcalled
      exact ⟨calls + 1, url, .inCall hs hm hrun hdenied⟩
    · exact tells_of_ne he _
  · exact hs

theorem governs_telling (depth : Nat) (v : Value) : telling.Governs (takeStep depth v) := by
  induction depth generalizing v with
  | zero => exact governs_throw rfl
  | succ depth ih =>
    intro s hs
    rw [takeStep_succ]
    exact relatesAt_step (fun _ => trivial) (fun _ _ t _ => ih t) (calls_telling ih)
      (fun _ _ _ => governs_askStep (fun _ _ => trivial) (fun _ _ h => h) s hs)
      (fun _ _ _ => trivial) hs

/-- A run that fails for an address was refused one, so many calls down. Its log tells of the
    refusal exactly if that was its own, or if just such an entry was shown. -/
theorem denial_logged_iff {s t : Session} {m inputs : Value} {enforce : Option Bool}
    {capabilities : Option Value}
    (h : s.run (runModule m inputs enforce capabilities) = (.error (.run .fetchDisallowed), t)) :
    ∃ calls url, Denied calls t url ∧ ((∃ entry ∈ t.receipt.logs, IsDenial url entry) ↔
        calls = 0 ∨ ∃ v ∈ t.receipt.shown, IsDenial url v) := by
  have htold : telling.RelatesAt s (runModule m inputs enforce capabilities)
      (runModule m inputs enforce capabilities) := by
    refine telling_lift (quiet_unwrap m) fun m => ⟨rfl, ?_⟩
    exact (telling_lift inputs.quiet_toFieldsOrNone fun _ =>
      telling_moduleWith (governs_telling depthLimit) _ m _).2
  obtain ⟨_, htold⟩ := htold
  rw [h] at htold
  obtain ⟨calls, url, hdenied⟩ := htold
  refine ⟨calls, url, hdenied, ?_⟩
  cases hdenied with
  | own hs hmay hentry hlogs =>
    rw [hlogs]
    exact ⟨fun _ => .inl rfl, fun _ => ⟨_, List.mem_append_right _ List.mem_cons_self, hentry⟩⟩
  | inCall hlogs =>
    rw [hlogs]
    exact ⟨.inr, fun h => h.resolve_left (Nat.succ_ne_zero _)⟩

/-- Whether an outcome is the failure for an address. -/
def isRefusal : Except Error Value → Bool
  | .error (.run .fetchDisallowed) => true
  | _ => false

theorem eq_of_isRefusal {r : Except Error Value} (h : isRefusal r) :
    r = .error (.run .fetchDisallowed) := by
  unfold isRefusal at h
  split at h
  · rfl
  · cases h

/-- A module that is called in a loop is refused a fixture, and the run has logged nothing. -/
theorem denial_logged_iff_in_loop :
    ∃ t, guardedSession.run (runModule callingLoop .null none none) =
        (.error (.run .fetchDisallowed), t) ∧ t.receipt.logs = [] ∧
      ∃ calls url, Denied calls t url ∧ ((∃ entry ∈ t.receipt.logs, IsDenial url entry) ↔
          calls = 0 ∨ ∃ v ∈ t.receipt.shown, IsDenial url v) := by
  have hfails :
      isRefusal (guardedSession.run (runModule callingLoop .null none none)).1 = true := by
    decide +kernel
  have hlogs : (guardedSession.run
      (runModule callingLoop .null none none)).2.receipt.logs.isEmpty = true := by
    decide +kernel
  rcases hrun : guardedSession.run (runModule callingLoop .null none none) with ⟨r, t⟩
  rw [hrun] at hfails hlogs
  obtain rfl := eq_of_isRefusal hfails
  exact ⟨t, rfl, List.isEmpty_iff.mp hlogs, denial_logged_iff hrun⟩

end Run

end Loom
