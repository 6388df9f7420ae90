import Loom.Proofs.Law
import Loom.Proofs.Vetting

/-!
# Complaints About Verbs

A run complains about a verb that does not run when it comes to a step with it. Refusing
unknown verbs at expansion is meant to rule this out, and it does for every step in a place
where expansion looks. There are five other places that running takes steps from: branches
beside the arguments of a choice, the body of a loop under that name, steps beside the
arguments of a loop, steps of a module with an empty flow, and steps in a block of a module.
A run of an expanded module complains only about a step that is in one of these, or inside
a step that is.
-/

namespace Loom

open Overlay

namespace Run

open Session

variable {α : Type}

/-! ### Who is complained about -/

/-- A computation that complains only about verbs of which `p` holds, in sessions that have no
    modules to call, and leaves it so. -/
def Blames (p : String → Prop) (c : Run α) : Prop := ∀ s : Session, s.registry = [] →
    (s.run c).2.registry = [] ∧ ∀ verb, complaint? (s.run c).1 = some verb → p verb

/-- To complain only about such verbs, as a law. -/
def blaming (p : String → Prop) : Law where
  holds e t := t.registry = [] ∧ ∀ verb, e.bind Error.verb? = some verb → p verb
  faults := by
    intro s e he h
    refine ⟨h.1, fun verb hverb => ?_⟩
    rw [Option.bind_some, Error.verb?_of_isOrdinary he] at hverb
    cases hverb
  binds _ _ h := h
  records _ _ h := h
  calls _ h := h
  shows := by
    intro s lineage v h
    refine ⟨fun e he => ⟨h.1, fun verb hverb => ?_⟩, fun _ _ => h⟩
    rw [Option.bind_some, Error.verb?_of_isOrdinary he] at hverb
    cases hverb
  fetches _ h := h
  refuses _ _ _ h := ⟨h.1, fun _ hverb => nomatch hverb⟩

variable {p : String → Prop}

theorem holds_blaming {s : Session} : (blaming p).holds none s ↔ s.registry = [] :=
  ⟨fun h => h.1, fun h => ⟨h, fun _ hverb => nomatch hverb⟩⟩

theorem blames_iff {c : Run α} : Blames p c ↔ (blaming p).Governs c := by
  have hcomplaint (r : Except Error α) : complaint? r = (failure? r).bind Error.verb? := by
    cases r <;> rfl
  constructor
  · intro h s hs
    obtain ⟨hregistry, hverb⟩ := h s hs.1
    exact ⟨rfl, hregistry, fun verb hv => hverb verb ((hcomplaint _).trans hv)⟩
  · intro h s hs
    obtain ⟨_, hregistry, hverb⟩ := h s (holds_blaming.mpr hs)
    exact ⟨hregistry, fun verb hv => hverb verb ((hcomplaint _).symm.trans hv)⟩

theorem calls_blaming (run : Value → Fields Value → Run Value) : (blaming p).Calls run := by
  intro s name m inputs hs hm
  rw [Session.module?, hs.1] at hm
  cases hm

/-! ### Runs -/

/-- A verb that does not run, of a step that `r` tells. -/
def VerbOf (r : Value → Prop) (verb : String) : Prop :=
  ∃ t s, r t ∧ Step.ofValue t = .ok s ∧ s.verb = verb ∧ verb ∉ canonicalVerbs

/-- Steps that are closed under what running them takes. -/
def IsClosed (r : Value → Prop) : Prop := ∀ v xs, r v → Takes v xs → ∀ t ∈ xs, r t

/-- A step complains about its own verb, or else about that of a step inside it. The induction
    is on the depth, of which the steps inside it have one less. -/
theorem blames_takeStep {r : Value → Prop} (hclosed : IsClosed r) (depth : Nat) {v : Value}
    (hv : r v) : Blames (VerbOf r) (takeStep depth v) := by
  induction depth generalizing v with
  | zero => exact blames_iff.mpr (Law.governs_throw rfl)
  | succ depth ih =>
    refine blames_iff.mpr fun s hs => Law.relatesAt_step (fun _ => trivial)
      (fun xs hxs t ht => ?_) (calls_blaming _)
      (fun _ _ _ => Law.governs_askStep (fun _ _ => trivial) (fun _ _ h => h) s hs)
      (fun st hst hnot => ⟨hs.1, fun verb hverb => ?_⟩) hs
    · exact blames_iff.mp (ih (hclosed v xs hv hxs t ht))
    · cases hverb
      exact ⟨v, st, hv, hst, rfl, hnot⟩

/-! ### Expanded modules -/

inductive Reached (m : Value) : Value → Prop
  | start {inner t : Value} {xs : List Value} (hinner : unwrap m = .ok inner)
      (hxs : Starts inner xs) (ht : t ∈ xs) : Reached m t
  | inside {v t : Value} {xs : List Value} (hv : Reached m v) (hxs : Takes v xs) (ht : t ∈ xs) :
      Reached m t

/-- The steps among them that are in a place where expansion does not look, or inside such a
    step. -/
inductive Overlooked (m : Value) : Value → Prop
  | start {inner t : Value} {xs : List Value} (hinner : unwrap m = .ok inner)
      (hxs : Starts inner xs) (hstray : StrayIn inner xs) (ht : t ∈ xs) : Overlooked m t
  | stray {v t : Value} {xs : List Value} (hv : Reached m v) (hxs : Takes v xs)
      (hstray : Stray v xs) (ht : t ∈ xs) : Overlooked m t
  | inside {v t : Value} {xs : List Value} (hv : Overlooked m v) (hxs : Takes v xs)
      (ht : t ∈ xs) : Overlooked m t

theorem overlooked_or_vetted {table : Table} {options : Options} {m m' t : Value}
    {warnings : List String} (hoption : options.noUnknownVerbs)
    (hexpand : expandModule table options m = .ok (m', warnings)) (ht : Reached m' t) :
    Overlooked m' t ∨ Vetted t := by
  -- the induction is along the way on which the run comes to the step
  induction ht with
  | start hinner hxs ht =>
    rcases vetted_expandModule hoption hexpand hinner hxs with hstray | hvetted
    · exact .inl (.start hinner hxs hstray ht)
    · exact .inr (hvetted _ ht)
  | @inside v t xs hv hxs ht ih =>
    rcases ih with hover | hvetted
    · exact .inl (.inside hover hxs ht)
    · by_cases hstray : Stray v xs
      · exact .inl (.stray hv hxs hstray ht)
      · obtain ⟨_, hinside⟩ := hvetted
        exact .inr (hinside xs hxs hstray t ht)

theorem blames_runModule (m inputs : Value) (enforce : Option Bool) (capabilities : Option Value) :
    Blames (VerbOf (Reached m)) (runModule m inputs enforce capabilities) := by
  have hclosed : IsClosed (Reached m) := fun _ _ hv hxs _ ht => .inside hv hxs ht
  refine blames_iff.mpr (Law.relates_lift (Law.quiet_unwrap m) fun inner hinner => ?_)
  refine Law.relates_bind (Law.governs_change fun _ h => h) fun _ => ?_
  refine Law.relates_bind (Law.governs_liftExcept inputs.quiet_toFieldsOrNone) fun _ => ?_
  refine Law.relates_bind (Law.governs_change fun _ h => h) fun _ s hs => ?_
  refine Law.relatesAt_moduleWith hs (fun flow xs hflow hxs t ht => ?_) fun _ h => h
  exact blames_iff.mp (blames_takeStep hclosed _ (.start hinner ⟨flow, hflow, hxs⟩ ht))

/-- If unknown verbs are refused, every step that a run of the expanded module may come to has
    a verb that runs, unless it is overlooked. So a run in a session without modules to call
    complains about a verb only if it is that of an overlooked step. -/
theorem complaint_overlooked {table : Table} {options : Options} {m m' : Value}
    {warnings : List String} (hoption : options.noUnknownVerbs = true)
    (hexpand : expandModule table options m = .ok (m', warnings)) :
    (∀ t s, Reached m' t → Step.ofValue t = .ok s → s.verb ∈ canonicalVerbs ∨ Overlooked m' t) ∧
    ∀ (session : Session) (inputs : Value) (enforce : Option Bool) (capabilities : Option Value)
      (verb : String), session.registry = [] →
      (session.run (runModule m' inputs enforce capabilities)).1 =
        .error (.run (.unsupportedVerb verb)) →
      ∃ t s, Overlooked m' t ∧ Step.ofValue t = .ok s ∧ s.verb = verb ∧ verb ∉ canonicalVerbs := by
  have hreached : ∀ t s, Reached m' t → Step.ofValue t = .ok s →
      s.verb ∈ canonicalVerbs ∨ Overlooked m' t := by
    intro t s ht hs
    rcases overlooked_or_vetted hoption hexpand ht with hover | ⟨hverb, _⟩
    · exact .inr hover
    · exact .inl (hverb s hs)
  refine ⟨hreached, fun session inputs enforce capabilities verb hregistry hrun => ?_⟩
  have hblames := blames_runModule m' inputs enforce capabilities session hregistry
  rw [hrun] at hblames
  obtain ⟨t, s, ht, hs, rfl, hnot⟩ := hblames.2 verb rfl
  exact ⟨t, s, (hreached t s ht hs).resolve_left hnot, hs, rfl, hnot⟩

/-- A choice with its branches beside its arguments, and the same as expansion marks it. -/
def besideChoice (marks : Fields Value) : Value :=
  .obj [("flow", .list [.obj ([("verb", .str "Choose"), ("branches", .list [.obj
    [("otherwise", .bool true), ("steps", .list [.obj [("verb", .str "Foo")]])]])] ++ marks)])]

def markedChoice : Value := besideChoice (("args", .obj []) ::
    Lineage.fields ⟨.str "Choose", .str "Choose", .null, .null, .str "n/a"⟩)

/-- Such a choice is expanded, although a verb in it is not known, and its run complains about
    that verb. -/
theorem complaint_overlooked_choice :
    expandModule [] ⟨true, false, []⟩ (besideChoice []) = .ok (markedChoice, []) ∧
      ((Session.start (.obj []) false [] []).run (runModule markedChoice .null none none)).1 =
        .error (.run (.unsupportedVerb "Foo")) ∧
      ∃ t s, Overlooked markedChoice t ∧ Step.ofValue t = .ok s ∧ s.verb = "Foo" ∧
        "Foo" ∉ canonicalVerbs := by
  have hexpand : expandModule [] ⟨true, false, []⟩ (besideChoice []) = .ok (markedChoice, []) := by
    rfl
  have hrun : ((Session.start (.obj []) false [] []).run
      (runModule markedChoice .null none none)).1 = .error (.run (.unsupportedVerb "Foo")) := by
    rfl
  exact ⟨hexpand, hrun, (complaint_overlooked rfl hexpand).2 _ _ _ _ _ rfl hrun⟩

end Run

end Loom
