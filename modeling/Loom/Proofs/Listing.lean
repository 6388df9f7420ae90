import Loom.Proofs.Coverage
import Loom.Proofs.LineKinds

/-!
# The Listing of a Flow

A flow is built from lines, each with a level, and what nests is decided by the levels. Where a
line goes is one question, and another whether it is there at all. Listed in the order of the
text, a repetition before its block, the flow has one entry for each line: a repetition with the
arguments of the line's header, or the statement that the line is read as.

A header may also complete an earlier `Repeat` that lacks its arguments, and then two lines would
have one entry. It does not come to that if no line is a bare `Repeat`, because the arguments of a
header are always complete.
-/

namespace Loom.Flow

open Loom.Text Loom.Text.Pattern Loom.Outline Node List Nest

variable {header : String} {args step : Value} {steps rest : List Value} {b : Nest Value}
  {c : Builder} {e : Entry Value}

/-- A line that is read without the lines after it. -/
def standsAlone (step : Value) : Bool :=
  step.isObj && (holdsHeader step || firstWord (verbOf step) != "repeat")

/-- The entry of a line. -/
def Entry.ReadAs (step : Value) : Entry Value → Prop
  | line s => s.origin = step ∧ holdsHeader step = false ∧
      readLine (verbOf step) (step.field "expr") = .ok s.step
  | loop origin args => origin = step ∧ ∃ header, headerOf? step (verbOf step) = some header ∧
      headerArgs header = .ok args

def Entry.IsComplete : Entry Value → Prop
  | line _ => True
  | loop _ args => Builder.isComplete args = .ok true

/-! ### Headers are complete -/

theorem exists_fits_of_isHeader (h : isHeader header = true) :
    ∃ p ∈ headerForms, p.fits header = true := by
  obtain ⟨hstart, (h | h) | h⟩ := (fits_iff (by decide) header).mp h
  · exact ⟨_, mem_cons_self, (fits_iff (by decide) header).mpr ⟨hstart, h⟩⟩
  · exact ⟨_, mem_cons_of_mem _ mem_cons_self, (fits_iff (by decide) header).mpr ⟨hstart, h⟩⟩
  · exact ⟨_, mem_cons_of_mem _ (mem_cons_of_mem _ mem_cons_self),
      (fits_iff (by decide) header).mpr ⟨hstart, h⟩⟩

theorem isComplete_of_headerArgs (hheader : headerOf? step (verbOf step) = some header)
    (h : headerArgs header = .ok args) : Builder.isComplete args = .ok true := by
  obtain ⟨s, _, rfl⟩ := mem_map.mp (mem_of_find?_eq_some hheader)
  obtain ⟨p, hp, hfits⟩ := exists_fits_of_isHeader (find?_some hheader)
  obtain ⟨found, hfound, h⟩ := of_bind_ok h
  cases h
  rw [readHeader?, strip_strip] at hfound
  cases hm : headerForms.findSome? fun p => p.match? (strip s) with
  | none =>
    rw [fits, findSome?_eq_none_iff.mp hm p hp] at hfits
    cases hfits
  | some m =>
    rw [hm] at hfound
    obtain ⟨range, _, hfound⟩ := of_bind_ok hfound
    cases hfound
    rfl

theorem Entry.ReadAs.isComplete (h : e.ReadAs step) : e.IsComplete := by
  cases e with
  | line s => trivial
  | loop origin args =>
    obtain ⟨_, header, hheader, hargs⟩ := h
    exact isComplete_of_headerArgs hheader hargs

/-! ### Reading the lines -/

theorem exists_entry_of_buildStep {taken : Nat} (hstep : standsAlone step = true)
    (hb : ∀ e ∈ b.entries, e.IsComplete) (h : buildStep b.toBuilder step rest = .ok (c, taken)) :
    ∃ (b' : Nest Value) (e : Entry Value), c = b'.toBuilder ∧ taken = 0 ∧ e.ReadAs step ∧
      b'.entries = b.entries ++ [e] := by
  rw [standsAlone, Bool.and_eq_true, Bool.or_eq_true, bne_iff_ne] at hstep
  cases takes_of_buildStep h with
  | other hobj => simp [hobj] at hstep
  | @header level header args _ hheader hargs hadd =>
    obtain ⟨b', before, stub, after, rfl, hlist, hlist', hcase⟩ :=
      exists_entries_of_addHeader step hadd
    refine ⟨b', .loop step args, rfl, rfl, ⟨rfl, header, hheader, hargs⟩, ?_⟩
    rcases hcase with ⟨rfl, rfl⟩ | ⟨own, ownArgs, rfl, hown⟩
    · rw [hlist', hlist, append_nil, append_nil]
    · have hcomplete : Builder.isComplete ownArgs = .ok true :=
        hb (.loop own ownArgs) (by simp [hlist])
      rw [hown] at hcomplete
      cases hcomplete
  | stub hrepeat hheader =>
    simp [holdsHeader, hheader, hrepeat] at hstep
  | @line level s hheader hread =>
    let read : Statement Value := ⟨step, s, isStatement_of_readLine hread⟩
    refine ⟨(b.leave level).push (.line read), .line read, ?_, rfl, ⟨rfl, ?_, hread⟩, ?_⟩
    · rw [toBuilder_push, toBuilder_leave]
      rfl
    · rw [holdsHeader, hheader]
      rfl
    · rw [entries_push, entries_leave]
      rfl

theorem exists_listing_of_buildSteps (hsteps : ∀ step ∈ steps, standsAlone step = true)
    (hb : ∀ e ∈ b.entries, e.IsComplete) (h : buildSteps b.toBuilder 0 steps = .ok c) :
    ∃ (b' : Nest Value) (new : List (Entry Value)), c = b'.toBuilder ∧
      b'.entries = b.entries ++ new ∧ Forall₂ Entry.ReadAs steps new := by
  induction steps generalizing b with
  | nil => exact ⟨b, [], (Except.ok.inj h).symm, (append_nil _).symm, .nil⟩
  | cons step rest ih =>
    obtain ⟨hstep, hrest⟩ := forall_mem_cons.mp hsteps
    obtain ⟨⟨c', taken⟩, hbuild, h⟩ := of_bind_ok h
    obtain ⟨b₁, e, rfl, rfl, hread, hlist₁⟩ := exists_entry_of_buildStep hstep hb hbuild
    have hb₁ : ∀ e ∈ b₁.entries, e.IsComplete := by
      rw [hlist₁]
      exact forall_mem_append.mpr ⟨hb, forall_mem_singleton.mpr hread.isComplete⟩
    obtain ⟨b', new, rfl, hlist, hnew⟩ := ih hrest hb₁ h
    refine ⟨b', e :: new, rfl, ?_, .cons hread hnew⟩
    rw [hlist, hlist₁, append_assoc]
    rfl

/-- If no line is a bare `Repeat`, the flow lists one entry for each line, in the same order. -/
theorem buildFlow_lists_steps {flow : List Value} (hsteps : ∀ step ∈ steps, standsAlone step = true)
    (h : buildFlow (.list steps) = .ok flow) :
    ∃ forest : List (Node Value), flow = toValues forest ∧
      Forall₂ Entry.ReadAs steps (entriesOf forest) := by
  obtain ⟨c, hc, h⟩ := of_bind_ok (show buildSteps {} 0 steps >>= _ = .ok flow from h)
  obtain ⟨b, new, rfl, hlist, hnew⟩ :=
    exists_listing_of_buildSteps (b := {}) hsteps (forall_mem_nil _) hc
  refine ⟨b.forest, ?_, ?_⟩
  · rw [toValues_forest]
    exact (Except.ok.inj h).symm
  · rw [entriesOf_forest, hlist]
    exact hnew

/-- A header and a line in its block. -/
def loopLines : List Value :=
  [.obj [("verb", .str "Repeat i in 1..3"), ("level", .int 0)],
    .obj [("verb", .str "Show i"), ("level", .int 1)]]

theorem buildFlow_lists_steps_loop : ∃ forest : List (Node Value),
    buildFlow (.list loopLines) = .ok (toValues forest) ∧
      Forall₂ Entry.ReadAs loopLines (entriesOf forest) := by
  have hok : (buildFlow (.list loopLines)).isOk = true := by decide +kernel
  cases h : buildFlow (.list loopLines) with
  | error e => rw [h] at hok; cases hok
  | ok flow =>
    obtain ⟨forest, rfl, hlist⟩ := buildFlow_lists_steps (by decide +kernel) h
    exact ⟨forest, rfl, hlist⟩

end Loom.Flow
