import Loom.Text.Pattern

/-!
# Following a Pattern

A pattern is run by backtracking, and two things can be said of it without the
order in which the choices are tried.

If a pattern succeeds, then the place it got to is one it can get to, with the
groups it can have there: `Fits` says which these are, and `fits_of_run` is the
proof. It is used the other way round: a pattern that cannot fit is not found.

The first way in which a whole pattern fits depends on what comes after. `Reads`
says of a piece of a pattern that it goes to a certain place whenever the rest
of the pattern can go on from there, and then no other choice matters. Pieces
that do so can be put together, which is how a line is followed through the
pattern that it was written for.
-/

namespace Loom.Text.Pattern

open List

variable {accepts : Char → Bool} {before : Option Char} {c : Char} {w cs : List Char}
  {here next : Place} {gs gs' : Groups} {p q : Pattern} {s : String}

/-- The character before the rest, once a text has been passed. -/
def lastOf (before : Option Char) (w : List Char) : Option Char := w.getLast?.or before

theorem lastOf_cons (before : Option Char) (c : Char) (w : List Char) :
    lastOf before (c :: w) = lastOf (some c) w := by
  rw [lastOf, lastOf, getLast?_cons]
  cases w.getLast? <;> rfl

/-- The places that a pattern can get to, and the groups there. A repeated
    pattern is let go anywhere. -/
def Fits : Pattern → Place → Groups → Place → Groups → Prop
  | nothing, here, gs, next, gs' => next = here ∧ gs' = gs
  | one accepts, here, gs, next, gs' =>
    ∃ c, accepts c = true ∧ here.rest = c :: next.rest ∧ next.before = some c ∧ gs' = gs
  | seq p q, here, gs, next, gs' => ∃ mid gm, p.Fits here gs mid gm ∧ q.Fits mid gm next gs'
  | alt p q, here, gs, next, gs' => p.Fits here gs next gs' ∨ q.Fits here gs next gs'
  | many accepts, here, gs, next, gs' | few accepts, here, gs, next, gs' =>
    ∃ w, (∀ c ∈ w, accepts c = true) ∧ here.rest = w ++ next.rest ∧
      next.before = lastOf here.before w ∧ gs' = gs
  | repeated _, _, _, _, _ => True
  | named name p, here, gs, next, gs' =>
    ∃ gm, p.Fits here gs next gm ∧
      gs' = (name, here.rest.take (here.rest.length - next.rest.length)) :: gm
  | start, here, gs, next, gs' => here.before = none ∧ next = here ∧ gs' = gs
  | finish, here, gs, next, gs' =>
    (here.rest = [] ∨ here.rest = ['\n']) ∧ next = here ∧ gs' = gs
  | ended, here, gs, next, gs' => here.rest = [] ∧ next = here ∧ gs' = gs
  | edge, here, gs, next, gs' => here.atEdge = true ∧ next = here ∧ gs' = gs

variable {β : Type}

/-- A run of class characters after which `k` gives `r`. -/
def Passes (accepts : Char → Bool) (k : Place → Option β) (before : Option Char) (cs : List Char)
    (r : β) : Prop :=
  ∃ w rest, cs = w ++ rest ∧ (∀ c ∈ w, accepts c = true) ∧ k ⟨lastOf before w, rest⟩ = some r

variable {k : Place → Option β} {r : β}

theorem passes_none (h : k ⟨before, cs⟩ = some r) : Passes accepts k before cs r :=
  ⟨[], cs, rfl, forall_mem_nil _, h⟩

theorem passes_cons (hc : accepts c)
    (h : Passes accepts k (some c) cs r) : Passes accepts k before (c :: cs) r := by
  obtain ⟨w, rest, rfl, hw, hk⟩ := h
  exact ⟨c :: w, rest, rfl, forall_mem_cons.mpr ⟨hc, hw⟩, by rwa [lastOf_cons]⟩

theorem passes_of_runMany
    (h : runMany accepts k before cs = some r) : Passes accepts k before cs r := by
  induction cs generalizing before with
  | nil => exact passes_none h
  | cons c cs ih =>
    rw [runMany] at h
    split at h
    · rename_i hc
      split at h
      · rename_i r' hrun
        exact passes_cons hc (ih (hrun.trans h))
      · exact passes_none h
    · exact passes_none h

theorem passes_of_runFew (h : runFew accepts k before cs = some r) :
    Passes accepts k before cs r := by
  induction cs generalizing before with
  | nil => exact passes_none h
  | cons c cs ih =>
    rw [runFew] at h
    split at h
    · rename_i r' hk
      exact passes_none (hk.trans h)
    · split at h
      · rename_i hc
        exact passes_cons hc (ih h)
      · cases h

variable {k : Place → Groups → Option β}

theorem exists_of_runRepeated {p : Place → Groups → (Place → Groups → Option β) → Option β}
    (hp : ∀ {here gs k}, p here gs k = some r → ∃ next gs', k next gs' = some r) {n : Nat} (h : runRepeated p k n here gs = some r) :
    ∃ next gs', k next gs' = some r := by
  induction n generalizing here gs with
  | zero => exact ⟨here, gs, h⟩
  | succ n ih =>
    rw [runRepeated] at h
    split at h
    · rename_i r' hrun
      obtain ⟨next, gs', hnext⟩ := hp (hrun.trans h)
      split at hnext
      · exact ih hnext
      · cases hnext
    · exact ⟨here, gs, h⟩

theorem fits_of_run (p : Pattern)
    (h : p.run here gs k = some r) : ∃ next gs', p.Fits here gs next gs' ∧ k next gs' = some r := by
  induction p generalizing here gs k r with
  | nothing => exact ⟨here, gs, ⟨rfl, rfl⟩, h⟩
  | one accepts =>
    rw [run] at h
    split at h
    · cases h
    · rename_i c cs hrest
      split at h
      · rename_i hc
        exact ⟨⟨some c, cs⟩, gs, ⟨c, hc, hrest, rfl, rfl⟩, h⟩
      · cases h
  | seq p q ihp ihq =>
    obtain ⟨mid, gm, hfit, h⟩ := ihp h
    obtain ⟨next, gs', hfit', h⟩ := ihq h
    exact ⟨next, gs', ⟨mid, gm, hfit, hfit'⟩, h⟩
  | alt p q ihp ihq =>
    rw [run] at h
    split at h
    · rename_i r' hrun
      obtain ⟨next, gs', hfit, hk⟩ := ihp (hrun.trans h)
      exact ⟨next, gs', .inl hfit, hk⟩
    · obtain ⟨next, gs', hfit, hk⟩ := ihq h
      exact ⟨next, gs', .inr hfit, hk⟩
  | many accepts =>
    obtain ⟨w, rest, hcs, hw, hk⟩ := passes_of_runMany h
    exact ⟨_, gs, ⟨w, hw, hcs, rfl, rfl⟩, hk⟩
  | few accepts =>
    obtain ⟨w, rest, hcs, hw, hk⟩ := passes_of_runFew h
    exact ⟨_, gs, ⟨w, hw, hcs, rfl, rfl⟩, hk⟩
  | repeated p ih =>
    have hp : ∀ {here gs k} {r : β}, p.run here gs k = some r → ∃ next gs', k next gs' = some r := by
      intro here gs k r h
      obtain ⟨next, gs', _, hk⟩ := ih h
      exact ⟨next, gs', hk⟩
    obtain ⟨next, gs', hk⟩ := exists_of_runRepeated hp h
    exact ⟨next, gs', trivial, hk⟩
  | named name p ih =>
    obtain ⟨next, gm, hfit, hk⟩ := ih h
    exact ⟨next, _, ⟨gm, hfit, rfl⟩, hk⟩
  | start =>
    rw [run] at h
    split at h
    · rename_i hnone
      exact ⟨here, gs, ⟨Option.isNone_iff_eq_none.mp hnone, rfl, rfl⟩, h⟩
    · cases h
  | finish =>
    rw [run] at h
    split at h
    · rename_i hend
      refine ⟨here, gs, ⟨?_, rfl, rfl⟩, h⟩
      simpa using hend
    · cases h
  | ended =>
    rw [run] at h
    split at h
    · rename_i hend
      exact ⟨here, gs, ⟨List.isEmpty_iff.mp hend, rfl, rfl⟩, h⟩
    · cases h
  | edge =>
    rw [run] at h
    split at h
    · rename_i hedge
      exact ⟨here, gs, ⟨hedge, rfl, rfl⟩, h⟩
    · cases h

theorem fits_of_match? {m : Match} (h : p.match? s = some m) :
    ∃ next, p.Fits ⟨none, s.toList⟩ [] next m.groups := by
  obtain ⟨next, gs', hfit, hm⟩ := fits_of_run p h
  rw [← Option.some_inj.mp hm]
  exact ⟨next, hfit⟩

theorem run_eq_none (h : ∀ next gs', ¬p.Fits here gs next gs') (k : Place → Groups → Option β) :
    p.run here gs k = none := by
  cases hrun : p.run here gs k with
  | none => rfl
  | some r =>
    obtain ⟨next, gs', hfit, _⟩ := fits_of_run p hrun
    exact absurd hfit (h next gs')

def remembers : Pattern → Bool
  | named _ _ | repeated _ => true
  | seq p q | alt p q => p.remembers || q.remembers
  | _ => false

theorem groups_of_fits (hp : p.remembers = false) (h : p.Fits here gs next gs') : gs' = gs := by
  induction p generalizing here gs next gs' with
  | nothing => exact h.2
  | one accepts | many accepts | few accepts => exact h.choose_spec.2.2.2
  | seq p q ihp ihq =>
    rw [remembers, Bool.or_eq_false_iff] at hp
    obtain ⟨mid, gm, hfirst, hsecond⟩ := h
    exact (ihq hp.2 hsecond).trans (ihp hp.1 hfirst)
  | alt p q ihp ihq =>
    rw [remembers, Bool.or_eq_false_iff] at hp
    rcases h with h | h
    · exact ihp hp.1 h
    · exact ihq hp.2 h
  | repeated p | named name p => cases hp
  | start | finish | ended | edge => exact h.2.2

/-! ### Readings -/

def Reads (p : Pattern) (here : Place) (gs : Groups) (next : Place) (gs' : Groups) : Prop :=
  ∀ (β : Type) (k : Place → Groups → Option β), (k next gs').isSome = true →
    p.run here gs k = k next gs'

theorem Reads.seq {mid : Place} {gm : Groups} (hp : p.Reads here gs mid gm)
    (hq : q.Reads mid gm next gs') : (p ++ q).Reads here gs next gs' := by
  intro β k hk
  have hrest : q.run mid gm k = k next gs' := hq β k hk
  have hrun : p.run here gs (fun next gs' => q.run next gs' k) = q.run mid gm k :=
    hp β (fun next gs' => q.run next gs' k) (by rw [hrest]; exact hk)
  exact hrun.trans hrest

variable {r : Pattern}

theorem reads_assoc :
    (p ++ q ++ r).Reads here gs next gs' ↔ (p ++ (q ++ r)).Reads here gs next gs' :=
  Iff.rfl

theorem reads_one (hc : accepts c) (before : Option Char) (cs : List Char) (gs : Groups) :
    (one accepts).Reads ⟨before, c :: cs⟩ gs ⟨some c, cs⟩ gs := by
  intro β k _
  rw [run]
  exact if_pos hc

theorem reads_many (hw : ∀ c ∈ w, accepts c)
    (hend : ∀ c, cs.head? = some c → accepts c = false) (before : Option Char) (gs : Groups) :
    (many accepts).Reads ⟨before, w ++ cs⟩ gs ⟨lastOf before w, cs⟩ gs := by
  intro β k hk
  rw [run]
  induction w generalizing before with
  | nil =>
    cases cs with
    | nil => rfl
    | cons c cs =>
      have hc := hend c rfl
      exact if_neg (by simp [hc])
  | cons c w ih =>
    rw [lastOf_cons] at hk ⊢
    -- The longest run is tried first, and it goes on, so no shorter one is.
    have hrun := ih (fun d hd => hw d (mem_cons_of_mem c hd)) (some c) hk
    rw [cons_append, runMany, if_pos (hw c mem_cons_self), hrun]
    obtain ⟨r, hr⟩ := Option.isSome_iff_exists.mp hk
    rw [hr]

theorem reads_many1 (hc : accepts c) (hw : ∀ d ∈ w, accepts d)
    (hend : ∀ c, cs.head? = some c → accepts c = false) (before : Option Char) (gs : Groups) :
    (many1 accepts).Reads ⟨before, c :: w ++ cs⟩ gs ⟨lastOf before (c :: w), cs⟩ gs := by
  rw [lastOf_cons]
  exact (reads_one hc before (w ++ cs) gs).seq (reads_many hw hend (some c) gs)

theorem reads_named (h : p.Reads here gs next gs') (hw : here.rest = w ++ next.rest)
    (name : String) : (named name p).Reads here gs next ((name, w) :: gs') := by
  intro β k hk
  have htake : here.rest.take (here.rest.length - next.rest.length) = w := by
    rw [hw, length_append, Nat.add_sub_cancel, take_left]
  have hrun := h β fun place groups =>
    k place ((name, here.rest.take (here.rest.length - place.rest.length)) :: groups)
  rw [htake] at hrun
  exact hrun hk

theorem reads_named_many (hw : ∀ c ∈ w, accepts c)
    (hend : ∀ c, cs.head? = some c → accepts c = false) (before : Option Char) (gs : Groups)
    (name : String) : (named name (many accepts)).Reads ⟨before, w ++ cs⟩ gs ⟨lastOf before w, cs⟩
      ((name, w) :: gs) :=
  reads_named (reads_many hw hend before gs) rfl name

theorem reads_many_end (hw : ∀ c ∈ w, accepts c) (before : Option Char) (gs : Groups) :
    (many accepts).Reads ⟨before, w⟩ gs ⟨lastOf before w, []⟩ gs := by
  have h := @reads_many accepts w [] hw (fun c hc => by cases hc) before gs
  rwa [append_nil] at h

theorem reads_alt_left (h : p.Reads here gs next gs') : (alt p q).Reads here gs next gs' := by
  intro β k hk
  obtain ⟨r, hr⟩ := Option.isSome_iff_exists.mp hk
  rw [run, h β k hk, hr]

theorem reads_alt_right (hp : ∀ place groups, ¬p.Fits here gs place groups)
    (h : q.Reads here gs next gs') : (alt p q).Reads here gs next gs' := by
  intro β k hk
  rw [run, run_eq_none hp]
  exact h β k hk

theorem reads_alt_seq :
    (alt p q ++ r).Reads here gs next gs' ↔ (alt (p ++ r) (q ++ r)).Reads here gs next gs' :=
  Iff.rfl

theorem reads_start (cs : List Char) (gs : Groups) : start.Reads ⟨none, cs⟩ gs ⟨none, cs⟩ gs :=
  fun _ _ _ => rfl

theorem reads_finish (before : Option Char) (gs : Groups) :
    finish.Reads ⟨before, []⟩ gs ⟨before, []⟩ gs :=
  fun _ _ _ => rfl

theorem reads_edge (h : here.atEdge) (gs : Groups) : edge.Reads here gs here gs := by
  intro β k _
  rw [run]
  exact if_pos h

theorem match?_of_reads (h : p.Reads ⟨none, s.toList⟩ [] ⟨before, []⟩ gs) :
    p.match? s = some ⟨s.toList, [], gs⟩ := by
  rw [match?, matchAt, h _ _ rfl]
  simp

end Loom.Text.Pattern
