import Loom.Outline.Normal
import Loom.Proofs.Pattern
import Loom.Proofs.Text
import Mathlib.Data.List.TakeWhile

/-!
# Runs of Blanks

In normal form, a run of spaces and tabs is one space. That is written with a
pattern that is replaced wherever it occurs; here it is read as a function from
characters to characters that knows whether a run has begun, which is the form in
which it can be followed through a line part by part.
-/

namespace Loom.Outline

open Loom.Text Loom.Text.Pattern

variable {c : Char} {cs v u : List Char} (s : String)

def isSpacing (c : Char) : Bool := c == ' ' || c == '\t'

/-- Runs of spaces and tabs as one space. `inRun` says that one has begun. -/
def squeezeFrom (inRun : Bool) : List Char → List Char
  | [] => []
  | c :: cs =>
    if isSpacing c then
      if inRun then squeezeFrom true cs else ' ' :: squeezeFrom true cs
    else c :: squeezeFrom false cs

def squeeze (cs : List Char) : List Char := squeezeFrom false cs

theorem isBlank_of_isSpacing (h : isSpacing c) : isBlank c := by
  rw [isSpacing, Bool.or_eq_true, beq_iff_eq, beq_iff_eq] at h
  rcases h with rfl | rfl
  · decide
  · decide

theorem isSpacing_of_not_isBlank (h : isBlank c = false) : isSpacing c = false := by
  rw [← Bool.not_eq_true] at h ⊢
  exact fun hc => h (isBlank_of_isSpacing hc)

/-! ### The pattern of runs -/

theorem matchAt_of_reads {p : Pattern} {here next : Place} {gs : Groups} {w : List Char}
    (h : p.Reads here [] next gs) (hw : here.rest = w ++ next.rest) :
    p.matchAt here = some ⟨w, next.rest, gs⟩ := by
  rw [matchAt, h _ _ rfl, hw, List.length_append, Nat.add_sub_cancel, List.take_left]

theorem matchAt_run (hc : isSpacing c) (before : Option Char) (cs : List Char) :
    (many1 isSpacing).matchAt ⟨before, c :: cs⟩
      = some ⟨c :: cs.takeWhile isSpacing, cs.dropWhile isSpacing, []⟩ := by
  have hreads := reads_many1 hc (fun d hd => List.mem_takeWhile_imp (p := isSpacing) (l := cs) hd)
    (fun d hd => head_dropWhile isSpacing cs d hd) before []
  rw [List.cons_append, List.takeWhile_append_dropWhile] at hreads
  refine matchAt_of_reads hreads ?_
  rw [List.cons_append, List.takeWhile_append_dropWhile]

theorem matchAt_none (hc : isSpacing c = false) (before : Option Char) (cs : List Char) :
    (many1 isSpacing).matchAt ⟨before, c :: cs⟩ = none := by
  refine run_eq_none ?_ _
  rintro next groups ⟨_, _, ⟨d, hd, hrest, _⟩, _⟩
  rw [← (List.cons.inj hrest).1, hc] at hd
  cases hd

theorem replaceFrom_runs (cs : List Char) : ∀ before : Option Char,
    replaceFrom (many1 isSpacing) (fun _ => [' ']) before 0 cs = squeezeFrom false cs ∧
    replaceFrom (many1 isSpacing) (fun _ => [' ']) before (cs.takeWhile isSpacing).length cs
      = squeezeFrom true cs := by
  induction cs with
  | nil => exact fun _ => ⟨rfl, rfl⟩
  | cons c cs ih =>
    intro before
    obtain ⟨hstart, hinside⟩ := ih (some c)
    cases hc : isSpacing c with
    | true =>
      rw [List.takeWhile_cons_of_pos hc, squeezeFrom, squeezeFrom, hc, replaceFrom, matchAt_run hc]
      exact ⟨congrArg (' ' :: ·) hinside, hinside⟩
    | false =>
      rw [List.takeWhile_cons_of_neg (by simp [hc]), squeezeFrom,
        squeezeFrom, hc, List.length_nil, replaceFrom, matchAt_none hc]
      exact ⟨congrArg (c :: ·) hstart, congrArg (c :: ·) hstart⟩

theorem collapse_eq : collapse s = String.ofList (squeeze (strip s).toList) := by
  rw [collapse, replaceAll]
  exact congrArg String.ofList (replaceFrom_runs _ none).1

/-! ### Parts of a text -/

def endsInRun (inRun : Bool) (cs : List Char) : Bool := (cs.getLast?.map isSpacing).getD inRun

theorem endsInRun_cons (inRun : Bool) (c : Char) (cs : List Char) :
    endsInRun inRun (c :: cs) = endsInRun (isSpacing c) cs := by
  rw [endsInRun, endsInRun, List.getLast?_cons]
  cases cs.getLast? <;> rfl

theorem squeezeFrom_append (inRun : Bool) (u v : List Char) :
    squeezeFrom inRun (u ++ v) = squeezeFrom inRun u ++ squeezeFrom (endsInRun inRun u) v := by
  induction u generalizing inRun with
  | nil => rfl
  | cons c u ih =>
    rw [List.cons_append, squeezeFrom, squeezeFrom, endsInRun_cons]
    cases hc : isSpacing c with
    | true =>
      cases inRun with
      | true => exact ih true
      | false => exact congrArg (' ' :: ·) (ih true)
    | false => exact congrArg (c :: ·) (ih false)

theorem squeezeFrom_of_head (h : ∀ c, cs.head? = some c → isSpacing c = false) (inRun : Bool) :
    squeezeFrom inRun cs = squeeze cs := by
  cases cs with
  | nil => rfl
  | cons c cs => rw [squeeze, squeezeFrom, squeezeFrom, h c rfl]; rfl

theorem squeeze_append (u : List Char) (h : ∀ c, v.head? = some c → isSpacing c = false) :
    squeeze (u ++ v) = squeeze u ++ squeeze v := by
  rw [squeeze, squeezeFrom_append, squeezeFrom_of_head h]
  rfl

theorem squeeze_of_plain (h : ∀ c ∈ cs, isSpacing c = false) : squeeze cs = cs := by
  induction cs with
  | nil => rfl
  | cons c cs ih =>
    obtain ⟨hc, hcs⟩ := List.forall_mem_cons.mp h
    rw [squeeze, squeezeFrom, hc]
    exact congrArg (c :: ·) (ih hcs)

theorem squeeze_run {run : List Char} (hu : ∀ c ∈ u, isSpacing c = false) (hne : run ≠ [])
    (hrun : ∀ c ∈ run, isSpacing c) (hv : ∀ c, v.head? = some c → isSpacing c = false) :
    squeeze (u ++ (run ++ v)) = u ++ ' ' :: squeeze v := by
  have hpassed : ∀ w : List Char, (∀ c ∈ w, isSpacing c) → squeezeFrom true w = [] := by
    intro w hw
    induction w with
    | nil => rfl
    | cons c w ih =>
      obtain ⟨hc, hw⟩ := List.forall_mem_cons.mp hw
      rw [squeezeFrom, hc]
      exact ih hw
  obtain ⟨c, w, rfl⟩ := List.exists_cons_of_ne_nil hne
  obtain ⟨hc, hw⟩ := List.forall_mem_cons.mp hrun
  have hfirst : squeezeFrom (endsInRun false u) (c :: w) = [' '] := by
    have hlast : endsInRun false u = false := by
      rw [endsInRun]
      cases hlast : u.getLast? with
      | none => rfl
      | some d => exact hu d (List.mem_of_getLast? hlast)
    rw [hlast, squeezeFrom, hc]
    exact congrArg (' ' :: ·) (hpassed w hw)
  rw [← List.append_assoc, squeeze_append _ hv, squeeze, squeezeFrom_append, hfirst]
  rw [show squeezeFrom false u = u from squeeze_of_plain hu, List.append_assoc]
  rfl

theorem mem_squeezeFrom {inRun : Bool} (h : c ∈ squeezeFrom inRun cs) : c = ' ' ∨ c ∈ cs := by
  induction cs generalizing inRun with
  | nil => cases h
  | cons d cs ih =>
    have hrest : ∀ {inRun}, c ∈ squeezeFrom inRun cs → c = ' ' ∨ c ∈ d :: cs :=
      fun h => (ih h).imp_right (List.mem_cons_of_mem d)
    rw [squeezeFrom] at h
    split at h
    · split at h
      · exact hrest h
      · exact (List.mem_cons.mp h).elim .inl hrest
    · exact (List.mem_cons.mp h).elim (fun hc => .inr (hc ▸ List.mem_cons_self)) hrest

theorem squeezeFrom_squeezeFrom (inRun : Bool) (cs : List Char) :
    squeezeFrom inRun (squeezeFrom inRun cs) = squeezeFrom inRun cs := by
  induction cs generalizing inRun with
  | nil => rfl
  | cons c cs ih =>
    rw [squeezeFrom]
    cases hc : isSpacing c with
    | true =>
      cases inRun with
      | true => exact ih true
      | false => exact congrArg (' ' :: ·) (ih true)
    | false =>
      change squeezeFrom inRun (c :: squeezeFrom false cs) = c :: squeezeFrom false cs
      rw [squeezeFrom, hc]
      exact congrArg (c :: ·) (ih false)

theorem trimmed_squeeze (h : Trimmed isBlank cs) : Trimmed isBlank (squeeze cs) := by
  refine ⟨fun c hc => ?_, fun c hc => ?_⟩
  · cases cs with
    | nil => cases hc
    | cons d cs =>
      have hd := h.first d rfl
      rw [squeeze, squeezeFrom, isSpacing_of_not_isBlank hd] at hc
      rw [← Option.some_inj.mp hc]
      exact hd
  · rcases List.eq_nil_or_concat cs with rfl | ⟨front, last, rfl⟩
    · cases hc
    · rw [List.concat_eq_append] at h hc
      have hlast := h.last last List.getLast?_concat
      rw [squeeze, squeezeFrom_append, squeezeFrom, isSpacing_of_not_isBlank hlast] at hc
      change (_ ++ [last]).getLast? = some c at hc
      rw [List.getLast?_concat] at hc
      rw [← Option.some_inj.mp hc]
      exact hlast

theorem toList_collapse : (collapse s).toList = squeeze (strip s).toList := by
  rw [collapse_eq, String.toList_ofList]

theorem trimmed_collapse : Trimmed isBlank (collapse s).toList := by
  rw [toList_collapse]
  exact trimmed_squeeze (trimmed_strip s)

theorem strip_collapse : strip (collapse s) = collapse s :=
  strip_of_trimmed (trimmed_collapse s)

theorem collapse_collapse : collapse (collapse s) = collapse s := by
  rw [collapse_eq (collapse s), strip_collapse, toList_collapse, squeeze, squeeze,
    squeezeFrom_squeezeFrom, collapse_eq]
  rfl

/-! ### Cutting at a character -/

section Partition

variable {d : Char} {more : List Char} {sep : String}

theorem splitFrom_cons_self (piece cs : List Char) :
    Text.splitFrom [d] piece 0 (d :: cs) = piece.reverse :: Text.splitFrom [d] [] 0 cs := by
  have hdrop : dropStart? [d] (d :: cs) = some cs := if_pos (beq_self_eq_true d)
  simp only [Text.splitFrom, hdrop, List.length_nil]

theorem splitFrom_cons_of_ne (h : d ≠ c) (piece cs : List Char) :
    Text.splitFrom (d :: more) piece 0 (c :: cs) =
      Text.splitFrom (d :: more) (c :: piece) 0 cs := by
  have hdrop : dropStart? (d :: more) (c :: cs) = none := if_neg (by rw [beq_iff_eq]; exact h)
  simp only [Text.splitFrom, hdrop]

theorem splitFrom_ne_nil (piece cs : List Char) : Text.splitFrom [d] piece 0 cs ≠ [] := by
  induction cs generalizing piece with
  | nil => exact List.cons_ne_nil _ _
  | cons c cs ih =>
    by_cases hc : d = c
    · rw [← hc, splitFrom_cons_self]
      exact List.cons_ne_nil _ _
    · rw [splitFrom_cons_of_ne hc]
      exact ih _

theorem join_splitFrom (hsep : sep.toList = [d]) (piece cs : List Char) :
    (join sep ((Text.splitFrom [d] piece 0 cs).map String.ofList)).toList
      = piece.reverse ++ cs := by
  induction cs generalizing piece with
  | nil =>
    rw [Text.splitFrom, List.append_nil]
    exact String.toList_ofList
  | cons c cs ih =>
    by_cases hc : d = c
    · obtain ⟨next, rest, hrest⟩ := List.exists_cons_of_ne_nil (@splitFrom_ne_nil d [] cs)
      have hjoin := ih []
      rw [← hc, splitFrom_cons_self]
      rw [hrest] at hjoin ⊢
      rw [List.map_cons, List.map_cons, join, ← List.map_cons, String.toList_append,
        String.toList_append, hjoin, hsep, String.toList_ofList, List.append_assoc]
      · rfl
      · exact nofun
    · rw [splitFrom_cons_of_ne hc, ih, List.reverse_cons, List.append_assoc]
      rfl

theorem splitFrom_of_not_mem (h : d ∉ cs) (piece : List Char) :
    Text.splitFrom (d :: more) piece 0 cs = [piece.reverse ++ cs] := by
  induction cs generalizing piece with
  | nil => rw [Text.splitFrom, List.append_nil]
  | cons c cs ih =>
    rw [List.mem_cons, not_or] at h
    rw [splitFrom_cons_of_ne h.1, ih h.2, List.reverse_cons, List.append_assoc]
    rfl

theorem splitFrom_append (h : d ∉ u) (v piece : List Char) :
    Text.splitFrom [d] piece 0 (u ++ d :: v)
      = (piece.reverse ++ u) :: Text.splitFrom [d] [] 0 v := by
  induction u generalizing piece with
  | nil => rw [List.nil_append, splitFrom_cons_self, List.append_nil]
  | cons c u ih =>
    rw [List.mem_cons, not_or] at h
    rw [List.cons_append, splitFrom_cons_of_ne h.1, ih h.2, List.reverse_cons, List.append_assoc]
    rfl

theorem partition_of_not_mem (hsep : sep.toList = d :: more) {s : String} (h : d ∉ s.toList) :
    partition s sep = (s, none) := by
  rw [partition, splitOn, hsep, splitFrom_of_not_mem h]
  rfl

theorem partition_of_mem (hsep : sep.toList = [d]) {s : String} (hs : s.toList = u ++ d :: v)
    (h : d ∉ u) : partition s sep = (String.ofList u, some (String.ofList v)) := by
  obtain ⟨next, rest, hrest⟩ := List.exists_cons_of_ne_nil (@splitFrom_ne_nil d [] v)
  have hjoin : join sep ((Text.splitFrom [d] [] 0 v).map String.ofList) = String.ofList v := by
    rw [← String.toList_inj, join_splitFrom hsep, String.toList_ofList]
    rfl
  rw [hrest] at hjoin
  rw [partition, splitOn, hsep, hs, splitFrom_append h, hrest]
  exact congrArg (fun joined => (String.ofList u, some joined)) hjoin

end Partition

end Loom.Outline
