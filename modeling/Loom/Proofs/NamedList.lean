import Loom.Proofs.Grammar
import Loom.Proofs.Meaning
import Loom.Proofs.OneLine
import Loom.Proofs.Progression
import Loom.Proofs.Sentence

/-!
# Loops over a Named List

A header such as `Repeat x in xs` says what a loop ranges over, and what it says is kept as the
range of the loop. A run looks for a range that counts, or else for a list of its own, and a name
is neither. So the loop has no rounds, whatever the name is bound to.
-/

namespace Loom.Expr

open List

variable {before : Option Char} {cs : List Char} {ts : List Token} {e : Expr}

theorem dots_mem_of_renders {k : Nat} {a b : Expr} (h : Renders k (.range a b) ts) :
    .sign .dots ∈ ts := by
  generalize he : Expr.range a b = e at h
  induction h with
  | range => simp
  | parens _ ih => simp [ih he]
  | _ => cases he

theorem point_mem_of_tokenAt {n : Nat} (h : tokenAt before cs = .ok (some (.sign .dots, n))) :
    '.' ∈ cs := by
  unfold tokenAt at h
  split at h
  · cases h
  split at h
  · dsimp only at h
    split at h
    · split at h
      · split at h <;> cases h
      · cases h
    · split at h <;> cases h
  split at h
  · split at h
    · cases h
    · split at h <;> cases h
  split at h
  · rename_i hsign
    cases h
    unfold sign? at hsign
    split at hsign <;> cases hsign
    rename_i heq
    exact heq ▸ mem_cons_self
  split at h
  · dsimp only at h
    split at h
    · split at h <;> cases h
    · cases h
  · cases h

theorem point_mem_of_tokensFrom {fuel position : Nat} (h : tokensFrom fuel position before cs = .ok ts)
    (hts : .sign .dots ∈ ts) : '.' ∈ cs := by
  fun_induction tokensFrom fuel position before cs generalizing ts with
  | case1 | case2 => cases h; cases hts
  | case3 fuel position _ cs _ gap body =>
    rename_i ih
    obtain ⟨r, hr, h⟩ := of_bind_ok h
    have hbody : body ⊆ cs := drop_subset _ _
    rcases r with _ | ⟨t, n⟩
    · cases h
    · obtain ⟨rest, hrest, h⟩ := of_bind_ok h
      cases h
      rcases mem_cons.mp hts with rfl | hts
      · exact hbody (point_mem_of_tokenAt hr)
      · exact hbody (drop_subset _ _ (ih _ hrest hts))

theorem point_mem_of_read {s : String} {a b : Expr} (h : read s = .ok (.range a b)) :
    '.' ∈ s.toList := by
  obtain ⟨ts, hts, hparse⟩ := of_bind_ok h
  split at hparse
  · cases hparse
  obtain ⟨ws, hpass, hws⟩ := exists_of_parseTokens hparse
  refine point_mem_of_tokensFrom hts ?_
  obtain ⟨us, vs, rfl⟩ := append_of_mem (dots_mem_of_renders hws)
  obtain ⟨us', vs', rfl, -, hlast⟩ := exists_of_passing_append hpass
  obtain ⟨_, rfl, -⟩ := exists_of_passing_cons hlast nofun
  simp

end Loom.Expr

namespace Loom.Flow

open Loom.Text Loom.Text.Pattern Loom.Outline Session List

variable {c : Char} {cs : List Char} {phrase header x xs : String} {args range : Value}

theorem not_mem_replaceFrom {p : Pattern} {f : Match → List Char} (hf : ∀ m, c ∉ f m)
    (h : c ∉ cs) (before : Option Char) (skip : Nat) : c ∉ replaceFrom p f before skip cs := by
  fun_induction replaceFrom p f before skip cs with
  | case1 => exact h
  | case2 _ _ _ _ ih => exact ih (not_mem_of_not_mem_cons h)
  | case3 | case5 =>
    rename_i ih
    rw [mem_cons, not_or] at h ⊢
    exact ⟨h.1, ih h.2⟩
  | case4 => 
    rename_i ih
    rw [mem_append, not_or]
    exact ⟨hf _, ih (not_mem_of_not_mem_cons h)⟩

theorem not_mem_strip {s : String} (h : c ∉ s.toList) : c ∉ (strip s).toList := by
  obtain ⟨after, -, heq⟩ := exists_eq_strip s
  rw [heq] at h
  exact fun hc => h (by simp [hc])

theorem not_mem_stripEnd {s : String} (h : c ∉ s.toList) : c ∉ (stripEnd s).toList := by
  rw [← dropEndWhile_append isBlank s.toList, mem_append, not_or] at h
  rw [stripEnd, String.toList_ofList]
  exact h.1

theorem not_mem_dropMark (h : c ∉ phrase.toList) : c ∉ (dropMark phrase).toList := by
  unfold dropMark
  dsimp only
  split
  · split
    · refine not_mem_stripEnd fun hc => not_mem_strip h (dropLast_subset _ ?_)
      rwa [String.toList_ofList] at hc
    · rw [String.ofList_toList]
      exact not_mem_strip h
  · exact not_mem_nil

theorem not_mem_plainPhrase (h : '.' ∉ phrase.toList) : '.' ∉ (plainPhrase phrase).toList := by
  have hsigns : ∀ x ∈ operatorWords, '.' ∉ x.2.toList := by decide
  rw [plainPhrase]
  have hdrop := not_mem_dropMark h
  generalize dropMark phrase = s at hdrop ⊢
  generalize operatorWords = xs at hsigns
  induction xs generalizing s with
  | nil => exact hdrop
  | cons x xs ih =>
    rw [forall_mem_cons] at hsigns
    obtain ⟨p, sign⟩ := x
    refine ih (p.replaceAll (fun _ => sign) s) ?_ hsigns.2
    rw [replaceAll, String.toList_ofList]
    exact not_mem_replaceFrom (fun _ => hsigns.1) hdrop none 0

theorem not_isRange_of_readRange (h : readRange phrase = .ok range) (hpoint : '.' ∉ phrase.toList) :
    (range.field "type").isText "Range" = false := by
  have hs : '.' ∉ (strip (plainPhrase phrase)).toList := not_mem_strip (not_mem_plainPhrase hpoint)
  unfold readRange at h
  generalize strip (plainPhrase phrase) = s at h hs
  have hs' : '.' ∉ (if endsWith s ":" then strip (String.ofList s.toList.dropLast) else s).toList := by
    split
    · refine not_mem_strip fun hc => hs (dropLast_subset _ ?_)
      rwa [String.toList_ofList] at hc
    · exact hs
  dsimp only at h
  generalize (if endsWith s ":" then strip (String.ofList s.toList.dropLast) else s) = s at h hs'
  have hs'' : '.' ∉ (if endsWith (lower s) "inclusive" then strip (takeChars (s.length - 9) s)
      else s).toList := by
    split
    · refine not_mem_strip fun hc => hs' (mem_of_mem_take (i := s.length - 9) ?_)
      rwa [takeChars, String.toList_ofList] at hc
    · exact hs'
  rw [@partition_of_not_mem '.' ['.'] _ rfl _ hs''] at h
  generalize (if endsWith (lower s) "inclusive" then _ else _) = s at h hs''
  obtain ⟨e, he, rfl⟩ : ∃ e, Expr.read s = .ok e ∧ range = e.toValue := by
    change readText s = _ at h
    rw [readText] at h
    split at h
    · cases h
      exact ⟨_, ‹_›, rfl⟩
    · cases h
  cases e with
  | range a b => exact absurd (Expr.point_mem_of_read he) hs''
  | _ => rfl

theorem not_isRange_of_headerArgs (h : headerArgs header = .ok args) (hpoint : '.' ∉ header.toList) :
    ((args.field "range").field "type").isText "Range" = false := by
  obtain ⟨found, hfound, h⟩ := of_bind_ok h
  cases h
  rw [readHeader?] at hfound
  split at hfound
  · rename_i m hm
    obtain ⟨range, hrange, hfound⟩ := of_bind_ok hfound
    cases hfound
    obtain ⟨p, hp, hm⟩ := exists_of_findSome?_eq_some hm
    have hrepeats : ∀ p ∈ headerForms, p.repeats = false := by decide
    exact not_isRange_of_readRange hrange fun hc =>
      not_mem_strip hpoint (mem_of_group (hrepeats p hp) hm _ _ hc)
  · cases hfound
    rfl

theorem point_not_mem (h : isName x) : '.' ∉ x.toList := by
  obtain ⟨c, w, hx, _, hw⟩ := exists_of_isName h
  rw [hx]
  exact fun hc => absurd (hw _ hc) (by decide)

/-- **Loops over a name.** A loop over a name runs nothing. So it does what a loop over the list
    that the name is bound to would do only if the list is empty. -/
theorem repeat_in_name_runs_nothing {s : Session} {vs : List Value} (hx : isName x = true)
    (hxs : isName xs = true) (hbound : s.env.get? xs = some (.list vs))
    (hargs : headerArgs ("Repeat " ++ x ++ " in " ++ xs) = .ok args) (depth : Nat) :
    (∀ block, s.run (Run.takeStep (depth + 1) (loopStep args block)) = (.ok none, s)) ∧
      ((∀ block, s.run (Run.takeStep (depth + 1) (loopStep args block)) =
        s.run (Run.listLoop (Run.takeStep depth) (.str x) (Step.blockOf (.list block)) vs)) ↔
          vs = []) := by
  have hnothing (block : List Value) :
      s.run (Run.takeStep (depth + 1) (loopStep args block)) = (.ok none, s) := by
    rw [takeStep_loop (isLoopArgs_of_headerArgs hargs), Run.looped]
    rw [not_isRange_of_headerArgs hargs ?_]
    · rfl
    · simp only [String.toList_append, List.mem_append, not_or]
      exact ⟨⟨⟨by decide, point_not_mem hx⟩, by decide⟩, point_not_mem hxs⟩
  refine ⟨hnothing, fun h => ?_, ?_⟩
  · cases vs with
    | nil => rfl
    | cons v vs =>
      have hnull := h [.null]
      have hne : x ≠ "" := by rintro rfl; cases hx
      rw [hnothing, Run.listLoop, Run.bindIterator_str hne, Run.block_of_list] at hnull
      cases depth <;> cases hnull
  · rintro rfl block
    exact hnothing block

/-- Two items that are not shown. -/
theorem repeat_in_name_runs_nothing_shown :
    let args : Value := .obj [("iter", .str "x"), ("range", (Expr.name "xs").toValue)]
    let s : Session := { Session.start .null false [] [] with env := [("xs", .list [.int 1, .int 2])] }
    headerArgs ("Repeat " ++ "x" ++ " in " ++ "xs") = .ok args ∧
      s.run (Run.takeStep 2 (loopStep args [.obj [("verb", .str "Show"),
        ("args", .obj [("expr", (Expr.name "x").toValue)])]])) = (.ok none, s) := by
  have hargs : headerArgs ("Repeat " ++ "x" ++ " in " ++ "xs") =
      .ok (.obj [("iter", .str "x"), ("range", (Expr.name "xs").toValue)]) :=
    Value.eq_ok_of_isCopy (by decide +kernel)
  exact ⟨hargs, (repeat_in_name_runs_nothing (by decide) (by decide) rfl hargs 1).1 _⟩

end Loom.Flow
