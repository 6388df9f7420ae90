import Loom.Proofs.Frame

/-!
# Loops over a Range

A range that includes both ends is an arithmetic progression: it starts at the first end and goes
on by strides, up or down, as long as it is not past the other end. The loop counts its rounds
beforehand, from ends that were moved by one, and whatever the block binds does not change them.

Rounds are taken one after the other, and the first that returns or fails is the last. `Walks` has
the rounds that were taken and no others, so the values that were visited are told by it.
-/

namespace Loom

open Session List

namespace Run

variable {s t u : Session} {a b i k y : Int} {x : String} {v : Value}
  {round : Int → Run Outcome} {r : Except Error Outcome} {vs ws : List Int}

/-! ### Progressions -/

/-- The values from one integer to another by strides, both ends included. -/
def progression (first last stride : Int) : List Int :=
  (List.range ((last - first).fdiv stride + 1).toNat).map fun j : Nat => first + j * stride

theorem length_progression (a b k : Int) :
    ((progression a b k).length : Int) = max 0 ((b - a).fdiv k + 1) := by
  rw [progression, length_map, length_range]
  omega

theorem le_fdiv_iff (hk : k ≠ 0) (d : Int) (j : Int) :
    j ≤ d.fdiv k ↔ if 0 < k then j * k ≤ d else d ≤ j * k := by
  split
  · rename_i hpos
    rw [Int.fdiv_eq_ediv_of_nonneg _ (Int.le_of_lt hpos), Int.le_ediv_iff_mul_le hpos]
  · -- walking down is walking up with the signs changed
    have hpos : 0 < -k := by omega
    rw [← Int.neg_fdiv_neg, Int.fdiv_eq_ediv_of_nonneg _ (Int.le_of_lt hpos),
      Int.le_ediv_iff_mul_le hpos, Int.mul_neg]
    omega

theorem mem_progression_iff (hk : k ≠ 0) : y ∈ progression a b k ↔
    ∃ j : Nat, y = a + j * k ∧ if 0 < k then y ≤ b else b ≤ y := by
  have hlast (j : Nat) : j < ((b - a).fdiv k + 1).toNat ↔ (j : Int) ≤ (b - a).fdiv k := by omega
  simp only [progression, mem_map, mem_range, hlast, le_fdiv_iff hk]
  constructor
  · rintro ⟨j, hj, rfl⟩
    refine ⟨j, rfl, ?_⟩
    split at hj <;> rename_i hpos <;> simp only [hpos, if_true, if_false] <;> omega
  · rintro ⟨j, rfl, hj⟩
    refine ⟨j, ?_, rfl⟩
    split at hj <;> rename_i hpos <;> simp only [hpos, if_true, if_false] <;> omega

theorem map_range_succ (i k : Int) (n : Nat) : (List.range (n + 1)).map (fun j : Nat => i + j * k) =
      i :: (List.range n).map fun j : Nat => i + k + j * k := by
  rw [range_succ_eq_map, map_cons, map_map]
  refine congrArg₂ List.cons (by omega) (map_congr_left fun j _ => ?_)
  change i + ((j + 1 : Nat) : Int) * k = i + k + j * k
  rw [Int.natCast_add, Int.add_mul]
  omega

theorem exists_span (hk : k ≠ 0) : ∃ span : Span,
    Span.ofValues? (.int a) (.int b) (.int k) true = .ok span ∧ span.first = a ∧
      span.stride = k ∧ span.count = ((b - a).fdiv k + 1).toNat := by
  have hsame : (Value.int k).same (.int 0) = false := beq_eq_false_iff_ne.mpr hk
  have hzero : (k == 0) = false := beq_eq_false_iff_ne.mpr hk
  have hspan : Span.ofValues? (.int a) (.int b) (.int k) true =
      .ok ⟨a, if k > 0 then b + 1 else b - 1, k⟩ := by
    change (if Value.same _ _ = true then _ else _ >>= _) = _
    rw [hsame]
    change Except.ok (Span.mk a (if (if (k == 0) = true then 1 else k) > 0 then _ else _)
      (if (k == 0) = true then 1 else k)) = _
    rw [hzero]
    rfl
  refine ⟨_, hspan, rfl, rfl, ?_⟩
  rw [Span.count]
  split
  · rename_i hpos
    rw [show b + 1 - a + k - 1 = b - a + 1 * k by omega, Int.add_mul_fdiv_right _ _ hk]
  · rename_i hpos
    have hneg : -k ≠ 0 := by omega
    rw [show a - (b - 1) - k - 1 = a - b + 1 * -k by omega,
      Int.add_mul_fdiv_right _ _ hneg, ← Int.neg_fdiv_neg, Int.neg_sub, Int.neg_neg]

/-! ### Walks -/

/-- Rounds that were taken one after the other, and what came of them. A round that returns or
    fails is the last. -/
inductive Walks (round : Int → Run Outcome) :
    Session → List Int → Except Error Outcome → Session → Prop
  | done (s : Session) : Walks round s [] (.ok none) s
  | goesOn {s t u : Session} {i : Int} {vs : List Int} {r : Except Error Outcome}
      (h : s.run (round i) = (.ok none, t)) (hrest : Walks round t vs r u) :
      Walks round s (i :: vs) r u
  | stops {s t : Session} {i : Int} {r : Except Error Outcome} (h : s.run (round i) = (r, t))
      (hr : r ≠ .ok none) : Walks round s [i] r t

/-- A walk along some values, to the last of them unless it ended before. -/
def WalksAlong (round : Int → Run Outcome) (s : Session) (is : List Int)
    (r : Except Error Outcome) (t : Session) (visited : List Int) : Prop :=
  Walks round s visited r t ∧ ∃ rest, is = visited ++ rest ∧ (r = .ok none → rest = [])

def roundOf (take : Value → Run Outcome) (x : String) (body : Value) (i : Int) : Run Outcome := do
  bindName x (.int i)
  block take body

theorem bindIterator_str (hx : x ≠ "") (v : Value) : bindIterator (.str x) v = bindName x v := by
  have htruthy : (Value.str x).truthy := by simp [Value.truthy, hx]
  rw [bindIterator, htruthy]
  rfl

theorem exists_walks (take : Value → Run Outcome) (hx : x ≠ "") (body : Value) (k : Int) (n : Nat)
    (i : Int) (s : Session) : ∃ r t visited, s.run (countLoop take (.str x) body k n i) = (r, t) ∧
        WalksAlong (roundOf take x body) s ((List.range n).map fun j : Nat => i + j * k) r t visited := by
  induction n generalizing i s with
  | zero => exact ⟨_, _, _, rfl, .done s, [], rfl, fun _ => rfl⟩
  | succ n ih =>
    rw [map_range_succ, countLoop, bindIterator_str hx, run_bind]
    change ∃ r t visited, Session.run { s with env := s.env.put x (.int i) } _ = _ ∧ _
    rw [run_bind]
    rcases hround : s.run (roundOf take x body i) with ⟨e | _ | w, u⟩
    all_goals
      have hblock : Session.run { s with env := s.env.put x (.int i) } (block take body) = _ :=
        hround
      rw [hblock]
    · exact ⟨_, _, _, rfl, .stops hround (by simp), _, rfl, by simp⟩
    · obtain ⟨r, t, visited, hrun, hwalk, rest, hrest, hall⟩ := ih (i + k) u
      exact ⟨r, t, _, hrun, .goesOn hround hwalk, rest, congrArg (i :: ·) hrest, hall⟩
    · exact ⟨_, _, _, rfl, .stops hround (by simp), _, rfl, by simp⟩

theorem Walks.get?_eq {take : Value → Run Outcome} {body : Value}
    (h : Walks (roundOf take x body) s vs r t) (hkeeps : Keeps [x] (block take body)) :
    t.env.get? x = (vs.getLast?.map Value.int).or (s.env.get? x) := by
  have hround {s t : Session} {i : Int} {r : Except Error Outcome}
      (h : s.run (roundOf take x body i) = (r, t)) : t.env.get? x = some (.int i) := by
    have hrun : Session.run { s with env := s.env.put x (.int i) } (block take body) = (r, t) := h
    have hbound := (hkeeps { s with env := s.env.put x (.int i) }).env x mem_cons_self
    rw [hrun] at hbound
    exact hbound.trans (Fields.get?_put_self _ _ _)
  induction h with
  | done s => rfl
  | goesOn h _ ih =>
    rw [ih, hround h, getLast?_cons]
    cases getLast? _ <;> rfl
  | stops h _ => exact hround h

/-! ### Loops -/

/-- An object that stands for a range with both its ends, in a session. Without a stride it goes
    by one. -/
structure IsRange (s : Session) (range : Value) (first last stride : Int) : Prop where
  type : range.field "type" = .str "Range"
  inclusive : (range.field "inclusive").truthy
  first : s.run (argument (range.fieldD "start" (.int 0))) = (.ok (.int first), s)
  last : s.run (argument (range.fieldD "end" (.int 0))) = (.ok (.int last), s)
  stride : s.run (argument (range.fieldD "step" (.int 1))) = (.ok (.int stride), s)

def loopBody (st : Step) : Value := (st.arg "block").orElse (Step.blockOf (.list []))

theorem run_range {st : Step} (hv : Step.ofValue v = .ok st) (hverb : st.verb = "Repeat")
    (hrange : IsRange s (st.arg "range") a b k) (hk : k ≠ 0) (depth : Nat) :
    s.run (takeStep (depth + 1) v) = s.run (countLoop (takeStep depth) (st.arg "iterator")
      (loopBody st) k ((b - a).fdiv k + 1).toNat a) := by
  obtain ⟨span, hspan, hfirst, hstride, hcount⟩ := @exists_span a b k hk
  rw [Law.takeStep_succ, step, run_bind, run_liftExcept, hv]
  dsimp only
  rw [hverb]
  change s.run (repeatStep (takeStep depth) st) = _
  rw [repeatStep, hrange.type, hrange.inclusive]
  change s.run (_ >>= _) = _
  rw [run_bind, hrange.first]
  dsimp only
  rw [run_bind, hrange.last]
  dsimp only
  rw [run_bind, hrange.stride]
  dsimp only
  rw [hspan]
  dsimp only
  rw [hfirst, hstride, hcount]
  rfl

/-- A loop over a range visits the values of the progression in turn, each bound to the variable,
    and ends with the first round that returns or fails. -/
theorem repeat_visits_progression {st : Step} (hv : Step.ofValue v = .ok st)
    (hverb : st.verb = "Repeat") (hx : st.arg "iterator" = .str x) (hne : x ≠ "")
    (hrange : IsRange s (st.arg "range") a b k) (hk : k ≠ 0) (depth : Nat) :
    ((progression a b k).length : Int) = max 0 ((b - a).fdiv k + 1) ∧ (∀ y, y ∈ progression a b k ↔
      ∃ j : Nat, y = a + j * k ∧ if 0 < k then y ≤ b else b ≤ y) ∧
    ∃ r t visited, s.run (takeStep (depth + 1) v) = (r, t) ∧
      WalksAlong (roundOf (takeStep depth) x (loopBody st)) s (progression a b k) r t visited ∧
      (Keeps [x] (block (takeStep depth) (loopBody st)) →
        t.env.get? x = (visited.getLast?.map Value.int).or (s.env.get? x)) := by
  refine ⟨length_progression a b k, fun y => mem_progression_iff hk, ?_⟩
  rw [run_range hv hverb hrange hk, hx]
  obtain ⟨r, t, visited, hrun, hwalks⟩ := exists_walks (takeStep depth) hne (loopBody st) k
    ((b - a).fdiv k + 1).toNat a s
  exact ⟨r, t, visited, hrun, hwalks, hwalks.1.get?_eq⟩

/-- Down from three by ones, with a block that binds another variable. -/
theorem repeat_visits_progression_down : let inner : Value := .obj [("verb", .str "Make"),
      ("args", .obj [("name", .str "y"), ("expr", .int 1)])]
    let range : Value := .obj [("type", .str "Range"), ("start", .int 3), ("end", .int 1),
      ("step", .int (-1)), ("inclusive", .bool true)]
    let v : Value := .obj [("verb", .str "Repeat"), ("args", .obj [("iterator", .str "i"),
      ("range", range)]), ("block", .list [inner])]
    ∃ r t visited, (Session.start .null false [] []).run (takeStep 2 v) = (r, t) ∧
      (∃ rest, [3, 2, 1] = visited ++ rest ∧ (r = .ok none → rest = [])) ∧
      t.env.get? "i" = (visited.getLast?.map Value.int).or none := by
  intro inner range v
  have hv : Step.ofValue v = .ok ⟨"Repeat", [("iterator", .str "i"), ("range", range),
    ("block", Step.blockOf (.list [inner]))], "Repeat"⟩ := by rfl
  have hinner : Step.ofValue inner = .ok ⟨"Make", [("name", .str "y"), ("expr", .int 1)],
    "Make"⟩ := by rfl
  obtain ⟨_, _, r, t, visited, hrun, ⟨_, hrest⟩, hlast⟩ :=
    repeat_visits_progression hv rfl rfl (by decide)
      (show IsRange (Session.start .null false [] []) range 3 1 (-1) from
        ⟨rfl, rfl, rfl, rfl, rfl⟩) (by decide) 1
  refine ⟨r, t, visited, hrun, hrest, hlast ?_⟩
  have hstep : Within ["i"] True (takeStep 1 inner) := by
    rw [Law.takeStep_succ]
    exact within_step _ _ hinner (by decide) (fun _ => trivial) (by decide)
  change Keeps ["i"] (block (takeStep 1) (Step.blockOf (.list [inner])))
  rw [block_of_list]
  exact (within_steps (List.forall_mem_singleton.mpr hstep)).keeps

end Run

end Loom
