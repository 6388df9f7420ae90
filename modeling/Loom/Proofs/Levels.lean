import Loom.Proofs.Enclosure
import Mathlib.Data.List.Induction

/-!
# Nesting by Levels

Which lines a repetition holds once an outline is read, said by the levels of the
lines alone. A row is a line with its level.

A repetition asks its lines to be two levels deeper than it is, and a line counts
as one level deeper than the last repetition at least. So a repetition stays
`Open` as long as the repetitions after it are two levels deeper, and the lines
too, up to the next repetition. What comes after that cannot leave it without one
more repetition. And a repetition whose first line is not that deep has nothing
inside when it is read, and takes in the whole run of lines after it: `WaitsFor`.

Both are computed by a stack of open repetitions. It holds the repetitions that
are open by that definition, with levels that fall from the inside out, and the
innermost list of steps ends with the repetition that waits. `Follows` and
`FollowsRuns` are these invariants.

One would expect a row to be inside a repetition if it is deeper and no row between
them is as shallow: `Below`. That is the same for rows that are `WellSpaced`.
-/

namespace Loom.Flow

open Node List Option

variable {α : Type}

/-! ### Rows -/

structure Row (α : Type) where
  level : Nat
  entry : Entry α

def Row.isLoop (r : Row α) : Bool := r.entry.isLoop

def Row.isReturn (r : Row α) : Bool := r.entry.isReturn

variable {rows : List (Row α)} {r a : Row α} {k i j : Nat} {b : Nest Nat}

/-- A row that is a repetition, or that no other repetition separates from row `i`. -/
def Near (rows : List (Row α)) (i : Nat) (r : Row α) : Prop :=
  r.isLoop = true ∨ ∀ k c, i < k → rows[k]? = some c → c.isLoop = false

/-- Row `i` is a repetition that is open after all rows: those that are near it are
    two levels deeper. -/
def Open (rows : List (Row α)) (i : Nat) (a : Row α) : Prop := rows[i]? = some a ∧ a.isLoop = true ∧
    ∀ k c, i < k → rows[k]? = some c → Near (rows.take k) i c → a.level + 2 ≤ c.level

/-- Row `j` is read while the repetition that row `i` is is open. -/
def Reaches (rows : List (Row α)) (i j : Nat) : Prop :=
  i < j ∧ j < rows.length ∧ ∃ a, Open (rows.take (j + 1)) i a

instance {P : Nat → Row α → Prop} [∀ k c, Decidable (P k c)] (rows : List (Row α)) (i : Nat) :
    Decidable (∀ k c, i < k → rows[k]? = some c → P k c) :=
  decidable_of_iff (∀ k (h : k < rows.length), i < k → P k rows[k])
    ⟨fun h k c hk hc => by
      obtain ⟨hlt, rfl⟩ := List.getElem?_eq_some_iff.mp hc
      exact h k hlt hk,
     fun h k hlt hk => h k rows[k] hk (getElem?_eq_getElem hlt)⟩

instance (rows : List (Row α)) (i : Nat) (r : Row α) : Decidable (Near rows i r) :=
  inferInstanceAs (Decidable (_ ∨ _))

instance (rows : List (Row α)) (i j : Nat) : Decidable (Reaches rows i j) :=
  inferInstanceAs (Decidable (_ ∧ _ ∧ ∃ a ∈ (rows.take (j + 1))[i]?, _ ∧ _))

theorem getElem?_snoc_iff {c : Row α} :
    (rows ++ [r])[k]? = some c ↔ rows[k]? = some c ∨ (k = rows.length ∧ c = r) := by
  rcases Nat.lt_trichotomy k rows.length with hk | hk | hk
  · rw [getElem?_append_left hk]
    exact ⟨.inl, fun h => h.resolve_right fun h => absurd h.1 (Nat.ne_of_lt hk)⟩
  · subst hk
    rw [getElem?_concat_length, getElem?_eq_none (Nat.le_refl _)]
    simp [eq_comm]
  · rw [getElem?_eq_none (by simp; omega), getElem?_eq_none (by omega)]
    simp [Nat.ne_of_gt hk]

theorem lt_length_of_getElem? (h : rows[k]? = some r) : k < rows.length :=
  (List.getElem?_eq_some_iff.mp h).1

theorem open_snoc : Open (rows ++ [r]) i a ↔
      (Open rows i a ∧ (Near rows i r → a.level + 2 ≤ r.level)) ∨
        (i = rows.length ∧ a = r ∧ r.isLoop) := by
  have htake : ∀ k, k ≤ rows.length → (rows ++ [r]).take k = rows.take k :=
    fun k hk => take_append_of_le_length hk
  have hwhole : (rows ++ [r]).take rows.length = rows := by
    rw [htake _ (Nat.le_refl _), take_length]
  constructor
  · rintro ⟨hi, hloop, hafter⟩
    rcases getElem?_snoc_iff.mp hi with hi | ⟨rfl, rfl⟩
    · refine .inl ⟨⟨hi, hloop, fun k c hk hc hnear => ?_⟩, fun hnear => ?_⟩
      · refine hafter k c hk (getElem?_snoc_iff.mpr (.inl hc)) ?_
        rwa [htake k (Nat.le_of_lt (lt_length_of_getElem? hc))]
      · refine hafter rows.length r (lt_length_of_getElem? hi)
          (getElem?_snoc_iff.mpr (.inr ⟨rfl, rfl⟩)) ?_
        rwa [hwhole]
    · exact .inr ⟨rfl, rfl, hloop⟩
  · rintro (⟨⟨hi, hloop, hafter⟩, hlast⟩ | ⟨rfl, rfl, hloop⟩)
    · refine ⟨getElem?_snoc_iff.mpr (.inl hi), hloop, fun k c hk hc hnear => ?_⟩
      rcases getElem?_snoc_iff.mp hc with hc | ⟨rfl, rfl⟩
      · rw [htake k (Nat.le_of_lt (lt_length_of_getElem? hc))] at hnear
        exact hafter k c hk hc hnear
      · rw [hwhole] at hnear
        exact hlast hnear
    · refine ⟨getElem?_snoc_iff.mpr (.inr ⟨rfl, rfl⟩), hloop, fun k c hk hc => ?_⟩
      have hlen := lt_length_of_getElem? hc
      rw [length_append, length_singleton] at hlen
      omega

theorem reaches_snoc : Reaches (rows ++ [r]) i j ↔ Reaches rows i j ∨
        (j = rows.length ∧ ∃ a, Open rows i a ∧ (Near rows i r → a.level + 2 ≤ r.level)) := by
  have hlength : (rows ++ [r]).length = rows.length + 1 := length_append
  have hwhole : (rows ++ [r]).take (rows.length + 1) = rows ++ [r] :=
    take_of_length_le (Nat.le_of_eq hlength)
  constructor
  · rintro ⟨hij, hj, a, hopen⟩
    rw [hlength] at hj
    rcases Nat.eq_or_lt_of_le (Nat.le_of_lt_succ hj) with rfl | hlt
    · rw [hwhole, open_snoc] at hopen
      rcases hopen with hopen | ⟨rfl, _⟩
      · exact .inr ⟨rfl, a, hopen⟩
      · exact absurd hij (Nat.lt_irrefl _)
    · rw [take_append_of_le_length hlt] at hopen
      exact .inl ⟨hij, hlt, a, hopen⟩
  · rintro (⟨hij, hj, a, hopen⟩ | ⟨rfl, a, hopen⟩)
    · refine ⟨hij, by omega, a, ?_⟩
      rwa [take_append_of_le_length hj]
    · refine ⟨lt_length_of_getElem? hopen.1.1, by omega, a, ?_⟩
      rw [hwhole, open_snoc]
      exact .inl hopen

/-! ### Levels that are raised -/

def lastLoop? (rows : List (Row α)) : Option Nat := (rows.filter Row.isLoop).getLast?.map Row.level

/-- The level that a row is put at after others: a line is raised above the last
    repetition. -/
def raised (done : List (Row α)) (r : Row α) : Nat := match r.isLoop, lastLoop? done with
  | false, some level => max r.level (level + 1)
  | _, _ => r.level

theorem lastLoop?_snoc (rows : List (Row α)) (r : Row α) :
    lastLoop? (rows ++ [r]) = if r.isLoop then some r.level else lastLoop? rows := by
  rw [lastLoop?, filter_append]
  cases hloop : r.isLoop with
  | true => rw [filter_cons_of_pos hloop, filter_nil, getLast?_concat]; rfl
  | false =>
    rw [filter_cons_of_neg (by simp [hloop]), filter_nil, append_nil]
    rfl

theorem exists_last_loop (hi : rows[i]? = some a) (hloop : a.isLoop) :
    ∃ q b, rows[q]? = some b ∧ b.isLoop ∧ lastLoop? rows = some b.level ∧ i ≤ q ∧
      ∀ k c, q < k → rows[k]? = some c → c.isLoop = false := by
  induction rows using reverseRecOn with
  | nil => cases hi
  | append_singleton rows r ih =>
    rw [lastLoop?_snoc]
    cases hr : r.isLoop with
    | true =>
      refine ⟨rows.length, r, getElem?_snoc_iff.mpr (.inr ⟨rfl, rfl⟩), hr, rfl, ?_, ?_⟩
      · have := lt_length_of_getElem? hi
        rw [length_append, length_singleton] at this
        omega
      · intro k c hk hc
        have := lt_length_of_getElem? hc
        rw [length_append, length_singleton] at this
        omega
    | false =>
      rcases getElem?_snoc_iff.mp hi with hi | ⟨_, rfl⟩
      · obtain ⟨q, b, hq, hb, hlast, hle, hafter⟩ := ih hi
        refine ⟨q, b, getElem?_snoc_iff.mpr (.inl hq), hb, hlast, hle, fun k c hk hc => ?_⟩
        rcases getElem?_snoc_iff.mp hc with hc | ⟨_, rfl⟩
        · exact hafter k c hk hc
        · exact hr
      · rw [hr] at hloop
        cases hloop

theorem Open.lt_raised_iff (h : Open rows i a) (r : Row α) :
    a.level + 1 < raised rows r ↔ (Near rows i r → a.level + 2 ≤ r.level) := by
  obtain ⟨hi, hloop, hafter⟩ := h
  rw [raised]
  cases hr : r.isLoop with
  | true => exact ⟨fun h _ => h, fun h => h (.inl hr)⟩
  | false =>
    obtain ⟨q, c, hq, hc, hlast, hle, hlines⟩ := exists_last_loop hi hloop
    rw [hlast]
    dsimp only
    rcases Nat.eq_or_lt_of_le hle with rfl | hlt
    · obtain rfl : a = c := some_inj.mp (hi.symm.trans hq)
      refine ⟨fun h _ => by omega, fun h => ?_⟩
      have := h (.inr hlines)
      omega
    · -- The last repetition is deep enough, and the row is raised above it.
      have hdeep := hafter q c hlt hq (.inl hc)
      refine ⟨fun _ hnear => ?_, fun _ => by omega⟩
      rcases hnear with hnear | hnear
      · rw [hr] at hnear
        cases hnear
      · exact absurd (hc.symm.trans (hnear q c hlt hq)) Bool.noConfusion

/-! ### The stack of rows -/

/-- A row put at a level. A repetition asks for rows that are deeper than one more
    level. -/
def Nest.addAt (b : Nest α) (level : Nat) (r : Row α) : Nest α := match r.entry with
  | .line s => (b.leave level).push (.line s)
  | .loop origin args => (b.leave level).openLoop (level + 1) origin args

/-- The repetitions of a nest are those that are open, and it encloses what they
    reach. -/
structure Follows (rows : List (Row Nat)) (b : Nest Nat) : Prop where
  sorted : b.keys.Pairwise fun x y => y.2 < x.2
  mem_keys : ∀ i (level : Int), (i, level) ∈ b.keys ↔ ∃ a, Open rows i a ∧ (a.level : Int) + 1 = level
  encloses : ∀ i j, b.Encloses i j ↔ Reaches rows i j

namespace Follows

variable {rows : List (Row Nat)} {b : Nest Nat}

theorem mem_keys_leave (h : Follows rows b) (r : Row Nat) (i : Nat) (level : Int) :
    (i, level) ∈ (b.leave (raised rows r)).keys ↔
      ∃ a, (Open rows i a ∧ (Near rows i r → a.level + 2 ≤ r.level)) ∧ (a.level : Int) + 1 = level := by
  rw [Nest.keys_leave h.sorted, mem_filter, h.mem_keys, decide_eq_true_iff]
  constructor
  · rintro ⟨⟨a, ha, rfl⟩, hlevel⟩
    exact ⟨a, ⟨ha, (ha.lt_raised_iff r).mp (Int.ofNat_lt.mp hlevel)⟩, rfl⟩
  · rintro ⟨a, ⟨ha, hdeep⟩, rfl⟩
    exact ⟨⟨a, ha, rfl⟩, Int.ofNat_lt.mpr ((ha.lt_raised_iff r).mpr hdeep)⟩

theorem mem_origins_leave (h : Follows rows b) (r : Row Nat) (i : Nat) :
    i ∈ (b.leave (raised rows r)).loops.map OpenNode.origin ↔
      ∃ a, Open rows i a ∧ (Near rows i r → a.level + 2 ≤ r.level) := by
  rw [Nest.mem_origins_iff]
  constructor
  · rintro ⟨level, hmem⟩
    obtain ⟨a, ha, _⟩ := (h.mem_keys_leave r i level).mp hmem
    exact ⟨a, ha⟩
  · rintro ⟨a, ha⟩
    exact ⟨a.level + 1, (h.mem_keys_leave r i _).mpr ⟨a, ha, rfl⟩⟩

theorem addAt (h : Follows rows b) {r : Row Nat} (horigin : r.entry.origin = rows.length) :
    Follows (rows ++ [r]) (b.addAt (raised rows r) r) := by
  have hsorted : (b.leave (raised rows r)).keys.Pairwise fun x y => y.2 < x.2 := by
    rw [Nest.keys_leave h.sorted]
    exact h.sorted.filter _
  have hreaches : ∀ i j, (b.leave (raised rows r)).Encloses i j ∨
      (i ∈ (b.leave (raised rows r)).loops.map OpenNode.origin ∧ j = rows.length) ↔
        Reaches (rows ++ [r]) i j := by
    intro i j
    rw [Nest.encloses_leave, h.encloses, h.mem_origins_leave, reaches_snoc, and_comm]
  have hkeys := h.mem_keys_leave r
  rcases r with ⟨level, s | ⟨origin, args⟩⟩
  · refine ⟨?_, fun i l => ?_, fun i j => ?_⟩
    · rw [Nest.addAt, Nest.keys_push]
      exact hsorted
    · rw [Nest.addAt, Nest.keys_push, hkeys]
      simp only [open_snoc, Row.isLoop, Entry.isLoop, Bool.false_eq_true, and_false, or_false]
    · rw [Nest.addAt, Nest.encloses_push, ← hreaches, show s.origin = rows.length from horigin]
  · -- A repetition is near all others, so those still open are two levels shallower.
    obtain rfl : origin = rows.length := horigin
    have hraised : raised rows (⟨level, .loop rows.length args⟩ : Row Nat) = level := rfl
    rw [hraised] at hsorted hreaches hkeys ⊢
    refine ⟨?_, fun i l => ?_, fun i j => ?_⟩
    · rw [Nest.addAt, Nest.keys_openLoop, pairwise_cons]
      refine ⟨fun y hy => ?_, hsorted⟩
      obtain ⟨a, ⟨_, hdeep⟩, hy⟩ := (hkeys y.1 y.2).mp hy
      have := hdeep (.inl rfl)
      rw [← hy]
      dsimp only at this ⊢
      omega
    · rw [Nest.addAt, Nest.keys_openLoop, mem_cons, hkeys]
      simp only [open_snoc, Prod.mk.injEq]
      constructor
      · rintro (⟨rfl, rfl⟩ | ⟨a, ha, hl⟩)
        · exact ⟨⟨level, .loop rows.length args⟩, .inr ⟨rfl, rfl, rfl⟩, rfl⟩
        · exact ⟨a, .inl ha, hl⟩
      · rintro ⟨a, ha | ⟨rfl, rfl, _⟩, hl⟩
        · exact .inr ⟨a, ha, hl⟩
        · exact .inl ⟨rfl, hl.symm⟩
    · rw [Nest.addAt, Nest.encloses_openLoop, ← hreaches]

end Follows

/-- Row `i` is a repetition with only lines after it, none of them a `Return`, and
    the first of them is not two levels deeper. -/
def Waits (rows : List (Row α)) (i : Nat) : Prop :=
  ∃ a c, rows[i]? = some a ∧ rows[i + 1]? = some c ∧ a.isLoop = true ∧ c.level ≤ a.level + 1 ∧
    ∀ k d, i < k → rows[k]? = some d → d.isLoop = false ∧ d.isReturn = false

/-- The same, but the next row may be the first. -/
def WaitsFor (rows : List (Row α)) (i : Nat) (r : Row α) : Prop :=
  ∃ a c, rows[i]? = some a ∧ (rows ++ [r])[i + 1]? = some c ∧ a.isLoop = true ∧
    c.level ≤ a.level + 1 ∧
    ∀ k d, i < k → rows[k]? = some d → d.isLoop = false ∧ d.isReturn = false

/-- Row `j` is a line that the repetition that row `i` is takes in. -/
def Fills (rows : List (Row α)) (i j : Nat) : Prop :=
  ∃ r, rows[j]? = some r ∧ r.isLoop = false ∧ WaitsFor (rows.take j) i r

instance (rows : List (Row α)) (i : Nat) (r : Row α) : Decidable (WaitsFor rows i r) :=
  decidable_of_iff (∃ a ∈ rows[i]?, ∃ c ∈ (rows ++ [r])[i + 1]?, a.isLoop = true ∧
      c.level ≤ a.level + 1 ∧
      ∀ k d, i < k → rows[k]? = some d → d.isLoop = false ∧ d.isReturn = false)
    ⟨fun ⟨a, ha, c, hc, h⟩ => ⟨a, c, ha, hc, h⟩, fun ⟨a, c, ha, hc, h⟩ => ⟨a, ha, c, hc, h⟩⟩

instance (rows : List (Row α)) (i j : Nat) : Decidable (Fills rows i j) :=
  inferInstanceAs (Decidable (∃ r ∈ rows[j]?, _ ∧ _))

theorem waitsFor_iff : WaitsFor rows i r ↔ Waits rows i ∨
      (i + 1 = rows.length ∧ ∃ a, rows[i]? = some a ∧ a.isLoop ∧ r.level ≤ a.level + 1) := by
  constructor
  · rintro ⟨a, c, ha, hc, hloop, hlevel, hafter⟩
    rcases getElem?_snoc_iff.mp hc with hc | ⟨hlast, rfl⟩
    · exact .inl ⟨a, c, ha, hc, hloop, hlevel, hafter⟩
    · exact .inr ⟨hlast, a, ha, hloop, hlevel⟩
  · rintro (⟨a, c, ha, hc, hloop, hlevel, hafter⟩ | ⟨hlast, a, ha, hloop, hlevel⟩)
    · exact ⟨a, c, ha, getElem?_snoc_iff.mpr (.inl hc), hloop, hlevel, hafter⟩
    · refine ⟨a, r, ha, getElem?_snoc_iff.mpr (.inr ⟨hlast, rfl⟩), hloop, hlevel, ?_⟩
      intro k d hk hd
      have := lt_length_of_getElem? hd
      omega

theorem waits_snoc :
    Waits (rows ++ [r]) i ↔ WaitsFor rows i r ∧ r.isLoop = false ∧ r.isReturn = false := by
  constructor
  · rintro ⟨a, c, ha, hc, hloop, hlevel, hafter⟩
    have hlt := lt_length_of_getElem? hc
    rw [length_append, length_singleton] at hlt
    rw [getElem?_append_left (by omega)] at ha
    refine ⟨⟨a, c, ha, hc, hloop, hlevel, fun k d hk hd => ?_⟩, ?_⟩
    · exact hafter k d hk (getElem?_snoc_iff.mpr (.inl hd))
    · exact hafter rows.length r (by omega) (getElem?_snoc_iff.mpr (.inr ⟨rfl, rfl⟩))
  · rintro ⟨⟨a, c, ha, hc, hloop, hlevel, hafter⟩, hline⟩
    refine ⟨a, c, getElem?_snoc_iff.mpr (.inl ha), hc, hloop, hlevel, fun k d hk hd => ?_⟩
    rcases getElem?_snoc_iff.mp hd with hd | ⟨_, rfl⟩
    · exact hafter k d hk hd
    · exact hline

theorem fills_snoc : Fills (rows ++ [r]) i j ↔
      Fills rows i j ∨ (j = rows.length ∧ r.isLoop = false ∧ WaitsFor rows i r) := by
  have hwhole : (rows ++ [r]).take rows.length = rows := take_left
  constructor
  · rintro ⟨c, hc, hline, hwaits⟩
    rcases getElem?_snoc_iff.mp hc with hc | ⟨rfl, rfl⟩
    · rw [take_append_of_le_length (Nat.le_of_lt (lt_length_of_getElem? hc))] at hwaits
      exact .inl ⟨c, hc, hline, hwaits⟩
    · rw [hwhole] at hwaits
      exact .inr ⟨rfl, hline, hwaits⟩
  · rintro (⟨c, hc, hline, hwaits⟩ | ⟨rfl, hline, hwaits⟩)
    · refine ⟨c, getElem?_snoc_iff.mpr (.inl hc), hline, ?_⟩
      rwa [take_append_of_le_length (Nat.le_of_lt (lt_length_of_getElem? hc))]
    · refine ⟨r, getElem?_snoc_iff.mpr (.inr ⟨rfl, rfl⟩), hline, ?_⟩
      rwa [hwhole]

theorem Waits.lastLoop? (h : Waits rows i) :
    ∃ a, rows[i]? = some a ∧ a.isLoop ∧ lastLoop? rows = some a.level := by
  obtain ⟨a, _, ha, _, hloop, _, hafter⟩ := h
  obtain ⟨q, c, hq, hc, hlast, hle, _⟩ := exists_last_loop ha hloop
  rcases Nat.eq_or_lt_of_le hle with rfl | hlt
  · obtain rfl : a = c := some_inj.mp (ha.symm.trans hq)
    exact ⟨a, ha, hloop, hlast⟩
  · exact absurd (hc.symm.trans (hafter q c hlt hq).1) Bool.noConfusion

theorem Open.lt_of_waits {c : Row α} (h : Open rows k a) (hwaits : Waits rows i)
    (hc : rows[i]? = some c) : a.level + 2 ≤ c.level := by
  obtain ⟨a', d, ha', hd, hloop, hlevel, hafter⟩ := hwaits
  obtain rfl : a' = c := some_inj.mp (ha'.symm.trans hc)
  obtain ⟨hk, hkloop, hdeep⟩ := h
  rcases Nat.lt_trichotomy k i with hlt | rfl | hgt
  · exact hdeep i a' hlt ha' (.inl hloop)
  · obtain rfl : a = a' := some_inj.mp (hk.symm.trans ha')
    have hnear : Near (rows.take (k + 1)) k d := by
      refine .inr fun q e hq he => ?_
      rw [getElem?_take_eq_none (by omega)] at he
      cases he
    have := hdeep (k + 1) d (Nat.lt_succ_self k) hd hnear
    omega
  · exact absurd (hkloop.symm.trans (hafter k a hgt hk).1) Bool.noConfusion

/-- The innermost list of a nest ends with the repetition that waits, and a nest
    has taken in what is to be taken in. -/
structure FollowsRuns (rows : List (Row Nat)) (b : Nest Nat) : Prop where
  fills : ∀ i j, b.Fills i j ↔ Fills rows i j
  waits : ∀ i, b.waiting = some i ↔ Waits rows i
  /-- A repetition that was just read is the innermost, with nothing inside yet. -/
  fresh : ∀ i a, i + 1 = rows.length → rows[i]? = some a → a.isLoop →
    ∃ l rest, b.loops = l :: rest ∧ l.origin = i ∧ l.nodes = []
  used : ∀ l rest, b.loops = l :: rest → l.nodes = [] → l.origin + 1 = rows.length

namespace FollowsRuns

variable {rows : List (Row Nat)} {l : OpenNode Nat} {rest : List (OpenNode Nat)}
  {outer : List (Node Nat)} {r : Row Nat}

/-- A repetition that was just read waits for the next line if that is not deep
    enough to be inside, and nothing else waits. -/
theorem waiting_leave_fresh (hruns : FollowsRuns rows ⟨l :: rest, outer⟩)
    (h : Follows rows ⟨l :: rest, outer⟩) (hline : r.isLoop = false) (hnodes : l.nodes = [])
    (i : Nat) : ((⟨l :: rest, outer⟩ : Nest Nat).leave (raised rows r)).waiting = some i ↔
      WaitsFor rows i r := by
  obtain ⟨a, hopen, hlevel⟩ := (h.mem_keys l.origin l.level).mp mem_cons_self
  have hlast := hruns.used l rest rfl hnodes
  have hnone : ¬Waits rows i := by
    rintro ⟨_, c, _, hc, _, _, hafter⟩
    have hlt := lt_length_of_getElem? hc
    have hleaf := (hafter l.origin a (by omega) hopen.1).1
    exact absurd (hopen.2.1.symm.trans hleaf) Bool.noConfusion
  have hraised : raised rows r = max r.level (a.level + 1) := by
    obtain ⟨q, c, hq, _, hlastLoop, hle, _⟩ := exists_last_loop hopen.1 hopen.2.1
    have hlt := lt_length_of_getElem? hq
    obtain rfl : q = l.origin := by omega
    rw [raised, hline, hlastLoop, some_inj.mp (hopen.1.symm.trans hq)]
  have hfor : WaitsFor rows i r ↔ i = l.origin ∧ r.level ≤ a.level + 1 := by
    rw [waitsFor_iff, or_iff_right hnone]
    constructor
    · rintro ⟨hi, c, hc, _, hlow⟩
      obtain rfl : i = l.origin := by omega
      rw [some_inj.mp (hopen.1.symm.trans hc)]
      exact ⟨rfl, hlow⟩
    · rintro ⟨rfl, hlow⟩
      exact ⟨hlast, a, hopen.1, hopen.2.1, hlow⟩
  rw [hfor]
  by_cases hlow : r.level ≤ a.level + 1
  · -- The line is raised to the level of the repetition's own lines, less than what it
    -- asks for, so it closes that one and none around it.
    have hstays : ∀ m ms, rest = m :: ms → m.level < raised rows r := by
      rintro m ms rfl
      have hlt := (pairwise_cons.mp h.sorted).1 (m.origin, m.level) mem_cons_self
      dsimp only at hlt
      omega
    rw [Nest.leave_one (by omega) hstays, OpenNode.close, Nest.waiting_push_loop, hnodes]
    exact ⟨fun hi => ⟨(some_inj.mp hi).symm, hlow⟩, fun hi => congrArg some hi.1.symm⟩
  · rw [Nest.leave_of_lt (fun m ms hm => by rw [← (List.cons.inj hm).1]; omega), Nest.waiting]
    dsimp only
    rw [hnodes]
    exact ⟨fun hi => absurd hi.symm (some_ne_none i), fun hi => absurd hi.2 hlow⟩

theorem waiting_leave_used (hruns : FollowsRuns rows ⟨l :: rest, outer⟩)
    (h : Follows rows ⟨l :: rest, outer⟩) (hline : r.isLoop = false) (hnodes : l.nodes ≠ [])
    (i : Nat) : ((⟨l :: rest, outer⟩ : Nest Nat).leave (raised rows r)).waiting = some i ↔
      WaitsFor rows i r := by
  have hfresh : ¬(i + 1 = rows.length ∧ ∃ a, rows[i]? = some a ∧ a.isLoop ∧
      r.level ≤ a.level + 1) := by
    rintro ⟨hlast, c, hc, hloop, _⟩
    obtain ⟨m, ms, hm, _, hempty⟩ := hruns.fresh i c hlast hc hloop
    rw [← (List.cons.inj hm).1] at hempty
    exact hnodes hempty
  rw [waitsFor_iff, or_iff_left hfresh]
  by_cases hlt : l.level < raised rows r
  · rw [Nest.leave_of_lt (fun m ms hm => (List.cons.inj hm).1 ▸ hlt), hruns.waits]
  · rw [Nest.waiting_leave_of_full hlt hnodes]
    refine ⟨nofun, fun hwaits => absurd ?_ hlt⟩
    obtain ⟨a, hopen, hlevel⟩ := (h.mem_keys l.origin l.level).mp mem_cons_self
    obtain ⟨c, hc, _, hlastLoop⟩ := hwaits.lastLoop?
    have := hopen.lt_of_waits hwaits hc
    rw [raised, hline, hlastLoop]
    dsimp only
    omega

theorem waiting_leave (hruns : FollowsRuns rows b) (h : Follows rows b) (hline : r.isLoop = false)
    (i : Nat) : (b.leave (raised rows r)).waiting = some i ↔ WaitsFor rows i r := by
  rcases b with ⟨_ | ⟨l, rest⟩, outer⟩
  · rw [Nest.leave_of_lt (fun l rest hnil => absurd hnil.symm (cons_ne_nil l rest)),
      hruns.waits, waitsFor_iff]
    refine ⟨.inl, fun h => h.resolve_right ?_⟩
    rintro ⟨hlast, a, ha, hloop, _⟩
    obtain ⟨_, _, hnil, _⟩ := hruns.fresh i a hlast ha hloop
    cases hnil
  · by_cases hnodes : l.nodes = []
    · exact hruns.waiting_leave_fresh h hline hnodes i
    · exact hruns.waiting_leave_used h hline hnodes i

end FollowsRuns

theorem FollowsRuns.addAt {rows : List (Row Nat)} (hruns : FollowsRuns rows b) (h : Follows rows b)
    {r : Row Nat} (horigin : r.entry.origin = rows.length) :
    FollowsRuns (rows ++ [r]) (b.addAt (raised rows r) r) := by
  have hlength : (rows ++ [r]).length = rows.length + 1 := length_append
  have hlast : ∀ i a, i + 1 = (rows ++ [r]).length → (rows ++ [r])[i]? = some a →
      i = rows.length ∧ a = r := by
    intro i a hi ha
    rcases getElem?_snoc_iff.mp ha with ha | h
    · have := lt_length_of_getElem? ha
      omega
    · exact h
  rcases r with ⟨level, s | ⟨origin, args⟩⟩
  · have horigin : s.origin = rows.length := horigin
    have hwaiting := hruns.waiting_leave (r := ⟨level, .line s⟩) h rfl
    refine ⟨fun i j => ?_, fun i => ?_, fun i a hi ha hloop => ?_, fun l rest hl hnodes => ?_⟩
    · rw [Nest.addAt, Nest.fills_push, Nest.fills_leave, hruns.fills, hwaiting, fills_snoc, horigin]
      exact or_congr_right ⟨fun h => ⟨h.2, rfl, h.1⟩, fun h => ⟨h.2.2, h.1⟩⟩
    · rw [Nest.addAt, Nest.waiting_push, waits_snoc]
      change (if hasVerb "Return" s.step then none else _) = some i ↔
        _ ∧ _ ∧ hasVerb "Return" s.step = false
      cases hasVerb "Return" s.step with
      | true => simp
      | false => exact (hwaiting i).trans ⟨fun h => ⟨h, rfl, rfl⟩, And.left⟩
    · rw [(hlast i a hi ha).2] at hloop
      cases hloop
    · exact absurd hnodes (Nest.nodes_push_ne_nil hl)
  · have horigin : origin = rows.length := horigin
    refine ⟨fun i j => ?_, fun i => ?_, fun i a hi ha hloop => ?_, fun l rest hl hnodes => ?_⟩
    · rw [Nest.addAt, Nest.fills_openLoop, Nest.fills_leave, hruns.fills, fills_snoc]
      exact ⟨.inl, fun h => h.resolve_right fun h => absurd h.2.1 Bool.noConfusion⟩
    · rw [waits_snoc]
      exact ⟨nofun, fun h => absurd h.2.1 Bool.noConfusion⟩
    · exact ⟨_, _, rfl, horigin.trans (hlast i a hi ha).1.symm, rfl⟩
    · rw [← (List.cons.inj hl).1, hlength, horigin]

end Loom.Flow
