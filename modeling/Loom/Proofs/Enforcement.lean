import Loom.Proofs.Inside
import Loom.Proofs.Sameness

/-!
# Enforcing Capabilities

A verb of a pack may need capabilities. Expansion warns when they are not granted, or
refuses if it enforces them. Enforcing does nothing else: what it lets through comes out as
it does without, step by step and at every depth.

Needed and granted capabilities are both read as sets, so that nothing is missing if and
only if everything needed equals something granted. Steps inside a step are found only after
that step is expanded; the two expansions agree on it, so they find the same.
-/

namespace Loom.Overlay

open List

variable {xs acc r : List Value} {α β : Type} {x y : Except Error α} {k : α → Except Error β}
  {p : Prop}

/-! ### Sets of capabilities -/

theorem isName_of_mapM {names : List (Option String)}
    (h : xs.mapM Value.toName = .ok names) : ∀ x ∈ xs, x.isName := by
  induction xs generalizing names with
  | nil => exact fun x hx => absurd hx not_mem_nil
  | cons x xs ih =>
    rw [mapM_cons] at h
    obtain ⟨name, hname, h⟩ := of_bind_ok h
    obtain ⟨rest, hrest, _⟩ := of_bind_ok h
    refine forall_mem_cons.mpr ⟨?_, ih hrest⟩
    rw [Value.isName, hname]
    rfl

variable {v : Value} {items : List Value}

theorem isIn_iff : v.isIn items ↔ ∃ w ∈ items, w.same v := any_eq_true

/-- Putting items into a set: what it had is kept, nothing else gets in, and each of them is
    in it, or something equal is. -/
theorem collect_spec {items' : List Value}
    (h : items.foldl (fun acc x => if x.isIn acc then acc else acc ++ [x]) acc = items') :
    (∀ x ∈ acc, x ∈ items') ∧ (∀ x ∈ items', x ∈ acc ∨ x ∈ items) ∧
      ∀ x ∈ items, x ∈ items' ∨ x.isIn items' := by
  induction items generalizing acc with
  | nil =>
    obtain rfl : acc = items' := h
    exact ⟨fun _ hx => hx, fun _ hx => .inl hx, fun _ hx => absurd hx not_mem_nil⟩
  | cons y items ih =>
    rw [foldl_cons] at h
    by_cases hy : y.isIn acc = true
    · rw [if_pos hy] at h
      obtain ⟨hkept, honly, hall⟩ := ih h
      obtain ⟨w, hw, hsame⟩ := isIn_iff.mp hy
      refine ⟨hkept, fun x hx => (honly x hx).imp_right (mem_cons_of_mem y),
        forall_mem_cons.mpr ⟨.inr (isIn_iff.mpr ⟨w, hkept w hw, hsame⟩), hall⟩⟩
    · rw [if_neg hy] at h
      obtain ⟨hkept, honly, hall⟩ := ih h
      refine ⟨fun x hx => hkept x (mem_append_left _ hx), fun x hx => ?_, forall_mem_cons.mpr
          ⟨.inl (hkept y (mem_append_right _ mem_cons_self)), hall⟩⟩
      rcases honly x hx with hx | hx
      · rcases mem_append.mp hx with hx | hx
        · exact .inl hx
        · exact .inr (mem_cons.mpr (.inl (mem_singleton.mp hx)))
      · exact .inr (mem_cons_of_mem y hx)

theorem distinct_spec {ys : List Value} (h : distinct (.list xs) = .ok ys) :
    (∀ x ∈ xs, x.isName) ∧ (∀ y ∈ ys, y ∈ xs) ∧ ∀ x ∈ xs, x ∈ ys ∨ x.isIn ys := by
  obtain ⟨items, hitems, h⟩ := of_bind_ok h
  obtain rfl := Except.ok.inj ((items_list xs).symm.trans hitems)
  obtain ⟨names, hnames, h⟩ := of_bind_ok h
  obtain ⟨_, honly, hall⟩ := collect_spec (Except.ok.inj h)
  exact ⟨isName_of_mapM hnames, fun y hy => (honly y hy).resolve_left not_mem_nil, hall⟩

theorem ne_nil_of_insertOrdered {l : List Value} (h : insertOrdered v l = .ok r) : r ≠ [] := by
  cases l with
  | nil =>
    cases h
    exact cons_ne_nil _ _
  | cons w rest =>
    obtain ⟨less, _, h⟩ := of_bind_ok h
    cases less with
    | true =>
      cases h
      exact cons_ne_nil _ _
    | false =>
      obtain ⟨_, _, h⟩ := of_bind_ok h
      cases h
      exact cons_ne_nil _ _

theorem ne_nil_of_foldlM (hacc : acc ≠ [])
    (h : xs.foldlM (fun acc c => insertOrdered c acc) acc = .ok r) : r ≠ [] := by
  induction xs generalizing acc with
  | nil =>
    cases h
    exact hacc
  | cons x xs ih =>
    rw [foldlM_cons] at h
    obtain ⟨acc', hacc', h⟩ := of_bind_ok h
    exact ih (ne_nil_of_insertOrdered hacc') h

/-- No capability is missing if all that are needed are granted. Needed and granted ones are
    both read as sets, so that a capability may be granted by an equal one of an equal one. -/
theorem missing_eq_nil_iff {needed granted missing : List Value}
    (h : missingCapabilities (.list needed) (.list granted) = .ok missing) :
    missing = [] ↔ ∀ c ∈ needed, c.isIn granted := by
  obtain ⟨ns, hns, h⟩ := of_bind_ok h
  obtain ⟨gs, hgs, h⟩ := of_bind_ok h
  obtain ⟨hneedName, hneed, hneeds⟩ := distinct_spec hns
  obtain ⟨hgrantName, hgrant, hgrants⟩ := distinct_spec hgs
  -- sorting what is lacking may fail, but it does not lose anything
  have hnil : missing = [] ↔ ∀ c ∈ ns, c.isIn gs := by
    have hfilter : (ns.filter fun c => !c.isIn gs) = [] ↔ ∀ c ∈ ns, c.isIn gs := by
      simp
    rw [← hfilter]
    cases hlacking : ns.filter fun c => !c.isIn gs with
    | nil =>
      rw [hlacking] at h
      cases h
      exact Iff.rfl
    | cons c rest =>
      rw [hlacking, foldlM_cons] at h
      obtain ⟨acc, hacc, h⟩ := of_bind_ok h
      exact iff_of_false (ne_nil_of_foldlM (ne_nil_of_insertOrdered hacc) h)
        (cons_ne_nil _ _)
  rw [hnil]
  -- from the sets to the lists: an equal one may stand for a capability on either side
  constructor
  · intro hall c hc
    rcases hneeds c hc with hc | hc
    · obtain ⟨g, hg, hsame⟩ := isIn_iff.mp (hall c hc)
      exact isIn_iff.mpr ⟨g, hgrant g hg, hsame⟩
    · obtain ⟨n, hn, hnc⟩ := isIn_iff.mp hc
      obtain ⟨g, hg, hgn⟩ := isIn_iff.mp (hall n hn)
      exact isIn_iff.mpr ⟨g, hgrant g hg, Value.same_trans
        (hgrantName g (hgrant g hg)) (hneedName n (hneed n hn)) hgn hnc⟩
  · intro hall c hc
    obtain ⟨g, hg, hgc⟩ := isIn_iff.mp (hall c (hneed c hc))
    rcases hgrants g hg with hin | hin
    · exact isIn_iff.mpr ⟨g, hin, hgc⟩
    · obtain ⟨g', hg', hgg⟩ := isIn_iff.mp hin
      exact isIn_iff.mpr ⟨g', hg', Value.same_trans
        (hgrantName g' (hgrant g' hg')) (hgrantName g hg) hgg hgc⟩

/-! ### One step -/

theorem bind_iff_and {l : α → Except Error β} {r : β}
    {q : Prop} (hxy : ∀ a, x = .ok a ↔ y = .ok a ∧ p) (hkl : ∀ a, k a = .ok r ↔ l a = .ok r ∧ q) :
    (x >>= k) = .ok r ↔ (y >>= l) = .ok r ∧ p ∧ q := by
  constructor
  · intro h
    obtain ⟨a, ha, h⟩ := of_bind_ok h
    obtain ⟨hy, hp⟩ := (hxy a).mp ha
    obtain ⟨hl, hq⟩ := (hkl a).mp h
    rw [hy]
    exact ⟨hl, hp, hq⟩
  · rintro ⟨h, hp, hq⟩
    obtain ⟨a, ha, h⟩ := of_bind_ok h
    rw [(hxy a).mpr ⟨ha, hp⟩]
    exact (hkl a).mpr ⟨h, hq⟩

theorem bind_iff_left {r : β} (hxy : ∀ a, x = .ok a ↔ y = .ok a ∧ p) :
    (x >>= k) = .ok r ↔ (y >>= k) = .ok r ∧ p := by
  rw [bind_iff_and hxy fun _ => (and_iff_left trivial).symm, and_true]

def Granted (table : Table) (granted : List Value) (step : Value) : Prop :=
  ∀ m, mapping? table (step.field "verb") = .ok (some m) →
    ∀ c ∈ m.capabilities, c.isIn granted = true

variable {table : Table} (options : Options)

/-- The expansion that refuses what is not granted. -/
def Options.strict : Options := { options with enforce := true }

def Options.lax : Options := { options with enforce := false }

variable {m : Mapping} {raw : Value}

theorem checkMapping_strict_iff {r : String × List String} :
    checkMapping m options.strict raw = .ok r ↔ checkMapping m options.lax raw = .ok r ∧
        ∀ c ∈ m.capabilities, c.isIn options.granted := by
  unfold checkMapping
  change (missingCapabilities (.list m.capabilities) (.list options.granted) >>= _) = _ ↔
    (missingCapabilities (.list m.capabilities) (.list options.granted) >>= _) = _ ∧ _
  cases hmissing : missingCapabilities (.list m.capabilities) (.list options.granted) with
  | error err => exact iff_of_false (nomatch ·) (fun h => nomatch h.1)
  | ok missing =>
    have hnil := missing_eq_nil_iff hmissing
    cases missing with
    | nil =>
      have hpass : (m.capabilities.isEmpty || ([] : List Value).isEmpty) := by
        rw [isEmpty_nil, Bool.or_true]
      rw [and_iff_left (hnil.mp rfl)]
      change (if (_ || _) = true then _ else _) = _ ↔ (if (_ || _) = true then _ else _) = _
      rw [if_pos hpass, if_pos hpass]
    | cons c rest =>
      -- something is missing, so something is needed, and enforcement does not pass over it
      have hlacking : ¬(m.capabilities.isEmpty || (c :: rest).isEmpty) := by
        rw [isEmpty_cons, Bool.or_false, List.isEmpty_iff]
        intro hempty
        rw [hempty] at hnil
        exact cons_ne_nil c rest (hnil.mpr fun _ h => absurd h not_mem_nil)
      refine iff_of_false ?_ fun h => cons_ne_nil c rest (hnil.mpr h.2)
      change ¬(if (_ || _) = true then _ else _) = _
      rw [if_neg hlacking]
      intro h
      obtain ⟨_, _, h⟩ := of_bind_ok h
      cases h

variable {e : Expansion}

theorem expandMapped_strict_iff {args : Value} : expandMapped m options.strict raw args = .ok e ↔
      expandMapped m options.lax raw args = .ok e ∧
        ∀ c ∈ m.capabilities, c.isIn options.granted :=
  bind_iff_left fun _ => checkMapping_strict_iff options

theorem expandStep_strict_iff {step : Value} : expandStep table options.strict step = .ok e ↔
      expandStep table options.lax step = .ok e ∧ Granted table options.granted step := by
  unfold expandStep Granted
  cases hraw : step.lookup "verb" with
  | error err => exact iff_of_false (nomatch ·) (fun h => nomatch h.1)
  | ok raw =>
    obtain ⟨_, rfl⟩ := exists_of_lookup hraw
    change (mapping? table (step.field "verb") >>= _) = _ ↔
      (mapping? table (step.field "verb") >>= _) = _ ∧ _
    cases hmapping : mapping? table (step.field "verb") with
    | error err => exact iff_of_false (nomatch ·) (fun h => nomatch h.1)
    | ok mapping =>
      cases mapping with
      | none => exact (and_iff_left fun m h => nomatch h).symm
      | some m =>
        refine (expandMapped_strict_iff options).trans (and_congr_right' ?_)
        constructor
        · rintro h m' ⟨⟩
          exact h
        · exact fun h => h m rfl

variable {steps : List Value}

theorem expandSteps_strict_iff : expandSteps table options.strict steps = .ok e ↔
      expandSteps table options.lax steps = .ok e ∧
        ∀ t ∈ steps, Granted table options.granted t := by
  induction steps generalizing e with
  | nil => exact (and_iff_left fun t h => absurd h not_mem_nil).symm
  | cons step rest ih =>
    rw [expandSteps, expandSteps, forall_mem_cons]
    exact bind_iff_and (fun _ => expandStep_strict_iff options) fun _ => bind_iff_left fun _ => ih

/-! ### Every depth -/

/-- The steps that are expanded when a list is, at any depth: its own, and those inside the
    steps that come out. -/
inductive Expands (table : Table) (options : Options) : List Value → Value → Prop
  | own {steps : List Value} {t : Value} (ht : t ∈ steps) : Expands table options steps t
  | inside {steps xs : List Value} {e : Expansion} {v t : Value}
      (he : expandSteps table options steps = .ok e) (hv : v ∈ e.steps) (hxs : Holds v xs)
      (ht : Expands table options xs t) : Expands table options steps t

theorem expandList_strict_iff {depth : Nat} {r : Warned (List Value)} :
    expandList table options.strict depth steps = .ok r ↔
      expandList table options.lax depth steps = .ok r ∧
        ∀ t, Expands table options.lax steps t → Granted table options.granted t := by
  induction depth generalizing steps r with
  | zero => exact iff_of_false (nomatch ·) (fun h => nomatch h.1)
  | succ depth ih =>
    rw [expandList, expandList]
    constructor
    · intro h
      obtain ⟨e, he, h⟩ := of_bind_ok h
      obtain ⟨inner, hinner, h⟩ := of_bind_ok h
      obtain ⟨he, hown⟩ := (expandSteps_strict_iff options).mp he
      have hvisits := visits_expandEach e.steps
      -- what the steps hold was expanded too, so the hypothesis speaks of it
      have hheld := hvisits.ok hinner
      have hsame := hvisits.congr fun xs hxs => by
        obtain ⟨s, hs⟩ := hheld xs hxs
        exact hs.trans (ih.mp hs).1.symm
      rw [he]
      refine ⟨?_, fun t ht => ?_⟩
      · change (expandEach (expandList table options.lax depth) e.steps >>= _) = _
        rw [← hsame, hinner]
        exact h
      · cases ht with
        | own ht => exact hown t ht
        | inside he' hv hxs ht =>
          obtain rfl := Except.ok.inj (he.symm.trans he')
          obtain ⟨s, hs⟩ := hheld _ ⟨_, hv, hxs⟩
          exact (ih.mp hs).2 t ht
    · rintro ⟨h, hall⟩
      -- the same the other way round, where all that is held is granted by assumption
      obtain ⟨e, he, h⟩ := of_bind_ok h
      obtain ⟨inner, hinner, h⟩ := of_bind_ok h
      have hvisits := visits_expandEach e.steps
      have hsame := hvisits.congr fun xs hxs => by
        obtain ⟨s, hs⟩ := hvisits.ok hinner xs hxs
        obtain ⟨v, hv, hxs⟩ := hxs
        exact hs.trans (ih.mpr ⟨hs, fun t ht => hall t (.inside he hv hxs ht)⟩).symm
      rw [(expandSteps_strict_iff options).mpr ⟨he, fun t ht => hall t (.own ht)⟩]
      change (expandEach (expandList table options.strict depth) e.steps >>= _) = _
      rw [← hsame, hinner]
      exact h

/-! ### Modules -/

/-- The steps that expansion starts from: the flow of a module, or its steps if it has no
    flow. -/
def flowList? (m : Value) : Option (List Value) := match m.field "flow" with
  | .list steps => some steps
  | _ =>
    match m.field "steps", m.hasField "flow" with
    | .list steps, false => some steps
    | _, _ => none

/-- The same for a module that may be inside a wrapper. -/
def mainList? (m : Value) : Option (List Value) :=
  if (m.field "module").isObj then flowList? (m.field "module") else flowList? m

theorem flowList?_eq (m : Value) : flowList? m = (flowPlace? m).map Prod.snd := by
  unfold flowList? flowPlace?
  cases m.field "flow" with
  | list steps => rfl
  | _ =>
    cases m.field "steps" with
    | list steps => cases m.hasField "flow" <;> rfl
    | _ => rfl

theorem expandFlow_strict_iff {m : Value} {r : Warned Value} :
    expandFlow table options.strict m = .ok r ↔ expandFlow table options.lax m = .ok r ∧
        ∀ steps, flowList? m = some steps →
          ∀ t, Expands table options.lax steps t → Granted table options.granted t := by
  by_cases hobj : m.isObj = true
  · rw [expandFlow_eq hobj, expandFlow_eq hobj, flowList?_eq]
    generalize depthLimit = depth
    cases flowPlace? m with
    | none => exact (and_iff_left nofun).symm
    | some place =>
      simp only [Option.map_some, Option.some.injEq, forall_eq']
      exact bind_iff_left fun _ => expandList_strict_iff options
  · exact iff_of_false (fun h => hobj (isObj_of_expandFlow h))
      (fun h => hobj (isObj_of_expandFlow h.1))

/-- Enforcing capabilities only ever refuses. A module is expanded under enforcement to what
    it is expanded to without, if every step that is expanded at any depth has all that its
    mapping needs granted. -/
theorem expandModule_enforce_iff (table : Table) (options : Options) (m : Value)
    (r : Warned Value) : expandModule table { options with enforce := true } m = .ok r ↔
      expandModule table { options with enforce := false } m = .ok r ∧
        ∀ steps, mainList? m = some steps →
          ∀ t, Expands table { options with enforce := false } steps t →
            ∀ mapping, mapping? table (t.field "verb") = .ok (some mapping) →
              ∀ c ∈ mapping.capabilities, c.isIn options.granted = true := by
  change expandModule table options.strict m = .ok r ↔ expandModule table options.lax m = .ok r ∧
    ∀ steps, _ → ∀ t, Expands table options.lax steps t → Granted table options.granted t
  unfold mainList?
  cases m with
  | null =>
    have hnull (options : Options) : expandModule table options .null = .ok (.null, []) := rfl
    rw [hnull, hnull]
    exact (and_iff_left fun _ h => nomatch h).symm
  | obj fs =>
    by_cases hinner : ((Value.obj fs).field "module").isObj = true
    · rw [expandModule_of_wrapper rfl hinner, expandModule_of_wrapper rfl hinner, if_pos hinner]
      exact bind_iff_left fun _ => expandFlow_strict_iff options
    · rw [expandModule_of_not_wrapper rfl hinner, expandModule_of_not_wrapper rfl hinner,
        if_neg hinner]
      exact expandFlow_strict_iff options
  | _ => exact iff_of_false (nomatch ·) (fun h => nomatch h.1)

end Loom.Overlay
