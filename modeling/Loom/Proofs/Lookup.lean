import Loom.Document.Search
import Loom.Proofs.Fields
import Loom.Session.Basic

/-!
# Looking a Module Up

A module is looked up by its name in a document of modules, read in two ways, and among the
modules that a session knows. A session takes the module of that very name, and only if there
is none the first one with the same slug. The other two take the first one with the same slug,
whatever its name. `lookups_agree_iff` says so, and that the three find the same module if and
only if none has that very name or the first one with the same slug does.
-/

namespace Loom.Document

open List

variable {known : Fields Value} {doc m : Value} {name q : String}

/-- The name of a module, or of the module inside it. -/
def innerName (m : Value) : Except Error Value := do
  let inner ← m.lookup "module"
  pure ((if inner.isObj then inner else m).field "name")

/-- A module has one name, whichever of the two readings is taken. -/
structure IsNamed (m : Value) (name : String) : Prop where
  outer : nameOf? m = .ok (some (.str name))
  inner : innerName m = .ok (.str name)

/-- The first entry with the same slug as a name. -/
def firstAlike (known : Fields Value) (q : String) : Option (String × Value) :=
  known.find? fun e => slug e.1 == slug q

/-- Whatever a name is read by, if it gives the names that are known, the search finds the first
    module with the same slug: the very name has the same slug too. -/
theorem findFirst_eq_firstAlike {nameOf : Value → Except Error Value}
    (hname : ∀ e ∈ known, nameOf e.2 = .ok (.str e.1)) (q : String) :
    findFirst nameOf (.str q) (known.map Prod.snd) = .ok ((firstAlike known q).map Prod.snd) := by
  induction known with
  | nil => rfl
  | cons e known ih =>
    have hsame : sameName (.str e.1) (.str q) = (slug e.1 == slug q) := by
      rw [Bool.eq_iff_iff, sameName, Bool.or_eq_true, slugOf, slugOf]
      refine or_iff_right_of_imp fun h => ?_
      have hname : e.1 = q := eq_of_beq h
      rw [hname, beq_self_eq_true]
    rw [map_cons, findFirst, hname e mem_cons_self]
    dsimp only [bind, Except.bind]
    rw [hsame, firstAlike, find?_cons]
    cases slug e.1 == slug q with
    | true => rfl
    | false => exact ih fun e' he' => hname e' (mem_cons_of_mem e he')

/-- The modules of a document. -/
def Lists (doc : Value) (known : Fields Value) : Prop :=
  ∃ fs : Fields Value, doc = .obj fs ∧ fs.get? "modules" = some (.list (known.map Prod.snd))

theorem findModule_eq_firstAlike (hdoc : Lists doc known)
    (hnamed : ∀ e ∈ known, IsNamed e.2 e.1) (q : String) :
    findModule doc (.str q) = .ok ((firstAlike known q).map Prod.snd) := by
  obtain ⟨fs, rfl, hmodules⟩ := hdoc
  have hitems : ((modulesDocument (.obj fs)).field "modules").items
      = .ok (known.map Prod.snd) := by
    rw [modulesDocument, Fields.has, hmodules]
    simp only [Option.isSome_some, if_true, Value.field, Value.field?, hmodules, Option.getD_some]
    rfl
  rw [findModule, hitems]
  refine findFirst_eq_firstAlike (fun e he => ?_) q
  rw [(hnamed e he).outer]
  rfl

theorem findNamed_eq_firstAlike (hdoc : Lists doc known)
    (hnamed : ∀ e ∈ known, IsNamed e.2 e.1) (q : String) :
    findNamed doc (.str q) = .ok ((firstAlike known q).map Prod.snd) := by
  obtain ⟨fs, rfl, hmodules⟩ := hdoc
  have hlookup : (Value.obj fs).lookup "modules" = .ok (.list (known.map Prod.snd)) := by
    rw [Value.lookup, Value.lookup?, hmodules]
    rfl
  have hitems : ((Value.list (known.map Prod.snd)).orElse (.list [])).items
      = .ok (known.map Prod.snd) := by
    cases known <;> rfl
  rw [findNamed, hlookup]
  dsimp only [bind, Except.bind]
  rw [hitems]
  exact findFirst_eq_firstAlike (fun e he => (hnamed e he).inner) q

theorem eq_of_isNamed {other : String} (h : IsNamed m name) (h' : IsNamed m other) :
    name = other := by
  have heq := h.outer.symm.trans h'.outer
  injection heq with heq
  injection heq with heq
  exact Value.str.inj heq

theorem get?_of_firstAlike {e : String × Value} (h : firstAlike known q = some e)
    (hname : e.1 = q) : known.get? q = some e.2 := by
  induction known with
  | nil => cases h
  | cons f known ih =>
    rw [firstAlike, find?_cons] at h
    split at h
    · cases h
      rw [Fields.get?, if_pos (beq_iff_eq.mpr hname)]
    · rename_i hslug
      -- an entry before it has another slug, so it has another name
      have hne : f.1 ≠ q := fun hf => by simp [hf] at hslug
      rw [Fields.get?, if_neg (by rwa [beq_iff_eq])]
      exact ih h

theorem isSome_firstAlike (h : known.get? q = some m) : (firstAlike known q).isSome :=
  find?_isSome.mpr ⟨(q, m), Fields.mem_of_get? h, beq_self_eq_true _⟩

theorem lookups_agree_iff (hnamed : ∀ e ∈ known, IsNamed e.2 e.1) (hdoc : Lists doc known)
    {s : Session} (hs : s.registry = known) (q : String) :
    (findModule doc (.str q) = .ok ((firstAlike known q).map Prod.snd) ∧
      findNamed doc (.str q) = .ok ((firstAlike known q).map Prod.snd)) ∧
    s.module? q = (known.get? q).or ((firstAlike known q).map Prod.snd) ∧
    (findModule doc (.str q) = .ok (s.module? q) ↔
      known.get? q = none ∨ ∃ m, firstAlike known q = some (q, m)) := by
  have hmodule : s.module? q = (known.get? q).or ((firstAlike known q).map Prod.snd) := by
    rw [Session.module?, hs]
    cases known.get? q <;> rfl
  have hfind := findModule_eq_firstAlike hdoc hnamed q
  refine ⟨⟨hfind, findNamed_eq_firstAlike hdoc hnamed q⟩, hmodule, ?_⟩
  rw [hfind, hmodule, Except.ok.injEq]
  cases hget : known.get? q with
  | none => exact iff_of_true rfl (.inl rfl)
  | some m =>
    obtain ⟨e, hfirst⟩ := Option.isSome_iff_exists.mp (isSome_firstAlike hget)
    rw [hfirst, Option.some_or]
    constructor
    · intro h
      -- the module found is the one of that very name, and it has one name only
      have hm : e.2 = m := Option.some.inj h
      have he : IsNamed m e.1 := hm ▸ hnamed e (mem_of_find?_eq_some hfirst)
      have hname : e.1 = q := eq_of_isNamed he (hnamed (q, m) (Fields.mem_of_get? hget))
      exact .inr ⟨e.2, by rw [← hname]⟩
    · rintro (h | ⟨m', h⟩)
      · cases h
      · cases h
        exact (get?_of_firstAlike hfirst rfl).symm.trans hget

/-- Two modules with one slug. The document gives the first for the name of the second. -/
def twins : Fields Value :=
  [("A B", .obj [("name", .str "A B")]), ("a-b", .obj [("module", .obj [("name", .str "a-b")])])]

theorem lookups_agree_iff_twins :
    findModule (.obj [("modules", .list (twins.map Prod.snd))]) (.str "a-b")
        = .ok (some (.obj [("name", .str "A B")])) ∧
      (Session.start .null false twins []).module? "a-b"
        = some (.obj [("module", .obj [("name", .str "a-b")])]) := by
  have hnamed : ∀ e ∈ twins, IsNamed e.2 e.1 := by
    simp only [twins, forall_mem_cons]
    exact ⟨⟨rfl, rfl⟩, ⟨rfl, rfl⟩, forall_mem_nil _⟩
  have hslug : slug "A B" = slug "a-b" := by decide +kernel
  have hfirst : firstAlike twins "a-b" = some ("A B", .obj [("name", .str "A B")]) := by
    simp [firstAlike, twins, hslug]
  obtain ⟨⟨hfind, _⟩, hmodule, _⟩ := @lookups_agree_iff twins (.obj [("modules", .list _)]) hnamed
    ⟨_, rfl, rfl⟩ (Session.start .null false twins []) rfl "a-b"
  exact ⟨hfind.trans (by rw [hfirst]; rfl), hmodule⟩

end Loom.Document
