import Loom.Outline.Token

/-!
# Tokens in Pairs

Whoever reads tokens looks one token ahead, and may: in every text a verb is followed by
its expression, a name by its type and a key by its value, at the same nesting and in the
sections they belong to. A heading can come anywhere in a text, but not in the middle of a
pair, as one line gives both tokens of it.
-/

namespace Loom.Outline

open Loom.Text List

namespace TokenKind

/-- The kind of the token that completes one. -/
def mate? : TokenKind → Option TokenKind
  | verb => some expr
  | identifier => some resultType
  | key => some value
  | _ => none

/-- The sections in which a token can stand. A heading stands in none. -/
def homes : TokenKind → List Section
  | verb | expr => [.flow]
  | identifier | resultType => [.inputs, .outputs]
  | key => [.tests]
  | value => Section.all
  | .section => []

theorem of_mate? {kind mate : TokenKind} (h : kind.mate? = some mate) :
    kind ≠ .section ∧ kind ≠ .resultType ∧ mate ≠ .section ∧ mate.mate? = none ∧
      (mate = .resultType → kind = .identifier) ∧ ∀ s ∈ kind.homes, s ∈ mate.homes := by
  cases kind <;> cases h <;> decide

end TokenKind

/-! ### What a line gives -/

/-- The tokens of a line that opens no section. -/
inductive Gives : Option Section → List Token → Prop
  | nothing {current : Option Section} : Gives current []
  | one {s : Section} {kind : TokenKind} (value : String) (nesting : Nat)
      (hin : s ∈ kind.homes) (hmate : kind.mate? = none) (htype : kind ≠ .resultType) :
      Gives (some s) [⟨kind, value, nesting⟩]
  | pair {s : Section} {kind mate : TokenKind} (value completion : String) (nesting : Nat)
      (hin : s ∈ kind.homes) (hmate : kind.mate? = some mate) :
      Gives (some s) [⟨kind, value, nesting⟩, ⟨mate, completion, nesting⟩]

theorem gives_flowTokens (line : String) (nesting : Nat) :
    Gives (some .flow) (flowTokens line nesting) := by
  unfold flowTokens
  split
  · exact .pair _ _ nesting (by decide) rfl
  · exact .one _ nesting (by decide) rfl (by decide)

theorem gives_testTokens (line : String) (nesting : Nat) :
    Gives (some .tests) (testTokens line nesting) := by
  unfold testTokens
  split
  · exact .pair _ _ nesting (by decide) rfl
  · exact .nothing

theorem gives_declarationTokens {s : Section} (hs : s ∈ TokenKind.identifier.homes)
    (line : String) (nesting : Nat) : Gives (some s) (declarationTokens line nesting) := by
  unfold declarationTokens
  split
  · exact .pair _ _ nesting hs rfl
  · exact .nothing

theorem gives_value (s : Section) (value : String) (nesting : Nat) :
    Gives (some s) [⟨.value, value, nesting⟩] :=
  .one _ nesting (by cases s <;> decide) rfl (by decide)

theorem gives_bulletTokens (current : Option Section) (rest : String) (nesting : Nat) :
    Gives current (bulletTokens current rest nesting) := by
  unfold bulletTokens
  split
  · exact .nothing
  · exact gives_declarationTokens (by decide) rest nesting
  · exact gives_declarationTokens (by decide) rest nesting
  · exact gives_testTokens _ nesting
  · exact gives_flowTokens _ nesting
  · exact gives_value _ _ nesting

theorem gives_plainTokens (current : Option Section) (line : String) :
    Gives current (plainTokens current line) := by
  unfold plainTokens
  dsimp only
  split
  · exact .nothing
  · split
    · exact gives_value _ _ 0
    · exact gives_value _ _ 0
    · exact gives_value _ _ 0
    · exact gives_testTokens _ 0
    · exact gives_flowTokens _ 0
    · exact .nothing

variable {current : Option Section} {s : Section} {earlier ts more : List Token}

theorem gives_lineTokens {line : String} (h : sectionOf? line = none) :
    (lineTokens current line).1 = current ∧ Gives current (lineTokens current line).2 := by
  rw [lineTokens, h]
  dsimp only
  split
  · exact ⟨rfl, gives_bulletTokens _ _ _⟩
  · exact ⟨rfl, gives_plainTokens _ _⟩

theorem exists_sectionTokens (s : Section) (value : String) : ∃ ts,
    sectionTokens s value = ⟨.section, s.title, 0⟩ :: ts ∧ Gives (some s) ts := by
  unfold sectionTokens
  split
  · exact ⟨[], rfl, .nothing⟩
  · exact ⟨_, rfl, gives_value s _ 0⟩

theorem Gives.kind_ne (h : Gives current ts) : ∀ t ∈ ts, t.kind ≠ .section := by
  cases h with
  | nothing => exact forall_mem_nil _
  | one _ _ hin =>
    refine forall_mem_singleton.mpr fun hkind => ?_
    obtain rfl : _ = TokenKind.section := hkind
    exact not_mem_nil hin
  | pair _ _ _ _ hmate =>
    obtain ⟨hkind, -, hne, -⟩ := TokenKind.of_mate? hmate
    exact forall_mem_cons.mpr ⟨hkind, forall_mem_singleton.mpr hne⟩

/-! ### All tokens -/

/-- The title of the section that was opened last. -/
def lastTitle? (ts : List Token) : Option String :=
  (ts.reverse.find? (·.kind = .section)).map Token.value

/-- How a token stands between those before it and those after it. -/
structure StandsPaired (before : List Token) (t : Token) (after : List Token) : Prop where
  completed : ∀ mate, t.kind.mate? = some mate →
    ∃ u ∈ after.head?, u.kind = mate ∧ u.nesting = t.nesting
  completes : t.kind = .resultType → ∃ u ∈ before.getLast?, u.kind = .identifier
  placed : t.kind ≠ .section → ∃ s ∈ t.kind.homes, lastTitle? before = some s.title
  nested : ∃ n : Int, t.toValue.field "nesting" = .int n ∧ 0 ≤ n

/-- Tokens stand paired when they come after some earlier ones. -/
def PairedAfter (earlier ts : List Token) : Prop :=
  ∀ before t after, ts = before ++ t :: after → StandsPaired (earlier ++ before) t after

theorem pairedAfter_nil : PairedAfter earlier [] := by
  intro before t after h
  cases before <;> cases h

theorem PairedAfter.cons {t : Token} (ht : StandsPaired earlier t ts)
    (h : PairedAfter (earlier ++ [t]) ts) : PairedAfter earlier (t :: ts) := by
  intro before u after heq
  cases before with
  | nil =>
    cases heq
    rwa [append_nil]
  | cons b before =>
    cases heq
    rw [append_cons]
    exact h before u after rfl

theorem PairedAfter.append (h : PairedAfter earlier ts) (hmore : PairedAfter (earlier ++ ts) more) :
    PairedAfter earlier (ts ++ more) := by
  induction ts generalizing earlier with
  | nil => rwa [append_nil] at hmore
  | cons t ts ih =>
    have ht := h [] t ts rfl
    rw [append_nil] at ht
    refine .cons { ht with completed := fun mate hmate => ?_ } (ih ?_ (by rwa [append_assoc]))
    · obtain ⟨u, hu, hfits⟩ := ht.completed mate hmate
      exact ⟨u, head?_append.trans (by rw [Option.mem_def.mp hu]; rfl), hfits⟩
    · intro before u after heq
      rw [append_assoc]
      exact h (t :: before) u after (congrArg (t :: ·) heq)

theorem lastTitle?_append (h : ∀ t ∈ ts, t.kind ≠ .section) :
    lastTitle? (earlier ++ ts) = lastTitle? earlier := by
  rw [lastTitle?, reverse_append, find?_append, find?_eq_none.mpr (by simpa using h)]
  rfl

theorem nested_toValue (t : Token) : ∃ n : Int, t.toValue.field "nesting" = .int n ∧ 0 ≤ n :=
  ⟨t.nesting, rfl, Int.natCast_nonneg _⟩

theorem Gives.pairedAfter (h : Gives current ts)
    (hcurrent : lastTitle? earlier = current.map Section.title) : PairedAfter earlier ts := by
  cases h with
  | nothing => exact pairedAfter_nil
  | @one s kind a n hin hmate htype =>
    refine .cons ⟨fun mate h => ?_, fun h => absurd h htype, fun _ => ⟨s, hin, hcurrent⟩,
      nested_toValue _⟩ pairedAfter_nil
    cases hmate.symm.trans h
  | @pair s kind mate a b n hin hmate =>
    obtain ⟨hkind, htype, -, hnone, hfirst, hhomes⟩ := TokenKind.of_mate? hmate
    refine .cons ⟨fun m h => ?_, fun h => absurd h htype, fun _ => ⟨s, hin, hcurrent⟩,
      nested_toValue _⟩ (.cons ⟨fun m h => ?_, fun h => ?_, fun _ => ⟨s, hhomes s hin, ?_⟩,
      nested_toValue _⟩ pairedAfter_nil)
    · exact ⟨_, rfl, Option.some_inj.mp (hmate.symm.trans h), rfl⟩
    · cases hnone.symm.trans h
    · exact ⟨_, getLast?_concat, hfirst h⟩
    · rw [lastTitle?_append (forall_mem_singleton.mpr hkind), hcurrent]
      rfl

theorem pairedAfter_heading (h : Gives (some s) ts) :
    PairedAfter earlier (⟨.section, s.title, 0⟩ :: ts) ∧
      lastTitle? (earlier ++ ⟨.section, s.title, 0⟩ :: ts) = some s.title := by
  have hopen : lastTitle? (earlier ++ [⟨.section, s.title, 0⟩]) = some s.title := by
    rw [lastTitle?, reverse_append]
    rfl
  refine ⟨.cons ⟨fun m hm => ?_, fun htype => ?_, absurd rfl, nested_toValue _⟩
    (h.pairedAfter hopen), ?_⟩
  · cases hm
  · cases htype
  · rw [append_cons, lastTitle?_append h.kind_ne, hopen]

/-- The induction is on the lines: the section a line is read in is the one whose heading
    was given last. -/
theorem pairedAfter_tokensOfLines (lines : List String)
    (h : lastTitle? earlier = current.map Section.title) :
    PairedAfter earlier (tokensOfLines current lines) := by
  induction lines generalizing earlier current with
  | nil => exact pairedAfter_nil
  | cons line lines ih =>
    rw [tokensOfLines]
    dsimp only
    cases hsec : sectionOf? line with
    | none =>
      obtain ⟨hnext, hgives⟩ := @gives_lineTokens current line hsec
      rw [hnext]
      refine (hgives.pairedAfter h).append (ih ?_)
      rw [lastTitle?_append hgives.kind_ne, h]
    | some r =>
      obtain ⟨values, hvalues, hgives⟩ := exists_sectionTokens r.1 r.2
      obtain ⟨hpaired, hlast⟩ := @pairedAfter_heading r.1 earlier values hgives
      rw [lineTokens, hsec]
      dsimp only
      rw [hvalues]
      exact hpaired.append (ih hlast)

/-- In every text each token stands paired: what needs a completion is followed by it, a type
    comes after a name only, and every token is in a section that is its home. -/
theorem tokenize_paired (text : String) : PairedAfter [] (tokenize text) :=
  pairedAfter_tokensOfLines (lines text) rfl

end Loom.Outline
