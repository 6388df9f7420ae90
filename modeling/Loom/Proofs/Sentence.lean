import Loom.Outline.Tree
import Loom.Proofs.Bullet
import Loom.Proofs.Levels

/-!
# Sentences of a Flow

What the text after a verb is read as. A sentence such as `Make x = 1 + 2` is
read by patterns that know nothing of how it was written, so its parts have to
be found again: the name up to the blank before the sign, the expression after
the blank behind it. And the text must not be taken for something else. A line
of the shape `x in ...` counts as the header of a repetition, whatever its verb.
-/

namespace Loom.Flow

open Loom.Text Loom.Text.Pattern Loom.Outline List Option

variable {c : Char} {name expr : String} {α : Type} {s : Sentence}

def isNameStart (c : Char) : Bool := isLetterLike c || c == '_'

def isNameChar (c : Char) : Bool := isLetterLike c || ('0' ≤ c && c ≤ '9') || c == '_'

def isName (s : String) : Bool := (s.toList.head?.any isNameStart) && s.toList.all isNameChar

theorem exists_of_isName {s : String} (h : isName s) :
    ∃ c cs, s.toList = c :: cs ∧ isNameStart c ∧ ∀ d ∈ c :: cs, isNameChar d := by
  rw [isName, Bool.and_eq_true] at h
  cases hs : s.toList with
  | nil => rw [hs] at h; exact absurd h.1 Bool.false_ne_true
  | cons c cs =>
    rw [hs] at h
    exact ⟨c, cs, rfl, h.1, all_eq_true.mp h.2⟩

theorem isBlank_of_isNameChar (h : isNameChar c) : isBlank c = false := by
  simp only [isNameChar, Bool.or_eq_true, beq_iff_eq, Bool.and_eq_true, decide_eq_true_eq] at h
  rcases h with (h | h) | rfl
  · exact (of_isLetterLike h).1
  · simp only [Char.le_def, UInt32.le_iff_toNat_le] at h
    exact isBlank_of_toNat h
  · decide

theorem isPhrase_append (hname : isName name) (middle : String) (hexpr : isPhrase expr) :
    isPhrase (name ++ middle ++ expr) := by
  obtain ⟨c, cs, hcs, _, hchars⟩ := exists_of_isName hname
  have htext : (name ++ middle ++ expr).toList = c :: (cs ++ middle.toList) ++ expr.toList := by
    simp [hcs]
  refine ⟨by rw [htext]; exact cons_ne_nil _ _, fun d hd => ?_, fun d hd => ?_⟩
  · rw [htext] at hd
    rw [← some_inj.mp hd]
    exact isBlank_of_isNameChar (hchars c mem_cons_self)
  · rw [htext, getLast?_append_of_ne_nil _ hexpr.1] at hd
    exact hexpr.2.last d hd

/-! ### Assignments -/

theorem reads_nameText (h : isName name) {cs : List Char}
    (hend : ∀ c, cs.head? = some c → isBlank c) (before : Option Char) (gs : Groups) :
    nameText.Reads ⟨before, name.toList ++ cs⟩ gs ⟨lastOf before name.toList, cs⟩ gs := by
  obtain ⟨c, w, hname, hstart, hchars⟩ := exists_of_isName h
  rw [hname, lastOf_cons]
  refine (reads_one hstart before (w ++ cs) gs).seq
    (reads_many (fun d hd => hchars d (mem_cons_of_mem c hd)) (fun d hd => ?_) (some c) gs)
  cases hd' : isNameChar d with
  | false => rfl
  | true =>
    have hblank := hend d hd
    rw [isBlank_of_isNameChar hd'] at hblank
    cases hblank

theorem exists_of_fits_word {s : String} (hs : ∀ c ∈ s.toList, isAsciiLetter c)
    {here next : Place} {gs gs' : Groups} (h : (word s).Fits here gs next gs') :
    ∃ w, here.rest = w ++ next.rest ∧ ∀ c ∈ w, isBlank c = false := by
  rw [word] at h
  generalize s.toList = cs at hs h
  induction cs generalizing here gs with
  | nil =>
    obtain ⟨rfl, _⟩ := h
    exact ⟨[], rfl, forall_mem_nil _⟩
  | cons c cs ih =>
    obtain ⟨mid, gm, ⟨d, hd, hrest, _⟩, h⟩ := h
    obtain ⟨w, hw, hblank⟩ := ih (fun e he => hs e (mem_cons_of_mem c he)) h
    refine ⟨d :: w, by rw [hrest, hw]; rfl, fun e he => ?_⟩
    rcases mem_cons.mp he with rfl | he
    · exact (of_isLetterLike (isLetterLike_of_sameLetter (hs c mem_cons_self) hd)).1
    · exact hblank e he

def isBranch : Conditional → Bool
  | .branch _ _ _ => true
  | _ => false

/-- A sentence is not taken for something else: its names are names, its phrases
    have no blanks around them, what is shown or returned does not look like a
    header, and a header does not look like another kind of line. -/
def IsPlain : Sentence → Prop
  | .makes name expr => isName name = true ∧ isPhrase expr
  | .shows expr | .returns expr => isPhrase expr ∧ isHeader expr = false
  | .repeats name range => isName name = true ∧ isPhrase range ∧
      loopHeader.fits (name ++ " in " ++ range) = false ∧
      isBranch (conditional (name ++ " in " ++ range)) = false

instance : DecidablePred IsPlain
  | .makes _ _ | .shows _ | .returns _ | .repeats _ _ => inferInstanceAs (Decidable (_ ∧ _))

def orNull : Except Error Value → Value
  | .ok v => v
  | .error _ => .null

theorem eq_ok_orNull {x : Except Error Value} (h : x.isOk) : x = .ok (orNull x) := by
  cases x with
  | ok v => rfl
  | error e => cases h

/-- What a sentence stands for, given that it can be read. -/
def entryOf (origin : α) : Sentence → Entry α
  | .makes name expr => .line
      ⟨origin, stepValue "Make" [("name", .str name), ("expr", orNull (readPhrase expr))],
        "Make", _, rfl, by decide⟩
  | .shows expr => .line
      ⟨origin, stepValue "Show" [("expr", orNull (readPhrase expr))], "Show", _, rfl, by decide⟩
  | .returns expr => .line
      ⟨origin, stepValue "Return" [("expr", orNull (readPhrase expr))], "Return", _, rfl, by decide⟩
  | .repeats name range => .loop origin (orNull (headerArgs (name ++ " in " ++ range)))

theorem IsPlain.isPhrase_text (h : IsPlain s) : isPhrase s.text := by
  cases s with
  | makes name expr => exact isPhrase_append h.1 " = " h.2
  | shows expr | returns expr => exact h.1
  | repeats name range => exact isPhrase_append h.1 " in " h.2.1

def isRepeat : Sentence → Bool
  | .repeats _ _ => true
  | _ => false

end Loom.Flow
