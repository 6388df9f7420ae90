import Loom.Text.Letter
import Loom.Text.Slice
import Loom.Value.Basic

/-!
# Slugs

Modules are looked up by slug, so that names that differ only in case, spacing
or punctuation mean the same module. A slug has small ASCII letters, digits,
underscores and hyphens only, starts with a letter or an underscore, and has at
most 128 characters.
-/

namespace Loom

open Loom.Text

def isSlugChar (c : Char) : Bool :=
  ('a' ≤ c && c ≤ 'z') || ('0' ≤ c && c ≤ '9') || c == '_' || c == '-'

def isSlugStart (c : Char) : Bool :=
  ('a' ≤ c && c ≤ 'z') || c == '_'

/-- Every run of blanks as one hyphen. `inRun` says whether the last character
    was a blank. -/
def hyphenate (inRun : Bool) : List Char → List Char
  | [] => []
  | c :: cs =>
    if isBlank c then if inRun then hyphenate true cs else '-' :: hyphenate true cs
    else c :: hyphenate false cs

def slugLimit : Nat := 128

def slugChars (cs : List Char) : List Char :=
  match cs with
  | [] => ['_']
  | c :: rest => if isSlugStart c then c :: rest else '_' :: c :: rest

def slug (name : String) : String :=
  let kept := (hyphenate false (lower (strip name)).toList).filter isSlugChar
  String.ofList ((slugChars kept).take slugLimit)

/-- What is no text has the slug of the empty name. -/
def slugOf (v : Value) : String :=
  match v with
  | .str s => slug s
  | _ => "_"

end Loom
