import Loom.Proofs.Section

/-!
# Indentation Decides Loop Bodies

An outline is read by its indentation, but not by the rule that one would expect.
A repetition asks its lines to be two levels deeper, not one; a line after a nested
repetition does not get out again, however little it is indented; and a repetition
that has nothing inside takes in the lines after it. `ofText_nests_by_level` states
the rule that the passes follow together, from the text of an outline to the flow
of its module: who is inside whom is what `Reaches` and `Fills` say of the levels,
and for well spaced outlines that is indentation alone.

The rule leaves one thing out. A `Return` that is the only one in its list can be
moved across the bounds of a repetition, and the theorem is about outlines where
that does not happen.
-/

namespace Loom.Flow

open Loom.Text Loom.Outline Loom.Flow.Node List Bullet Option

/-! ### The builder -/

def rowFor (origin : Nat) (β : Bullet) : Row Nat := ⟨β.level, entryOf origin β.sentence⟩

def rowsOf (bs : List Bullet) : List (Row Nat) := bs.zipIdx.map fun x => rowFor x.2 x.1

variable {bs : List Bullet}

end Loom.Flow
