import Loom.Agent.Section
import Loom.Proofs.Text

/-!
# Outlines of Several Modules

The modules of an agent stand one after the other in its outline, each under a header of its
own. No section reaches across a header: a module is read from its header and the lines up to
the next one, so an outline may be cut before any header and its pieces read one by one.
-/

namespace Loom.Agent

open Loom.Text Loom.Text.Pattern List

section

variable {α : Type} {header? : String → Option α}

end

/-! ### Modules -/

end Loom.Agent
