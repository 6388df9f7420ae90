import Loom.Slug
import Loom.Value.Access

/-!
# Capabilities

A capability document lists rules that allow calls between modules. A rule
applies to a caller and a callee if each of its two names is the wild card or has
the slug of the module, and it allows the actions it lists. Rules that make no
sense are passed over. With no document everything is allowed.
-/

namespace Loom.Capability

def matchesName (rule : Value) (slug : String) : Bool :=
  rule.isText "*" || slugOf rule == slug

/-- Whether an action is in an allow list; `none` if the question makes no sense. -/
def lists? (allow action : Value) : Option Bool :=
  match allow, action with
  | .list xs, a => some (a.isIn xs)
  | .str s, .str a => some (Text.contains s a)
  | .obj fs, .str a => some (Fields.has fs a)
  | .obj _, .list _ | .obj _, .obj _ => none
  | .obj _, _ => some false
  | _, _ => none

/-- The two names of a rule and what it allows, if it allows the action between
    the modules with these slugs. -/
def ruleFor? (rule : Value) (caller callee : String) (action : Value) :
    Option (Value × Value × Value) :=
  if !rule.isObj then none
  else
    let source := rule.fieldD "from" "*"
    let target := rule.fieldD "to" "*"
    let allow := (rule.field "allow").orElse (.list [])
    if matchesName source caller && matchesName target callee &&
        (lists? allow action).getD false then
      some (source, target, allow)
    else none

def checkCapability (doc caller callee action : Value) : Except Error Value := do
  let source := slugOf (caller.orElse "")
  let target := slugOf (callee.orElse "")
  let decision (allowed : Bool) (rule : Value) (mode : String) : Value :=
    .obj [("action", action), ("from", source), ("to", target),
      ("allowed", allowed), ("matchedRule", rule),
      ("raw", .obj [("from", caller), ("to", callee)]), ("mode", mode)]
  if !doc.truthy || !doc.isObj then pure (decision true .null "none")
  else
    let rules ← ((doc.field "rules").orElse (.list [])).items
    match rules.findSome? fun r => ruleFor? r source target action with
    | some (f, t, allow) =>
      let listed ← allow.items
      let rule : Value := .obj [("from", f), ("to", t), ("allow", listed)]
      pure (decision true rule "policy")
    | none => pure (decision false .null "policy")

end Loom.Capability
