import SchemaLayout.Config
import SchemaLayout.Schema.DefinitionSet

/-!
# Renaming reserved names (specification §4.3)

`renameTable` picks the rename rules that apply to a set and `renameReserved` applies them. Rules
without a conflict never give a name that they would replace.
-/
namespace SchemaLayout

namespace DefinitionSet

/-- The replacements for the names that the set has. -/
def renameTable (set : DefinitionSet) (rules : RenameRules) : Except SchemaError RenameTable :=
  match rules.conflict? with
  | some cause => .error (.conflict cause)
  | none => .ok (.ofList (rules.replacements.filter fun pair => set.containsName pair.1))

/-- Renames the definitions whose names the rules replace, and every reference to them
(specification §4.3). -/
def renameReserved (set : DefinitionSet) (rules : RenameRules) : Except SchemaError DefinitionSet :=
  (set.renameTable rules).bind fun table =>
    if table.isEmpty then .ok set else set.applyRenames table

end DefinitionSet

end SchemaLayout
