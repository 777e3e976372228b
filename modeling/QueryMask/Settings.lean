import QueryMask.Mask.Expansion
import QueryMask.Mask.Naming
import QueryMask.Mask.SelectedPaths
import QueryMask.Text.Blank

/-! Settings that choose among the ready-made policies. -/

namespace QueryMask

/-- What abstract fields contribute: nothing, or every possible type under its name. -/
inductive AbstractHandling where
  | leaveOut
  | perPossibleType
  deriving DecidableEq, Repr

namespace AbstractHandling

def text : AbstractHandling → String
  | leaveOut => "omit"
  | perPossibleType => "per_possible_type"

def ofText? : String → Option AbstractHandling
  | "omit" => some leaveOut
  | "per_possible_type" => some perPossibleType
  | _ => none

def expansion? : AbstractHandling → Option AbstractExpansion
  | leaveOut => none
  | perPossibleType => some (.eachPossible AbstractExpansion.typeName)

end AbstractHandling

/-- How paths are built. The name directive counts only if it is honoured. -/
structure Settings where
  nameDirective : Name := "fieldMask"
  honorNameDirective : Bool := true
  abstractTypes : AbstractHandling := .leaveOut
  dedup : Bool := false
  deriving DecidableEq, Repr

namespace Settings

/-- Refuses a blank name directive that is honoured. -/
def fault? (settings : Settings) : Option SettingsFault :=
  if settings.honorNameDirective && isBlankText settings.nameDirective then some .emptyNameDirective
  else none

def naming? (settings : Settings) : Option FieldNaming :=
  if settings.honorNameDirective then some (.byDirective settings.nameDirective) else none

def policy (settings : Settings) : Policy := ⟨settings.naming?, settings.abstractTypes.expansion?⟩

/-- The paths of a selection set on an object type, without repeats if the settings ask for that. -/
def paths (settings : Settings) (system : TypeSystem) (fragments : Fragments)
    (selections : SelectionSet) (type : Name) : Except MaskError (List Path) :=
  (selectedPaths system fragments settings.policy selections type).map
    (if settings.dedup then Path.distinct else id)

end Settings

end QueryMask
