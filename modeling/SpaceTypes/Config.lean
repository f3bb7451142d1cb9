import SpaceTypes.Context

/-!
# Configuration

The choices that govern inference and verification of a program.
-/

namespace SpaceTypes

/-- The choices for inferring and checking a program. -/
structure Config where
  /-- The order of the basic names. -/
  hierarchy : Hierarchy := .standard
  /-- The number of passes after which inference gives up. Without a number the bound follows from
  the variables and the goals. -/
  passLimit : Option Nat := none
  /-- How failures of checks are reported. -/
  reporting : Reporting := .detailed
  /-- Whether inference derives properties by the separation rules. -/
  deriveByRules : Bool := true
deriving DecidableEq, Repr

instance : Inhabited Config := ⟨{}⟩

/-- Where the constraints of a program are checked. -/
def Config.context (config : Config) : Context := ⟨config.hierarchy, config.reporting⟩

end SpaceTypes
