import SpaceTypes.AssemblyError
import SpaceTypes.NameTable
import SpaceTypes.Ty.WellFormed

/-!
# Environments

An environment gives types to names. Each name has at most one type, and defining it again is an
error rather than shadowing. Entries are listed in the order of their names.
-/

namespace SpaceTypes

/-- Types by name. -/
structure Environment (ρ : Type) where
  /-- The types of the defined names. -/
  table : NameTable (Ty ρ)
deriving DecidableEq, Repr

namespace Environment

variable {ρ : Type}

/-- The environment without definitions. -/
def empty : Environment ρ := ⟨.empty⟩

instance : EmptyCollection (Environment ρ) := ⟨empty⟩

/-- The type of a name. -/
def find? (env : Environment ρ) (name : String) : Option (Ty ρ) := env.table.find? name

/-- Whether the name is defined. -/
def contains (env : Environment ρ) (name : String) : Bool := env.table.contains name

/-- The number of definitions. -/
def size (env : Environment ρ) : Nat := env.table.size

/-- The names with their types, in the order of the names. -/
def entries (env : Environment ρ) : List (String × Ty ρ) := env.table.entries

/-- The type of a name, or an error if the name is not defined. -/
def lookup (env : Environment ρ) (name : String) : Except AssemblyError (Ty ρ) :=
  match env.find? name with
  | some t => .ok t
  | none => .error (.unknownName name)

/-- Defines a name that is not defined yet. -/
def add (env : Environment ρ) (name : String) (t : Ty ρ) :
    Except AssemblyError (Environment ρ) :=
  if env.contains name then .error (.duplicateName name) else .ok ⟨env.table.insert name t⟩

/-- Gives a defined name another type, and leaves an undefined one alone. -/
def replace (env : Environment ρ) (name : String) (t : Ty ρ) : Environment ρ :=
  if env.contains name then ⟨env.table.insert name t⟩ else env

/-- Removes a name. -/
def erase (env : Environment ρ) (name : String) : Environment ρ := ⟨env.table.erase name⟩

/-- Records a property of the type of a name. The result has the value it had before. -/
def setProperty (env : Environment ρ) (name : String) (p : Property) (value : Bool) :
    Except AssemblyError (Option Bool × Environment ρ) := do
  let t ← env.lookup name
  if t.kind = p.kind then
    return (t.value? p, ⟨env.table.insert name (t.record p value)⟩)
  else
    throw (.mismatch (.ofProperty p) t)

/-- A line for each definition. -/
def text (env : Environment ρ) : String :=
  String.join (env.entries.map fun entry => entry.1 ++ ": " ++ entry.2.text ++ "\n")

variable [Meaning ρ]

/-- Whether the name is defined and its type is well formed. -/
def verify (env : Environment ρ) (name : String) : Bool :=
  match env.find? name with
  | some t => t.wellFormed
  | none => false

/-- The names whose types are not well formed, in order. -/
def illFormed (env : Environment ρ) : List String :=
  (env.entries.filter fun entry => !entry.2.wellFormed).map Prod.fst

end Environment

end SpaceTypes
