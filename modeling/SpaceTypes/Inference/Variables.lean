import SpaceTypes.Text.Colour
import SpaceTypes.Ty

/-!
# Type variables

Variables stand for types that are not known yet. They are numbered in the order in which they
were made, and each has a name for messages and, once it is bound, a type.
-/

namespace SpaceTypes

/-- A variable with what is known about it. -/
structure Variable (ρ : Type) where
  /-- What messages call the variable. -/
  name : String
  /-- Its type, once it is bound. -/
  binding : Option (Ty ρ)
deriving DecidableEq, Repr

/-- The type with the properties of its outermost layer, or a question mark. -/
def Variable.text {ρ : Type} (entry : Variable ρ) : String :=
  match entry.binding with
  | none => "?"
  | some t =>
    match t.registryText? with
    | none => t.text
    | some properties => t.text ++ " " ++ properties

/-- Numbered variables. -/
structure Variables (ρ : Type) where
  /-- The variables, in the order of their numbers. -/
  entries : List (Variable ρ)
deriving DecidableEq, Repr

/-- A use of variables that breaks the rules of their table. -/
inductive VariableFault where
  /-- There is no variable of that number. -/
  | outOfRange (size index : Nat)
  /-- A bound variable was bound again. -/
  | boundTwice
deriving DecidableEq, Repr

/-- The fault in words. -/
def VariableFault.text : VariableFault → String
  | outOfRange size index =>
    "index out of bounds: the len is " ++ toString size ++ " but the index is " ++ toString index
  | boundTwice => "type variable already assigned"

namespace Variables

variable {ρ : Type}

/-- No variables. -/
def empty : Variables ρ := ⟨[]⟩

instance : EmptyCollection (Variables ρ) := ⟨empty⟩

/-- The number of variables, which is the number of the next one. -/
def size (vars : Variables ρ) : Nat := vars.entries.length

/-- The variables with a new one at the end. -/
def spawn (vars : Variables ρ) (name : String) (binding : Option (Ty ρ)) : Variables ρ :=
  ⟨vars.entries ++ [⟨name, binding⟩]⟩

/-- The type of a variable, if there is such a variable and it is bound. -/
def get? (vars : Variables ρ) (i : Nat) : Option (Ty ρ) := vars.entries[i]?.bind Variable.binding

/-- The name of a variable, if there is such a variable. -/
def name? (vars : Variables ρ) (i : Nat) : Option String := vars.entries[i]?.map Variable.name

/-- The name of a variable, empty if there is none. -/
def nameOf (vars : Variables ρ) (i : Nat) : String := (vars.name? i).getD ""

/-- The name of a variable, or the fault that there is none. -/
def name (vars : Variables ρ) (i : Nat) : Except VariableFault String :=
  match vars.name? i with
  | some name => .ok name
  | none => .error (.outOfRange vars.size i)

/-- Binds a variable, whatever it was bound to. -/
def put (vars : Variables ρ) (i : Nat) (t : Ty ρ) : Variables ρ :=
  ⟨vars.entries.modify i fun entry => { entry with binding := some t }⟩

/-- Binds a variable that should not be bound yet. A bound one takes the new type all the same,
and the fault is reported. -/
def assign (vars : Variables ρ) (i : Nat) (t : Ty ρ) : Option VariableFault × Variables ρ :=
  if vars.size ≤ i then (some (.outOfRange vars.size i), vars)
  else if (vars.get? i).isSome then (some .boundTwice, vars.put i t)
  else (none, vars.put i t)

/-- The numbers of the variables that are not bound. -/
def free (vars : Variables ρ) : List Nat :=
  (List.range vars.size).filter fun i => (vars.get? i).isNone

/-- The names of the variables that are not bound. -/
def freeNames (vars : Variables ρ) : List String :=
  (vars.entries.filter fun entry => entry.binding.isNone).map Variable.name

/-- A line for each variable. -/
def text (vars : Variables ρ) : String :=
  Text.Colour.green.paint "with tenv" ++ "\n  " ++
    "\n  ".intercalate (vars.entries.map fun entry =>
      entry.name ++ " " ++ Text.Colour.purple.paint "->" ++ " " ++ entry.text)

/-! ## Reading what was bound -/

@[simp]
theorem size_put (vars : Variables ρ) (i : Nat) (t : Ty ρ) : (vars.put i t).size = vars.size := by
  simp [put, size]

theorem get?_put_self {vars : Variables ρ} {i : Nat} (h : i < vars.size) (t : Ty ρ) :
    (vars.put i t).get? i = some t := by
  have h' : i < vars.entries.length := h
  simp [put, get?, h']

theorem get?_put_of_ne (vars : Variables ρ) {i j : Nat} (h : i ≠ j) (t : Ty ρ) :
    (vars.put i t).get? j = vars.get? j := by
  simp [put, get?, List.getElem?_modify_ne, h]

end Variables

end SpaceTypes
