/-!
# Properties

Two closed families of boolean properties refine types: topological ones (continuity, the covering
properties and the separation axioms) and quantum ones. `Property` is their union. Every property
has a written name in capitals, by which `Property.ofName?` finds it in any ASCII case.
-/

namespace SpaceTypes

/-- The topological properties of a space. -/
inductive TopologyProperty where
  | continuous
  | connected
  | compact
  | hausdorff
  | metrizable
  | t0
  | t1
  | t2
  | regular
  | normal
  | paracompact
  | locallyCompact
deriving DecidableEq, Repr

/-- The quantum properties of a state. -/
inductive QuantumProperty where
  | unitary
  | normalized
  | entangled
  | superposition
  | coherent
deriving DecidableEq, Repr

/-- A property of either family. -/
inductive Property where
  | topology (property : TopologyProperty)
  | quantum (property : QuantumProperty)
deriving DecidableEq, Repr

namespace TopologyProperty

/-- All topological properties, in the order in which they are listed. -/
def all : List TopologyProperty :=
  [.continuous, .connected, .compact, .hausdorff, .metrizable, .t0, .t1, .t2, .regular, .normal,
   .paracompact, .locallyCompact]

theorem mem_all (p : TopologyProperty) : p ∈ all := by cases p <;> decide

/-- The written name. -/
def name : TopologyProperty → String
  | continuous => "CONTINUOUS"
  | connected => "CONNECTED"
  | compact => "COMPACT"
  | hausdorff => "HAUSDORFF"
  | metrizable => "METRIZABLE"
  | t0 => "T0"
  | t1 => "T1"
  | t2 => "T2"
  | regular => "REGULAR"
  | normal => "NORMAL"
  | paracompact => "PARACOMPACT"
  | locallyCompact => "LOCALLY_COMPACT"

/-- The name in an outline of a registry. -/
def title : TopologyProperty → String
  | continuous => "Continuous"
  | connected => "Connected"
  | compact => "Compact"
  | hausdorff => "Hausdorff"
  | metrizable => "Metrizable"
  | t0 => "T0"
  | t1 => "T1"
  | t2 => "T2"
  | regular => "Regular"
  | normal => "Normal"
  | paracompact => "Paracompact"
  | locallyCompact => "LocallyCompact"

end TopologyProperty

namespace QuantumProperty

/-- All quantum properties, in the order in which they are listed. -/
def all : List QuantumProperty :=
  [.unitary, .normalized, .entangled, .superposition, .coherent]

theorem mem_all (p : QuantumProperty) : p ∈ all := by cases p <;> decide

/-- The written name. -/
def name : QuantumProperty → String
  | unitary => "UNITARY"
  | normalized => "NORMALIZED"
  | entangled => "ENTANGLED"
  | superposition => "SUPERPOSITION"
  | coherent => "COHERENT"

/-- The name in an outline of a registry. -/
def title : QuantumProperty → String
  | unitary => "Unitary"
  | normalized => "Normalized"
  | entangled => "Entangled"
  | superposition => "Superposition"
  | coherent => "Coherent"

end QuantumProperty

namespace Property

/-- The written name. -/
def name : Property → String
  | topology p => p.name
  | quantum p => p.name

/-- All properties, the topological ones first. -/
def all : List Property :=
  TopologyProperty.all.map topology ++ QuantumProperty.all.map quantum

theorem mem_all (p : Property) : p ∈ all := by
  cases p with
  | topology p => simp [all, p.mem_all]
  | quantum p => simp [all, p.mem_all]

/-- The property of the given name. The case of ASCII letters does not matter: both
`locally_compact` and `LOCALLY_COMPACT` are found. -/
def ofName? (name : String) : Option Property :=
  all.find? fun p => p.name == name.map Char.toUpper

end Property

/-- The value of a property in one word. -/
def valueText (value : Bool) : String := if value then "true" else "false"

/-- A family of properties with its names and its place among all properties. -/
class PropertyFamily (α : Type) where
  /-- The written name of a property of the family. -/
  name : α → String
  /-- Its name in an outline of a registry. -/
  title : α → String
  /-- The property as one of either family. -/
  toProperty : α → Property
  /-- The property as one of the family, if it belongs to it. -/
  ofProperty? : Property → Option α

instance : PropertyFamily TopologyProperty where
  name := TopologyProperty.name
  title := TopologyProperty.title
  toProperty := Property.topology
  ofProperty?
    | .topology p => some p
    | .quantum _ => none

instance : PropertyFamily QuantumProperty where
  name := QuantumProperty.name
  title := QuantumProperty.title
  toProperty := Property.quantum
  ofProperty?
    | .topology _ => none
    | .quantum p => some p

end SpaceTypes
