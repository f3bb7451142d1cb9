import SpaceTypes.Registry

/-!
# Mappings between spaces

Three kinds of map between topological spaces. Each requires one property of both of its sides,
and carries some properties over from the source to the target.
-/

namespace SpaceTypes

/-- The kinds of map between two spaces. -/
inductive MappingKind where
  | homeomorphism
  | homotopy
  | embedding
deriving DecidableEq, Repr

namespace MappingKind

/-- All kinds of mapping. -/
def all : List MappingKind := [homeomorphism, homotopy, embedding]

/-- The kind's name. -/
def name : MappingKind → String
  | homeomorphism => "homeomorphism"
  | homotopy => "homotopy"
  | embedding => "embedding"

/-- The kind of the given name, in any ASCII case. -/
def ofName? (name : String) : Option MappingKind :=
  all.find? fun kind => kind.name == name.map Char.toLower

/-- The property that both sides must have. -/
def requirement : MappingKind → TopologyProperty
  | homeomorphism => .continuous
  | homotopy => .connected
  | embedding => .hausdorff

/-- The properties carried over from the source to the target. Homeomorphic spaces agree on every
topological property; the hereditary ones survive the passage to a subspace. -/
def preserves : MappingKind → List TopologyProperty
  | homeomorphism => TopologyProperty.all
  | homotopy => [.connected]
  | embedding => [.hausdorff, .metrizable, .t0, .t1, .t2, .regular]

/-- Whether both sides have what the kind requires. -/
def admits (kind : MappingKind) (source target : Registry TopologyProperty) : Bool :=
  source.holds kind.requirement && target.holds kind.requirement

end MappingKind

end SpaceTypes
