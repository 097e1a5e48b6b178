import Drydock.Error
import Drydock.Graph.Order
import Drydock.Module

/-!
# The module graph

A module depends on the modules it names and, unless it is the foundational module itself, on the
foundational one, whose vendored library has to exist before anything else is linked.

`BuildGraph.ofModules` accepts a list of declared modules when their names can be linked, at most
one of them is foundational, every dependency is declared and no module depends on itself through
others.  The graph then lists the modules in build order and, beside each, the places of those that
it depends on.
-/

namespace Drydock

/-- The module that carries the vendored library. -/
def foundational? (modules : List Module) : Option Module := modules.find? (·.foundational)

/-- Modules in a valid build order. -/
structure BuildGraph where
  modules : List Module
  /-- The dependencies of each module, as places in `modules`. -/
  deps : List (List Nat)
  deriving DecidableEq, Repr

namespace BuildGraph

/-! ## Checks -/

/-- Whether a module can be linked by name: it starts with `lib` and goes on. -/
def isLinkable (name : String) : Bool :=
  match name.toList with
  | 'l' :: 'i' :: 'b' :: _ :: _ => true
  | _ => false

/-- The first fault of a name, where `seen` are the names in front. -/
def nameError? (seen : List String) : List Module → Option GraphError
  | [] => none
  | m :: rest =>
      if m.name ∈ seen then some (.duplicateModule m.name)
      else if isLinkable m.name then nameError? (m.name :: seen) rest
      else some (.unlinkableName m.name)

/-- The error of several foundational modules. -/
def foundationalError? (declared : List Module) : Option GraphError :=
  let names := (declared.filter (·.foundational)).map (·.name)
  if 1 < names.length then some (.severalFoundational names) else none

/-- The first dependency of a module that is not declared. -/
def dependencyError? (declared : List Module) (m : Module) : Option GraphError :=
  (m.dependsOn.find? fun name => declared.all (·.name ≠ name)).map fun name =>
    .unknownDependency m.name name

/-! ## Dependencies -/

/-- The place at which a name is declared. -/
def placeOf? (declared : List Module) (name : String) : Option Nat :=
  declared.findIdx? (·.name = name)

/-- The place of the foundational module, for every place but its own. -/
def implicitPlace? (declared : List Module) (place : Nat) : Option Nat :=
  (declared.findIdx? (·.foundational)).filter (· ≠ place)

/-- Adds an entry at the end unless it is there. -/
def pushNew (entries : List Nat) (entry : Nat) : List Nat :=
  if entry ∈ entries then entries else entries ++ [entry]

/-- The places that the module declared at a place depends on: the foundational module, then the
modules it names, none of them twice. -/
def dependencyPlaces (declared : List Module) (m : Module) (place : Nat) : List Nat :=
  (m.dependsOn.filterMap (placeOf? declared)).foldl pushNew (implicitPlace? declared place).toList

/-- The dependencies of all declared modules. -/
def declaredDependencies (declared : List Module) : List (List Nat) :=
  declared.zipIdx.map fun (m, place) => dependencyPlaces declared m place

/-- The dependencies as edges, from a dependency to the module that needs it. -/
def dependencyEdges (declared : List Module) : List (Nat × Nat) :=
  (declaredDependencies declared).zipIdx.flatMap fun (places, place) => places.map (·, place)

/-- The graph of the declared places. -/
def digraph (declared : List Module) : Digraph :=
  (dependencyEdges declared).foldl .updateEdge { size := declared.length }

/-- The error of a dependency cycle. -/
def cycleError? (declared : List Module) : Option GraphError :=
  (digraph declared).cycle?.map fun places =>
    .cycle (places.filterMap fun place => declared[place]?.map (·.name))

/-- The first error of the declared modules: names first, then the foundational module, then
dependencies in the order of modules and entries, then cycles. -/
def error? (declared : List Module) : Option GraphError :=
  (nameError? [] declared).or <| (foundationalError? declared).or <|
    (declared.findSome? (dependencyError? declared)).or (cycleError? declared)

/-! ## The graph -/

/-- The declared modules in the given order, with their dependencies as places in that order. -/
def arrange (declared : List Module) (order : List Nat) : BuildGraph where
  modules := order.filterMap (declared[·]?)
  deps := order.map fun place =>
    ((declaredDependencies declared)[place]?.getD []).map fun dep => order.idxOf dep

/-- The places of the declared modules in build order. -/
def buildOrder (declared : List Module) : List Nat := (digraph declared).stableOrder.getD []

/-- The graph of the declared modules. -/
def ofModules (declared : List Module) : Except GraphError BuildGraph :=
  match error? declared with
  | some e => .error e
  | none => .ok (arrange declared (buildOrder declared))

/-- The names in build order. -/
def names (g : BuildGraph) : List String := g.modules.map (·.name)

/-- The module of a name. -/
def get? (g : BuildGraph) (name : String) : Option Module := g.modules.find? (·.name = name)

/-- The module that carries the vendored library. -/
def foundational? (g : BuildGraph) : Option Module := Drydock.foundational? g.modules

/-- The modules that a module is linked against: the foundational one first, then the declared ones
in the order of their declaration.  A name that is not in the graph has none. -/
def dependencies (g : BuildGraph) (name : String) : List Module :=
  match g.modules.findIdx? (·.name = name) with
  | some place => (g.deps[place]?.getD []).filterMap (g.modules[·]?)
  | none => []

end BuildGraph

end Drydock
