/-! # The catalog

The plans and devices that a service offers, in the order they are listed.
-/

namespace PlanService

structure Plan where
  name : String
  description : Option String := none
  deriving Repr, DecidableEq, Inhabited

structure Device where
  name : String
  protocols : List String := []
  deriving Repr, DecidableEq, Inhabited

structure Catalog where
  plans : List Plan := []
  devices : List Device := []
  deriving Repr, DecidableEq, Inhabited

namespace Catalog

/-- The catalog of a service that is not told otherwise. -/
def builtin : Catalog where
  plans :=
    [⟨"count", some "Take `num` readings from a set of detectors"⟩,
     ⟨"sleep", some "Wait for `num` steps without touching hardware"⟩]
  devices :=
    [⟨"x", ["Readable", "Movable"]⟩, ⟨"y", ["Readable", "Movable"]⟩,
     ⟨"det", ["Readable", "Triggerable"]⟩]

def plan? (catalog : Catalog) (name : String) : Option Plan :=
  catalog.plans.find? (·.name == name)

def device? (catalog : Catalog) (name : String) : Option Device :=
  catalog.devices.find? (·.name == name)

def planNames (catalog : Catalog) : List String :=
  catalog.plans.map (·.name)

end Catalog

end PlanService
