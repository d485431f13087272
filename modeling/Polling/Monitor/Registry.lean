import Polling.Config.Basic
import Std.Data.ExtTreeMap

namespace Polling

inductive MonitorFactory where
  | plain
  | failing
  /-- A monitor whose releases are counted. -/
  | counting
deriving DecidableEq, Repr

structure CatalogEntry where
  contexts : List DistributionContext
  factory : MonitorFactory
deriving DecidableEq, Repr

abbrev Catalog := Std.ExtTreeMap String CatalogEntry

namespace Catalog

/-- Registers an implementation. One that declares no place runs in the daemon only. -/
def register (c : Catalog) (implementation : String) (contexts : List DistributionContext)
    (factory : MonitorFactory) : Catalog :=
  c.insert implementation ⟨if contexts = [] then [.daemon] else contexts, factory⟩

def usable? (catalog : Catalog) (implementation : String) : Option CatalogEntry :=
  catalog[implementation]?.filter (·.factory ≠ .failing)

end Catalog

structure Locator where
  service : String
  implementation : String
  contexts : List DistributionContext
  counted : Bool
deriving DecidableEq, Repr

def Locator.Supports (l : Locator) (context : DistributionContext) : Prop :=
  context ∈ l.contexts ∨ .all ∈ l.contexts

instance (l : Locator) (context : DistributionContext) : Decidable (l.Supports context) :=
  inferInstanceAs (Decidable (_ ∨ _))

/-- How often the monitors of each implementation have been released. -/
abbrev Releases := Std.ExtTreeMap String Nat

/-- The locators of all services that can be polled, in the order in which the services were first
declared usably. -/
structure Registry where
  locators : List Locator := []
deriving DecidableEq, Repr

namespace Registry

def locator? (r : Registry) (service : String) : Option Locator :=
  r.locators.find? (·.service = service)

def Monitors (r : Registry) (service : String) : Prop := ∃ l ∈ r.locators, l.service = service

instance (r : Registry) (service : String) : Decidable (r.Monitors service) :=
  inferInstanceAs (Decidable (∃ l ∈ r.locators, l.service = service))

/-- Puts a locator in the place of the one of the same service, or at the end. -/
def insert (r : Registry) (l : Locator) : Registry :=
  if r.Monitors l.service then
    ⟨r.locators.map fun old => if old.service = l.service then l else old⟩
  else ⟨r.locators ++ [l]⟩

def resolve? (catalog : Catalog) (m : Monitor) : Option Locator :=
  (catalog.usable? m.implementation).map fun entry =>
    ⟨m.service, m.implementation, entry.contexts, entry.factory = .counting⟩

/-- The registry of a list of declarations. Those that cannot be resolved are left out. -/
def ofMonitors (catalog : Catalog) (monitors : List Monitor) : Registry :=
  (monitors.filterMap (resolve? catalog)).foldl insert {}

def locatorsFor (r : Registry) (context : DistributionContext) : List Locator :=
  r.locators.filter (·.Supports context)

def release (r : Registry) (releases : Releases) : Releases :=
  (r.locators.filter (·.counted)).foldl
    (fun m l => m.insert l.implementation (m.getD l.implementation 0 + 1)) releases

end Registry

end Polling
