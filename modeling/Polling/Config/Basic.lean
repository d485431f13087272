import Polling.Address.Basic
import Polling.Text

namespace Polling

structure Parameter where
  key : String
  value : String
deriving DecidableEq, Repr

namespace Parameter

def lookup (params : List Parameter) (name : String) : Option String :=
  (params.find? (·.key = name)).map value

end Parameter

inductive DistributionContext where
  | daemon
  | remotePoller
  | all
deriving DecidableEq, Repr

structure Service where
  name : String
  /-- `on` or `off`; a service without a status is on. -/
  status : Option String := none
  /-- Milliseconds from one poll to the next. -/
  interval : UInt64 := 300000
  parameters : List Parameter := []
deriving DecidableEq, Repr

namespace Service

def Enabled (s : Service) : Prop := s.status = none ∨ s.status = some "on"

instance (s : Service) : Decidable s.Enabled :=
  inferInstanceAs (Decidable (s.status = none ∨ s.status = some "on"))

def parameter (s : Service) (key : String) : Option String := Parameter.lookup s.parameters key

end Service

/-- How response times are kept: the step in seconds, and the archive definitions. -/
structure Archive where
  step : UInt32 := 300
  definitions : List String := ["RRA:AVERAGE:0.5:1:2016", "RRA:AVERAGE:0.5:12:1488"]
deriving DecidableEq, Repr

structure Package where
  name : String
  filter : String
  /-- Addresses that belong to the package whatever the ranges say. -/
  specifics : List Address := []
  includeRanges : List AddressRange := []
  excludeRanges : List AddressRange := []
  /-- Address lists, whose addresses count like specifics. -/
  includeUrls : List String := []
  /-- A remote collector polls the package. -/
  remote : Bool := false
  archive : Archive := {}
  services : List Service := []
deriving DecidableEq, Repr

namespace Package

def service? (p : Package) (name : String) : Option Service := p.services.find? (·.name = name)

/-- The package enables a service whose name is the given one up to case. -/
def Enables (p : Package) (name : String) : Prop :=
  ∃ s ∈ p.services, Text.Caseless s.name name ∧ s.Enabled

instance (p : Package) (name : String) : Decidable (p.Enables name) :=
  inferInstanceAs (Decidable (∃ s ∈ p.services, Text.Caseless s.name name ∧ s.Enabled))

end Package

structure Monitor where
  service : String
  implementation : String
deriving DecidableEq, Repr

structure NodeOutage where
  status : String
  /-- The service whose loss marks the node down. -/
  criticalService : Option String := none
  pollAllIfNoCriticalService : Bool := false
deriving DecidableEq, Repr

def NodeOutage.On (o : NodeOutage) : Prop := Text.Caseless o.status "on"

instance (o : NodeOutage) : Decidable o.On :=
  inferInstanceAs (Decidable (Text.Caseless o.status "on"))

/-- The configuration document. Of several packages that fit, the first is the one that counts. -/
structure Configuration where
  threads : UInt32 := 30
  /-- Slow services are reported unresponsive rather than down. -/
  serviceUnresponsiveEnabled : Bool := false
  pathOutageEnabled : Bool := false
  nodeOutage : NodeOutage := { status := "on", criticalService := some "ICMP" }
  packages : List Package := []
  monitors : List Monitor := []
deriving DecidableEq, Repr

def Configuration.package? (c : Configuration) (name : String) : Option Package :=
  c.packages.find? (·.name = name)

inductive Defect where
  | unnamedPackage
  | duplicatePackage (name : String)
  | monitorWithoutService (implementation : String)
deriving DecidableEq, Repr

def Defect.message : Defect → String
  | unnamedPackage => "package with empty name"
  | duplicatePackage name => s!"duplicate package '{name}'"
  | monitorWithoutService implementation => s!"monitor '{implementation}' declares no service"

namespace Configuration

/-- The first defect among packages that follow packages of the given names. -/
def packageDefect? (seen : List String) : List Package → Option Defect
  | [] => none
  | p :: ps =>
    if Text.AllBlank p.name then some .unnamedPackage
    else if p.name ∈ seen then some (.duplicatePackage p.name)
    else packageDefect? (p.name :: seen) ps

/-- Packages are looked at in order and before the monitors; the first defect is reported. -/
def defect? (c : Configuration) : Option Defect :=
  match packageDefect? [] c.packages with
  | some d => some d
  | none =>
    (c.monitors.find? fun m => Text.AllBlank m.service).map fun m =>
      .monitorWithoutService m.implementation

structure Valid (c : Configuration) : Prop where
  named : ∀ p ∈ c.packages, ¬ Text.AllBlank p.name
  nodup : (c.packages.map Package.name).Nodup
  monitors : ∀ m ∈ c.monitors, ¬ Text.AllBlank m.service

end Configuration

end Polling
