import Polling.Config.Basic
import Polling.Directory
import Polling.Document.Configuration
import Polling.Matching.Membership
import Polling.Matching.Sources
import Polling.Monitor.Registry

namespace Polling

structure MemoryDocument where
  text : String := ""
  readOnly : Bool := false
  persisted : Nat := 0
deriving DecidableEq, Repr

inductive Source where
  | memory (document : MemoryDocument)
  /-- A file in the directory of the store, by its path there. -/
  | file (path : String)
deriving DecidableEq, Repr

structure Options where
  localServer : String := "localhost"
  /-- Package filters select only nodes that the local server owns. -/
  verifyServer : Bool := false
  context : DistributionContext := .daemon
deriving DecidableEq, Repr

def Options.server? (o : Options) : Option String :=
  if o.verifyServer then some o.localServer else none

/-- The configuration in force and what follows from it. -/
structure Active where
  configuration : Configuration := {}
  registry : Registry := {}
  caches : AddressCaches := {}

structure Store where
  options : Options := {}
  catalog : Catalog := ∅
  source : Source := .memory {}
  directory : Directory
  /-- Relative paths of address lists are taken from the directory. -/
  relativeLists : Bool := true
  filters : FilterTable := {}
  active : Active := {}
  releases : Releases := ∅

/-- An operation of the store. What it did before an error stays done. -/
abbrev StoreM := EStateM ConfigError Store

namespace Store

def location (s : Store) : String :=
  match s.source with
  | .memory _ => "memory"
  | .file path => s.directory.pathOf path

def document (s : Store) : Except ConfigError String :=
  match s.source with
  | .memory m => .ok m.text
  | .file path => (s.directory.read path).mapError (.unreadable s.location)

def read (s : Store) : Except ConfigError Configuration := do
  match Configuration.parse? (← s.document) with
  | none => throw (.malformed "not a configuration")
  | some c =>
    match c.defect? with
    | some d => throw (.invalid d.message)
    | none => return c

def cachesOf (s : Store) (packages : List Package) : AddressCaches where
  candidates := AddressCaches.candidatesOf s.filters.evaluate s.options.server? packages
  urls := AddressCaches.urlsOf (ListUrl.resolve s.directory s.relativeLists) packages

def derive (s : Store) (c : Configuration) : Active where
  configuration := c
  registry := .ofMonitors s.catalog c.monitors
  caches := s.cachesOf c.packages

def recordFilters (s : Store) (packages : List Package) : Store :=
  { s with filters := s.filters.record (packages.map (·.effectiveFilter s.options.server?)) }

def install (s : Store) (c : Configuration) : Store :=
  { s with active := s.derive c }.recordFilters c.packages

/-- A store newly opened on the source and with the collaborators of a store. It starts from an
empty configuration, and there is none if the document cannot be put in force. -/
def load (s : Store) : Except ConfigError Store :=
  let opened := { s with active := {} }
  opened.read.map opened.install

def reload : StoreM Unit := fun s =>
  match s.read with
  | .ok c => .ok () (s.install c)
  | .error e => .error e s

def persist (text : String) : StoreM Unit := fun s =>
  match s.source with
  | .memory m =>
    if m.readOnly then .error (.notPersisted s.location "persistence disabled") s
    else .ok () { s with source := .memory { m with text, persisted := m.persisted + 1 } }
  | .file path =>
    match s.directory.replace path text with
    | (.ok (), directory) => .ok () { s with directory }
    | (.error detail, directory) =>
      .error (.notPersisted s.location detail) { s with directory }

/-- Stores the configuration in force and puts it in force anew, so that all that was added to it is
resolved. -/
def save : StoreM Unit := do
  persist (← get).active.configuration.render
  reload

/-- Appends a package. No address belongs to it until the caches are built again. -/
def addPackage (p : Package) : StoreM Unit := fun s =>
  let c := s.active.configuration
  if (c.package? p.name).isSome then .error (.invalid (Defect.duplicatePackage p.name).message) s
  else
    .ok () { s with active.configuration := { c with packages := c.packages ++ [p] } }

/-- Appends a monitor declaration, to be resolved when a configuration is next put in force. -/
def addMonitor (m : Monitor) (s : Store) : Store :=
  let c := s.active.configuration
  { s with active.configuration := { c with monitors := c.monitors ++ [m] } }

def rebuild (s : Store) : Store :=
  let packages := s.active.configuration.packages
  { s with active.caches := s.cachesOf packages }.recordFilters packages

def releaseMonitors (s : Store) : Store :=
  { s with releases := s.active.registry.release s.releases }

end Store

end Polling
