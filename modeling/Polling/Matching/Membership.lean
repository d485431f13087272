import Polling.Address.Basic
import Polling.Config.Basic
import Polling.Error
import Std.Data.ExtTreeMap
import Std.Data.ExtTreeSet

namespace Polling

abbrev AddressSet := Std.ExtTreeSet Address

abbrev AddressMap := Std.ExtTreeMap String AddressSet

namespace AddressMap

def Holds (m : AddressMap) (name : String) (a : Address) : Prop := ∃ s ∈ m[name]?, a ∈ s

instance (m : AddressMap) (name : String) (a : Address) : Decidable (m.Holds name a) :=
  inferInstanceAs (Decidable (∃ s ∈ m[name]?, a ∈ s))

def addresses (m : AddressMap) (name : String) : List Address := (m.getD name ∅).toList

/-- Replaces the set of a name. An empty set is not kept. -/
def put (m : AddressMap) (name : String) (addresses : List Address) : AddressMap :=
  if addresses.isEmpty then m.erase name else m.insert name (.ofList addresses)

/-- What `evaluate` says of each name's expression, in order. Where it fails or finds nothing, the
name keeps what an earlier entry of the same name gave it. -/
def collect (evaluate : String → Except CallError (List Address)) :
    List (String × String) → AddressMap :=
  List.foldl (fun m entry =>
    match evaluate entry.2 with
    | .ok (a :: as) => m.put entry.1 (a :: as)
    | _ => m) ∅

end AddressMap

/-- The addresses that filters select, by package name, and those on address lists, by URL. -/
structure AddressCaches where
  candidates : AddressMap := ∅
  urls : AddressMap := ∅

namespace Package

def Lists (p : Package) (caches : AddressCaches) (a : Address) : Prop :=
  a ∈ p.specifics ∨ ∃ url ∈ p.includeUrls, caches.urls.Holds url a

instance (p : Package) (caches : AddressCaches) (a : Address) : Decidable (p.Lists caches a) :=
  inferInstanceAs (Decidable (_ ∨ _))

/-- Without include ranges and specifics the package includes every address. -/
def Includes (p : Package) (a : Address) : Prop :=
  (p.includeRanges = [] ∧ p.specifics = []) ∨ ∃ r ∈ p.includeRanges, a ∈ r

instance (p : Package) (a : Address) : Decidable (p.Includes a) :=
  inferInstanceAs (Decidable ((_ ∧ _) ∨ _))

def Excludes (p : Package) (a : Address) : Prop := ∃ r ∈ p.excludeRanges, a ∈ r

instance (p : Package) (a : Address) : Decidable (p.Excludes a) :=
  inferInstanceAs (Decidable (∃ r ∈ p.excludeRanges, a ∈ r))

def Contains (p : Package) (caches : AddressCaches) (a : Address) : Prop :=
  caches.candidates.Holds p.name a ∧ (p.Lists caches a ∨ p.Includes a ∧ ¬ p.Excludes a)

instance (p : Package) (caches : AddressCaches) (a : Address) : Decidable (p.Contains caches a) :=
  inferInstanceAs (Decidable (_ ∧ (_ ∨ _ ∧ ¬ _)))

/-- The expression that is evaluated for the package. With a server it selects only nodes that the
server owns. -/
def effectiveFilter (p : Package) : (server : Option String) → String
  | none => p.filter
  | some server => s!"({p.filter}) & (serverName == \"{server}\")"

end Package

namespace AddressCaches

def packagesOf (caches : AddressCaches) (packages : List Package) (a : Address) : List Package :=
  packages.filter (·.Contains caches a)

def localPackagesOf (caches : AddressCaches) (packages : List Package) (a : Address) :
    List Package :=
  packages.filter fun p => ¬ p.remote ∧ p.Contains caches a

def firstPackage? (caches : AddressCaches) (packages : List Package) (a : Address) :
    Option Package :=
  packages.find? (·.Contains caches a)

def firstLocalPackage? (caches : AddressCaches) (packages : List Package) (a : Address) :
    Option Package :=
  packages.find? fun p => ¬ p.remote ∧ p.Contains caches a

def candidatesOf (evaluate : String → Except CallError (List Address)) (server : Option String)
    (packages : List Package) : AddressMap :=
  .collect evaluate (packages.map fun p => (p.name, p.effectiveFilter server))

def urlsOf (resolve : String → Except CallError (List Address)) (packages : List Package) :
    AddressMap :=
  .collect resolve ((packages.flatMap Package.includeUrls).map fun url => (url, url))

end AddressCaches

end Polling
