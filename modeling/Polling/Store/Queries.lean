import Polling.Store.Basic

namespace Polling.Active

def packagesOf (c : Active) (a : Address) : List Package :=
  c.caches.packagesOf c.configuration.packages a

def localPackagesOf (c : Active) (a : Address) : List Package :=
  c.caches.localPackagesOf c.configuration.packages a

def firstPackage? (c : Active) (a : Address) : Option Package :=
  c.caches.firstPackage? c.configuration.packages a

def firstLocalPackage? (c : Active) (a : Address) : Option Package :=
  c.caches.firstLocalPackage? c.configuration.packages a

def Polls (c : Active) (a : Address) (service : String) : Prop :=
  c.registry.Monitors service ∧
    ∃ p ∈ c.configuration.packages, p.Enables service ∧ p.Contains c.caches a

instance (c : Active) (a : Address) (service : String) : Decidable (c.Polls a service) :=
  inferInstanceAs (Decidable (_ ∧ _))

def PollsLocally (c : Active) (a : Address) (service : String) : Prop :=
  c.registry.Monitors service ∧
    ∃ p ∈ c.configuration.packages, ¬ p.remote ∧ p.Enables service ∧ p.Contains c.caches a

instance (c : Active) (a : Address) (service : String) : Decidable (c.PollsLocally a service) :=
  inferInstanceAs (Decidable (_ ∧ _))

theorem PollsLocally.polls {c : Active} {a : Address} {service : String}
    (h : c.PollsLocally a service) : c.Polls a service := by
  obtain ⟨hm, p, hp, -, he, hc⟩ := h
  exact ⟨hm, p, hp, he, hc⟩

/-- The package whose settings this instance polls a service with: the first that polls it. -/
def packageFor? (c : Active) (a : Address) (service : String) : Option Package :=
  if c.registry.Monitors service then
    c.configuration.packages.find? fun p => ¬ p.remote ∧ p.Enables service ∧ p.Contains c.caches a
  else none

/-- Some package for this instance polls a service exactly if there is a first one. -/
theorem isSome_packageFor? (c : Active) (a : Address) (service : String) :
    (c.packageFor? a service).isSome ↔ c.PollsLocally a service := by
  unfold packageFor? PollsLocally
  by_cases hm : c.registry.Monitors service
  · simp [hm]
  · simp [hm]

def package? (c : Active) (name : String) : Option Package := c.configuration.package? name

def InPackage (c : Active) (a : Address) (package : String) : Prop :=
  ∃ p ∈ c.package? package, p.Contains c.caches a

instance (c : Active) (a : Address) (package : String) : Decidable (c.InPackage a package) :=
  inferInstanceAs (Decidable (∃ p ∈ c.package? package, _))

def EnabledIn (c : Active) (service package : String) : Prop :=
  ∃ p ∈ c.package? package, p.Enables service

instance (c : Active) (service package : String) : Decidable (c.EnabledIn service package) :=
  inferInstanceAs (Decidable (∃ p ∈ c.package? package, _))

def PolledIn (c : Active) (service package : String) : Prop :=
  c.EnabledIn service package ∧ c.registry.Monitors service

instance (c : Active) (service package : String) : Decidable (c.PolledIn service package) :=
  inferInstanceAs (Decidable (_ ∧ _))

/-- The service of exactly the given name in the named package. -/
def serviceIn? (c : Active) (service package : String) : Option Service := do
  (← c.package? package).service? service

def parameter? (c : Active) (package service key : String) : Option String := do
  (← c.serviceIn? service package).parameter key

def archive? (c : Active) (package : String) : Option Archive :=
  (c.package? package).map Package.archive

def candidates (c : Active) (package : String) : List Address :=
  c.caches.candidates.addresses package

end Polling.Active
