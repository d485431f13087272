import Polling.Proofs.Store.Consistency

namespace Polling

namespace Package

variable {p : Package} {service : String}

/-- The first entry of exactly the name is there and is on. -/
def AnswersFor (p : Package) (service : String) : Prop :=
  ∃ before entry after, p.services = before ++ entry :: after ∧
    (∀ e ∈ before, e.name ≠ service) ∧ entry.name = service ∧ entry.Enabled

/-- The entry is the one that the service is looked up by. -/
theorem answersFor_iff :
    p.AnswersFor service ↔ ∃ entry, p.service? service = some entry ∧ entry.Enabled := by
  constructor
  · intro h
    obtain ⟨before, entry, after, split, none_before, named, on⟩ := h
    have first : p.service? service = some entry := by
      apply List.find?_eq_some_iff_append.2
      exact ⟨decide_eq_true named, before, after, split, fun e he => by simp [none_before e he]⟩
    exact ⟨entry, first, on⟩
  · intro h
    obtain ⟨entry, first, on⟩ := h
    obtain ⟨named, before, after, split, none_before⟩ := List.find?_eq_some_iff_append.1 first
    refine ⟨before, entry, after, split, fun e he => ?_, of_decide_eq_true named, on⟩
    simpa using none_before e he

instance (p : Package) (service : String) : Decidable (p.AnswersFor service) :=
  decidable_of_iff (∃ entry ∈ p.service? service, entry.Enabled) answersFor_iff.symm

/-- A package that answers for a service polls it. -/
theorem AnswersFor.enables (h : p.AnswersFor service) : p.Enables service := by
  obtain ⟨before, entry, after, split, -, named, on⟩ := h
  refine ⟨entry, ?_, ?_, on⟩
  · rw [split]
    exact List.mem_append_right before List.mem_cons_self
  · rw [named]
    exact .refl service

/-- A package answers for exactly what it polls if all its entries for the service are spelled alike
and none is repeated. -/
theorem answersFor_iff_enables
    (spelled : ∀ e ∈ p.services, Text.Caseless e.name service → e.name = service)
    (apart : (p.services.map Service.name).Nodup) : p.AnswersFor service ↔ p.Enables service := by
  refine ⟨AnswersFor.enables, fun h => ?_⟩
  obtain ⟨entry, mem, alike, on⟩ := h
  have named := spelled entry mem alike
  obtain ⟨before, after, split⟩ := List.append_of_mem mem
  refine ⟨before, entry, after, split, fun e he same => ?_, named, on⟩
  -- An earlier entry of the name would repeat it.
  rw [split, List.map_append, List.map_cons] at apart
  have disjoint := (List.nodup_append.1 apart).2.2
  exact disjoint e.name (List.mem_map_of_mem he) entry.name List.mem_cons_self
    (same.trans named.symm)

end Package

namespace Active

variable {c : Active} {a : Address} {service : String} {p : Package}

theorem mem_of_packageFor? (h : c.packageFor? a service = some p) :
    p ∈ c.configuration.packages ∧ p.Enables service := by
  unfold packageFor? at h
  split at h
  · have fits : ¬ p.remote ∧ p.Enables service ∧ p.Contains c.caches a := by
      simpa using List.find?_some h
    exact ⟨List.mem_of_find?_eq_some h, fits.2.1⟩
  · cases h

/-- The settings of a service are found under the name of a package. -/
theorem serviceIn?_name (h : (c.configuration.packages.map Package.name).Nodup)
    (hp : p ∈ c.configuration.packages) (service : String) :
    c.serviceIn? service p.name = p.service? service := by
  rw [serviceIn?, package?, Configuration.package?_of_mem h hp]
  rfl

theorem parameter?_eq_bind (c : Active) (package service key : String) :
    c.parameter? package service key =
      (c.serviceIn? service package).bind fun entry => entry.parameter key :=
  rfl

end Active

namespace Sample

def small : Package := { name := "small", filter := "any", services := [{ name := "http" }] }

/-- The package has its service twice, first off and then on. -/
def twice : Package where
  name := "twice"
  filter := "other"
  services := [{ name := "HTTP", status := some "off" }, { name := "HTTP" }]

def careless : Configuration where
  packages := [small, twice]
  monitors := [⟨"HTTP", "icmp"⟩]

def beside : Address := .v4 (.replicate 4 11)

def carelessStore : Store :=
  { selecting with
    source := .memory { text := careless.render }
    filters := selecting.filters.set "other" [beside] }

end Sample

namespace Store

variable {s : Store} {a : Address} {service : String} {p : Package}

/-- The package that a service is scheduled under polls it and is the one that its settings are
looked up in. They are there to be read exactly if the package answers for the service. -/
theorem settings_readable_iff (hs : s.Reachable) (hp : s.active.packageFor? a service = some p) :
    p.Enables service ∧ s.active.serviceIn? service p.name = p.service? service ∧
    ((∃ entry, s.active.serviceIn? service p.name = some entry ∧ entry.Enabled ∧
        ∀ key, s.active.parameter? p.name service key = entry.parameter key) ↔
      p.AnswersFor service) := by
  obtain ⟨mem, enables⟩ := Active.mem_of_packageFor? hp
  have found := Active.serviceIn?_name hs.nodup mem service
  refine ⟨enables, found, ?_⟩
  rw [Package.answersFor_iff, found]
  constructor
  · intro h
    obtain ⟨entry, first, on, -⟩ := h
    exact ⟨entry, first, on⟩
  · intro h
    obtain ⟨entry, first, on⟩ := h
    refine ⟨entry, first, on, fun key => ?_⟩
    rw [Active.parameter?_eq_bind, found, first]
    rfl

/-- HTTP is scheduled under either package, and neither answers for it. -/
theorem http_settings_unreadable :
    ∃ t, Sample.carelessStore.load = .ok t ∧
      (t.active.packageFor? Sample.inside "HTTP" = some Sample.small ∧
        ¬ ∃ entry, t.active.serviceIn? "HTTP" "small" = some entry ∧ entry.Enabled ∧
          ∀ key, t.active.parameter? "small" "HTTP" key = entry.parameter key) ∧
      (t.active.packageFor? Sample.beside "HTTP" = some Sample.twice ∧
        ¬ ∃ entry, t.active.serviceIn? "HTTP" "twice" = some entry ∧ entry.Enabled ∧
          ∀ key, t.active.parameter? "twice" "HTTP" key = entry.parameter key) := by
  have read : Sample.carelessStore.read = .ok Sample.careless :=
    read_of_parse rfl (Configuration.parse?_write (.lines 0) Sample.careless)
  have loaded : Sample.carelessStore.load =
      .ok (Sample.carelessStore.install Sample.careless) := by
    rw [load_eq, read]
    rfl
  have small : (Sample.carelessStore.install Sample.careless).active.packageFor?
      Sample.inside "HTTP" = some Sample.small := by decide +kernel
  have twice : (Sample.carelessStore.install Sample.careless).active.packageFor?
      Sample.beside "HTTP" = some Sample.twice := by decide +kernel
  have unanswered_small : ¬ Sample.small.AnswersFor "HTTP" := by decide
  have unanswered_twice : ¬ Sample.twice.AnswersFor "HTTP" := by decide
  exact ⟨_, loaded,
    ⟨small, mt (settings_readable_iff (.opened loaded) small).2.2.1 unanswered_small⟩,
    twice, mt (settings_readable_iff (.opened loaded) twice).2.2.1 unanswered_twice⟩

end Store

end Polling
