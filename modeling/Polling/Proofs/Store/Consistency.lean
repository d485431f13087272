import Mathlib.Data.List.Find
import Mathlib.Data.List.Nodup
import Polling.Proofs.Monitor.Registry
import Polling.Proofs.Store.Saving
import Polling.Store.Queries

namespace Polling

/-- Where names are apart, a package is found by its name. -/
theorem Configuration.package?_of_mem {c : Configuration}
    (h : (c.packages.map Package.name).Nodup) {p : Package} (hp : p ∈ c.packages) :
    c.package? p.name = some p := by
  cases hq : c.package? p.name with
  | none => exact absurd (List.mem_map_of_mem hp) (Configuration.package?_eq_none.1 hq)
  | some q =>
    obtain ⟨known, same⟩ := Configuration.of_package?_eq_some hq
    rw [List.inj_on_of_nodup_map h known hp same]

namespace Active

/-- The packages in force are named apart, and all that can be asked about the packages of an
address follows from the list of their names. -/
structure Consistent (c : Active) : Prop where
  apart : (c.configuration.packages.map Package.name).Nodup
  listed : ∀ a, (c.packagesOf a).map Package.name =
    (c.configuration.packages.map Package.name).filter (c.InPackage a ·)
  nodup : ∀ a, ((c.packagesOf a).map Package.name).Nodup
  mem_iff : ∀ a name, name ∈ (c.packagesOf a).map Package.name ↔ c.InPackage a name
  first : ∀ a, c.firstPackage? a = (c.packagesOf a).head?
  here : ∀ a, c.localPackagesOf a = (c.packagesOf a).filter (¬ ·.remote)
  firstHere : ∀ a, c.firstLocalPackage? a = (c.localPackagesOf a).head?
  polls : ∀ a service, c.Polls a service ↔
    ∃ name ∈ (c.packagesOf a).map Package.name, c.PolledIn service name
  pollsHere : ∀ a service, c.PollsLocally a service ↔ (c.packageFor? a service).isSome
  /-- The settings are those of the first package for this instance that polls the service. -/
  packageFor : ∀ a service, c.packageFor? a service =
    (c.localPackagesOf a).find? (c.PolledIn service ·.name)

section Names

variable {c : Active} (h : (c.configuration.packages.map Package.name).Nodup) {p : Package}
  (hp : p ∈ c.configuration.packages)

include h hp

theorem inPackage_name_iff (a : Address) : c.InPackage a p.name ↔ p.Contains c.caches a := by
  rw [InPackage, package?, Configuration.package?_of_mem h hp]
  simp

theorem enabledIn_name_iff (service : String) : c.EnabledIn service p.name ↔ p.Enables service := by
  rw [EnabledIn, package?, Configuration.package?_of_mem h hp]
  simp

end Names

variable {c : Active}

/-- Only a package that is there has an address. -/
theorem mem_names_of_inPackage {a : Address} {name : String} (h : c.InPackage a name) :
    name ∈ c.configuration.packages.map Package.name := by
  obtain ⟨p, hp, -⟩ := h
  exact List.mem_map.2 ⟨p, Configuration.of_package?_eq_some hp⟩

theorem mem_packagesOf {a : Address} {p : Package} :
    p ∈ c.packagesOf a ↔ p ∈ c.configuration.packages ∧ p.Contains c.caches a := by
  rw [packagesOf, AddressCaches.packagesOf, List.mem_filter, decide_eq_true_eq]

theorem localPackagesOf_eq_filter (c : Active) (a : Address) :
    c.localPackagesOf a = (c.packagesOf a).filter (¬ ·.remote) := by
  rw [localPackagesOf, packagesOf, AddressCaches.localPackagesOf, AddressCaches.packagesOf,
    List.filter_filter]
  simp only [Bool.decide_and]

section NamedApart

variable (h : (c.configuration.packages.map Package.name).Nodup)

include h

theorem map_name_packagesOf (a : Address) :
    (c.packagesOf a).map Package.name =
      (c.configuration.packages.map Package.name).filter (c.InPackage a ·) := by
  rw [List.filter_map]
  refine congrArg (List.map Package.name) (List.filter_congr fun p hp => ?_)
  exact decide_eq_decide.2 (inPackage_name_iff h hp a).symm

theorem polls_iff_mem (a : Address) (service : String) :
    c.Polls a service ↔ ∃ name ∈ (c.packagesOf a).map Package.name, c.PolledIn service name := by
  constructor
  · rintro ⟨monitored, p, hp, enables, contains⟩
    refine ⟨p.name, List.mem_map_of_mem (mem_packagesOf.2 ⟨hp, contains⟩), ?_, monitored⟩
    exact (enabledIn_name_iff h hp service).2 enables
  · rintro ⟨name, hname, enabled, monitored⟩
    obtain ⟨p, hp, rfl⟩ := List.mem_map.1 hname
    obtain ⟨hp, contains⟩ := mem_packagesOf.1 hp
    exact ⟨monitored, p, hp, (enabledIn_name_iff h hp service).1 enabled, contains⟩

/-- It does not matter whether the monitor is asked for once or with each package. -/
theorem packageFor?_eq_find? (a : Address) (service : String) :
    c.packageFor? a service = (c.localPackagesOf a).find? (c.PolledIn service ·.name) := by
  rw [packageFor?, localPackagesOf, AddressCaches.localPackagesOf, List.find?_filter]
  by_cases monitored : c.registry.Monitors service
  · rw [if_pos monitored]
    apply List.find?_congr
    intro p hp
    have polled : c.PolledIn service p.name ↔ p.Enables service :=
      (and_iff_left monitored).trans (enabledIn_name_iff h hp service)
    simp [polled, and_assoc, and_comm]
  · rw [if_neg monitored, eq_comm, List.find?_eq_none]
    intro p _ polled
    have both : (p.remote = false ∧ p.Contains c.caches a) ∧ c.PolledIn service p.name := by
      simpa using polled
    exact monitored both.2.2

/-- Names that are apart are all that is needed for the answers to agree. -/
theorem consistent_of_nodup : c.Consistent where
  apart := h
  listed := map_name_packagesOf h
  nodup a := by
    rw [map_name_packagesOf h]
    exact h.filter _
  mem_iff a name := by
    rw [map_name_packagesOf h, List.mem_filter, decide_eq_true_eq]
    exact and_iff_right_of_imp mem_names_of_inPackage
  first _ := List.head?_filter.symm
  here := localPackagesOf_eq_filter c
  firstHere _ := List.head?_filter.symm
  polls := polls_iff_mem h
  pollsHere a service := (isSome_packageFor? c a service).symm
  packageFor := packageFor?_eq_find? h

end NamedApart

end Active

namespace Store

open Poller (final final_of_ok)

/-- The stores that come about: a store is opened, it is asked for things, and meanwhile the
document, the address lists, the filters and all else but what is in force may change. -/
inductive Reachable : Store → Prop where
  | opened {s t : Store} : s.load = .ok t → Reachable t
  | asked {s : Store} (r : Request) : Reachable s → Reachable (final r.meet s)
  | surrounded {s t : Store} : t.active = s.active → Reachable s → Reachable t

variable {s : Store} {c : Configuration} {service : String}

/-- A request that is met or refused leaves the names apart. -/
theorem nodup_meet (h : (s.active.configuration.packages.map Package.name).Nodup) (r : Request) :
    ((final r.meet s).active.configuration.packages.map Package.name).Nodup := by
  have outcome := outcome_meet r s
  generalize final r.meet s = t at outcome ⊢
  cases outcome with
  | kept same =>
    rw [same]
    exact h
  | packageAdded new added =>
    obtain ⟨-, rfl⟩ := addPackage_eq_ok added
    exact Configuration.nodup_append_package h new
  | monitorAdded m => exact h
  | installed u c _ valid => exact valid.nodup
  | rebuilt => exact h

theorem Reachable.nodup (h : s.Reachable) :
    (s.active.configuration.packages.map Package.name).Nodup := by
  induction h with
  | opened h => exact (valid_load h).nodup
  | asked r _ ih => exact nodup_meet ih r
  | surrounded h _ ih =>
    rw [h]
    exact ih

/-- The registry that a valid configuration brings monitors no service without a name. -/
theorem named_install (h : c.Valid) (hm : (s.install c).active.registry.Monitors service) :
    ¬ Text.AllBlank service := by
  obtain ⟨m, hin, rfl, -⟩ := Registry.monitors_ofMonitors.1 hm
  exact h.monitors m hin

/-- No store that comes about monitors a service without a name. -/
theorem Reachable.named (h : s.Reachable) (hm : s.active.registry.Monitors service) :
    ¬ Text.AllBlank service := by
  induction h with
  | opened h =>
    obtain ⟨c, read, rfl⟩ := eq_install_of_load h
    exact named_install (valid_of_read read) hm
  | @asked s r _ ih =>
    have outcome := outcome_meet r s
    generalize final r.meet s = t at outcome hm
    cases outcome with
    | kept same =>
      rw [same] at hm
      exact ih hm
    | packageAdded _ added =>
      obtain ⟨-, rfl⟩ := addPackage_eq_ok added
      exact ih hm
    | monitorAdded m => exact ih hm
    | installed u c _ valid => exact named_install valid hm
    | rebuilt => exact ih hm
  | surrounded h _ ih =>
    rw [h] at hm
    exact ih hm

/-- Whatever a store was asked for, its answers agree. -/
theorem answers_agree (h : s.Reachable) : s.active.Consistent :=
  Active.consistent_of_nodup h.nodup

/-- A package is added, and once the caches are built again both packages contain the address. -/
theorem selecting_answers_agree :
    ∃ t, Sample.selecting.load = .ok t ∧
      (t.run [.addPackage Sample.outer, .rebuild]).active.Consistent ∧
      ((t.run [.addPackage Sample.outer, .rebuild]).active.packagesOf
        Sample.inside).map Package.name = ["main", "outer"] ∧
      ((t.run [.addPackage Sample.outer, .rebuild]).active.packageFor?
        Sample.inside "HTTP").map Package.name = some "main" := by
  have found : Sample.selecting.read = .ok Sample.held :=
    read_of_parse rfl (Configuration.parse?_write (.lines 0) Sample.held)
  have loaded : Sample.selecting.load = .ok (Sample.selecting.install Sample.held) := by
    rw [load_eq, found]
    rfl
  have reachable : ((Sample.selecting.install Sample.held).run
      [.addPackage Sample.outer, .rebuild]).Reachable :=
    .asked .rebuild (.asked (.addPackage Sample.outer) (.opened loaded))
  exact ⟨_, loaded, answers_agree reachable, by decide +kernel, by decide +kernel⟩

end Store

end Polling
