import Polling.Proofs.Matching.Isolation
import Polling.Proofs.Store.Consistency

namespace Polling

namespace Active

variable {c d : Active}

/-- What is cached belongs to packages in force: candidates to their names, addresses on lists to
the URLs that they include. -/
structure Backed (c : Active) : Prop where
  candidates : ∀ name ∈ c.caches.candidates, name ∈ c.configuration.packages.map Package.name
  urls : ∀ url ∈ c.caches.urls, url ∈ c.configuration.packages.flatMap Package.includeUrls

/-- Whatever is asked about where and what is polled, both give the same answer. -/
structure AnswersAs (c d : Active) : Prop where
  packagesOf : ∀ a, c.packagesOf a = d.packagesOf a
  localPackagesOf : ∀ a, c.localPackagesOf a = d.localPackagesOf a
  firstPackage? : ∀ a, c.firstPackage? a = d.firstPackage? a
  firstLocalPackage? : ∀ a, c.firstLocalPackage? a = d.firstLocalPackage? a
  inPackage : ∀ a name, c.InPackage a name ↔ d.InPackage a name
  polls : ∀ a service, c.Polls a service ↔ d.Polls a service
  pollsLocally : ∀ a service, c.PollsLocally a service ↔ d.PollsLocally a service
  packageFor? : ∀ a service, c.packageFor? a service = d.packageFor? a service
  monitors : ∀ service, c.registry.Monitors service ↔ d.registry.Monitors service

/-- The second has the same registry and caches, and packages at most added at the end. -/
structure Extends (c d : Active) : Prop where
  packages : c.configuration.packages <+: d.configuration.packages
  registry : d.registry = c.registry
  caches : d.caches = c.caches

theorem Extends.refl (c : Active) : c.Extends c := ⟨List.prefix_rfl, rfl, rfl⟩

theorem Extends.trans {e : Active} (h : c.Extends d) (h' : d.Extends e) : c.Extends e :=
  ⟨h.packages.trans h'.packages, h'.registry.trans h.registry, h'.caches.trans h.caches⟩

theorem polls_iff_packagesOf (c : Active) (a : Address) (service : String) :
    c.Polls a service ↔
      c.registry.Monitors service ∧ ∃ p ∈ c.packagesOf a, p.Enables service := by
  simp only [Polls, mem_packagesOf, and_assoc, and_comm]

theorem packageFor?_eq_localPackagesOf (c : Active) (a : Address) (service : String) :
    c.packageFor? a service =
      if c.registry.Monitors service then (c.localPackagesOf a).find? (·.Enables service)
      else none := by
  rw [packageFor?, localPackagesOf, AddressCaches.localPackagesOf, List.find?_filter]
  refine if_congr Iff.rfl (List.find?_congr fun p _ => ?_) rfl
  simp [and_assoc, and_comm]

/-- All answers are read off the packages of an address and the registry. -/
theorem answersAs_of_packagesOf (apart : (c.configuration.packages.map Package.name).Nodup)
    (apart' : (d.configuration.packages.map Package.name).Nodup)
    (same : ∀ a, d.packagesOf a = c.packagesOf a) (registry : d.registry = c.registry) :
    d.AnswersAs c := by
  have here (a : Address) : d.localPackagesOf a = c.localPackagesOf a := by
    rw [localPackagesOf_eq_filter, localPackagesOf_eq_filter, same]
  have settings (a : Address) (service : String) :
      d.packageFor? a service = c.packageFor? a service := by
    rw [packageFor?_eq_localPackagesOf, packageFor?_eq_localPackagesOf, registry, here]
  have consistent := consistent_of_nodup apart
  have consistent' := consistent_of_nodup apart'
  exact {
    packagesOf := same
    localPackagesOf := here
    firstPackage? a := by rw [consistent'.first, consistent.first, same]
    firstLocalPackage? a := by rw [consistent'.firstHere, consistent.firstHere, here]
    inPackage a name := by rw [← consistent'.mem_iff, ← consistent.mem_iff, same]
    polls a service := by rw [polls_iff_packagesOf, polls_iff_packagesOf, registry, same]
    pollsLocally a service := by rw [consistent'.pollsHere, consistent.pollsHere, settings]
    packageFor? := settings
    monitors service := by rw [registry] }

/-- A package that has a name of its own beside those in force contains no address. -/
theorem Backed.not_contains (h : c.Backed) {p : Package}
    (new : p.name ∉ c.configuration.packages.map Package.name) (a : Address) :
    ¬ p.Contains c.caches a := by
  rintro ⟨⟨s, held, -⟩, -⟩
  refine new (h.candidates p.name ?_)
  rw [Std.ExtTreeMap.mem_iff_isSome_getElem?, Option.mem_def.1 held]
  rfl

/-- Where the caches are backed, packages that are added change no answer. -/
theorem Backed.answersAs (h : c.Backed) (ext : c.Extends d)
    (apart : (d.configuration.packages.map Package.name).Nodup) : d.AnswersAs c := by
  obtain ⟨⟨added, split⟩, registry, caches⟩ := ext
  rw [← split, List.map_append] at apart
  obtain ⟨apart_before, -, disjoint⟩ := List.nodup_append.1 apart
  refine answersAs_of_packagesOf apart_before ?_ (fun a => ?_) registry
  · rwa [← split, List.map_append]
  · have none_added : added.filter (·.Contains c.caches a) = [] := by
      rw [List.filter_eq_nil_iff]
      intro p hp contained
      have new : p.name ∉ c.configuration.packages.map Package.name :=
        fun known => disjoint p.name known p.name (List.mem_map_of_mem hp) rfl
      exact h.not_contains new a (of_decide_eq_true contained)
    rw [packagesOf, packagesOf, AddressCaches.packagesOf, AddressCaches.packagesOf, caches, ← split,
      List.filter_append, none_added, List.append_nil]

end Active

namespace Store

open Poller (final final_of_ok)

variable {s t u : Store} {r : Request}

namespace Request

def Refreshes : Request → Store → Prop
  | rebuild, _ => True
  | r, s => r.Resolves s

theorem Resolves.refreshes (h : r.Resolves s) : r.Refreshes s := by
  cases r with
  | rebuild => trivial
  | addPackage | addMonitor | reload | save => exact h

end Request

/-- The caches that are built for packages hold something only for them. -/
theorem backed_cachesOf (s : Store) (c : Active)
    (h : c.caches = s.cachesOf c.configuration.packages) : c.Backed where
  candidates name held := by
    by_contra unnamed
    rw [Std.ExtTreeMap.mem_iff_isSome_getElem?, h, AddressCaches.cachesOf_eq_built,
      AddressCaches.built, AddressCaches.getElem?_candidatesOf_of_not_mem unnamed] at held
    cases held
  urls url held := by
    by_contra not_included
    rw [Std.ExtTreeMap.mem_iff_isSome_getElem?, h, AddressCaches.cachesOf_eq_built,
      AddressCaches.built, AddressCaches.getElem?_urlsOf, if_neg not_included] at held
    cases held

theorem extends_addPackage {p : Package} (h : addPackage p s = .ok () t) :
    s.active.Extends t.active := by
  obtain ⟨-, rfl⟩ := addPackage_eq_ok h
  exact ⟨List.prefix_append _ _, rfl, rfl⟩

theorem extends_addMonitor (s : Store) (m : Monitor) :
    s.active.Extends (s.addMonitor m).active :=
  ⟨List.prefix_rfl, rfl, rfl⟩

theorem backed_of_extends {c d : Active} (h : c.Backed) (ext : c.Extends d) : d.Backed where
  candidates name held := by
    rw [ext.caches] at held
    exact (ext.packages.map Package.name).subset (h.candidates name held)
  urls url held := by
    rw [ext.caches] at held
    exact (ext.packages.flatMap Package.includeUrls).subset (h.urls url held)

theorem Reachable.backed (h : s.Reachable) : s.active.Backed := by
  induction h with
  | opened h =>
    obtain ⟨c, -, rfl⟩ := eq_install_of_load h
    exact backed_cachesOf _ _ rfl
  | @asked s r _ ih =>
    have outcome := outcome_meet r s
    generalize final r.meet s = t at outcome ⊢
    cases outcome with
    | kept same =>
      rw [same]
      exact ih
    | packageAdded _ added => exact backed_of_extends ih (extends_addPackage added)
    | monitorAdded m => exact backed_of_extends ih (extends_addMonitor s m)
    | installed u c _ _ => exact backed_cachesOf u _ rfl
    | rebuilt => exact backed_cachesOf s _ rfl
  | surrounded same _ ih =>
    rw [same]
    exact ih

/-- The stores that come about from a store on, up to the first request that has the property: until
then requests are met or refused, and all but what is in force may change besides. -/
inductive Until (Ends : Request → Store → Prop) (s : Store) : Store → Prop where
  | here : Until Ends s s
  | asked {t : Store} (r : Request) : ¬ Ends r t → Until Ends s t → Until Ends s (final r.meet t)
  | surrounded {t u : Store} : u.active = t.active → Until Ends s t → Until Ends s u

section Until

variable {Ends : Request → Store → Prop}

theorem Until.reachable (h : s.Until Ends t) (hs : s.Reachable) : t.Reachable := by
  induction h with
  | here => exact hs
  | asked r _ _ ih => exact .asked r ih
  | surrounded same _ ih => exact .surrounded same ih

theorem Until.extends (h : s.Until Request.Refreshes t) : s.active.Extends t.active := by
  induction h with
  | here => exact .refl _
  | @asked t r going _ ih =>
    refine ih.trans ?_
    -- What replaces the registry or the caches would have ended the course.
    have outcome := outcome_meet r t
    generalize final r.meet t = u at outcome ⊢
    cases outcome with
    | kept same =>
      rw [same]
      exact .refl _
    | packageAdded _ added => exact extends_addPackage added
    | monitorAdded m => exact extends_addMonitor t m
    | installed u c resolved _ => exact absurd resolved.refreshes going
    | rebuilt => exact absurd trivial going
  | surrounded same _ ih =>
    rw [same]
    exact ih

theorem Until.registry (h : s.Until Request.Resolves t) :
    t.active.registry = s.active.registry := by
  induction h with
  | here => rfl
  | @asked t r going _ ih =>
    rw [← ih]
    have outcome := outcome_meet r t
    generalize final r.meet t = u at outcome ⊢
    cases outcome with
    | kept same => rw [same]
    | packageAdded _ added => exact (extends_addPackage added).registry
    | monitorAdded m => rfl
    | installed u c resolved _ => exact absurd resolved going
    | rebuilt => rfl
  | surrounded same _ ih =>
    rw [same]
    exact ih

end Until

def declaring (s : Store) (monitors : List Monitor) : Store :=
  { s with active.configuration := { s.active.configuration with monitors } }

/-- No answer depends on the declarations. -/
theorem answersAs_declaring (s : Store) (monitors : List Monitor) :
    s.active.AnswersAs (s.declaring monitors).active :=
  ⟨fun _ => rfl, fun _ => rfl, fun _ => rfl, fun _ => rfl, fun _ _ => Iff.rfl, fun _ _ => Iff.rfl,
    fun _ _ => Iff.rfl, fun _ _ => rfl, fun _ => Iff.rfl⟩

/-- Until the next configuration is put in force, a declaration that was added is there and nothing
else is different: the same store without it could have come about. -/
theorem Until.without_declaration {m : Monitor}
    (h : (s.addMonitor m).Until Request.Resolves u) :
    ∃ before after, u.active.configuration.monitors = before ++ m :: after ∧
      s.Until Request.Resolves (u.declaring (before ++ after)) := by
  induction h with
  | here =>
    refine ⟨s.active.configuration.monitors, [], rfl, ?_⟩
    rw [List.append_nil]
    exact .here
  | @asked t r going _ ih =>
    obtain ⟨before, after, declared, course⟩ := ih
    have outcome := outcome_meet r t
    generalize final r.meet t = u at outcome ⊢
    cases outcome with
    | kept same =>
      refine ⟨before, after, ?_, .surrounded ?_ course⟩
      · rw [same, declared]
      · rw [declaring, declaring, same]
    | @packageAdded p _ new added =>
      obtain ⟨-, rfl⟩ := addPackage_eq_ok added
      refine ⟨before, after, declared, ?_⟩
      -- The packages are the same without the declaration, so the name is new there too.
      have new' : (t.declaring (before ++ after)).active.configuration.package? p.name = none := new
      have mirrored := Until.asked (.addPackage p) id course
      rwa [Request.meet, final_of_ok (addPackage_of_new new')] at mirrored
    | monitorAdded m' =>
      refine ⟨before, after ++ [m'], ?_, ?_⟩
      · change t.active.configuration.monitors ++ [m'] = _
        rw [declared, List.append_assoc, List.cons_append]
      · have mirrored := Until.asked (.addMonitor m') id course
        rw [← List.append_assoc]
        exact mirrored
    | installed u c resolved _ => exact absurd resolved going
    | rebuilt => exact ⟨before, after, declared, .asked .rebuild id course⟩
  | surrounded same _ ih =>
    obtain ⟨before, after, declared, course⟩ := ih
    refine ⟨before, after, ?_, .surrounded ?_ course⟩
    · rw [same, declared]
    · rw [declaring, declaring, same]

/-- Nothing is cached but for packages in force. So a package that is added contains no address and
changes no answer until the caches are built again. A declaration that is added changes no answer
until then either; and until a configuration is put in force, what is monitored stays and all
answers are those of a store without the declaration. -/
theorem additions_dormant (h : s.Reachable) :
    s.active.Backed ∧
    (∀ p t u, addPackage p s = .ok () t → t.Until Request.Refreshes u →
      u.active.AnswersAs s.active ∧
        ∀ a, ¬ p.Contains u.active.caches a ∧ ¬ u.active.InPackage a p.name) ∧
    ∀ m u, ((s.addMonitor m).Until Request.Refreshes u → u.active.AnswersAs s.active) ∧
      ((s.addMonitor m).Until Request.Resolves u →
        (∀ service, u.active.registry.Monitors service ↔ s.active.registry.Monitors service) ∧
        ∃ before after, u.active.configuration.monitors = before ++ m :: after ∧
          s.Until Request.Resolves (u.declaring (before ++ after)) ∧
          u.active.AnswersAs (u.declaring (before ++ after)).active) := by
  have backed := h.backed
  refine ⟨backed, fun p t u added course => ?_, fun m u => ⟨fun course => ?_, fun course => ?_⟩⟩
  · have reachable : t.Reachable := by
      have asked := Reachable.asked (.addPackage p) h
      rwa [Request.meet, final_of_ok added] at asked
    have ext : s.active.Extends u.active := (extends_addPackage added).trans course.extends
    have same := backed.answersAs ext (course.reachable reachable).nodup
    have new : s.active.configuration.package? p.name = none := (addPackage_eq_ok added).1
    refine ⟨same, fun a => ⟨?_, ?_⟩⟩
    · rw [ext.caches]
      exact backed.not_contains (Configuration.package?_eq_none.1 new) a
    · rw [same.inPackage, Active.InPackage, Active.package?, new]
      simp
  · have reachable : (s.addMonitor m).Reachable := .asked (.addMonitor m) h
    exact backed.answersAs ((extends_addMonitor s m).trans course.extends)
      (course.reachable reachable).nodup
  · refine ⟨fun service => ?_, ?_⟩
    · rw [course.registry]
      rfl
    · obtain ⟨before, after, declared, without⟩ := course.without_declaration
      exact ⟨before, after, declared, without, answersAs_declaring u _⟩

/-- A second package and a second monitor are added. The package contains its address only once the
caches are built again, and by then the service of the monitor is still not monitored. -/
theorem outer_and_icmp_dormant :
    ∃ t u, Sample.selecting.load = .ok t ∧ addPackage Sample.outer t = .ok () u ∧
      (u.active.AnswersAs t.active ∧ ¬ u.active.InPackage Sample.inside "outer") ∧
      (final Request.rebuild.meet u).active.InPackage Sample.inside "outer" ∧
      ¬ (final Request.rebuild.meet (u.addMonitor ⟨"ICMP", "icmp"⟩)).active.registry.Monitors
        "ICMP" := by
  have read : Sample.selecting.read = .ok Sample.held :=
    read_of_parse rfl (Configuration.parse?_write (.lines 0) Sample.held)
  have loaded : Sample.selecting.load = .ok (Sample.selecting.install Sample.held) := by
    rw [load_eq, read]
    rfl
  have added : addPackage Sample.outer (Sample.selecting.install Sample.held) = .ok () _ :=
    addPackage_of_new (by decide)
  have reachable : (Sample.selecting.install Sample.held).Reachable := .opened loaded
  have after := (additions_dormant reachable).2.1 _ _ _ added .here
  have asked := Reachable.asked (.addPackage Sample.outer) reachable
  rw [Request.meet, final_of_ok added] at asked
  have resolved := ((additions_dormant asked).2.2 ⟨"ICMP", "icmp"⟩ _).2
    (.asked .rebuild id .here)
  refine ⟨_, _, loaded, added, ⟨after.1, (after.2 _).2⟩, by decide +kernel, ?_⟩
  rw [resolved.1]
  decide +kernel

end Store

end Polling
