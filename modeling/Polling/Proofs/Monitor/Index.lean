import Polling.Proofs.Monitor.Registry

namespace Polling

structure Registration where
  implementation : String
  contexts : List DistributionContext
  factory : MonitorFactory
deriving DecidableEq, Repr

namespace Registration

/-- The places where the implementation may run: in the daemon, if none is declared. -/
def places (r : Registration) : List DistributionContext :=
  if r.contexts = [] then [.daemon] else r.contexts

def last? (rs : List Registration) (implementation : String) : Option Registration :=
  rs.reverse.find? (·.implementation = implementation)

def Resolves (rs : List Registration) (m : Monitor) : Prop :=
  ∃ r ∈ last? rs m.implementation, r.factory ≠ .failing

def MayRun (rs : List Registration) (implementation : String) (context : DistributionContext) :
    Prop :=
  ∃ r ∈ last? rs implementation, context ∈ r.places ∨ .all ∈ r.places

instance (rs : List Registration) (implementation : String) (context : DistributionContext) :
    Decidable (MayRun rs implementation context) :=
  inferInstanceAs (Decidable (∃ r ∈ last? rs implementation, _ ∨ _))

def Counted (rs : List Registration) (implementation : String) : Prop :=
  ∃ r ∈ last? rs implementation, r.factory = .counting

instance (rs : List Registration) (implementation : String) :
    Decidable (Counted rs implementation) :=
  inferInstanceAs (Decidable (∃ r ∈ last? rs implementation, _ = _))

def locator (r : Registration) (m : Monitor) : Locator :=
  ⟨m.service, m.implementation, r.places, r.factory = .counting⟩

end Registration

namespace Catalog

def ofRegistrations (rs : List Registration) : Catalog :=
  rs.foldl (fun c r => c.register r.implementation r.contexts r.factory) ∅

theorem getElem?_ofRegistrations (rs : List Registration) (implementation : String) :
    (ofRegistrations rs)[implementation]? =
      (Registration.last? rs implementation).map fun r => ⟨r.places, r.factory⟩ := by
  induction rs using List.reverseRecOn with
  | nil => rfl
  | append_singleton rs r ih =>
    rw [ofRegistrations, List.foldl_append, ← ofRegistrations, List.foldl_cons, List.foldl_nil,
      register, Std.ExtTreeMap.getElem?_insert, ih, Registration.last?, Registration.last?,
      List.reverse_append, List.reverse_singleton, List.singleton_append, List.find?_cons]
    by_cases here : r.implementation = implementation
    · simp [here, Registration.places]
    · simp [here]

theorem resolve?_ofRegistrations (rs : List Registration) (m : Monitor) :
    Registry.resolve? (ofRegistrations rs) m =
      ((Registration.last? rs m.implementation).filter (·.factory ≠ .failing)).map
        (Registration.locator · m) := by
  rw [Registry.resolve?, usable?, getElem?_ofRegistrations]
  cases Registration.last? rs m.implementation with
  | none => rfl
  | some r =>
    by_cases failing : r.factory = .failing <;> simp [Option.filter, failing, Registration.locator]

theorem resolve?_eq_some_iff {rs : List Registration} {m : Monitor} {l : Locator} :
    Registry.resolve? (ofRegistrations rs) m = some l ↔
      ∃ r ∈ Registration.last? rs m.implementation, r.factory ≠ .failing ∧ r.locator m = l := by
  rw [resolve?_ofRegistrations, Option.map_eq_some_iff]
  simp [Option.filter_eq_some_iff, and_assoc]

theorem isSome_resolve?_iff {rs : List Registration} {m : Monitor} :
    (Registry.resolve? (ofRegistrations rs) m).isSome ↔ Registration.Resolves rs m := by
  rw [resolve?_ofRegistrations, Registration.Resolves]
  cases Registration.last? rs m.implementation <;> simp

theorem resolve?_eq_none_iff {rs : List Registration} {m : Monitor} :
    Registry.resolve? (ofRegistrations rs) m = none ↔ ¬ Registration.Resolves rs m := by
  rw [← isSome_resolve?_iff, Option.not_isSome_iff_eq_none]

end Catalog

/-- A new text at the end of a list has the last place, and all others keep their places. -/
theorem getElem?_concat_of_new {xs : List String} {x : String} (new : x ∉ xs) (y : String)
    (i : Nat) : (xs ++ [x])[i]? = some y ↔ if x = y then i = xs.length else xs[i]? = some y := by
  rw [List.getElem?_append, List.getElem?_singleton]
  by_cases same : x = y
  · subst same
    rw [if_pos rfl]
    split
    · next before =>
      exact iff_of_false (fun there => new (List.mem_of_getElem? there)) (Nat.ne_of_lt before)
    · split
      · exact iff_of_true rfl (by omega)
      · exact iff_of_false nofun (by omega)
  · rw [if_neg same]
    split
    · rfl
    · have none_there : xs[i]? = none := List.getElem?_eq_none (by omega)
      simp [none_there, same]

/-- A registry with the place of the locator of each service. -/
structure IndexedRegistry extends Registry where
  index : Std.ExtTreeMap String Nat := ∅

namespace IndexedRegistry

variable {r : IndexedRegistry} {l : Locator} {service : String} {catalog : Catalog}

/-- Puts a locator in the place that the index gives for its service, or at the end. A place beyond
the locators cannot be filled. -/
def insert? (r : IndexedRegistry) (l : Locator) : Option IndexedRegistry :=
  match r.index[l.service]? with
  | some i =>
    if i < r.locators.length then some { r with locators := r.locators.set i l } else none
  | none =>
    some { locators := r.locators ++ [l], index := r.index.insert l.service r.locators.length }

def declare? (catalog : Catalog) (r : IndexedRegistry) (m : Monitor) : Option IndexedRegistry :=
  match Registry.resolve? catalog m with
  | some l => r.insert? l
  | none => some r

/-- The registry of a list of declarations, if no place beyond the locators was to be filled. -/
def ofMonitors? (catalog : Catalog) (monitors : List Monitor) : Option IndexedRegistry :=
  monitors.foldlM (declare? catalog) {}

def lookUp? (r : IndexedRegistry) (service : String) : Option Locator :=
  r.index[service]?.bind fun i => r.locators[i]?

/-- The index gives the place of the locator of each service, and no other place. -/
def InStep (r : IndexedRegistry) : Prop :=
  ∀ (service : String) (i : Nat),
    r.index[service]? = some i ↔ ∃ l, r.locators[i]? = some l ∧ l.service = service

theorem inStep_iff :
    r.InStep ↔ ∀ (service : String) (i : Nat),
      r.index[service]? = some i ↔ r.services[i]? = some service := by
  simp [InStep, Registry.services]

theorem inStep_empty : InStep {} := by
  intro service i
  simp

section InStep

variable (h : r.InStep)

include h

theorem InStep.lt_length {i : Nat} (hi : r.index[service]? = some i) : i < r.locators.length := by
  obtain ⟨l, found, -⟩ := (h service i).1 hi
  exact (List.getElem?_eq_some_iff.1 found).1

theorem InStep.getElem?_of_mem (hl : l ∈ r.locators) :
    ∃ i, r.index[l.service]? = some i ∧ r.locators[i]? = some l := by
  obtain ⟨i, hi⟩ := List.mem_iff_getElem?.1 hl
  exact ⟨i, (h l.service i).2 ⟨l, hi, rfl⟩, hi⟩

theorem InStep.mem_index_iff : service ∈ r.index ↔ r.toRegistry.Monitors service := by
  rw [Std.ExtTreeMap.mem_iff_isSome_getElem?]
  constructor
  · intro known
    obtain ⟨i, hi⟩ := Option.isSome_iff_exists.1 known
    obtain ⟨l, found, same⟩ := (h service i).1 hi
    exact ⟨l, List.mem_of_getElem? found, same⟩
  · rintro ⟨l, hl, rfl⟩
    obtain ⟨i, hi, -⟩ := h.getElem?_of_mem hl
    rw [hi]
    rfl

theorem InStep.lookUp?_eq (service : String) :
    r.lookUp? service = r.toRegistry.locator? service := by
  cases hl : r.toRegistry.locator? service with
  | none =>
    have unknown : r.index[service]? = none := by
      rw [← Option.not_isSome_iff_eq_none, ← Std.ExtTreeMap.mem_iff_isSome_getElem?,
        h.mem_index_iff, ← Registry.isSome_locator?, hl]
      simp
    rw [lookUp?, unknown]
    rfl
  | some l =>
    obtain ⟨i, place, found⟩ := h.getElem?_of_mem (List.mem_of_find?_eq_some hl)
    rw [Registry.service_of_locator? hl] at place
    rw [lookUp?, place]
    exact found

/-- Filling the place of a service replaces its locator and no other. -/
theorem InStep.set_eq_map {i : Nat} (hi : r.index[l.service]? = some i) :
    r.locators.set i l = r.locators.map fun old => if old.service = l.service then l else old := by
  apply List.ext_getElem?
  intro j
  rw [List.getElem?_set, List.getElem?_map]
  split
  · next here =>
    subst here
    obtain ⟨old, found, same⟩ := (h l.service i).1 hi
    rw [if_pos (h.lt_length hi), found, Option.map_some, if_pos same]
  · next elsewhere =>
    cases hj : r.locators[j]? with
    | none => rfl
    | some old =>
      -- Another place of the service would be the place that the index gives.
      have other : old.service ≠ l.service := by
        intro same
        have place := (h l.service j).2 ⟨old, hj, same⟩
        rw [hi] at place
        exact elsewhere (Option.some.inj place)
      rw [Option.map_some, if_neg other]

/-- A locator can be put in, and it goes where it goes in a registry without an index. -/
theorem InStep.insert (l : Locator) :
    ∃ t, r.insert? l = some t ∧ t.toRegistry = r.toRegistry.insert l ∧ t.InStep := by
  cases hi : r.index[l.service]? with
  | some i =>
    have known : r.toRegistry.Monitors l.service := by
      rw [← h.mem_index_iff, Std.ExtTreeMap.mem_iff_isSome_getElem?, hi]
      rfl
    have same : (IndexedRegistry.toRegistry { r with locators := r.locators.set i l }) =
        r.toRegistry.insert l := by
      rw [Registry.insert, if_pos known, ← h.set_eq_map hi]
    refine ⟨{ r with locators := r.locators.set i l }, ?_, same, inStep_iff.2 fun service j => ?_⟩
    · rw [insert?, hi]
      exact if_pos (h.lt_length hi)
    · rw [same, Registry.services_insert, if_pos known]
      exact inStep_iff.1 h service j
  | none =>
    have new : ¬ r.toRegistry.Monitors l.service := by
      rw [← h.mem_index_iff, Std.ExtTreeMap.mem_iff_isSome_getElem?, hi]
      simp
    refine ⟨{ locators := r.locators ++ [l],
              index := r.index.insert l.service r.locators.length }, ?_, ?_, ?_⟩
    · rw [insert?, hi]
    · rw [Registry.insert, if_neg new]
    · -- The new locator stands at the end, which is the place that the index notes.
      have length : r.services.length = r.locators.length := List.length_map _
      refine inStep_iff.2 fun service j => ?_
      have services : Registry.services ⟨r.locators ++ [l]⟩ = r.services ++ [l.service] := by
        simp [Registry.services]
      rw [services, getElem?_concat_of_new (mt Registry.mem_services.1 new),
        Std.ExtTreeMap.getElem?_insert, ← length]
      simp only [Std.compare_eq_iff_eq]
      split
      · rw [Option.some.injEq, eq_comm]
      · exact inStep_iff.1 h service j

end InStep

/-- However the declarations repeat and fail, every place that is to be filled is there. -/
theorem ofMonitors?_eq (catalog : Catalog) (monitors : List Monitor) :
    ∃ r, ofMonitors? catalog monitors = some r ∧
      r.toRegistry = Registry.ofMonitors catalog monitors ∧ r.InStep := by
  induction monitors using List.reverseRecOn with
  | nil => exact ⟨{}, rfl, rfl, inStep_empty⟩
  | append_singleton monitors m ih =>
    obtain ⟨r, made, same, inStep⟩ := ih
    rw [ofMonitors?] at made
    rw [ofMonitors?, List.foldlM_append, made, Registry.ofMonitors_concat, ← same]
    change ∃ t, (declare? catalog r m >>= fun t => pure t) = some t ∧ _
    rw [bind_pure, declare?, Registry.declare]
    cases hm : Registry.resolve? catalog m with
    | none => exact ⟨r, rfl, rfl, inStep⟩
    | some l => exact inStep.insert l

/-- What the registry answers follows from the registrations and the declarations. -/
structure Follows (r : IndexedRegistry) (rs : List Registration) (monitors : List Monitor) :
    Prop where
  index : ∀ (service : String) (i : Nat),
    r.index[service]? = some i ↔ ∃ l, r.locators[i]? = some l ∧ l.service = service
  inBounds : ∀ (service : String) (i : Nat), r.index[service]? = some i → i < r.locators.length
  apart : r.services.Nodup
  monitored : ∀ service, service ∈ r.index ↔
    ∃ m ∈ monitors, m.service = service ∧ Registration.Resolves rs m
  located : ∀ service l, r.lookUp? service = some l ↔
    ∃ before m after, monitors = before ++ m :: after ∧ m.service = service ∧
      (∃ made ∈ Registration.last? rs m.implementation,
        made.factory ≠ .failing ∧ made.locator m = l) ∧
      ∀ m' ∈ after, m'.service = service → ¬ Registration.Resolves rs m'
  listed : ∀ service, service ∈ r.services ↔ service ∈ r.index
  /-- The services are listed in the order of their first declarations that can be resolved. -/
  ordered : r.services.Pairwise fun s t =>
    Registry.firstPlace (.ofRegistrations rs) monitors s <
      Registry.firstPlace (.ofRegistrations rs) monitors t
  /-- A locator may be used where its implementation may run. -/
  usable : ∀ context, r.locatorsFor context =
    r.locators.filter (Registration.MayRun rs ·.implementation context)
  /-- Of each service one monitor is released, which shows if those of its implementation are
  counted. -/
  released : ∀ (releases : Releases) id, (r.release releases).getD id 0 =
    releases.getD id 0 +
      if Registration.Counted rs id
      then r.services.countP fun s => (r.lookUp? s).map Locator.implementation = some id
      else 0

section Registrations

variable {rs : List Registration} {monitors : List Monitor}
  (h : l ∈ (Registry.ofMonitors (.ofRegistrations rs) monitors).locators)

include h

/-- A locator has what its implementation was registered with. -/
theorem exists_registration : ∃ made ∈ Registration.last? rs l.implementation,
    l.contexts = made.places ∧ l.counted = (made.factory = .counting : Bool) := by
  obtain ⟨m, -, resolved⟩ := Registry.exists_of_mem_locators _ _ l h
  obtain ⟨made, hmade, -, rfl⟩ := Catalog.resolve?_eq_some_iff.1 resolved
  exact ⟨made, hmade, rfl, rfl⟩

theorem supports_iff (context : DistributionContext) :
    l.Supports context ↔ Registration.MayRun rs l.implementation context := by
  obtain ⟨made, hmade, contexts, -⟩ := exists_registration h
  rw [Locator.Supports, contexts, Registration.MayRun, Option.mem_def.1 hmade]
  simp

theorem counted_iff : l.counted ↔ Registration.Counted rs l.implementation := by
  obtain ⟨made, hmade, -, counted⟩ := exists_registration h
  rw [counted, Registration.Counted, Option.mem_def.1 hmade]
  simp

end Registrations

/-- Of each service one monitor is released. It shows where the monitors of its implementation are
counted. -/
theorem getD_release_ofMonitors (rs : List Registration) (monitors : List Monitor)
    (releases : Releases) (id : String) {r : Registry}
    (hr : r = Registry.ofMonitors (.ofRegistrations rs) monitors) :
    (r.release releases).getD id 0 = releases.getD id 0 +
      if Registration.Counted rs id
      then r.services.countP fun s => (r.locator? s).map Locator.implementation = some id
      else 0 := by
  subst hr
  rw [Registry.getD_release]
  congr 1
  split
  · next counted =>
    calc (Registry.ofMonitors (.ofRegistrations rs) monitors).locators.countP
          (fun l => l.implementation = id ∧ l.counted)
        = (Registry.ofMonitors (.ofRegistrations rs) monitors).locators.countP
            (fun l => l.implementation = id) := by
          refine List.countP_congr fun l hl => ?_
          simp only [decide_eq_true_eq]
          refine and_iff_left_of_imp fun named => (counted_iff hl).2 ?_
          rwa [named]
      _ = _ := Registry.countP_locators (Registry.nodup_services _ _) _
      _ = _ := by
          refine List.countP_congr fun s _ => ?_
          simp [Option.map_eq_some_iff]
  · next uncounted =>
    rw [List.countP_eq_zero]
    intro l hl shown
    obtain ⟨rfl, counted⟩ := of_decide_eq_true shown
    exact uncounted ((counted_iff hl).1 counted)

/-- With whatever catalog, all places of the index are there while the declarations are resolved,
and the registry is the one without an index and answers as the declarations say. -/
theorem index_in_step (rs : List Registration) (monitors : List Monitor) :
    ∃ r, ofMonitors? (.ofRegistrations rs) monitors = some r ∧
      r.toRegistry = Registry.ofMonitors (.ofRegistrations rs) monitors ∧
      (∀ service, r.lookUp? service = r.toRegistry.locator? service) ∧ r.Follows rs monitors := by
  obtain ⟨r, made, same, inStep⟩ := ofMonitors?_eq (.ofRegistrations rs) monitors
  have found := inStep.lookUp?_eq
  have apart : r.services.Nodup := by
    rw [same]
    exact Registry.nodup_services _ _
  refine ⟨r, made, same, found, {
    index := inStep
    inBounds := fun _ _ => inStep.lt_length
    apart
    monitored := fun service => ?_
    located := fun service l => ?_
    listed := fun service => ?_
    ordered := ?_
    usable := fun context => ?_
    released := fun releases id => ?_ }⟩
  · rw [inStep.mem_index_iff, same, Registry.monitors_ofMonitors]
    simp only [Catalog.isSome_resolve?_iff]
  · rw [found, same, Registry.locator?_ofMonitors_eq_some_iff]
    simp only [Catalog.resolve?_eq_some_iff, Catalog.resolve?_eq_none_iff]
  · rw [inStep.mem_index_iff, Registry.mem_services]
  · rw [same]
    exact Registry.pairwise_firstPlace _ _
  · rw [Registry.locatorsFor, same]
    exact List.filter_congr fun l hl => decide_eq_decide.2 (supports_iff hl context)
  · simp only [found]
    exact getD_release_ofMonitors rs monitors releases id same

/-- A declaration takes the place of an earlier one of its service, unless it cannot be resolved. -/
example :
    (Registry.ofMonitors
      (.ofRegistrations [⟨"icmp", [.all], .plain⟩, ⟨"http", [], .plain⟩, ⟨"broken", [], .failing⟩])
      [⟨"ICMP", "icmp"⟩, ⟨"HTTP", "http"⟩, ⟨"ICMP", "http"⟩, ⟨"ICMP", "broken"⟩]).locators.map
        (fun l => (l.service, l.implementation)) = [("ICMP", "http"), ("HTTP", "http")] := by
  decide +kernel

end IndexedRegistry

end Polling
