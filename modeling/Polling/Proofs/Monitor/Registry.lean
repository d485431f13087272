import Mathlib.Data.List.Find
import Mathlib.Data.List.Induction
import Mathlib.Data.List.Nodup
import Polling.Monitor.Registry

namespace Polling.Registry

variable {r : Registry} {l : Locator} {service : String} {catalog : Catalog}
  {monitors : List Monitor} {m : Monitor}

def services (r : Registry) : List String := r.locators.map Locator.service

theorem mem_services : service ∈ r.services ↔ r.Monitors service := List.mem_map

theorem services_insert (r : Registry) (l : Locator) :
    (r.insert l).services =
      if r.Monitors l.service then r.services else r.services ++ [l.service] := by
  unfold insert
  split
  · rw [services, services, List.map_map]
    refine List.map_congr_left fun old _ => ?_
    change (if old.service = l.service then l else old).service = old.service
    split
    · next same => exact same.symm
    · rfl
  · rw [services, services, List.map_append]
    rfl

theorem nodup_services_insert (h : r.services.Nodup) (l : Locator) :
    (r.insert l).services.Nodup := by
  rw [services_insert]
  split
  · exact h
  · next new =>
    rw [← List.concat_eq_append]
    exact h.concat (mt mem_services.1 new)

theorem mem_locators_insert {old : Locator} (h : old ∈ (r.insert l).locators) :
    old = l ∨ old ∈ r.locators := by
  unfold insert at h
  split at h
  · obtain ⟨k, hk, rfl⟩ := List.mem_map.1 h
    split
    · exact .inl rfl
    · exact .inr hk
  · rcases List.mem_append.1 h with known | new
    · exact .inr known
    · exact .inl (List.mem_singleton.1 new)

theorem isSome_locator? : (r.locator? service).isSome ↔ r.Monitors service := by
  simp [locator?, Monitors]

theorem service_of_locator? (h : r.locator? service = some l) : l.service = service := by
  have same := List.find?_some h
  exact of_decide_eq_true same

theorem locator?_insert (r : Registry) (l : Locator) (service : String) :
    (r.insert l).locator? service = if l.service = service then some l else r.locator? service := by
  unfold insert
  split
  · next known =>
    -- The replacement is of the same service, so it is found where the old one was.
    have found : (Registry.mk (r.locators.map fun old =>
        if old.service = l.service then l else old)).locator? service =
        (r.locator? service).map fun old => if old.service = l.service then l else old := by
      rw [locator?, locator?, List.find?_map]
      refine congrArg _ (List.find?_congr fun old _ => ?_)
      by_cases same : old.service = l.service <;> simp [same]
    rw [found]
    by_cases same : l.service = service
    · subst same
      obtain ⟨old, hold⟩ := Option.isSome_iff_exists.1 (isSome_locator?.2 known)
      rw [hold, Option.map_some, if_pos (service_of_locator? hold), if_pos rfl]
    · rw [if_neg same]
      cases hold : r.locator? service with
      | none => rfl
      | some old =>
        rw [Option.map_some, service_of_locator? hold, if_neg (Ne.symm same)]
  · next new =>
    rw [locator?, List.find?_append]
    by_cases same : l.service = service
    · subst same
      have not_found : r.locators.find? (·.service = l.service) = none := by
        rw [← Option.not_isSome_iff_eq_none]
        exact mt isSome_locator?.1 new
      simp [not_found]
    · simp [same, locator?]

def declare (catalog : Catalog) (r : Registry) (m : Monitor) : Registry :=
  match resolve? catalog m with
  | some l => r.insert l
  | none => r

theorem ofMonitors_concat (catalog : Catalog) (monitors : List Monitor) (m : Monitor) :
    ofMonitors catalog (monitors ++ [m]) = declare catalog (ofMonitors catalog monitors) m := by
  rw [ofMonitors, ofMonitors, List.filterMap_append, List.foldl_append, declare]
  cases hm : resolve? catalog m <;> simp [hm]

theorem service_of_resolve? (h : resolve? catalog m = some l) : l.service = m.service := by
  obtain ⟨entry, -, rfl⟩ := Option.map_eq_some_iff.1 h
  rfl

/-- A property of the declarations and their registry that each further declaration keeps, whether
it is resolved or left out. -/
theorem ofMonitors_induction {P : List Monitor → Registry → Prop} (catalog : Catalog)
    (nil : P [] {})
    (left_out : ∀ monitors m r, resolve? catalog m = none → P monitors r → P (monitors ++ [m]) r)
    (resolved : ∀ monitors m r l, resolve? catalog m = some l → l.service = m.service →
      P monitors r → P (monitors ++ [m]) (r.insert l))
    (monitors : List Monitor) : P monitors (ofMonitors catalog monitors) := by
  induction monitors using List.reverseRecOn with
  | nil => exact nil
  | append_singleton monitors m ih =>
    rw [ofMonitors_concat, declare]
    cases hm : resolve? catalog m with
    | none => exact left_out monitors m _ hm ih
    | some l => exact resolved monitors m _ l hm (service_of_resolve? hm) ih

theorem nodup_services (catalog : Catalog) (monitors : List Monitor) :
    (ofMonitors catalog monitors).services.Nodup :=
  ofMonitors_induction (P := fun _ r => r.services.Nodup) catalog List.nodup_nil
    (fun _ _ _ _ ih => ih) (fun _ _ _ l _ _ ih => nodup_services_insert ih l) monitors

/-- Each locator resolves a declaration. -/
theorem exists_of_mem_locators (catalog : Catalog) (monitors : List Monitor) :
    ∀ l ∈ (ofMonitors catalog monitors).locators,
      ∃ m ∈ monitors, resolve? catalog m = some l := by
  refine ofMonitors_induction (P := fun monitors r => ∀ l ∈ r.locators,
    ∃ m ∈ monitors, resolve? catalog m = some l) catalog ?_ ?_ ?_ monitors
  · intro l hl
    cases hl
  · intro monitors m r _ ih l hl
    obtain ⟨old, mem, resolved⟩ := ih l hl
    exact ⟨old, List.mem_append_left _ mem, resolved⟩
  · intro monitors m r new hm _ ih l hl
    rcases mem_locators_insert hl with rfl | known
    · exact ⟨m, List.mem_append_right _ List.mem_cons_self, hm⟩
    · obtain ⟨old, mem, resolved⟩ := ih l known
      exact ⟨old, List.mem_append_left _ mem, resolved⟩

/-- The locator of a service comes from its last declaration that can be resolved. -/
theorem locator?_ofMonitors (catalog : Catalog) (monitors : List Monitor) (service : String) :
    (ofMonitors catalog monitors).locator? service = monitors.reverse.findSome? fun m =>
      if m.service = service then resolve? catalog m else none := by
  refine ofMonitors_induction (P := fun monitors r => r.locator? service =
    monitors.reverse.findSome? fun m =>
      if m.service = service then resolve? catalog m else none) catalog rfl ?_ ?_ monitors
  · intro monitors m r hm ih
    rw [ih, List.reverse_append, List.reverse_singleton, List.singleton_append, List.findSome?_cons]
    simp [hm]
  · intro monitors m r l hm same ih
    rw [locator?_insert, ih, List.reverse_append, List.reverse_singleton, List.singleton_append,
      List.findSome?_cons, same, hm]
    by_cases here : m.service = service
    · simp [here]
    · simp [here]

theorem locator?_ofMonitors_eq_some_iff :
    (ofMonitors catalog monitors).locator? service = some l ↔
      ∃ before m after, monitors = before ++ m :: after ∧ m.service = service ∧
        resolve? catalog m = some l ∧
        ∀ m' ∈ after, m'.service = service → resolve? catalog m' = none := by
  -- The last declaration is found as the first of the reversed list.
  rw [locator?_ofMonitors, List.findSome?_eq_some_iff]
  constructor
  · rintro ⟨after, m, before, split, found, none_later⟩
    split_ifs at found with named
    refine ⟨before.reverse, m, after.reverse, ?_, named, found, fun m' mem named' => ?_⟩
    · rw [List.reverse_eq_iff.1 split]
      simp
    · have later := none_later m' (List.mem_reverse.1 mem)
      rwa [if_pos named'] at later
  · rintro ⟨before, m, after, rfl, named, found, none_later⟩
    refine ⟨after.reverse, m, before.reverse, by simp, by rwa [if_pos named], fun m' mem => ?_⟩
    split_ifs with named'
    · exact none_later m' (List.mem_reverse.1 mem) named'
    · rfl

theorem monitors_ofMonitors :
    (ofMonitors catalog monitors).Monitors service ↔
      ∃ m ∈ monitors, m.service = service ∧ (resolve? catalog m).isSome := by
  rw [← isSome_locator?, locator?_ofMonitors, List.findSome?_isSome_iff]
  simp only [List.mem_reverse]
  refine exists_congr fun m => and_congr_right fun _ => ?_
  split_ifs with named <;> simp [named]

/-- The place of the first declaration of a service that can be resolved. -/
def firstPlace (catalog : Catalog) (monitors : List Monitor) (service : String) : Nat :=
  monitors.findIdx fun m => m.service = service ∧ (resolve? catalog m).isSome

theorem firstPlace_lt_iff :
    firstPlace catalog monitors service < monitors.length ↔
      (ofMonitors catalog monitors).Monitors service := by
  rw [firstPlace, List.findIdx_lt_length, monitors_ofMonitors]
  simp

theorem firstPlace_concat (known : (ofMonitors catalog monitors).Monitors service) (m : Monitor) :
    firstPlace catalog (monitors ++ [m]) service = firstPlace catalog monitors service := by
  have within := firstPlace_lt_iff.2 known
  rw [firstPlace] at within
  rw [firstPlace, List.findIdx_append, if_pos within]
  rfl

theorem firstPlace_concat_of_new (new : ¬ (ofMonitors catalog monitors).Monitors service)
    (named : m.service = service) (resolved : (resolve? catalog m).isSome) :
    firstPlace catalog (monitors ++ [m]) service = monitors.length := by
  have beyond := mt firstPlace_lt_iff.1 new
  rw [firstPlace] at beyond
  rw [firstPlace, List.findIdx_append, if_neg beyond, List.findIdx_cons]
  simp [named, resolved]

theorem pairwise_firstPlace (catalog : Catalog) (monitors : List Monitor) :
    (ofMonitors catalog monitors).services.Pairwise fun s t =>
      firstPlace catalog monitors s < firstPlace catalog monitors t := by
  induction monitors using List.reverseRecOn with
  | nil => exact .nil
  | append_singleton monitors m ih =>
    -- The services that are there keep their places.
    have kept : (ofMonitors catalog monitors).services.Pairwise fun s t =>
        firstPlace catalog (monitors ++ [m]) s < firstPlace catalog (monitors ++ [m]) t := by
      refine ih.imp_of_mem fun hs ht before => ?_
      rwa [firstPlace_concat (mem_services.1 hs), firstPlace_concat (mem_services.1 ht)]
    rw [ofMonitors_concat, declare]
    cases hm : resolve? catalog m with
    | none => exact kept
    | some l =>
      have same := service_of_resolve? hm
      change ((ofMonitors catalog monitors).insert l).services.Pairwise _
      rw [services_insert]
      split
      · exact kept
      · next new =>
        refine List.pairwise_append.2 ⟨kept, List.pairwise_singleton _ _, fun s hs t ht => ?_⟩
        rw [List.mem_singleton.1 ht, firstPlace_concat (mem_services.1 hs),
          firstPlace_concat_of_new new same.symm (by rw [hm]; rfl)]
        exact firstPlace_lt_iff.2 (mem_services.1 hs)

theorem getD_release (r : Registry) (releases : Releases) (id : String) :
    (r.release releases).getD id 0 =
      releases.getD id 0 + r.locators.countP fun l => l.implementation = id ∧ l.counted := by
  have counted (ls : List Locator) (m : Releases) :
      (ls.foldl (fun m l =>
        m.insert l.implementation (m.getD l.implementation 0 + 1)) m).getD id 0 =
        m.getD id 0 + ls.countP fun l => l.implementation = id := by
    induction ls generalizing m with
    | nil => simp
    | cons l ls ih =>
      rw [List.foldl_cons, ih, Std.ExtTreeMap.getD_insert, List.countP_cons]
      by_cases here : l.implementation = id
      · simp [here]
        omega
      · simp [here]
  rw [release, counted, List.countP_filter]
  simp

theorem locator?_of_mem (apart : r.services.Nodup) (h : l ∈ r.locators) :
    r.locator? l.service = some l := by
  have monitored : r.Monitors l.service := ⟨l, h, rfl⟩
  obtain ⟨old, hold⟩ := Option.isSome_iff_exists.1 (isSome_locator?.2 monitored)
  have mem : old ∈ r.locators := List.mem_of_find?_eq_some hold
  rw [hold, List.inj_on_of_nodup_map apart mem h (service_of_locator? hold)]

/-- Locators are counted by their services. -/
theorem countP_locators (apart : r.services.Nodup) (p : Locator → Prop) [DecidablePred p] :
    r.locators.countP (p ·) = r.services.countP fun s => ∃ l ∈ r.locator? s, p l := by
  rw [services, List.countP_map]
  refine List.countP_congr fun l hl => ?_
  simp [locator?_of_mem apart hl]

end Polling.Registry
