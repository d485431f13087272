import Mathlib.Data.List.Nodup
import Polling.Store.Queries

namespace Polling

namespace AddressMap

variable {evaluate : String → Except CallError (List Address)} {entries : List (String × String)}
  {m : AddressMap} {name : String} {a : Address}

/-- What is kept of an evaluation: the addresses that it found, if there are any. -/
def found? : Except CallError (List Address) → Option AddressSet
  | .ok (a :: as) => some (.ofList (a :: as))
  | _ => none

theorem exists_mem_found?_iff {result : Except CallError (List Address)} :
    (∃ s ∈ found? result, a ∈ s) ↔ ∃ as, result = .ok as ∧ a ∈ as := by
  cases result with
  | error e => simp [found?]
  | ok as => cases as <;> simp [found?]

def keep (evaluate : String → Except CallError (List Address)) (m : AddressMap)
    (entry : String × String) : AddressMap :=
  match evaluate entry.2 with
  | .ok (a :: as) => m.put entry.1 (a :: as)
  | _ => m

theorem collect_eq_foldl : collect evaluate entries = entries.foldl (keep evaluate) ∅ := rfl

theorem getElem?_keep (m : AddressMap) (entry : String × String) :
    (keep evaluate m entry)[name]? =
      if entry.1 = name then (found? (evaluate entry.2)).or m[name]? else m[name]? := by
  unfold keep
  split
  · next b bs evaluated =>
    simp [put, evaluated, found?, Std.ExtTreeMap.getElem?_insert]
  · next nothing =>
    have none_found : found? (evaluate entry.2) = none := by
      unfold found?
      split
      · next b bs evaluated => exact absurd evaluated (nothing b bs)
      · rfl
    simp [none_found]

/-- If all entries of a name have the same expression, the name holds what that one gives. -/
theorem getElem?_collect (expression : String)
    (alike : ∀ entry ∈ entries, entry.1 = name → entry.2 = expression) :
    (collect evaluate entries)[name]? =
      if name ∈ entries.map Prod.fst then found? (evaluate expression) else none := by
  -- The fold is followed from any map, so that earlier entries are part of it.
  have later (m : AddressMap) : (entries.foldl (keep evaluate) m)[name]? =
      if name ∈ entries.map Prod.fst then (found? (evaluate expression)).or m[name]?
      else m[name]? := by
    induction entries generalizing m with
    | nil => simp
    | cons entry entries ih =>
      rw [List.forall_mem_cons] at alike
      rw [List.foldl_cons, ih alike.2, getElem?_keep]
      by_cases here : entry.1 = name
      · -- A later entry of the name finds the same again.
        rw [alike.1 here]
        by_cases again : name ∈ entries.map Prod.fst
        · cases found? (evaluate expression) <;> simp [here, again]
        · simp [here, again]
      · have other : name ∈ (entry :: entries).map Prod.fst ↔ name ∈ entries.map Prod.fst := by
          simp [Ne.symm here]
        simp only [if_neg here, other]
  simpa [collect_eq_foldl] using later ∅

theorem getElem?_collect_of_not_mem (h : name ∉ entries.map Prod.fst) :
    (collect evaluate entries)[name]? = none := by
  have vacuous : ∀ entry ∈ entries, entry.1 = name → entry.2 = name := by
    intro entry mem same
    exact absurd (List.mem_map.2 ⟨entry, mem, same⟩) h
  rw [getElem?_collect name vacuous, if_neg h]

theorem mem_addresses : a ∈ m.addresses name ↔ m.Holds name a := by
  rw [addresses, Std.ExtTreeSet.mem_toList, Std.ExtTreeMap.getD_eq_getD_getElem?, Holds]
  cases m[name]? <;> simp

theorem ascending_addresses : (m.addresses name).Pairwise fun a b => compare a b = .lt :=
  Std.ExtTreeSet.ordered_toList

end AddressMap

namespace AddressCaches

open AddressMap (found?)

variable {evaluate resolve : String → Except CallError (List Address)} {server : Option String}
  {packages : List Package} {p : Package}

def built (evaluate resolve : String → Except CallError (List Address)) (server : Option String)
    (packages : List Package) : AddressCaches where
  candidates := candidatesOf evaluate server packages
  urls := urlsOf resolve packages

/-- A store builds its caches with its own filters and lists. -/
theorem cachesOf_eq_built (s : Store) (packages : List Package) :
    s.cachesOf packages =
      built s.filters.evaluate (ListUrl.resolve s.directory s.relativeLists) s.options.server?
        packages :=
  rfl

/-- The caches hold what the filter of each package and each include URL give, and no more. -/
structure Reflect (caches : AddressCaches)
    (evaluate resolve : String → Except CallError (List Address)) (server : Option String)
    (packages : List Package) : Prop where
  candidates : ∀ p ∈ packages,
    caches.candidates[p.name]? = found? (evaluate (p.effectiveFilter server))
  unnamed : ∀ name ∉ packages.map Package.name, caches.candidates[name]? = none
  urls : ∀ url, caches.urls[url]? =
    if url ∈ packages.flatMap Package.includeUrls then found? (resolve url) else none

theorem getElem?_candidatesOf_of_not_mem {name : String}
    (h : name ∉ packages.map Package.name) :
    (candidatesOf evaluate server packages)[name]? = none := by
  apply AddressMap.getElem?_collect_of_not_mem
  simpa using h

/-- A list that several packages include is the same for all of them. -/
theorem getElem?_urlsOf (url : String) :
    (urlsOf resolve packages)[url]? =
      if url ∈ packages.flatMap Package.includeUrls then found? (resolve url) else none := by
  rw [urlsOf, AddressMap.getElem?_collect url]
  · simp only [List.map_map, Function.comp_def, List.map_id']
  · intro entry mem same
    obtain ⟨u, -, rfl⟩ := List.mem_map.1 mem
    exact same

theorem reflect_built (apart : (packages.map Package.name).Nodup) :
    (built evaluate resolve server packages).Reflect evaluate resolve server packages where
  candidates p hp := by
    change (candidatesOf evaluate server packages)[p.name]? = _
    rw [candidatesOf, AddressMap.getElem?_collect (p.effectiveFilter server)]
    · rw [if_pos]
      simpa using ⟨p, hp, rfl⟩
    · intro entry mem same
      obtain ⟨q, hq, rfl⟩ := List.mem_map.1 mem
      rw [List.inj_on_of_nodup_map apart hq hp same]
  unnamed _ h := getElem?_candidatesOf_of_not_mem h
  urls := getElem?_urlsOf

section Reflect

variable {caches caches' : AddressCaches} {a : Address}
  (h : caches.Reflect evaluate resolve server packages)

include h

theorem Reflect.holds_candidates_iff (hp : p ∈ packages) :
    caches.candidates.Holds p.name a ↔
      ∃ as, evaluate (p.effectiveFilter server) = .ok as ∧ a ∈ as := by
  rw [AddressMap.Holds, h.candidates p hp]
  exact AddressMap.exists_mem_found?_iff

theorem Reflect.holds_urls_iff {url : String} (hp : p ∈ packages) (hu : url ∈ p.includeUrls) :
    caches.urls.Holds url a ↔ ∃ as, resolve url = .ok as ∧ a ∈ as := by
  rw [AddressMap.Holds, h.urls url, if_pos (List.mem_flatMap_of_mem hp hu)]
  exact AddressMap.exists_mem_found?_iff

/-- Whether an address belongs to a package is decided by its own filter, lists and ranges. -/
theorem Reflect.contains_iff (hp : p ∈ packages) :
    p.Contains caches a ↔
      (∃ as, evaluate (p.effectiveFilter server) = .ok as ∧ a ∈ as) ∧
        ((a ∈ p.specifics ∨ ∃ url ∈ p.includeUrls, ∃ as, resolve url = .ok as ∧ a ∈ as) ∨
          p.Includes a ∧ ¬ p.Excludes a) := by
  have listed : p.Lists caches a ↔
      a ∈ p.specifics ∨ ∃ url ∈ p.includeUrls, ∃ as, resolve url = .ok as ∧ a ∈ as := by
    refine or_congr Iff.rfl (exists_congr fun url => and_congr_right fun hu => ?_)
    exact h.holds_urls_iff hp hu
  rw [Package.Contains, h.holds_candidates_iff hp, listed]

/-- The order of the packages does not matter. -/
theorem Reflect.eq_of_perm {others : List Package} (perm : packages.Perm others)
    (h' : caches'.Reflect evaluate resolve server others) : caches' = caches := by
  have candidates : caches'.candidates = caches.candidates := by
    apply Std.ExtTreeMap.ext_getElem?
    intro name
    by_cases named : name ∈ packages.map Package.name
    · obtain ⟨p, hp, rfl⟩ := List.mem_map.1 named
      rw [h.candidates p hp, h'.candidates p (perm.mem_iff.1 hp)]
    · have unnamed : name ∉ others.map Package.name := by
        rwa [← (perm.map Package.name).mem_iff]
      rw [h.unnamed name named, h'.unnamed name unnamed]
  have urls : caches'.urls = caches.urls := by
    apply Std.ExtTreeMap.ext_getElem?
    intro url
    simp only [h.urls, h'.urls, List.mem_flatMap, perm.mem_iff]
  cases caches
  cases caches'
  rw [mk.injEq]
  exact ⟨candidates, urls⟩

/-- The candidates of a package are what its filter finds, each once and in order. -/
theorem Reflect.candidates_iff (hp : p ∈ packages) {c : Active} (hc : c.caches = caches) :
    a ∈ c.candidates p.name ↔ ∃ as, evaluate (p.effectiveFilter server) = .ok as ∧ a ∈ as := by
  rw [Active.candidates, AddressMap.mem_addresses, hc, h.holds_candidates_iff hp]

end Reflect

/-- The caches of a list of packages with names of their own hold the non-empty result of each
filter and of each include URL, in whatever order the packages stand. A package contains the same
addresses wherever its own filter and include URLs give the same, whatever becomes of the others.
Its candidates are listed in order, and there are none if its filter fails. -/
theorem failures_isolated (packages : List Package) (apart : (packages.map Package.name).Nodup)
    (evaluate resolve : String → Except CallError (List Address)) (server : Option String) :
    (built evaluate resolve server packages).Reflect evaluate resolve server packages ∧
    (∀ others, packages.Perm others →
      built evaluate resolve server others = built evaluate resolve server packages) ∧
    (∀ p ∈ packages, ∀ evaluate' resolve' others, (others.map Package.name).Nodup → p ∈ others →
      evaluate' (p.effectiveFilter server) = evaluate (p.effectiveFilter server) →
      (∀ url ∈ p.includeUrls, resolve' url = resolve url) →
      ∀ a, p.Contains (built evaluate' resolve' server others) a ↔
        p.Contains (built evaluate resolve server packages) a) ∧
    ∀ p ∈ packages, ∀ c : Active, c.caches = built evaluate resolve server packages →
      (c.candidates p.name).Pairwise (fun a b => compare a b = .lt) ∧
      (∀ a, a ∈ c.candidates p.name ↔
        ∃ as, evaluate (p.effectiveFilter server) = .ok as ∧ a ∈ as) ∧
      ∀ e, evaluate (p.effectiveFilter server) = .error e → c.candidates p.name = [] := by
  have reflect :
      (built evaluate resolve server packages).Reflect evaluate resolve server packages :=
    reflect_built apart
  refine ⟨reflect, fun others perm => ?_, ?_, fun p hp c hc => ?_⟩
  · have apart' : (others.map Package.name).Nodup := (perm.map Package.name).nodup_iff.1 apart
    exact reflect.eq_of_perm perm (reflect_built apart')
  · intro p hp evaluate' resolve' others apart' hp' same_filter same_lists a
    have listed : (∃ url ∈ p.includeUrls, ∃ as, resolve' url = .ok as ∧ a ∈ as) ↔
        ∃ url ∈ p.includeUrls, ∃ as, resolve url = .ok as ∧ a ∈ as :=
      exists_congr fun url => and_congr_right fun hu => by rw [same_lists url hu]
    rw [(reflect_built apart').contains_iff hp', reflect.contains_iff hp, same_filter, listed]
  · refine ⟨AddressMap.ascending_addresses, fun a => reflect.candidates_iff hp hc, fun e he => ?_⟩
    rw [List.eq_nil_iff_forall_not_mem]
    intro a ha
    obtain ⟨as, found, -⟩ := (reflect.candidates_iff hp hc).1 ha
    rw [he] at found
    cases found

namespace Sample

def first : Address := .v4 (.replicate 4 10)

def second : Address := .v4 (.replicate 4 11)

def broken : Package := { name := "broken", filter := "broken", includeUrls := ["list"] }

def whole : Package where
  name := "whole"
  filter := "any"
  excludeRanges := [⟨first, second⟩]
  includeUrls := ["list", "lost"]

def filters (e : String) : Except CallError (List Address) :=
  if e = "any" then .ok [second, first, second] else .error (.filterFailed e)

def mended (e : String) : Except CallError (List Address) :=
  if e = "any" then .ok [second, first, second] else .ok [first]

def lists (url : String) : Except CallError (List Address) :=
  if url = "list" then .ok [second] else .error (.backendFailed url)

end Sample

open AddressCaches.Sample in
/-- One filter fails. The other package contains the address on its list as it would otherwise. -/
theorem broken_filter_spares_whole :
    built filters lists none [whole, broken] = built filters lists none [broken, whole] ∧
    (whole.Contains (built filters lists none [broken, whole]) second ∧
      whole.Contains (built mended lists none [broken, whole]) second) ∧
    (∀ c : Active, c.caches = built filters lists none [broken, whole] →
      c.candidates "broken" = []) ∧
    first ∈
      ({ caches := built filters lists none [broken, whole] } : Active).candidates "whole" := by
  obtain ⟨reflect, order, same, listed⟩ :=
    failures_isolated [broken, whole] (by decide) filters lists none
  have contained : whole.Contains (built filters lists none [broken, whole]) second := by
    rw [reflect.contains_iff (by decide)]
    exact ⟨⟨_, rfl, by decide⟩, .inl (.inr ⟨"list", by decide, _, rfl, by decide⟩)⟩
  refine ⟨order _ (.swap whole broken []), ⟨contained, ?_⟩, fun c hc => ?_, ?_⟩
  · exact (same whole (by decide) mended lists _ (by decide) (by decide) rfl (fun _ _ => rfl) _).2
      contained
  · exact (listed broken (by decide) c hc).2.2 _ rfl
  · exact ((listed whole (by decide) _ rfl).2.1 first).2 ⟨_, rfl, by decide⟩

end AddressCaches

end Polling
