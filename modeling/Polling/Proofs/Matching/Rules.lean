import Polling.Matching.Membership

namespace Polling.Package

variable {p q : Package} {caches : AddressCaches} {a : Address}

/-- The package declares what it includes, and so does not include everything. -/
def Declares (p : Package) : Prop := p.includeRanges ≠ [] ∨ p.specifics ≠ []

instance (p : Package) : Decidable p.Declares := inferInstanceAs (Decidable (_ ∨ _))

/-- The second package selects from the same candidates and each of its rules gives it at least as
much, and it declares what it includes only if the first one does. -/
structure Widens (p q : Package) : Prop where
  name : q.name = p.name
  specifics : p.specifics ⊆ q.specifics
  includeUrls : p.includeUrls ⊆ q.includeUrls
  includeRanges : p.includeRanges ⊆ q.includeRanges
  excludeRanges : q.excludeRanges ⊆ p.excludeRanges
  declares : q.Declares → p.Declares

/-- The packages select from the same candidates by the same rules, whatever the order of the rules
and however often each is repeated. -/
structure SameRules (p q : Package) : Prop where
  name : q.name = p.name
  specifics : ∀ s, s ∈ q.specifics ↔ s ∈ p.specifics
  includeUrls : ∀ url, url ∈ q.includeUrls ↔ url ∈ p.includeUrls
  includeRanges : ∀ r, r ∈ q.includeRanges ↔ r ∈ p.includeRanges
  excludeRanges : ∀ r, r ∈ q.excludeRanges ↔ r ∈ p.excludeRanges

theorem includes_iff_of_declares (h : p.Declares) :
    p.Includes a ↔ ∃ r ∈ p.includeRanges, a ∈ r := by
  refine or_iff_right fun none_declared => ?_
  exact h.elim (absurd none_declared.1) (absurd none_declared.2)

theorem includes_of_not_declares (h : ¬ p.Declares) : p.Includes a := by
  rw [Declares, not_or, Decidable.not_not, Decidable.not_not] at h
  exact .inl h

theorem declares_of_subset (ranges : p.includeRanges ⊆ q.includeRanges)
    (specifics : p.specifics ⊆ q.specifics) (h : p.Declares) : q.Declares := by
  rcases h with some_range | some_specific
  · left
    rintro none_left
    rw [none_left, List.subset_nil] at ranges
    exact some_range ranges
  · right
    rintro none_left
    rw [none_left, List.subset_nil] at specifics
    exact some_specific specifics

theorem Widens.lists (h : p.Widens q) (listed : p.Lists caches a) : q.Lists caches a := by
  rcases listed with specific | ⟨url, hu, held⟩
  · exact .inl (h.specifics specific)
  · exact .inr ⟨url, h.includeUrls hu, held⟩

theorem Widens.includes (h : p.Widens q) (included : p.Includes a) : q.Includes a := by
  by_cases declared : q.Declares
  · rw [includes_iff_of_declares (h.declares declared)] at included
    obtain ⟨r, hr, inside⟩ := included
    exact (includes_iff_of_declares declared).2 ⟨r, h.includeRanges hr, inside⟩
  · exact includes_of_not_declares declared

theorem Widens.excludes (h : p.Widens q) (excluded : q.Excludes a) : p.Excludes a := by
  obtain ⟨r, hr, inside⟩ := excluded
  exact ⟨r, h.excludeRanges hr, inside⟩

theorem Widens.contains (h : p.Widens q) (contained : p.Contains caches a) :
    q.Contains caches a := by
  obtain ⟨candidate, listed | ⟨included, not_excluded⟩⟩ := contained
  · rw [← h.name] at candidate
    exact ⟨candidate, .inl (h.lists listed)⟩
  · rw [← h.name] at candidate
    exact ⟨candidate, .inr ⟨h.includes included, mt h.excludes not_excluded⟩⟩

theorem SameRules.symm (h : p.SameRules q) : q.SameRules p where
  name := h.name.symm
  specifics s := (h.specifics s).symm
  includeUrls url := (h.includeUrls url).symm
  includeRanges r := (h.includeRanges r).symm
  excludeRanges r := (h.excludeRanges r).symm

theorem SameRules.widens (h : p.SameRules q) : p.Widens q where
  name := h.name
  specifics _ := (h.specifics _).2
  includeUrls _ := (h.includeUrls _).2
  includeRanges _ := (h.includeRanges _).2
  excludeRanges _ := (h.excludeRanges _).1
  declares := declares_of_subset (fun _ => (h.includeRanges _).1) fun _ => (h.specifics _).1

theorem widens_excludeRanges {ranges : List AddressRange} (h : p.excludeRanges ⊆ ranges) :
    ({ p with excludeRanges := ranges } : Package).Widens p where
  name := rfl
  specifics := List.Subset.refl _
  includeUrls := List.Subset.refl _
  includeRanges := List.Subset.refl _
  excludeRanges := h
  declares := id

theorem widens_includeUrls {urls : List String} (h : p.includeUrls ⊆ urls) :
    p.Widens { p with includeUrls := urls } where
  name := rfl
  specifics := List.Subset.refl _
  includeUrls := h
  includeRanges := List.Subset.refl _
  excludeRanges := List.Subset.refl _
  declares := id

theorem widens_declared {ranges : List AddressRange} {specifics : List Address} (h : p.Declares)
    (hr : p.includeRanges ⊆ ranges) (hs : p.specifics ⊆ specifics) :
    p.Widens { p with includeRanges := ranges, specifics } where
  name := rfl
  specifics := hs
  includeUrls := List.Subset.refl _
  includeRanges := hr
  excludeRanges := List.Subset.refl _
  declares _ := h

/-- The order and the repetition of rules do not matter. Exclude ranges that are added bring nothing
in and leave the candidates that are listed. Include URLs that are added take nothing out, and
neither do include ranges and specifics unless they are the first ones. Whatever the rules, only
candidates are in. -/
theorem rules_combine (p : Package) (caches : AddressCaches) (a : Address) :
    (∀ q, p.SameRules q → (q.Contains caches a ↔ p.Contains caches a)) ∧
    (∀ ranges, p.excludeRanges ⊆ ranges →
      (({ p with excludeRanges := ranges } : Package).Contains caches a → p.Contains caches a) ∧
      (caches.candidates.Holds p.name a → p.Lists caches a →
        ({ p with excludeRanges := ranges } : Package).Contains caches a)) ∧
    (∀ urls, p.includeUrls ⊆ urls → p.Contains caches a →
      ({ p with includeUrls := urls } : Package).Contains caches a) ∧
    (p.Declares → ∀ ranges specifics, p.includeRanges ⊆ ranges → p.specifics ⊆ specifics →
      p.Contains caches a →
        ({ p with includeRanges := ranges, specifics } : Package).Contains caches a) ∧
    ∀ q : Package, q.name = p.name → q.Contains caches a → caches.candidates.Holds p.name a := by
  refine ⟨fun q same => ?_, fun ranges more => ⟨?_, fun candidate listed => ?_⟩,
    fun urls more => (widens_includeUrls more).contains,
    fun declared ranges specifics hr hs => (widens_declared declared hr hs).contains,
    fun q named contained => ?_⟩
  · exact ⟨same.symm.widens.contains, same.widens.contains⟩
  · exact (widens_excludeRanges more).contains
  · exact ⟨candidate, .inl listed⟩
  · rw [← named]
    exact contained.1

namespace Sample

def first : Address := .v4 (.replicate 4 10)

def second : Address := .v4 (.replicate 4 11)

def both : AddressCaches := { candidates := AddressMap.put ∅ "main" [first, second] }

def unruled : Package := { name := "main", filter := "any" }

def picky : Package := { unruled with specifics := [first] }

end Sample

open Sample in
/-- The first specific takes the other address out. After it a range takes nothing out. -/
theorem first_specific_takes_rest_out :
    unruled.Contains both second ∧ ¬ picky.Contains both second ∧
    ({ picky with includeRanges := [⟨second, second⟩] } : Package).Contains both first := by
  have picked : picky.Contains both first := by decide +kernel
  have declared : picky.Declares := by decide
  refine ⟨by decide +kernel, by decide +kernel, ?_⟩
  exact (rules_combine picky both first).2.2.2.1 declared [⟨second, second⟩] picky.specifics
    (List.nil_subset _) (List.Subset.refl _) picked

end Polling.Package
