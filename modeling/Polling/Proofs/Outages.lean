import Polling.Outage

namespace Polling

theorem Outage.not_open_close (o : Outage) (c : Closure) : ¬ (o.close c).Open := by
  intro h
  cases h

namespace OutageLog

theorem mem_openKeys {l : OutageLog} {key : ServiceKey} :
    key ∈ l.openKeys ↔ ∃ o ∈ l.outages, o.Open ∧ o.key = key := by
  simp [openKeys, and_assoc]

theorem openOutage_of_open {l : OutageLog} {key : ServiceKey} (h : key ∈ l.openKeys)
    (time : Instant) : l.openOutage key time = l :=
  if_pos h

theorem outages_openOutage {l : OutageLog} {key : ServiceKey} (h : key ∉ l.openKeys)
    (time : Instant) :
    (l.openOutage key time).outages = l.outages ++ [{ key, openedAt := time }] := by
  rw [openOutage, if_neg h]

/-- A key with a new outage comes last. -/
theorem openKeys_openOutage (l : OutageLog) (key : ServiceKey) (time : Instant) :
    (l.openOutage key time).openKeys =
      if key ∈ l.openKeys then l.openKeys else l.openKeys ++ [key] := by
  split
  · next h => rw [openOutage_of_open h]
  · next h =>
    have new_open : (⟨key, time, none⟩ : Outage).Open := rfl
    rw [openKeys, outages_openOutage h, List.filter_append, List.map_append]
    simp [new_open, openKeys]

/-- Closing the outages of a scope leaves those of the keys outside it. -/
theorem openKeys_close (l : OutageLog) (scope : Scope) (c : Closure) :
    (l.close scope c).openKeys = l.openKeys.filter (· ∉ scope) := by
  unfold openKeys close
  induction l.outages with
  | nil => rfl
  | cons o os ih =>
    rw [List.map_cons]
    by_cases ho : o.Open
    · by_cases hs : o.key ∈ scope
      · simpa [ho, hs, o.not_open_close c] using ih
      · simpa [ho, hs] using ih
    · simpa [ho] using ih

@[simp] theorem mem_openKeys_close (l : OutageLog) (scope : Scope) (c : Closure)
    (key : ServiceKey) : key ∈ (l.close scope c).openKeys ↔ key ∈ l.openKeys ∧ key ∉ scope := by
  rw [openKeys_close, List.mem_filter, decide_eq_true_eq]

@[simp] theorem mem_openKeys_openOutage (l : OutageLog) (key : ServiceKey) (time : Instant)
    (k : ServiceKey) : k ∈ (l.openOutage key time).openKeys ↔ k ∈ l.openKeys ∨ k = key := by
  rw [openKeys_openOutage]
  split
  · next h =>
    refine ⟨.inl, ?_⟩
    rintro (hk | rfl)
    · exact hk
    · exact h
  · rw [List.mem_append, List.mem_singleton]

def closeAll (l : OutageLog) (keys : List ServiceKey) (c : Closure) : OutageLog :=
  keys.foldl (fun l key => l.close (.service key) c) l

theorem closeAll_append (l : OutageLog) (first second : List ServiceKey) (c : Closure) :
    l.closeAll (first ++ second) c = (l.closeAll first c).closeAll second c :=
  List.foldl_append

@[simp] theorem mem_openKeys_closeAll (l : OutageLog) (keys : List ServiceKey) (c : Closure)
    (key : ServiceKey) : key ∈ (l.closeAll keys c).openKeys ↔ key ∈ l.openKeys ∧ key ∉ keys := by
  induction keys generalizing l with
  | nil => simp [closeAll]
  | cons first keys ih =>
    change key ∈ ((l.close (.service first) c).closeAll keys c).openKeys ↔ _
    rw [ih, mem_openKeys_close, Scope.mem_service, List.mem_cons, not_or, and_assoc]

/-- Each open outage of the keys is closed, and all others are as they were. -/
theorem outages_closeAll (l : OutageLog) (keys : List ServiceKey) (c : Closure) :
    (l.closeAll keys c).outages =
      l.outages.map fun o => if o.Open ∧ o.key ∈ keys then o.close c else o := by
  induction keys generalizing l with
  | nil => simp [closeAll]
  | cons first keys ih =>
    change ((l.close (.service first) c).closeAll keys c).outages = _
    rw [ih, close, List.map_map]
    refine List.map_congr_left fun o _ => ?_
    simp only [Function.comp_apply, Scope.mem_service, List.mem_cons]
    by_cases ho : o.Open
    · by_cases e : o.key = first
      · simp [ho, e, o.not_open_close c]
      · simp [ho, e]
    · simp [ho]

/-- Where no key of the scope has an open outage there is nothing to close. -/
theorem outages_close_of_closed {l : OutageLog} {scope : Scope}
    (h : ∀ key ∈ scope, key ∉ l.openKeys) (c : Closure) :
    (l.close scope c).outages = l.outages := by
  have same (o : Outage) (ho : o ∈ l.outages) :
      (if o.Open ∧ o.key ∈ scope then o.close c else o) = o :=
    if_neg fun hs => h o.key hs.2 (mem_openKeys.2 ⟨o, ho, hs.1, rfl⟩)
  rw [close, List.map_congr_left same, List.map_id']

theorem outages_closeAll_of_closed {l : OutageLog} {keys : List ServiceKey}
    (h : ∀ key ∈ keys, key ∉ l.openKeys) (c : Closure) :
    (l.closeAll keys c).outages = l.outages := by
  induction keys generalizing l with
  | nil => rfl
  | cons key keys ih =>
    have first : (l.close (.service key) c).outages = l.outages :=
      outages_close_of_closed (fun k hk => Scope.mem_service.1 hk ▸ h key List.mem_cons_self) c
    have rest := ih (l := l.close (.service key) c) fun k hk ho =>
      h k (List.mem_cons_of_mem _ hk) ((mem_openKeys_close _ _ _ _).1 ho).1
    exact rest.trans first

end OutageLog

end Polling
