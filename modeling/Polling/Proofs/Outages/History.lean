import Mathlib.Data.List.Induction
import Mathlib.Data.List.Nodup
import Polling.Proofs.Outages

namespace Polling.OutageLog

inductive Request where
  | openOutage (key : ServiceKey) (time : Instant)
  | close (scope : Scope) (closure : Closure)
deriving DecidableEq, Repr

namespace Request

def Closes : Request → ServiceKey → Prop
  | openOutage _ _, _ => False
  | close scope _, key => key ∈ scope

instance (key : ServiceKey) : (r : Request) → Decidable (r.Closes key)
  | openOutage _ _ => inferInstanceAs (Decidable False)
  | close scope _ => inferInstanceAs (Decidable (key ∈ scope))

end Request

def meet (l : OutageLog) : Request → OutageLog
  | .openOutage key time => l.openOutage key time
  | .close scope c => l.close scope c

def run (l : OutageLog) (requests : List Request) : OutageLog := requests.foldl meet l

theorem run_append (l : OutageLog) (first second : List Request) :
    l.run (first ++ second) = (l.run first).run second :=
  List.foldl_append

def openings (l : OutageLog) : List (ServiceKey × Instant) :=
  l.outages.map fun o => (o.key, o.openedAt)

/-- A later log has the openings of an earlier one in front, and the closed outages as they were. -/
structure Grows (l m : OutageLog) : Prop where
  openings : l.openings <+: m.openings
  closed : ∀ (i : Nat) (o : Outage), l.outages[i]? = some o → ¬ o.Open → m.outages[i]? = some o

theorem Grows.refl (l : OutageLog) : l.Grows l where
  openings := List.prefix_rfl
  closed _ _ h _ := h

theorem Grows.trans {l m n : OutageLog} (h : l.Grows m) (h' : m.Grows n) : l.Grows n where
  openings := h.openings.trans h'.openings
  closed i o ho closed := h'.closed i o (h.closed i o ho closed) closed

/-- Closing goes through the outages one by one. -/
theorem getElem?_close (l : OutageLog) (scope : Scope) (c : Closure) (i : Nat) :
    (l.close scope c).outages[i]? =
      (l.outages[i]?).map fun o => if o.Open ∧ o.key ∈ scope then o.close c else o := by
  rw [close, List.getElem?_map]

theorem openings_close (l : OutageLog) (scope : Scope) (c : Closure) :
    (l.close scope c).openings = l.openings := by
  rw [openings, close, List.map_map]
  apply List.map_congr_left
  intro o _
  by_cases h : o.Open ∧ o.key ∈ scope
  · simp only [Function.comp_apply, if_pos h]
    rfl
  · simp only [Function.comp_apply, if_neg h]

theorem grows_openOutage (l : OutageLog) (key : ServiceKey) (time : Instant) :
    l.Grows (l.openOutage key time) := by
  by_cases h : key ∈ l.openKeys
  · rw [openOutage_of_open h]
    exact Grows.refl l
  · have added := outages_openOutage h time
    refine ⟨?_, ?_⟩
    · rw [openings, openings, added, List.map_append]
      exact List.prefix_append _ _
    · intro i o ho _
      have inside : i < l.outages.length := (List.getElem?_eq_some_iff.1 ho).1
      rw [added, List.getElem?_append_left inside, ho]

theorem grows_close (l : OutageLog) (scope : Scope) (c : Closure) :
    l.Grows (l.close scope c) where
  openings := (l.openings_close scope c) ▸ List.prefix_rfl
  closed i o ho closed := by
    have kept : ¬ (o.Open ∧ o.key ∈ scope) := fun h => closed h.1
    rw [getElem?_close, ho, Option.map_some, if_neg kept]

theorem grows_meet (l : OutageLog) : (r : Request) → l.Grows (l.meet r)
  | .openOutage key time => l.grows_openOutage key time
  | .close scope c => l.grows_close scope c

theorem grows_run (l : OutageLog) (requests : List Request) : l.Grows (l.run requests) := by
  induction requests generalizing l with
  | nil => exact Grows.refl l
  | cons r requests ih => exact (l.grows_meet r).trans (ih (l.meet r))

/-- Of each key at most one outage is open, as no key stands twice among those with an open one. -/
theorem countP_open (l : OutageLog) (key : ServiceKey) :
    l.outages.countP (fun o => o.Open ∧ o.key = key) = l.openKeys.count key := by
  rw [openKeys, List.count, List.countP_map, List.countP_filter]
  apply List.countP_congr
  intro o _
  simp [and_comm]

theorem openKeys_meet (l : OutageLog) (r : Request) :
    (l.meet r).openKeys = match r with
      | .openOutage key _ => if key ∈ l.openKeys then l.openKeys else l.openKeys ++ [key]
      | .close scope _ => l.openKeys.filter (· ∉ scope) := by
  cases r with
  | openOutage key time => exact l.openKeys_openOutage key time
  | close scope c => exact l.openKeys_close scope c

theorem nodup_openKeys_meet {l : OutageLog} (h : l.openKeys.Nodup) (r : Request) :
    (l.meet r).openKeys.Nodup := by
  rw [openKeys_meet]
  cases r with
  | openOutage key time =>
    dsimp only
    split
    · exact h
    · next new => exact List.concat_eq_append ▸ h.concat new
  | close scope c => exact h.filter _

theorem nodup_openKeys_of_run {l : OutageLog} (h : l.openKeys.Nodup) (requests : List Request) :
    (l.run requests).openKeys.Nodup := by
  induction requests generalizing l with
  | nil => exact h
  | cons r requests ih => exact ih (nodup_openKeys_meet h r)

theorem nodup_openKeys_run (requests : List Request) : (run {} requests).openKeys.Nodup :=
  have none_open : (openKeys {}).Nodup := List.nodup_nil
  nodup_openKeys_of_run none_open requests

/-- The keys of the openings that no later request closes, in order. -/
def lasting : List Request → List ServiceKey
  | [] => []
  | .openOutage key _ :: later =>
    if ∃ r ∈ later, r.Closes key then lasting later else key :: lasting later
  | .close _ _ :: later => lasting later

theorem lasting_concat_openOutage (requests : List Request) (key : ServiceKey) (time : Instant) :
    lasting (requests ++ [.openOutage key time]) = lasting requests ++ [key] := by
  induction requests with
  | nil => simp [lasting]
  | cons r requests ih =>
    cases r with
    | openOutage k t =>
      have same : (∃ r ∈ requests ++ [Request.openOutage key time], r.Closes k) ↔
          ∃ r ∈ requests, r.Closes k := by
        simp [Request.Closes]
      rw [List.cons_append, lasting, lasting, ih]
      simp only [same]
      split <;> rfl
    | close scope c => exact ih

theorem lasting_concat_close (requests : List Request) (scope : Scope) (c : Closure) :
    lasting (requests ++ [.close scope c]) = (lasting requests).filter (· ∉ scope) := by
  induction requests with
  | nil => simp [lasting]
  | cons r requests ih =>
    cases r with
    | openOutage k t =>
      -- An opening is closed by a later request or by the one at the end.
      have or_last : (∃ r ∈ requests ++ [Request.close scope c], r.Closes k) ↔
          (∃ r ∈ requests, r.Closes k) ∨ k ∈ scope := by
        simp [Request.Closes, or_and_right, exists_or]
      rw [List.cons_append, lasting, lasting, ih]
      simp only [or_last]
      by_cases later : ∃ r ∈ requests, r.Closes k
      · simp [later]
      · by_cases hk : k ∈ scope <;> simp [later, hk]
    | close scope c => exact ih

section EraseDups

variable {α : Type} [DecidableEq α]

theorem eraseDups_concat (xs : List α) (x : α) :
    (xs ++ [x]).eraseDups = if x ∈ xs then xs.eraseDups else xs.eraseDups ++ [x] := by
  rw [List.eraseDups_append]
  by_cases h : x ∈ xs <;> simp [List.removeAll, List.eraseDups_cons, h]

theorem eraseDups_filter (p : α → Bool) (xs : List α) :
    (xs.filter p).eraseDups = xs.eraseDups.filter p := by
  induction xs using List.reverseRecOn with
  | nil => rfl
  | append_singleton xs x ih =>
    rw [List.filter_append, eraseDups_concat]
    by_cases hp : p x
    · by_cases h : x ∈ xs <;> simp [hp, h, eraseDups_concat, ih]
    · by_cases h : x ∈ xs <;> simp [hp, h, ih]

end EraseDups

theorem openKeys_run (requests : List Request) :
    (run {} requests).openKeys = (lasting requests).eraseDups := by
  induction requests using List.reverseRecOn with
  | nil => rfl
  | append_singleton requests r ih =>
    rw [run_append]
    change ((run {} requests).meet r).openKeys = _
    rw [openKeys_meet]
    -- An opening comes behind all that lasts, and a closing takes keys out wherever they stand.
    cases r with
    | openOutage key time =>
      rw [lasting_concat_openOutage, eraseDups_concat, ih]
      simp only [List.mem_eraseDups]
    | close scope c => rw [lasting_concat_close, eraseDups_filter, ih]

/-- Just the open outages of the scope are closed, as given, and their number is the answer. -/
structure ClosesJust (l m : OutageLog) (scope : Scope) (c : Closure) : Prop where
  inside : ∀ (i : Nat) (o : Outage), l.outages[i]? = some o → o.Open → o.key ∈ scope →
    m.outages[i]? = some (o.close c)
  outside : ∀ (i : Nat) (o : Outage), l.outages[i]? = some o → ¬ (o.Open ∧ o.key ∈ scope) →
    m.outages[i]? = some o
  length_eq : m.outages.length = l.outages.length
  answer : l.countOpen scope = (l.outages.zip m.outages).countP fun p => p.1.Open ∧ ¬ p.2.Open
  closings : m.closings = l.closings + 1

/-- The open outages of the scope are those that are open before and not after. -/
theorem countOpen_eq (l : OutageLog) (scope : Scope) (c : Closure) :
    l.countOpen scope =
      (l.outages.zip (l.close scope c).outages).countP fun p => p.1.Open ∧ ¬ p.2.Open := by
  unfold countOpen close
  induction l.outages with
  | nil => rfl
  | cons o os ih =>
    rw [List.map_cons, List.zip_cons_cons, List.countP_cons, List.countP_cons, ih]
    congr 1
    by_cases ho : o.Open
    · by_cases hs : o.key ∈ scope <;> simp [ho, hs, o.not_open_close c]
    · simp [ho]

theorem closesJust_close (l : OutageLog) (scope : Scope) (c : Closure) :
    l.ClosesJust (l.close scope c) scope c where
  inside i o ho isOpen hs := by rw [getElem?_close, ho, Option.map_some, if_pos ⟨isOpen, hs⟩]
  outside i o ho spared := by rw [getElem?_close, ho, Option.map_some, if_neg spared]
  length_eq := List.length_map _
  answer := l.countOpen_eq scope c
  closings := rfl

/-- What the log shows after requests: of each key one open outage at most, and the keys that have
one in the order of their openings. -/
structure Shows (l : OutageLog) (requests : List Request) : Prop where
  single : ∀ key, l.outages.countP (fun o => o.Open ∧ o.key = key) ≤ 1
  nodup : l.openKeys.Nodup
  mem_openKeys : ∀ key, key ∈ l.openKeys ↔ ∃ o ∈ l.outages, o.Open ∧ o.key = key
  oldest_first : l.openKeys = (lasting requests).eraseDups

theorem shows_run (requests : List Request) : (run {} requests).Shows requests where
  single key := by
    rw [countP_open]
    exact List.nodup_iff_count_le_one.1 (nodup_openKeys_run requests) key
  nodup := nodup_openKeys_run requests
  mem_openKeys _ := mem_openKeys
  oldest_first := openKeys_run requests

/-- Whatever is asked of an empty log, it has one open outage of a key at most and tells the keys
that have one, oldest opening first. Whatever is asked later adds openings at its end and leaves
closed outages as they are, and a closing closes what is open in its scope and nothing else. -/
theorem history_append_only (requests later : List Request) :
    (run {} requests).Shows requests ∧
      (run {} requests).Grows (run {} (requests ++ later)) ∧
      ∀ scope c, (run {} requests).ClosesJust ((run {} requests).close scope c) scope c := by
  refine ⟨shows_run requests, ?_, fun scope c => closesJust_close _ scope c⟩
  rw [run_append]
  exact grows_run _ later

/-- A key that is opened anew goes behind those that stayed open. -/
example (a b : ServiceKey) (t : Instant) (c : Closure) (h : b ≠ a) :
    lasting [.openOutage a t, .openOutage b t, .close (.service a) c, .openOutage a t] =
      [b, a] := by
  simp [lasting, Request.Closes, h]

end Polling.OutageLog
