import Polling.Proofs.Engine.Reconciliation
import Polling.Proofs.Engine.Safety

namespace Polling

namespace Poller

variable {s : Poller} {node : NodeId} {force : Bool} {n : Notification} {key : ServiceKey}

/-- The outage of a key that is not listed stays open if the key is not tracked any more. -/
theorem mem_openKeys_reconciled_of_not_listed (hn : key.node = node) (hl : key ∉ s.listed node) :
    key ∈ (s.reconciled node force n).outages.openKeys ↔
      key ∈ s.outages.openKeys ∧ s.schedule.mark? key = none := by
  have kept : key ∉ s.missing node force := not_mem_missing hl
  have seen : key ∉ s.unlisted node ↔ s.schedule.mark? key = none := by
    rw [mem_unlisted, ← Option.not_isSome_iff_eq_none]
    exact not_congr (and_iff_left ⟨hn, hl⟩)
  rw [mem_openKeys_reconciled, seen]
  exact and_congr_right fun _ => and_iff_left fun h => absurd h kept

end Poller

namespace Engine

open Poller

variable {s : Poller} {node : NodeId} {force : Bool} {n : Notification} {key : ServiceKey}

def timedOut (s : Poller) (key : ServiceKey) : Error :=
  .execution (.deletionTimeout key (s.settings.pauses * s.settings.pollInterval))

theorem key_of_timedOut {t : Poller} {k : ServiceKey} (h : timedOut s key = timedOut t k) :
    key = k := by
  injection h with cause
  injection cause

structure Idle (s : Poller) : Prop where
  faults : s.faults = []
  worker : s.worker = .idle

theorem awaitWithin_of_idle (h : Idle s) (hk : (s.schedule.mark? key).isSome)
    (interval pauses waited : Nat) :
    awaitWithin key interval pauses waited s =
      .error (.execution (.deletionTimeout key (waited + pauses * interval))) s := by
  induction pauses generalizing waited with
  | zero =>
    rw [awaitWithin, bind_of_ok (lift_of_ok (markOf_eq h.faults key)), hk]
    simp only [Nat.zero_mul, Nat.add_zero]
    rfl
  | succ pauses ih =>
    rw [awaitWithin, bind_of_ok (lift_of_ok (markOf_eq h.faults key)), hk]
    have waits : waited + interval + pauses * interval = waited + (pauses + 1) * interval := by
      rw [Nat.succ_mul]
      omega
    rw [← waits, ← ih (waited + interval)]
    exact bind_of_ok (pause_of_idle h.worker)

theorem awaitDeletion_of_idle (h : Idle s) (hk : (s.schedule.mark? key).isSome) :
    awaitDeletion key s = .error (timedOut s key) s := by
  have waited := awaitWithin_of_idle h hk s.settings.pollInterval s.settings.pauses 0
  rw [Nat.zero_add] at waited
  exact waited

/-- The removal is requested, and that is all. -/
theorem removeAndWait_of_idle (h : Idle s) (hk : (s.schedule.mark? key).isSome) :
    removeAndWait key s = .error (timedOut s key) (s.acted (.delete (.service key))) := by
  rw [removeAndWait, bind_of_ok (lift_of_ok (markOf_eq h.faults key))]
  by_cases hm : s.schedule.mark? key = some .scheduled
  · have marked : ((s.acted (.delete (.service key))).schedule.mark? key).isSome := by
      have after := Schedule.mark?_act_delete s.schedule (.service key) key
      rw [if_pos (Scope.mem_service.2 rfl), hm] at after
      exact Option.isSome_of_eq_some after
    rw [if_pos hm, bind_of_ok (requestDeletion_eq h.faults key)]
    exact awaitDeletion_of_idle ⟨h.faults, h.worker⟩ marked
  · have pending : s.schedule.mark? key = some .pendingDelete := by
      obtain ⟨mark, hs⟩ := Option.isSome_iff_exists.1 hk
      cases mark with
      | scheduled => exact absurd hs hm
      | pendingDelete => exact hs
    rw [if_neg hm, acted_of_same (Schedule.act_delete_of_requested pending)]
    exact awaitDeletion_of_idle h hk

theorem removeForRescheduling_of_idle (force : Bool) (h : Idle s) (hc : s.schedule.Covered)
    {keys : List ServiceKey} (ht : ∀ k ∈ keys, (s.schedule.mark? k).isSome) :
    removeForRescheduling force keys s =
      match s.schedule.redone force keys with
      | [] => .ok [] s
      | first :: _ => .error (timedOut s first) (s.acted (.delete (.service first))) := by
  induction keys with
  | nil => cases force <;> rfl
  | cons first keys ih =>
    rw [removeForRescheduling, bind_of_ok (lift_of_ok (markOf_eq h.faults first))]
    by_cases hr : force ∨ s.schedule.mark? first = some .pendingDelete
    · rw [if_pos hr, Schedule.redone_cons_of_redo hc hr]
      exact bind_of_error (removeAndWait_of_idle h (ht first List.mem_cons_self))
    · rw [if_neg hr, Schedule.redone_cons_of_keep hr]
      exact ih fun k hk => ht k (List.mem_cons_of_mem first hk)

/-- The first key that is to be removed is the one that is waited for in vain. -/
theorem reconcile_of_idle (h : Idle s) (hc : s.schedule.Covered) (node : NodeId) (force : Bool)
    (n : Notification) :
    reconcile node force n s =
      match s.unlisted node ++ s.redone node force with
      | [] => .ok (s.summary node force) (s.reconciled node force n)
      | first :: _ => .error (timedOut s first) (s.acted (.delete (.service first))) := by
  rw [reconcile_reads h.faults]
  -- The keys that are not listed come first, and then those that are redone.
  cases hu : s.unlisted node with
  | cons first others =>
    have tracked : first ∈ s.unlisted node := by
      rw [hu]
      exact List.mem_cons_self
    apply bind_of_error
    exact bind_of_error (removeAndWait_of_idle h (mem_unlisted.1 tracked).1)
  | nil =>
    have redone : s.redone node force = s.schedule.redone force (s.common node) := by
      rw [Poller.redone, hu]
      rfl
    have tracked : ∀ k ∈ s.common node, (s.schedule.mark? k).isSome :=
      fun k hk => (mem_common.1 hk).1
    have removal := removeForRescheduling_of_idle force h hc tracked
    rw [List.nil_append, redone]
    refine (bind_of_ok (rfl : removeKeys n [] s = .ok () s)).trans ?_
    cases hr : s.schedule.redone force (s.common node) with
    | cons first others =>
      rw [hr] at removal
      exact bind_of_error removal
    | nil =>
      rw [hr] at removal
      have nodup := ((s.ascending_listed node).filter
        (· ∉ (s.common node).filter (· ∉ ([] : List ServiceKey)))).nodup
      rw [bind_of_ok removal, bind_of_ok (scheduleKeys_eq _ _ h.faults nodup)]
      simp only [summary, reconciled, cleared, missing, hu, redone, hr]
      rfl

theorem reconcile_error_of_idle (h : Idle s) (hc : s.schedule.Covered) {e : Error} {t : Poller}
    (he : reconcile node force n s = .error e t) :
    ∃ first ∈ s.unlisted node ++ s.redone node force,
      e = timedOut s first ∧ t = s.acted (.delete (.service first)) := by
  rw [reconcile_of_idle h hc] at he
  cases due : s.unlisted node ++ s.redone node force with
  | nil =>
    rw [due] at he
    cases he
  | cons first others =>
    rw [due] at he
    cases he
    exact ⟨first, List.mem_cons_self, rfl, rfl⟩

/-- However the worker goes on, a reconciliation that succeeds does what the plan says. -/
theorem reconcile_ok_of_any_worker {u : Poller} {r : Reconciliation} (hf : s.faults = [])
    (hc : s.schedule.Covered) (h : reconcile node force n s = .ok r u) :
    u = s.reconciled node force n := by
  cases hw : s.worker with
  | prompt => exact (reconcile_ok ⟨hf, hw, hc⟩ h).2
  | idle =>
    rw [reconcile_of_idle ⟨hf, hw⟩ hc] at h
    split at h
    · cases h
      rfl
    · cases h

def paused (s : Poller) : Poller := { s with worker := .idle }

/-- The poller once the worker has carried out what is queued, and goes on as given. -/
def resumed (s : Poller) (worker : Worker) : Poller :=
  { s with schedule := s.schedule.settle, worker }

/-- The poller once a key is removed after all, whoever waits for it. -/
def ridOf (s : Poller) (key : ServiceKey) (worker : Worker) : Poller :=
  { s with schedule := s.schedule.expel key, worker }

/-- The worker leaves what it would have left had the engine waited for it. -/
theorem resumed_eq_ridOf (s : Poller) (hk : (s.schedule.mark? key).isSome) (worker : Worker) :
    resumed ((paused s).acted (.delete (.service key))) worker = ridOf s key worker := by
  rw [resumed, acted, paused, ridOf, Schedule.expel, if_pos hk]

/-- Of the keys that were tracked, the key itself is gone and all whose removal was pending. -/
theorem mark?_ridOf_eq_none_iff (hc : s.schedule.Covered) (hk : (s.schedule.mark? key).isSome)
    (worker : Worker) {k : ServiceKey} (ht : (s.schedule.mark? k).isSome) :
    (ridOf s key worker).schedule.mark? k = none ↔
      k = key ∨ s.schedule.mark? k = some .pendingDelete := by
  obtain ⟨mark, hm⟩ := Option.isSome_iff_exists.1 ht
  change (s.schedule.expel key).mark? k = none ↔ _
  rw [Schedule.mark?_expel hc hk, hm]
  by_cases same : k = key
  · simp [same]
  · cases mark <;> simp [same]

/-- A reconciliation that gave up can be tried again, and then no key is left that the inventory
does not list. But of these keys the one that was waited for keeps its outage, and so do those whose
removal was pending. -/
theorem retry_forgets_iff (hs : s.Reachable) {e : Error} {t : Poller}
    (h : reconcile node force n (paused s) = .error e t) :
    ∃ first, e = timedOut s first ∧
      (s.Patient → ∀ force' n', ∃ r u,
        reconcile node force' n' (resumed t .prompt) = .ok r u) ∧
      ∀ worker force' n' r u, reconcile node force' n' (resumed t worker) = .ok r u →
        ∀ key : ServiceKey, key.node = node → (s.schedule.mark? key).isSome →
          (key.address, key.service) ∉ s.inventory.services node →
          u.schedule.mark? key = none ∧
            (key ∈ u.outages.openKeys ↔ key ∈ s.outages.openKeys ∧
              (key = first ∨ s.schedule.mark? key = some .pendingDelete)) := by
  have ready := hs.ready
  obtain ⟨first, removed, rfl, rfl⟩ :=
    reconcile_error_of_idle (s := paused s) ⟨ready.faults, rfl⟩ ready.covered h
  have tracked : (s.schedule.mark? first).isSome := (isSome_of_mem_removed removed).1
  have covered := ready.covered.expel first
  refine ⟨first, rfl, fun patient force' n' => ?_, fun worker force' n' r u done key hn ht hl => ?_⟩
  · rw [resumed_eq_ridOf s tracked]
    exact reconcile_isOk (s := ridOf s first .prompt) ⟨ready.faults, rfl, covered⟩ patient node
      force' n'
  · rw [resumed_eq_ridOf s tracked] at done
    have unlisted : key ∉ (ridOf s first worker).listed node := fun hin => hl (mem_listed.1 hin).2
    obtain rfl := reconcile_ok_of_any_worker (s := ridOf s first worker) ready.faults covered done
    refine ⟨mark?_reconciled_of_not_listed covered n' hn unlisted, ?_⟩
    rw [mem_openKeys_reconciled_of_not_listed hn unlisted,
      mark?_ridOf_eq_none_iff ready.covered tracked worker ht]
    rfl

end Engine

namespace Sample

def unlistedDown : Poller :=
  { start with
    inventory := Inventory.addService ∅ http
    schedule := Schedule.run {} [.add http {}, .add icmp {}]
    outages := OutageLog.openOutage {} icmp change.time }

theorem reachable_unlistedDown : unlistedDown.Reachable :=
  .polled _ <| .acted (.add icmp {}) <| .acted (.add http {}) <|
    .start start.store (Inventory.addService ∅ http) {}

end Sample

namespace Engine

/-- The first reconciliation gives up while ICMP is removed. The second succeeds, and from then on
ICMP is down and not tracked. -/
theorem icmp_outage_forgotten :
    ∃ e t r u, reconcile ⟨1⟩ false Sample.change (paused Sample.unlistedDown) = .error e t ∧
      e.IsDeletionTimeout ∧
      reconcile ⟨1⟩ false Sample.change (resumed t .prompt) = .ok r u ∧ u.Dangles Sample.icmp := by
  have ready := Sample.reachable_unlistedDown.ready
  have due : (paused Sample.unlistedDown).unlisted ⟨1⟩ ++
      (paused Sample.unlistedDown).redone ⟨1⟩ false = [Sample.icmp] := by decide +kernel
  have gives_up := reconcile_of_idle (s := paused Sample.unlistedDown) ⟨ready.faults, rfl⟩
    ready.covered ⟨1⟩ false Sample.change
  rw [due] at gives_up
  obtain ⟨first, waited, again, forgets⟩ :=
    retry_forgets_iff Sample.reachable_unlistedDown gives_up
  obtain ⟨r, u, done⟩ := again (by decide) false Sample.change
  obtain ⟨gone, stays⟩ := forgets .prompt false Sample.change r u done Sample.icmp rfl
    (by decide +kernel) (by decide +kernel)
  exact ⟨_, _, r, u, gives_up, trivial, done, gone,
    stays.2 ⟨by decide +kernel, .inl (key_of_timedOut waited)⟩⟩

end Engine

end Polling
