import Polling.Proofs.Engine.Calls
import Polling.Proofs.Schedule.Expulsion

namespace Polling

namespace Poller

/-- No call fails, the worker carries out all that is queued whenever the engine pauses, and the
queue covers the marked keys. -/
structure Prompt (s : Poller) : Prop where
  faults : s.faults = []
  worker : s.worker = .prompt
  covered : s.schedule.Covered

/-- The engine pauses before it gives up a wait. -/
def Patient (s : Poller) : Prop := 0 < s.settings.deletionTimeout

instance (s : Poller) : Decidable s.Patient :=
  inferInstanceAs (Decidable (0 < s.settings.deletionTimeout))

theorem Prompt.withSchedule {s : Poller} (h : s.Prompt) {schedule : Schedule}
    (hc : schedule.Covered) : Prompt { s with schedule } :=
  ⟨h.faults, h.worker, hc⟩

theorem Patient.pauses {s : Poller} (h : s.Patient) : ∃ n, s.settings.pauses = n + 1 := by
  have hi := s.settings.pollInterval_pos
  have hp : 0 < s.settings.pauses := by
    unfold Settings.pauses
    apply Nat.div_pos _ hi
    unfold Patient at h
    omega
  exact ⟨s.settings.pauses - 1, by omega⟩

theorem pauses_of_not_patient {s : Poller} (h : ¬ s.Patient) : s.settings.pauses = 0 := by
  have hi := s.settings.pollInterval_pos
  unfold Settings.pauses
  apply Nat.div_eq_of_lt
  unfold Patient at h
  omega

end Poller

namespace Engine

open Poller

variable {s t : Poller}

theorem pause_of_prompt (h : s.worker = .prompt) :
    pause s = .ok () { s with schedule := s.schedule.settle } := by
  obtain ⟨⟩ := s
  cases h
  rfl

theorem pause_of_idle (h : s.worker = .idle) : pause s = .ok () s := by
  obtain ⟨⟩ := s
  cases h
  rfl

theorem awaitWithin_of_untracked (h : s.faults = []) {key : ServiceKey}
    (hk : s.schedule.mark? key = none) (interval pauses waited : Nat) :
    awaitWithin key interval pauses waited s = .ok () s := by
  cases pauses with
  | zero =>
    rw [awaitWithin, bind_of_ok (lift_of_ok (markOf_eq h key)), hk]
    rfl
  | succ pauses =>
    rw [awaitWithin, bind_of_ok (lift_of_ok (markOf_eq h key)), hk]
    rfl

theorem awaitDeletion_of_untracked (h : s.faults = []) {key : ServiceKey}
    (hk : s.schedule.mark? key = none) : awaitDeletion key s = .ok () s :=
  awaitWithin_of_untracked h hk _ _ 0

/-- The first pause is enough for a removal that is requested. -/
theorem awaitDeletion_of_pending (hs : s.Prompt) (hp : s.Patient) {key : ServiceKey}
    (hk : s.schedule.mark? key = some .pendingDelete) :
    awaitDeletion key s = .ok () { s with schedule := s.schedule.settle } := by
  obtain ⟨n, hn⟩ := hp.pauses
  have gone : s.schedule.settle.mark? key = none := by
    rw [Schedule.mark?_settle hs.covered, hk]
    rfl
  change awaitWithin key s.settings.pollInterval s.settings.pauses 0 s = _
  rw [hn, awaitWithin, bind_of_ok (lift_of_ok (markOf_eq hs.faults key)), hk]
  change (pause >>= fun _ => _) s = _
  rw [bind_of_ok (pause_of_prompt hs.worker)]
  exact awaitWithin_of_untracked (s := { s with schedule := s.schedule.settle }) hs.faults gone
    _ _ _

/-- Without a pause no wait for a tracked key succeeds. -/
theorem awaitDeletion_of_not_patient (h : s.faults = []) (hp : ¬ s.Patient) {key : ServiceKey}
    (hk : (s.schedule.mark? key).isSome) :
    awaitDeletion key s = .error (.execution (.deletionTimeout key 0)) s := by
  change awaitWithin key s.settings.pollInterval s.settings.pauses 0 s = _
  rw [pauses_of_not_patient hp, awaitWithin, bind_of_ok (lift_of_ok (markOf_eq h key)), hk]
  rfl

/-- That a key is gone already is no failure of the request to remove it. -/
theorem requestDeletion_eq (h : s.faults = []) (key : ServiceKey) :
    requestDeletion key s =
      .ok () { s with schedule := s.schedule.act (.delete (.service key)) } := by
  by_cases ht : s.schedule.Tracks (.service key)
  · rw [requestDeletion, bind_of_ok (attempt_of_ok (delete_eq h ht))]
    rfl
  · rw [requestDeletion, bind_of_ok (attempt_of_error (delete_of_not_tracks h ht)),
      Schedule.act_delete_of_not_tracks ht]
    rfl

/-- A key is removed by one request and one pause, if it is there. -/
theorem removeAndWait_eq (hs : s.Prompt) (hp : s.Patient) (key : ServiceKey) :
    removeAndWait key s = .ok () { s with schedule := s.schedule.expel key } := by
  rw [removeAndWait, bind_of_ok (lift_of_ok (markOf_eq hs.faults key))]
  cases hk : s.schedule.mark? key with
  | none =>
    rw [Schedule.expel_of_untracked hk]
    exact awaitDeletion_of_untracked hs.faults hk
  | some mark =>
    cases mark with
    | pendingDelete =>
      rw [Schedule.expel_of_pending hk]
      exact awaitDeletion_of_pending hs hp hk
    | scheduled =>
      have marked : (s.schedule.act (.delete (.service key))).mark? key = some .pendingDelete := by
        rw [Schedule.mark?_act_delete, hk]
        simp
      change (requestDeletion key >>= fun _ => awaitDeletion key) s = _
      rw [bind_of_ok (requestDeletion_eq hs.faults key),
        awaitDeletion_of_pending (hs.withSchedule (hs.covered.act _)) hp marked]
      simp [Schedule.expel, hk]

/-- Whoever cannot wait removes no key that is there. -/
theorem removeAndWait_of_not_patient (hs : s.Prompt) (hp : ¬ s.Patient) {key : ServiceKey}
    (hk : (s.schedule.mark? key).isSome) : ∃ e t, removeAndWait key s = .error e t := by
  rw [removeAndWait, bind_of_ok (lift_of_ok (markOf_eq hs.faults key))]
  obtain ⟨mark, hm⟩ := Option.isSome_iff_exists.1 hk
  rw [hm]
  cases mark with
  | pendingDelete => exact ⟨_, _, awaitDeletion_of_not_patient hs.faults hp hk⟩
  | scheduled =>
    have marked : ((s.schedule.act (.delete (.service key))).mark? key).isSome := by
      rw [Schedule.mark?_act_delete, hm]
      simp
    change ∃ e t, (requestDeletion key >>= fun _ => awaitDeletion key) s = .error e t
    rw [bind_of_ok (requestDeletion_eq hs.faults key)]
    exact ⟨_, _, awaitDeletion_of_not_patient
      (s := { s with schedule := s.schedule.act (.delete (.service key)) }) hs.faults hp marked⟩

/-- However long it was, a wait that ends leaves the key removed. -/
theorem removeAndWait_ok (hs : s.Prompt) {key : ServiceKey} {u : Unit}
    (h : removeAndWait key s = .ok u t) : t = { s with schedule := s.schedule.expel key } := by
  by_cases hp : s.Patient
  · rw [removeAndWait_eq hs hp] at h
    cases h
    rfl
  · -- Without a pause the call succeeds only if there is nothing to wait for.
    cases hk : s.schedule.mark? key with
    | none =>
      rw [removeAndWait, bind_of_ok (lift_of_ok (markOf_eq hs.faults key)), hk] at h
      change awaitDeletion key s = .ok u t at h
      rw [awaitDeletion_of_untracked hs.faults hk] at h
      cases h
      rw [Schedule.expel_of_untracked hk]
    | some mark =>
      have tracked : (s.schedule.mark? key).isSome := Option.isSome_of_eq_some hk
      obtain ⟨e, t', he⟩ := removeAndWait_of_not_patient hs hp tracked
      rw [he] at h
      cases h

end Engine

end Polling
