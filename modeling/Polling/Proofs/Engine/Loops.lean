import Polling.Engine.Reconciliation
import Polling.Proofs.Engine.Removal
import Polling.Proofs.Outages
import Polling.Store.Queries

namespace Polling

namespace Schedule

variable {s : Schedule}

/-- The keys that are removed to be scheduled afresh: all of them by force, and otherwise the first
that is marked, since waiting for that one drops the others too. -/
def redone (s : Schedule) (force : Bool) (keys : List ServiceKey) : List ServiceKey :=
  if force then keys else (keys.find? fun key => s.mark? key = some .pendingDelete).toList

theorem redone_of_none_marked {keys : List ServiceKey}
    (h : ∀ key ∈ keys, s.mark? key ≠ some .pendingDelete) : s.redone false keys = [] := by
  have hf : keys.find? (fun key => s.mark? key = some .pendingDelete) = none := by
    rw [List.find?_eq_none]
    intro key hk
    simpa using h key hk
  simp [redone, hf]

theorem redone_subset (s : Schedule) (force : Bool) (keys : List ServiceKey) :
    s.redone force keys ⊆ keys := by
  intro k hk
  cases force with
  | true => exact hk
  | false =>
    simp only [redone, Bool.false_eq_true, if_false, Option.mem_toList] at hk
    exact List.mem_of_find?_eq_some hk

/-- Once a key is removed the others are chosen anew. -/
theorem redone_cons_of_redo (hs : s.Covered) {force : Bool} {key : ServiceKey}
    {keys : List ServiceKey} (h : force ∨ s.mark? key = some .pendingDelete) :
    s.redone force (key :: keys) = key :: (s.expel key).redone force keys := by
  cases force with
  | true => rfl
  | false =>
    have hk : s.mark? key = some .pendingDelete := by simpa using h
    -- The wait for the key drops all that is marked, so none of the others is chosen.
    have hn (k : ServiceKey) : (s.expel key).mark? k ≠ some .pendingDelete := by
      rw [mark?_expel hs (Option.isSome_of_eq_some hk)]
      split
      · nofun
      · simp [Option.filter_eq_some_iff]
    rw [redone_of_none_marked fun k _ => hn k]
    simp [redone, hk]

theorem redone_cons_of_keep {force : Bool} {key : ServiceKey}
    {keys : List ServiceKey} (h : ¬ (force ∨ s.mark? key = some .pendingDelete)) :
    s.redone force (key :: keys) = s.redone force keys := by
  cases force with
  | true => simp at h
  | false =>
    have hk : s.mark? key ≠ some .pendingDelete := by simpa using h
    simp [redone, hk]

end Schedule

namespace Poller

def without (s : Poller) (n : Notification) (keys : List ServiceKey) : Poller :=
  { s with
    schedule := s.schedule.expelAll keys
    outages := s.outages.closeAll keys ⟨n.time, n.id⟩ }

theorem Prompt.without {s : Poller} (hs : s.Prompt) (n : Notification) (keys : List ServiceKey) :
    (s.without n keys).Prompt :=
  ⟨hs.faults, hs.worker, hs.covered.expelAll keys⟩

theorem without_cons (s : Poller) (n : Notification) (key : ServiceKey) (keys : List ServiceKey) :
    s.without n (key :: keys) = (s.without n [key]).without n keys :=
  rfl

end Poller

namespace Engine

open Poller

variable {s t : Poller}

theorem removeKeys_ok (hs : s.Prompt) {n : Notification} {keys : List ServiceKey} {u : Unit}
    (h : removeKeys n keys s = .ok u t) : t = s.without n keys := by
  induction keys generalizing s with
  | nil =>
    cases h
    rfl
  | cons key keys ih =>
    obtain ⟨_, s₁, hr, h⟩ := bind_eq_ok h
    cases removeAndWait_ok hs hr
    have h₁ := hs.withSchedule (hs.covered.expel key)
    rw [bind_of_ok (lift_of_ok (closeOutages_eq h₁.faults _ n))] at h
    rw [without_cons]
    exact ih (hs.without n [key]) h

theorem removeKeys_isOk (hs : s.Prompt) (hp : s.Patient) (n : Notification)
    (keys : List ServiceKey) : ∃ t, removeKeys n keys s = .ok () t := by
  induction keys generalizing s with
  | nil => exact ⟨s, rfl⟩
  | cons key keys ih =>
    have h₁ := hs.withSchedule (hs.covered.expel key)
    rw [removeKeys, bind_of_ok (removeAndWait_eq hs hp key),
      bind_of_ok (lift_of_ok (closeOutages_eq h₁.faults _ n))]
    exact ih (hs.without n [key]) hp

theorem removeForRescheduling_ok (hs : s.Prompt) {force : Bool} {keys r : List ServiceKey}
    (h : removeForRescheduling force keys s = .ok r t) :
    r = s.schedule.redone force keys ∧ t = { s with schedule := s.schedule.expelAll r } := by
  induction keys generalizing s r with
  | nil =>
    cases h
    cases force <;> exact ⟨rfl, rfl⟩
  | cons key keys ih =>
    rw [removeForRescheduling, bind_of_ok (lift_of_ok (markOf_eq hs.faults key))] at h
    by_cases hc : force ∨ s.schedule.mark? key = some .pendingDelete
    · rw [if_pos hc] at h
      obtain ⟨_, s₁, hr, h⟩ := bind_eq_ok h
      cases removeAndWait_ok hs hr
      obtain ⟨rest, s₂, hl, h⟩ := bind_eq_ok h
      cases h
      obtain ⟨hrest, ht⟩ := ih (hs.withSchedule (hs.covered.expel key)) hl
      refine ⟨?_, ht⟩
      rw [Schedule.redone_cons_of_redo hs.covered hc, hrest]
    · rw [if_neg hc] at h
      rw [Schedule.redone_cons_of_keep hc]
      exact ih hs h

theorem removeForRescheduling_isOk (hs : s.Prompt) (hp : s.Patient) (force : Bool)
    (keys : List ServiceKey) : ∃ r t, removeForRescheduling force keys s = .ok r t := by
  induction keys generalizing s with
  | nil => exact ⟨[], s, rfl⟩
  | cons key keys ih =>
    rw [removeForRescheduling, bind_of_ok (lift_of_ok (markOf_eq hs.faults key))]
    by_cases hc : force ∨ s.schedule.mark? key = some .pendingDelete
    · rw [if_pos hc, bind_of_ok (removeAndWait_eq hs hp key)]
      obtain ⟨r, t, hr⟩ := ih (hs.withSchedule (hs.covered.expel key)) hp
      rw [bind_of_ok hr]
      exact ⟨key :: r, t, rfl⟩
    · rw [if_neg hc]
      exact ih hs hp

section Scheduling

variable (n : Notification) (info : NodeInfo)

theorem scheduleService_eq (h : s.faults = []) (key : ServiceKey) :
    scheduleService key info s =
      if s.store.active.PollsLocally key.address key.service then
        .ok (decide (s.schedule.mark? key = none))
          { s with schedule := s.schedule.act (.add key info) }
      else .ok false s := by
  have hp := s.store.active.isSome_packageFor? key.address key.service
  rw [scheduleService, bind_of_ok (get_eq s)]
  cases hf : s.store.active.packageFor? key.address key.service with
  | none =>
    rw [hf] at hp
    rw [if_neg (by simpa using hp)]
    rfl
  | some p =>
    rw [hf] at hp
    rw [if_pos (by simpa using hp)]
    exact lift_of_ok (addToSchedule_eq h key info)

theorem scheduleKeys_cons {key : ServiceKey} {keys scheduled unpolled : List ServiceKey}
    {added : Bool} {s₁ : Poller} (hadd : scheduleService key info s = .ok added s₁)
    (h₁ : s₁.faults = [])
    (rest : scheduleKeys n info keys
      (if s₁.store.active.Polls key.address key.service then s₁
      else { s₁ with outages := s₁.outages.close (.service key) ⟨n.time, n.id⟩ }) =
        .ok (scheduled, unpolled) t) :
    scheduleKeys n info (key :: keys) s =
      .ok (if added then key :: scheduled else scheduled,
        if s₁.store.active.Polls key.address key.service then unpolled else key :: unpolled) t := by
  rw [scheduleKeys, bind_of_ok hadd]
  by_cases hp : s₁.store.active.Polls key.address key.service
  · rw [if_pos hp] at rest ⊢
    rw [bind_of_ok (get_eq s₁)]
    simp only [hp, decide_true, not_true, if_false, if_true]
    rw [bind_of_ok rest]
    rfl
  · rw [if_neg hp] at rest ⊢
    rw [bind_of_ok (get_eq s₁)]
    simp only [hp, decide_false, Bool.false_eq_true, not_false_eq_true, if_false, if_true]
    rw [bind_of_ok (lift_of_ok (closeOutages_eq h₁ _ n)), bind_of_ok rest]
    rfl

/-- Different keys are scheduled independently of each other. -/
theorem scheduleKeys_eq (h : s.faults = []) {keys : List ServiceKey} (hn : keys.Nodup) :
    scheduleKeys n info keys s =
      .ok (keys.filter fun key =>
            s.store.active.PollsLocally key.address key.service ∧ s.schedule.mark? key = none,
          keys.filter fun key => ¬ s.store.active.Polls key.address key.service)
        { s with
          schedule := s.schedule.addAll info
            (keys.filter fun key => s.store.active.PollsLocally key.address key.service)
          outages := s.outages.closeAll
            (keys.filter fun key => ¬ s.store.active.Polls key.address key.service)
            ⟨n.time, n.id⟩ } := by
  induction keys generalizing s with
  | nil => rfl
  | cons key keys ih =>
    obtain ⟨hk, hn⟩ := List.nodup_cons.1 hn
    by_cases hl : s.store.active.PollsLocally key.address key.service
    · have hp := hl.polls
      have hadd := scheduleService_eq info h key
      rw [if_pos hl] at hadd
      have rest := ih (s := { s with schedule := s.schedule.act (.add key info) }) h hn
      -- Each key occurs once, so scheduling this one changes nothing for the others.
      have same : keys.filter (fun k => s.store.active.PollsLocally k.address k.service ∧
            (s.schedule.act (.add key info)).mark? k = none) =
          keys.filter fun k => s.store.active.PollsLocally k.address k.service ∧
            s.schedule.mark? k = none := by
        apply List.filter_congr
        intro k hm
        have hne : k ≠ key := fun e => hk (e ▸ hm)
        rw [Schedule.mark?_act_add]
        simp [hne]
      simp only [same] at rest
      rw [scheduleKeys_cons n info hadd h (by rw [if_pos hp]; exact rest)]
      simp [List.filter_cons, hl, hp, Schedule.addAll]
    · have hadd := scheduleService_eq info h key
      rw [if_neg hl] at hadd
      by_cases hp : s.store.active.Polls key.address key.service
      · rw [scheduleKeys_cons n info hadd h (by rw [if_pos hp]; exact ih h hn)]
        simp [hl, hp]
      · have rest := ih (s := { s with
          outages := s.outages.close (.service key) ⟨n.time, n.id⟩ }) h hn
        rw [scheduleKeys_cons n info hadd h (by rw [if_neg hp]; exact rest)]
        simp [hl, hp, OutageLog.closeAll]

end Scheduling

end Engine

end Polling
