import Polling.Proofs.Schedule.Journal
import Polling.Proofs.Schedule.Nodes

namespace Polling

structure ServiceKey.Proper (key : ServiceKey) : Prop where
  node : key.node.Valid
  service : ¬ Text.AllBlank key.service

namespace Schedule

variable {s t u : Schedule} {P Q : ServiceKey → Prop}

def Action.AddsOnly (P : ServiceKey → Prop) : Action → Prop
  | .add key _ => P key
  | _ => True

theorem Action.AddsOnly.mono {action : Action} (h : action.AddsOnly P)
    (hpq : ∀ key, P key → Q key) : action.AddsOnly Q := by
  cases action with
  | add key info => exact hpq key h
  | _ => trivial

/-- One change is written at most, and if it schedules a key, the key has the property. -/
def WritesOne (P : ServiceKey → Prop) (s t : Schedule) : Prop :=
  t.journal = s.journal ∨
    ∃ change, t.journal = s.journal ++ [change] ∧ ∀ key, change = .schedule key → P key

theorem writesOne_act (s : Schedule) {action : Action} (h : action.AddsOnly P) :
    WritesOne P s (s.act action) := by
  -- Every other change than an addition schedules nothing.
  have other {t : Schedule} {change : Change} (hj : t.journal = s.journal ++ [change])
      (hc : ∀ key, change ≠ .schedule key) : WritesOne P s t :=
    .inr ⟨change, hj, fun key hk => absurd hk (hc key)⟩
  cases action with
  | add key info =>
    by_cases hs : (s.mark? key).isSome
    · exact .inl (by simp [act, add?, hs])
    · refine .inr ⟨.schedule key, by simp [act, add?, hs], fun k hk => ?_⟩
      cases hk
      exact h
  | delete scope =>
    apply after_induction (.inl rfl)
    intro t ht
    rcases delete_cases ht with ⟨-, ⟨-, rfl⟩ | ⟨-, rfl⟩⟩
    · exact .inl rfl
    · exact other rfl (by simp)
  | reparent address source target =>
    apply after_induction (.inl rfl)
    intro t ht
    rcases reparent_cases ht with ⟨-, -, -, ⟨-, rfl⟩ | ⟨-, rfl⟩⟩
    · exact .inl rfl
    · exact other (journal_prune _ _) (by simp)
  | setLabel node label =>
    apply after_induction (.inl rfl)
    intro t ht
    unfold setLabel at ht
    split at ht
    · cases ht
    · cases ht
      exact other rfl (by simp)
  | work count => exact .inl (journal_advance s count)
  | carryOut scope => exact .inl (journal_drop s scope)

def Writes (P : ServiceKey → Prop) (s t : Schedule) : Prop :=
  ∃ changes, t.journal = s.journal ++ changes ∧ ∀ key, .schedule key ∈ changes → P key

theorem Writes.refl (s : Schedule) : Writes P s s :=
  ⟨[], (List.append_nil _).symm, by simp⟩

theorem Writes.trans (h : Writes P s t) (k : Writes P t u) : Writes P s u := by
  obtain ⟨first, hj, hp⟩ := h
  obtain ⟨second, kj, kp⟩ := k
  refine ⟨first ++ second, by rw [kj, hj, List.append_assoc], fun key hk => ?_⟩
  exact (List.mem_append.1 hk).elim (hp key) (kp key)

theorem WritesOne.writes (h : WritesOne P s t) : Writes P s t := by
  rcases h with hj | ⟨change, hj, hp⟩
  · exact ⟨[], by rw [hj, List.append_nil], by simp⟩
  · refine ⟨[change], hj, fun key hk => hp key ?_⟩
    exact (List.mem_singleton.1 hk).symm

/-- All that is tracked is proper, and so is all that ever was, which the journal tells. -/
structure Proper (s : Schedule) : Prop where
  trim : s.Trim
  tracked : ∀ key, (s.mark? key).isSome → key.Proper
  faithful : replay s.journal = s.scheduled
  past : ∀ changes, changes <+: s.journal → ∀ key ∈ replay changes, key.Proper

/-- A known node is valid, since it has a tracked key. -/
theorem Proper.node (h : s.Proper) {node : NodeId} (hn : (s.node? node).isSome) : node.Valid := by
  obtain ⟨key, hk, ht⟩ := tracks_iff.1 ((h.trim node).1 hn)
  exact Scope.mem_node.1 hk ▸ (h.tracked key ht).node

theorem proper_empty : Proper {} where
  trim := trim_empty
  tracked key h := by simp [mark?] at h
  faithful := by
    have none_scheduled : scheduled {} = ∅ := by simp [scheduled, keys]
    rw [none_scheduled]
    rfl
  past changes h key hk := by
    rw [List.prefix_nil.1 h] at hk
    simp [replay] at hk

theorem Proper.tracked_act (h : s.Proper) {action : Action}
    (ha : action.AddsOnly ServiceKey.Proper) {key : ServiceKey}
    (hk : ((s.act action).mark? key).isSome) : key.Proper := by
  cases action with
  | add k info =>
    rw [mark?_act_add] at hk
    split at hk
    · next hc => exact hc.1 ▸ ha
    · exact h.tracked key hk
  | delete scope =>
    rw [mark?_act_delete] at hk
    refine h.tracked key ?_
    split at hk
    · simpa using hk
    · exact hk
  | reparent address source target =>
    rw [mark?_act_reparent] at hk
    split at hk
    · next hc =>
      split at hk
      · cases hk
      split at hk
      · next hmoved =>
        -- The key comes from the source, and the target is known.
        obtain ⟨hin, hm⟩ := hmoved
        have former := h.tracked _ (Option.isSome_of_eq_some hm)
        exact ⟨(Scope.mem_interface.1 hin).1 ▸ h.node hc.2.1, former.service⟩
      · exact h.tracked key hk
    · exact h.tracked key hk
  | setLabel node label =>
    rw [mark?_act_setLabel] at hk
    exact h.tracked key hk
  | work count =>
    rw [mark?_act_work, Option.isSome_filter] at hk
    exact h.tracked key (Option.isSome_of_any hk)
  | carryOut scope =>
    rw [mark?_act_carryOut, Option.isSome_filter] at hk
    exact h.tracked key (Option.isSome_of_any hk)

/-- What an action adds is all that can be improper. -/
theorem Proper.act (h : s.Proper) {action : Action} (ha : action.AddsOnly ServiceKey.Proper) :
    (s.act action).Proper := by
  have faithful : replay (s.act action).journal = (s.act action).scheduled := by
    obtain ⟨changes, hj, hs⟩ := journaled_act s action
    rw [hs, hj, replay, List.foldl_append]
    exact congrArg (fun keys => changes.foldl Change.replay keys) h.faithful
  refine ⟨h.trim.act action, fun key => h.tracked_act ha, faithful, fun changes hc key hk => ?_⟩
  rcases writesOne_act s ha with hj | ⟨change, hj, -⟩
  · rw [hj] at hc
    exact h.past changes hc key hk
  · rw [hj, List.prefix_concat_iff] at hc
    rcases hc with rfl | hc
    · -- The whole journal tells what is scheduled now.
      rw [← hj, faithful, mem_scheduled] at hk
      exact h.tracked_act ha (Option.isSome_of_eq_some hk)
    · exact h.past changes hc key hk

end Schedule

end Polling
