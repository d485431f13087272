import Polling.Proofs.Engine.Footprint

namespace Polling

namespace Poller

structure Evolves (s t : Poller) : Prop where
  schedule : ∃ actions, t.schedule = s.schedule.run actions
  inventory : t.inventory = s.inventory
  settings : t.settings = s.settings
  worker : t.worker = s.worker
  faults : s.faults = [] → t.faults = []

variable {s t u : Poller}

theorem Evolves.refl (s : Poller) : Evolves s s :=
  ⟨⟨[], rfl⟩, rfl, rfl, rfl, id⟩

theorem Evolves.trans (h : Evolves s t) (h' : Evolves t u) : Evolves s u := by
  obtain ⟨first, hf⟩ := h.schedule
  obtain ⟨second, hs⟩ := h'.schedule
  refine ⟨⟨first ++ second, ?_⟩, ?_, ?_, ?_, fun hn => h'.faults (h.faults hn)⟩
  · rw [Schedule.run_append, ← hf, hs]
  · rw [h'.inventory, h.inventory]
  · rw [h'.settings, h.settings]
  · rw [h'.worker, h.worker]

/-- One action of the schedule, and whatever else may happen to the store, the outages and the
event bus. -/
theorem Evolves.act (s : Poller) (action : Schedule.Action) (store : Store) (outages : OutageLog)
    (sent : List Announcement) :
    Evolves s { s with store, schedule := s.schedule.act action, outages, sent } :=
  ⟨⟨[action], rfl⟩, rfl, rfl, rfl, id⟩

theorem evolves_after (s : Poller) (e : Effect) : Evolves s (s.after e) := by
  cases e with
  | met call =>
    refine ⟨⟨[], rfl⟩, rfl, rfl, rfl, fun hn => ?_⟩
    change (s.faults.next call).2 = []
    rw [hn]
    rfl
  | acted action => exact ⟨⟨[action], rfl⟩, rfl, rfl, rfl, id⟩
  | closed scope c => exact ⟨⟨[], rfl⟩, rfl, rfl, rfl, id⟩
  | stored store => exact ⟨⟨[], rfl⟩, rfl, rfl, rfl, id⟩
  | announced a => exact ⟨⟨[], rfl⟩, rfl, rfl, rfl, id⟩

def Orderly {ε α : Type} (x : EStateM ε Poller α) : Prop := ∀ s, Evolves s (final x s)

/-- An operation that has effects only is orderly. -/
theorem Within.orderly {E : Effect → Prop} {ε α : Type} {x : EStateM ε Poller α}
    (h : Within E x) : Orderly x :=
  h.leads Evolves.refl Evolves.trans fun s e _ => evolves_after s e

theorem orderly_onStore {α : Type} (x : StoreM α) : Orderly (onStore x) :=
  (within_onStore x (E := fun _ => True) fun _ => trivial).orderly

end Poller

namespace Engine

open Poller

theorem orderly_reconcile (node : NodeId) (force : Bool) (n : Notification) :
    Orderly (reconcile node force n) :=
  (within_reconcile node force n).orderly

theorem orderly_rescheduleNodes (n : Notification) (nodes : List NodeId) :
    Orderly (rescheduleNodes n nodes) :=
  (within_rescheduleNodes n nodes).orderly

theorem orderly_rescheduleAll (n : Notification) : Orderly (rescheduleAll n) :=
  (within_rescheduleAll n).orderly

/-- Whatever a notification calls for, the schedule changes by actions only. -/
theorem orderly_handle (n : Notification) : Orderly (handle n) :=
  (within_handle n).orderly

end Engine

end Polling
