import Polling.Proofs.Engine.Orderly
import Polling.Proofs.Engine.Removal

namespace Polling

namespace Poller

/-- The states that the poller can come to: it starts with an empty schedule, and from then on the
engine handles notifications and reconciles nodes, be it with success or not, callers and the worker
act on the schedule, and the configuration, the inventory and the outage log change in any way. -/
inductive Reachable : Poller → Prop where
  | start (store : Store) (inventory : Inventory) (settings : Settings) :
      Reachable { store, inventory, settings }
  | handled {s : Poller} (n : Notification) : Reachable s → Reachable (final (Engine.handle n) s)
  | reconciled {s : Poller} (node : NodeId) (force : Bool) (n : Notification) :
      Reachable s → Reachable (final (Engine.reconcile node force n) s)
  | acted {s : Poller} (action : Schedule.Action) :
      Reachable s → Reachable { s with schedule := s.schedule.act action }
  | configured {s : Poller} (store : Store) : Reachable s → Reachable { s with store }
  | listed {s : Poller} (inventory : Inventory) : Reachable s → Reachable { s with inventory }
  | polled {s : Poller} (outages : OutageLog) : Reachable s → Reachable { s with outages }

/-- What holds of every reachable state: the worker is prompt, and the nodes that are known are
those with tracked keys. -/
structure Ready (s : Poller) : Prop extends Prompt s where
  trim : s.schedule.Trim

variable {s t : Poller}

theorem ready_start (store : Store) (inventory : Inventory) (settings : Settings) :
    Ready { store, inventory, settings } :=
  ⟨⟨rfl, rfl, Schedule.covered_empty⟩, Schedule.trim_empty⟩

theorem Ready.withStore (h : s.Ready) (store : Store) : Ready { s with store } :=
  ⟨⟨h.faults, h.worker, h.covered⟩, h.trim⟩

theorem Ready.withInventory (h : s.Ready) (inventory : Inventory) : Ready { s with inventory } :=
  ⟨⟨h.faults, h.worker, h.covered⟩, h.trim⟩

theorem Ready.withOutages (h : s.Ready) (outages : OutageLog) : Ready { s with outages } :=
  ⟨⟨h.faults, h.worker, h.covered⟩, h.trim⟩

theorem Ready.evolves (h : s.Ready) (e : Evolves s t) : t.Ready := by
  obtain ⟨actions, ha⟩ := e.schedule
  refine ⟨⟨e.faults h.faults, e.worker.trans h.worker, ?_⟩, ?_⟩
  · rw [ha]
    exact h.covered.run actions
  · rw [ha]
    exact h.trim.run actions

theorem Patient.evolves (h : s.Patient) (e : Evolves s t) : t.Patient := by
  rw [Patient, e.settings]
  exact h

theorem Reachable.ready (h : s.Reachable) : s.Ready := by
  induction h with
  | start store inventory settings => exact ready_start store inventory settings
  | handled n _ ih => exact ih.evolves (Engine.orderly_handle n _)
  | reconciled node force n _ ih => exact ih.evolves (Engine.orderly_reconcile node force n _)
  | acted action _ ih => exact ih.evolves (Evolves.act _ action _ _ _)
  | configured store _ ih => exact ih.withStore store
  | listed inventory _ ih => exact ih.withInventory inventory
  | polled outages _ ih => exact ih.withOutages outages

end Poller

end Polling
