import Polling.Proofs.Engine.Outcome
import Polling.Proofs.Engine.Reachable

namespace Polling

open Poller Engine

variable {s t : Poller} {node : NodeId} {n : Notification} {r : Reconciliation} {key : ServiceKey}

namespace Sample

def address : Address := .v4 #v[10, 0, 0, 1]

def http : ServiceKey := ⟨⟨1⟩, address, "HTTP"⟩

def icmp : ServiceKey := ⟨⟨1⟩, address, "ICMP"⟩

/-- The package of this instance polls both services at the address. -/
def active : Active where
  configuration := { packages := [{
    name := "main"
    filter := "any"
    services := [{ name := "HTTP" }, { name := "ICMP" }] }] }
  registry := ⟨[⟨"HTTP", "icmp", [.daemon], false⟩, ⟨"ICMP", "icmp", [.daemon], false⟩]⟩
  caches := { candidates := AddressMap.put ∅ "main" [address] }

def start : Poller where
  store := { directory := { path := "/etc" }, active }
  inventory := (Inventory.addService ∅ http).addService icmp

/-- The removals of both services are pending. -/
def pending : Poller :=
  { start with
    schedule := Schedule.run {} [.add http {}, .add icmp {}, .delete (.service http),
      .delete (.service icmp)] }

theorem reachable_pending : pending.Reachable :=
  .acted (.delete (.service icmp)) <| .acted (.delete (.service http)) <| .acted (.add icmp {}) <|
    .acted (.add http {}) (.start start.store start.inventory {})

def change : Notification where
  id := ⟨Vector.replicate 32 0⟩
  kind := .nodeCategoryMembershipChanged
  node := some ⟨1⟩
  time := ⟨⟨2024, 1, 1, by decide, by decide, by decide⟩, 0, 0, 0, 0, by decide⟩

end Sample

namespace Engine

/-- A listed key that is polled is scheduled after a reconciliation without force exactly if it is
not left out. -/
theorem scheduled_after_unforced_iff (hs : s.Reachable) (h : reconcile node false n s = .ok r t)
    (hn : key.node = node) (hl : (key.address, key.service) ∈ s.inventory.services node)
    (hp : (s.store.active.packageFor? key.address key.service).isSome) :
    t.schedule.mark? key = some .scheduled ↔ ¬ s.LeavesOut node key := by
  have ready := hs.ready
  obtain ⟨-, rfl⟩ := reconcile_ok ready.toPrompt h
  apply mark?_reconciled_unforced ready.covered n (mem_listed.2 ⟨hn, hl⟩)
  exact (s.store.active.isSome_packageFor? key.address key.service).1 hp

/-- Waiting for HTTP completes the removal of ICMP, which is not scheduled again. -/
theorem icmp_left_out : ∃ r t, reconcile ⟨1⟩ false Sample.change Sample.pending = .ok r t ∧
    t.schedule.mark? Sample.icmp ≠ some .scheduled := by
  have ready := Sample.reachable_pending.ready
  obtain ⟨r, t, h⟩ := reconcile_isOk ready.toPrompt (by decide) ⟨1⟩ false Sample.change
  refine ⟨r, t, h, ?_⟩
  have left : Sample.pending.LeavesOut ⟨1⟩ Sample.icmp :=
    ⟨by decide +kernel, Sample.http, rfl, .inr ⟨by decide +kernel, by decide +kernel,
      by decide +kernel⟩⟩
  intro hm
  exact (scheduled_after_unforced_iff Sample.reachable_pending h rfl (by decide +kernel)
    (by decide +kernel)).1 hm left

/-- By force a node ends up with exactly the listed keys that are polled, all scheduled, under the
label it had and at the place where the inventory has it. -/
theorem reconcile_force (hs : s.Reachable) (hp : s.Patient) (node : NodeId) (n : Notification) :
    ∃ r t, reconcile node true n s = .ok r t ∧
      (∀ key : ServiceKey, key.node = node →
        t.schedule.mark? key =
          if (key.address, key.service) ∈ s.inventory.services node ∧
            (s.store.active.packageFor? key.address key.service).isSome then some .scheduled
          else none) ∧
      (t.schedule.node? node =
        if t.schedule.Tracks (.node node) then
          some ⟨s.labelOf node n, (s.inventory.entry node).info.location⟩
        else none) ∧
      ServiceKey.Lists r.removed (fun key => key.node = node ∧ (s.schedule.mark? key).isSome ∧
        (key.address, key.service) ∉ s.inventory.services node) ∧
      ServiceKey.Lists r.rescheduled (fun key => key.node = node ∧ (s.schedule.mark? key).isSome ∧
        (key.address, key.service) ∈ s.inventory.services node) ∧
      ServiceKey.Lists r.scheduled (fun key => key.node = node ∧
        (t.schedule.mark? key).isSome) := by
  have ready := hs.ready
  have hc := ready.covered
  refine ⟨_, _, reconcile_eq ready.toPrompt hp node true n, ?_, ?_, ?_, ?_, ?_⟩
  · intro key hk
    rw [mark?_reconciled_force hc n hk]
    simp only [mem_listed, hk, true_and, Active.isSome_packageFor?]
  · exact node?_reconciled_force hc ready.trim n
  · exact s.lists_unlisted node
  · exact s.lists_common node
  · exact lists_scheduled_force hc n

theorem both_scheduled_by_force : ∃ r t, reconcile ⟨1⟩ true Sample.change Sample.pending = .ok r t ∧
    t.schedule.mark? Sample.http = some .scheduled ∧
      t.schedule.mark? Sample.icmp = some .scheduled := by
  obtain ⟨r, t, h, marks, -⟩ :=
    reconcile_force Sample.reachable_pending (by decide) ⟨1⟩ Sample.change
  refine ⟨r, t, h, ?_, ?_⟩
  · rw [marks Sample.http rfl]
    decide +kernel
  · rw [marks Sample.icmp rfl]
    decide +kernel

end Engine

end Polling
