import Polling.Proofs.Engine.Agreement
import Polling.Proofs.Engine.OutageSafety

namespace Polling

namespace Poller

variable {s : Poller} {node : NodeId} {key : ServiceKey} {n : Notification}

/-- Each key that is tracked on the node is listed by the inventory and polled by a local package of
the configuration in force. -/
def Converged (s : Poller) (node : NodeId) : Prop :=
  ∀ key : ServiceKey, key.node = node → (s.schedule.mark? key).isSome →
    (key.address, key.service) ∈ s.inventory.services node ∧
      s.store.active.PollsLocally key.address key.service

/-- Without force a listed key is scheduled in the end if it was so before or a local package polls
it, and no other key is tracked. -/
theorem mark?_reconciled_of_quiet (hc : s.schedule.Covered) (hq : s.schedule.Quiet)
    (n : Notification) (hk : key.node = node) :
    (s.reconciled node false n).schedule.mark? key =
      if key ∈ s.listed node ∧ (s.schedule.mark? key = some .scheduled ∨
        s.store.active.PollsLocally key.address key.service) then some .scheduled
      else none := by
  by_cases hl : key ∈ s.listed node
  · by_cases hm : s.schedule.mark? key = some .scheduled
    · have kept : key ∉ s.redone node false := by
        rw [redone_of_quiet hc hq]
        exact List.not_mem_nil
      rw [mark?_reconciled_of_kept hc hm (not_mem_unlisted hl) kept, if_pos ⟨hl, .inl hm⟩]
    · have missing : key ∈ s.missing node false :=
        mem_missing.2 ⟨hl, fun h => absurd (hq.eq_scheduled (mem_common.1 h).1) hm⟩
      rw [mark?_reconciled hc, if_pos missing]
      simp [hl, hm]
  · rw [mark?_reconciled_of_not_listed hc n hk hl, if_neg (fun h => hl h.1)]

/-- A node converges if its listed keys that were scheduled are still polled, and only then. -/
theorem converged_reconciled_iff (hc : s.schedule.Covered) (hq : s.schedule.Quiet)
    (n : Notification) :
    (s.reconciled node false n).Converged node ↔
      ∀ key : ServiceKey, key.node = node → s.schedule.mark? key = some .scheduled →
        (key.address, key.service) ∈ s.inventory.services node →
          s.store.active.PollsLocally key.address key.service := by
  constructor
  · intro converged key hk hm hl
    refine (converged key hk ?_).2
    rw [mark?_reconciled_of_quiet hc hq n hk, if_pos ⟨mem_listed.2 ⟨hk, hl⟩, .inl hm⟩]
    rfl
  · intro polled key hk ht
    rw [mark?_reconciled_of_quiet hc hq n hk] at ht
    split at ht
    · next h =>
      have hl := (mem_listed.1 h.1).2
      exact ⟨hl, h.2.elim (fun hm => polled key hk hm hl) id⟩
    · cases ht

end Poller

namespace Engine

open Poller

variable {s t : Poller} {n : Notification} {node : NodeId} {d : Disposition}

/-- A change of packages that is handled has reconciled the node under rebuilt caches. -/
theorem membershipChanged_ok (h : s.Ready) {force : Bool}
    (done : membershipChanged n node force s = .ok d t) :
    t = Poller.reconciled { s with store := s.store.rebuild } node force n := by
  rw [membershipChanged, bind_of_ok (rebuildCaches_eq s)] at done
  cases hr : reconcile node force n { s with store := s.store.rebuild } with
  | ok r u =>
    obtain ⟨-, rfl⟩ := reconcile_ok (h.withStore s.store.rebuild).toPrompt hr
    rw [bind_of_ok (discard_of_ok hr)] at done
    cases done
    rfl
  | error e u =>
    rw [bind_of_error (discard_of_error hr)] at done
    cases done

/-- After a change of categories or assets a node has its listed keys that were scheduled or that a
local package polls now. They are all polled unless one was scheduled that is polled no more. -/
theorem converges_iff (hs : s.Reachable) (hq : s.schedule.Quiet)
    (kind : n.kind = .nodeCategoryMembershipChanged ∨ n.kind = .assetInfoChanged)
    (hn : n.validNode? = some node) :
    (s.Patient → ∃ t, handle n s = .ok .applied t) ∧
    ∀ t, handle n s = .ok .applied t →
      t.store = s.store.rebuild ∧ t.inventory = s.inventory ∧
      (∀ key : ServiceKey, key.node = node → t.schedule.mark? key =
        if (key.address, key.service) ∈ s.inventory.services node ∧
          (s.schedule.mark? key = some .scheduled ∨
            s.store.rebuild.active.PollsLocally key.address key.service) then some .scheduled
        else none) ∧
      (t.Converged node ↔
        ∀ key : ServiceKey, key.node = node → s.schedule.mark? key = some .scheduled →
          (key.address, key.service) ∈ s.inventory.services node →
            s.store.rebuild.active.PollsLocally key.address key.service) := by
  have ready := hs.ready
  have handled : handle n s = membershipChanged n node false s := by
    rcases kind with kind | kind <;>
      rw [handle, kind] <;>
      exact congrFun (given_of_ok (Notification.requireNode_eq_ok.2 hn)) s
  rw [handled]
  refine ⟨fun hp => ⟨_, membershipChanged_eq ready hp false⟩, fun t done => ?_⟩
  obtain rfl := membershipChanged_ok ready done
  have rebuilt := ready.withStore s.store.rebuild
  refine ⟨rfl, rfl, fun key hk => ?_, converged_reconciled_iff rebuilt.covered hq n⟩
  rw [mark?_reconciled_of_quiet rebuilt.covered hq n hk]
  simp only [mem_listed, hk, true_and]

end Engine

namespace Sample

def scheduled (selected : List Address) : Poller :=
  { start with
    store := { start.store with filters := FilterTable.set {} "any" selected }
    schedule := Schedule.run {} [.add http {}, .add icmp {}] }

theorem reachable_scheduled (selected : List Address) : (scheduled selected).Reachable :=
  .acted (.add icmp {}) <| .acted (.add http {}) (.start _ start.inventory {})

end Sample

namespace Engine

open Poller

/-- While the filter selects the address, the node converges. When it selects nothing any more, both
services stay scheduled and no package polls them. -/
theorem http_kept_unpolled :
    (∃ t, handle Sample.change (Sample.scheduled [Sample.address]) = .ok .applied t ∧
      t.Converged ⟨1⟩) ∧
    ∃ t, handle Sample.change (Sample.scheduled []) = .ok .applied t ∧
      t.schedule.mark? Sample.http = some .scheduled ∧
      ¬ t.store.active.PollsLocally Sample.http.address Sample.http.service ∧
      ¬ t.Converged ⟨1⟩ := by
  have valid : Sample.change.validNode? = some ⟨1⟩ := by decide
  constructor
  · obtain ⟨isOk, converges⟩ := converges_iff (Sample.reachable_scheduled [Sample.address])
      (by decide +kernel) (.inl rfl) valid
    obtain ⟨t, done⟩ := isOk (by decide)
    obtain ⟨-, -, -, converged⟩ := converges t done
    have polled : ∀ service ∈ (Sample.scheduled [Sample.address]).inventory.services ⟨1⟩,
        (Sample.scheduled [Sample.address]).store.rebuild.active.PollsLocally
          service.1 service.2 := by decide +kernel
    exact ⟨t, done, converged.2 fun key _ _ hl => polled (key.address, key.service) hl⟩
  · obtain ⟨isOk, converges⟩ := converges_iff (Sample.reachable_scheduled [])
      (by decide +kernel) (.inl rfl) valid
    obtain ⟨t, done⟩ := isOk (by decide)
    obtain ⟨store, -, marks, converged⟩ := converges t done
    have unpolled : ¬ (Sample.scheduled []).store.rebuild.active.PollsLocally
        Sample.http.address Sample.http.service := by decide +kernel
    refine ⟨t, done, ?_, ?_, ?_⟩
    · rw [marks Sample.http rfl]
      decide +kernel
    · rw [store]
      exact unpolled
    · rw [converged]
      exact fun polled => unpolled (polled Sample.http rfl (by decide +kernel) (by decide +kernel))

end Engine

end Polling
