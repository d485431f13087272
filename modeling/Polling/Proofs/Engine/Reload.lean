import Polling.Proofs.Engine.Alignment
import Polling.Proofs.Engine.Reconciliation

namespace Polling

namespace Poller

variable {s t : Poller} {n : Notification}

/-- Each node that the first state tracks has in the second exactly the keys that the inventory
lists for it and a local package of the configuration in force polls, all scheduled; and no other
node is tracked. -/
structure Realigned (s t : Poller) : Prop where
  keys : ∀ key : ServiceKey, (s.schedule.node? key.node).isSome →
    t.schedule.mark? key =
      if (key.address, key.service) ∈ s.inventory.services key.node ∧
        (t.store.active.packageFor? key.address key.service).isSome then some .scheduled
      else none
  others : ∀ node, s.schedule.node? node = none → t.schedule.node? node = none

/-- While a node is reconciled others may lose their marked keys or go altogether, but in the end
each node that was tracked has been reconciled under the same configuration. -/
theorem realigned_rescheduled (h : s.Ready) (hp : s.Patient) (n : Notification) (store : Store) :
    Realigned s (s.rescheduled n store) where
  keys := by
    intro key hk
    have aligned : (s.rescheduled n store).Aligned n key.node :=
      aligned_reconciledAll (h.withStore store.rebuild) hp (Schedule.mem_nodeIds.2 hk)
    rw [aligned.marks key rfl]
    simp only [mem_listed, true_and, Engine.inventory_rescheduled, Active.isSome_packageFor?]
  others := by
    intro node hn
    have ready : (s.rescheduled n store).Ready :=
      ready_reconciledAll (h.withStore store.rebuild) hp n _
    rw [← Option.not_isSome_iff_eq_none, ready.trim node, Schedule.tracks_iff]
    rintro ⟨key, hk, ht⟩
    -- A node that is not tracked is not taken up, and its keys stay untracked.
    have out : key.node ∉ s.schedule.nodeIds := by
      rw [Schedule.mem_nodeIds, Scope.mem_node.1 hk, hn]
      simp
    have untracked : s.schedule.mark? key = none := by
      refine Schedule.mark?_eq_none_of_not_tracks ?_ hk
      rw [← h.trim node, hn]
      simp
    have gone : (s.rescheduled n store).schedule.mark? key = none :=
      mark?_reconciledAll_of_untracked (h.withStore store.rebuild) hp out untracked
    rw [gone] at ht
    cases ht

end Poller

namespace Store

/-- Building the caches again changes nothing in a configuration that was just put in force. -/
theorem active_rebuild_install (s : Store) (c : Configuration) :
    (s.install c).rebuild.active = s.derive c :=
  rfl

theorem final_reload (s : Store) :
    Poller.final reload s = match s.read with
      | .ok c => s.install c
      | .error _ => s := by
  unfold Poller.final reload
  cases s.read <;> rfl

end Store

namespace Sample

def document : String :=
  "\x7b\"packages\":[\x7b\"name\":\"main\",\"filter\":\"any\"," ++
    "\"services\":[\x7b\"name\":\"HTTP\"\x7d]\x7d]," ++
    "\"monitors\":[\x7b\"service\":\"HTTP\",\"implementation\":\"icmp\"\x7d]\x7d"

def httpOnly : Configuration where
  packages := [{ name := "main", filter := "any", services := [{ name := "HTTP" }] }]
  monitors := [⟨"HTTP", "icmp"⟩]

/-- The removals of both services are pending, and the document no longer has ICMP. -/
def reloadable : Poller :=
  { pending with
    store := { pending.store with
      source := .memory { text := document }
      catalog := Catalog.register ∅ "icmp" [] .plain
      filters := FilterTable.set {} "any" [address] } }

theorem reachable_reloadable : reloadable.Reachable := .configured _ reachable_pending

theorem read_reloadable : reloadable.store.read = .ok httpOnly := by
  have h : reloadable.store.read.toOption = some httpOnly := by decide +kernel
  cases hr : reloadable.store.read with
  | ok c =>
    rw [hr] at h
    exact congrArg Except.ok (Option.some.inj h)
  | error e =>
    rw [hr] at h
    cases h

/-- This daemon is asked to reload, by its name in other letters. -/
def reload : Notification :=
  { change with
    kind := .reloadDaemonConfig
    params := [⟨"daemon_name", "Pollerd"⟩] }

end Sample

namespace Engine

open Poller

variable {s : Poller}

/-- A reload that this daemon is asked for realigns the tracked nodes under the configuration of the
document, or, if there is none that can be read, only announces why. A changed calendar realigns
them under the new configuration or the old one. -/
theorem reload_realigns (hs : s.Reachable) (hp : s.Patient) (n : Notification) :
    (n.kind = .reloadDaemonConfig → Addressed s n →
      (∀ c, s.store.read = .ok c → ∃ t, handle n s = .ok .applied t ∧
        t.store.active = s.store.derive c ∧ Realigned s t ∧
          ∃ a : Announcement, a.kind = .reloadDaemonConfigSuccessful ∧ t.sent = s.sent ++ [a]) ∧
      ∀ e, s.store.read = .error e → ∃ a : Announcement, a.kind = .reloadDaemonConfigFailed ∧
        Parameter.lookup a.params "reason" = some (Error.config e).message ∧
          handle n s = .error (.config e) { s with sent := s.sent ++ [a] }) ∧
    (n.kind = .scheduledOutagesChanged → ∃ t, handle n s = .ok .applied t ∧ Realigned s t ∧
      t.sent = s.sent ∧ t.store.active = match s.store.read with
        | .ok c => s.store.derive c
        | .error _ => s.store.rebuild.active) := by
  have ready := hs.ready
  refine ⟨fun kind addressed => ⟨fun c hc => ?_, fun e he => ?_⟩, fun kind => ?_⟩
  · have realigned := realigned_rescheduled ready hp n (s.store.install c)
    refine ⟨{ s.rescheduled n (s.store.install c) with sent := s.sent ++ [outcome s none] },
      ?_, ?_, ⟨realigned.keys, realigned.others⟩, outcome s none, rfl, rfl⟩
    · rw [handle, kind]
      exact reloadRequested_of_ok ready hp addressed hc
    · change (s.rescheduled n (s.store.install c)).store.active = s.store.derive c
      rw [store_rescheduled, Store.active_rebuild_install]
  · refine ⟨outcome s (some (.config e)), rfl, rfl, ?_⟩
    rw [handle, kind]
    exact reloadRequested_of_error ready.faults addressed he
  · refine ⟨s.rescheduled n (final Store.reload s.store), ?_, realigned_rescheduled ready hp n _,
      sent_rescheduled s n _, ?_⟩
    · rw [handle, kind]
      exact calendarChanged_eq ready hp
    · rw [store_rescheduled, Store.final_reload]
      cases s.store.read with
      | ok c => exact Store.active_rebuild_install s.store c
      | error e => rfl

/-- With a document HTTP is scheduled again and ICMP goes; without one both stay as they are. -/
theorem http_kept_by_reload :
    (∃ t, handle Sample.reload Sample.reloadable = .ok .applied t ∧
      t.schedule.mark? Sample.http = some .scheduled ∧ t.schedule.mark? Sample.icmp = none) ∧
    ∃ a e, handle Sample.reload Sample.pending =
      .error e { Sample.pending with sent := [a] } := by
  have addressed (s : Poller) (hs : s.settings.daemonName = "pollerd") :
      Addressed s Sample.reload := by
    refine ⟨"Pollerd", rfl, ?_⟩
    rw [hs]
    decide +kernel
  constructor
  · obtain ⟨t, done, active, realigned, -⟩ :=
      ((reload_realigns Sample.reachable_reloadable (by decide) Sample.reload).1 rfl
        (addressed _ rfl)).1 Sample.httpOnly Sample.read_reloadable
    have tracked : (Sample.reloadable.schedule.node? ⟨1⟩).isSome := by decide +kernel
    refine ⟨t, done, ?_, ?_⟩
    · rw [realigned.keys Sample.http tracked, active]
      decide +kernel
    · rw [realigned.keys Sample.icmp tracked, active]
      decide +kernel
  · cases hr : Sample.pending.store.read with
    | ok c =>
      have none_read : Sample.pending.store.read.toOption = none := by decide +kernel
      rw [hr] at none_read
      cases none_read
    | error e =>
      obtain ⟨a, -, -, done⟩ :=
        ((reload_realigns Sample.reachable_pending (by decide) Sample.reload).1 rfl
          (addressed _ rfl)).2 e hr
      exact ⟨a, _, done⟩

end Engine

end Polling
