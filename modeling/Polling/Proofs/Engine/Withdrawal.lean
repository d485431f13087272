import Polling.Proofs.Engine.Interleaving
import Polling.Proofs.Engine.Redelivery

namespace Polling

namespace Notification

variable {n : Notification}

/-- The notification has all that its kind needs, and tells that the scope is gone. -/
def Withdraws (n : Notification) : Scope → Prop
  | .service key =>
    (n.kind = .suspendPollingService ∨ n.kind = .serviceDeleted) ∧
      (n.node = some key.node ∧ key.node.Valid) ∧ n.address = some key.address ∧
        n.service = some key.service ∧ ¬ Text.AllBlank key.service
  | .interface node address =>
    n.kind = .interfaceDeleted ∧ (n.node = some node ∧ node.Valid) ∧ n.address = some address
  | .node node =>
    (n.kind = .nodeDeleted ∨ n.kind = .duplicateNodeDeleted) ∧ n.node = some node ∧ node.Valid

end Notification

namespace Poller

open Engine

variable {s : Poller} {n : Notification} {scope : Scope}

theorem verdict_eq_applied_iff :
    s.verdict scope = .applied ↔ ∃ key ∈ scope, (s.schedule.mark? key).isSome := by
  rw [← Schedule.tracks_iff, verdict]
  split
  · next ht => exact iff_of_true rfl ht
  · next ht => exact iff_of_false nofun ht

theorem verdict_eq_discarded_iff :
    s.verdict scope = .discarded scope.untracked ↔ ∀ key ∈ scope, s.schedule.mark? key = none := by
  by_cases ht : s.schedule.Tracks scope
  · rw [verdict_of_tracks ht]
    obtain ⟨key, hk, tracked⟩ := Schedule.tracks_iff.1 ht
    refine iff_of_false nofun fun none => ?_
    rw [none key hk] at tracked
    cases tracked
  · rw [verdict_of_not_tracks ht]
    exact iff_of_true rfl fun key hk => Schedule.mark?_eq_none_of_not_tracks ht hk

/-- What is open in the scope is closed by the notification, what is tracked in it is marked, and
all else is as it was. -/
structure Withdrawn (n : Notification) (scope : Scope) (s t : Poller) : Prop where
  outages : t.outages.outages = s.outages.outages.map fun o =>
    if o.Open ∧ o.key ∈ scope then { o with closure := some ⟨n.time, n.id⟩ } else o
  inside : ∀ key ∈ scope, t.schedule.mark? key =
    if (s.schedule.mark? key).isSome then some .pendingDelete else none
  outside : ∀ key, key ∉ scope → t.schedule.mark? key = s.schedule.mark? key
  nodes : ∀ node, t.schedule.node? node = s.schedule.node? node

theorem withdrawn_withdraw (s : Poller) (n : Notification) (scope : Scope) :
    Withdrawn n scope s (s.withdraw n scope) where
  outages := rfl
  inside key hk := by
    have marked := Schedule.mark?_act_delete s.schedule scope key
    rw [if_pos hk] at marked
    refine marked.trans ?_
    cases s.schedule.mark? key <;> rfl
  outside key hk := by
    have kept := Schedule.mark?_act_delete s.schedule scope key
    rw [if_neg hk] at kept
    exact kept
  nodes node := Schedule.node?_act_delete s.schedule scope node

end Poller

namespace Engine

open Poller

variable {s : Poller} {n : Notification} {scope : Scope}

theorem given_node {node : NodeId} (h : n.node = some node ∧ node.Valid)
    (next : NodeId → EngineM Disposition) : given n.requireNode next = next node :=
  given_of_ok (Notification.requireNode_eq_ok.2 (Notification.validNode?_eq_some.2 h))

/-- Three transitions, and one thing that they do: the scope is withdrawn. -/
theorem handle_of_withdraws (h : s.Ready) (hn : n.Withdraws scope) :
    handle n s = .ok (s.verdict scope) (s.withdraw n scope) := by
  cases scope with
  | service key =>
    obtain ⟨kind, node, address, service⟩ := hn
    have transition : handle n = given n.requireNode (serviceRemoved n) := by
      rcases kind with kind | kind <;> rw [handle, kind]
    have subject : n.requireSubject = .ok (key.address, key.service) :=
      Notification.requireSubject_eq_ok.2 (Notification.subject?_eq_some.2 ⟨address, service⟩)
    rw [transition, given_node node]
    exact serviceRemoved_eq h.faults subject
  | interface m a =>
    obtain ⟨kind, node, address⟩ := hn
    have transition : handle n = given n.requireNode (interfaceDeleted n) := by
      rw [handle, kind]
    rw [transition, given_node node]
    exact interfaceDeleted_eq h.faults (Notification.requireAddress_eq_ok.2 address)
  | node m =>
    obtain ⟨kind, node⟩ := hn
    have transition : handle n = given n.requireNode (nodeDeleted n) := by
      rcases kind with kind | kind <;> rw [handle, kind]
    rw [transition, given_node node]
    exact nodeDeleted_eq h

end Engine

namespace Sample

def halfRemoved : Poller :=
  { start with
    schedule := Schedule.run {} [.add http {}, .add icmp {}, .add { icmp with node := ⟨2⟩ } {},
      .delete (.service icmp)]
    outages := OutageLog.openOutage (OutageLog.openOutage {} icmp change.time)
      { icmp with node := ⟨2⟩ } change.time }

theorem reachable_halfRemoved : halfRemoved.Reachable :=
  .polled _ <| .acted (.delete (.service icmp)) <| .acted (.add { icmp with node := ⟨2⟩ } {}) <|
    .acted (.add icmp {}) <| .acted (.add http {}) <| .start start.store start.inventory {}

end Sample

namespace Engine

open Poller

variable {s : Poller} {n : Notification} {scope : Scope}

/-- A notification that something is gone acts on exactly its scope, and is discarded exactly if no
key of the scope is tracked. -/
theorem withdraws_exactly (hs : s.Reachable) (hn : n.Withdraws scope) :
    ∃ d t, handle n s = .ok d t ∧ Withdrawn n scope s t ∧
      (d = .discarded scope.untracked ↔ ∀ key ∈ scope, s.schedule.mark? key = none) ∧
      (d = .applied ↔ ∃ key ∈ scope, (s.schedule.mark? key).isSome) :=
  ⟨_, _, handle_of_withdraws hs.ready hn, withdrawn_withdraw s n scope, verdict_eq_discarded_iff,
    verdict_eq_applied_iff⟩

/-- The interface with one scheduled and one marked key goes, and its outage ends; the other node
keeps its key and its outage. -/
theorem interface_goes_alone :
    Sample.interfaceGone.Withdraws (.interface ⟨1⟩ Sample.address) ∧
    ∃ t, handle Sample.interfaceGone Sample.halfRemoved = .ok .applied t ∧
      t.schedule.mark? Sample.http = some .pendingDelete ∧
      t.schedule.mark? Sample.icmp = some .pendingDelete ∧
      t.schedule.mark? { Sample.icmp with node := ⟨2⟩ } = some .scheduled ∧
      t.outages.openKeys = [{ Sample.icmp with node := ⟨2⟩ }] := by
  have gone : Sample.interfaceGone.Withdraws (.interface ⟨1⟩ Sample.address) :=
    ⟨rfl, ⟨rfl, by decide⟩, rfl⟩
  obtain ⟨d, t, handled, withdrawn, -, applied⟩ :=
    withdraws_exactly Sample.reachable_halfRemoved gone
  have tracked : (Sample.halfRemoved.schedule.mark? Sample.http).isSome := by decide +kernel
  obtain rfl := applied.2 ⟨Sample.http, ⟨rfl, rfl⟩, tracked⟩
  refine ⟨gone, t, handled, ?_, ?_, ?_, ?_⟩
  · rw [withdrawn.inside Sample.http ⟨rfl, rfl⟩, if_pos tracked]
  · rw [withdrawn.inside Sample.icmp ⟨rfl, rfl⟩]
    decide +kernel
  · rw [withdrawn.outside _ (by decide)]
    decide +kernel
  · rw [OutageLog.openKeys, withdrawn.outages]
    decide +kernel

end Engine

end Polling
