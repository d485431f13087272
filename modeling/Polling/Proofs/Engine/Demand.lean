import Polling.Proofs.Engine.Handling

namespace Polling

inductive Demand where
  | poll (key : ServiceKey)
  | withdraw (scope : Scope)
  | move (address : Address) (source target : NodeId)
  | label (node : NodeId) (label : String)
  | reconcile (node : NodeId) (force : Bool)
  /-- All nodes are to be scheduled afresh, under a configuration read again if it can be. -/
  | realign
  /-- The same, under a configuration that has to be read again. -/
  | reload
deriving DecidableEq, Repr

namespace Notification

variable {n : Notification}

def subject? (n : Notification) : Option (Address × String) := do
  let address ← n.address
  let service ← n.service.filter (¬ Text.AllBlank ·)
  return (address, service)

/-- What the notification asks for, if it has all that its kind needs. -/
def demand? (n : Notification) : Option Demand :=
  match n.kind with
  | .nodeGainedService | .resumePollingService => do
    let node ← n.validNode?
    let (address, service) ← n.subject?
    return .poll ⟨node, address, service⟩
  | .suspendPollingService | .serviceDeleted => do
    let node ← n.validNode?
    let (address, service) ← n.subject?
    return .withdraw (.service ⟨node, address, service⟩)
  | .interfaceDeleted => do
    let node ← n.validNode?
    let address ← n.address
    return .withdraw (.interface node address)
  | .nodeDeleted | .duplicateNodeDeleted => do
    let node ← n.validNode?
    return .withdraw (.node node)
  | .interfaceReparented => do
    let _ ← n.validNode?
    let address ← n.address
    let source ← (n.nodeParam "old_node_id").toOption
    let target ← (n.nodeParam "new_node_id").toOption
    return .move address source target
  | .nodeLabelChanged => do
    let node ← n.validNode?
    let label ← n.param? "new_node_label"
    return .label node label
  | .nodeCategoryMembershipChanged | .assetInfoChanged => do
    let node ← n.validNode?
    return .reconcile node false
  | .nodeLocationChanged => do
    let node ← n.validNode?
    return .reconcile node true
  | .scheduledOutagesChanged => some .realign
  | .reloadDaemonConfig => some .reload
  | .thresholdConfigChanged | .reloadDaemonConfigSuccessful | .reloadDaemonConfigFailed => none

theorem toOption_requireNode (n : Notification) : n.requireNode.toOption = n.validNode? := by
  unfold requireNode
  cases n.validNode? <;> rfl

theorem toOption_requireAddress (n : Notification) : n.requireAddress.toOption = n.address := by
  unfold requireAddress
  cases n.address <;> rfl

theorem toOption_requireSubject (n : Notification) : n.requireSubject.toOption = n.subject? := by
  unfold requireSubject requireAddress requireService subject?
  cases n.address with
  | none => rfl
  | some address => cases n.service.filter (¬ Text.AllBlank ·) <;> rfl

theorem toOption_requireParam (n : Notification) (name : String) :
    (n.requireParam name).toOption = n.param? name := by
  unfold requireParam
  cases n.param? name <;> rfl

theorem requireNode_eq_ok {node : NodeId} :
    n.requireNode = .ok node ↔ n.validNode? = some node := by
  unfold requireNode
  cases n.validNode? <;> simp

theorem requireAddress_eq_ok {a : Address} : n.requireAddress = .ok a ↔ n.address = some a := by
  unfold requireAddress
  cases n.address <;> simp

theorem requireSubject_eq_ok {subject : Address × String} :
    n.requireSubject = .ok subject ↔ n.subject? = some subject := by
  rw [← toOption_requireSubject]
  cases n.requireSubject <;> simp [Except.toOption]

theorem validNode?_eq_some {node : NodeId} :
    n.validNode? = some node ↔ n.node = some node ∧ node.Valid := by
  rw [validNode?, Option.filter_eq_some_iff, decide_eq_true_eq]

theorem subject?_eq_some {address : Address} {service : String} :
    n.subject? = some (address, service) ↔
      n.address = some address ∧ n.service = some service ∧ ¬ Text.AllBlank service := by
  simp [subject?, Option.bind_eq_some_iff, Option.filter_eq_some_iff, and_assoc]

end Notification

namespace Poller

def met (s : Poller) (n : Notification) : Option Demand → Poller
  | none => s
  | some (.poll key) => if s.schedule.mark? key = some .scheduled then s else s.gain n key
  | some (.withdraw scope) => s.withdraw n scope
  | some (.move address source target) => s.acted (.reparent address source target)
  | some (.label node label) => s.acted (.setLabel node label)
  | some (.reconcile node force) => reconciled { s with store := s.store.rebuild } node force n
  | some .realign => s.rescheduled n (final Store.reload s.store)
  | some .reload =>
    if Engine.Addressed s n then
      match s.store.read with
      | .ok c => { s.rescheduled n (s.store.install c) with
          sent := s.sent ++ [Engine.outcome s none] }
      | .error e => { s with sent := s.sent ++ [Engine.outcome s (some (.config e))] }
    else s

end Poller

namespace Engine

open Poller

variable {s : Poller} {n : Notification}

/-- Without a field that it needs a notification asks for nothing, and nothing is done. -/
theorem final_given_eq_met {α : Type} {field : Except InputError α}
    {next : α → EngineM Disposition} {demand : α → Option Demand}
    (h : ∀ a, field = .ok a → final (given field next) s = s.met n (demand a)) :
    final (given field next) s = s.met n (field.toOption.bind demand) := by
  cases field with
  | error e => rfl
  | ok a => exact h a rfl

theorem final_serviceGained_eq_met (h : s.Ready) (hp : s.Patient) (node : NodeId) :
    final (serviceGained n node) s =
      s.met n (n.subject?.bind fun subject => some (.poll ⟨node, subject.1, subject.2⟩)) := by
  rw [← n.toOption_requireSubject]
  exact final_given_eq_met fun _ hn => final_serviceGained h hp hn

theorem final_serviceRemoved_eq_met (h : s.Ready) (node : NodeId) :
    final (serviceRemoved n node) s =
      s.met n (n.subject?.bind fun subject =>
        some (.withdraw (.service ⟨node, subject.1, subject.2⟩))) := by
  rw [← n.toOption_requireSubject]
  exact final_given_eq_met fun _ hn => final_serviceRemoved h.faults hn

theorem final_interfaceDeleted_eq_met (h : s.Ready) (node : NodeId) :
    final (interfaceDeleted n node) s =
      s.met n (n.address.bind fun address => some (.withdraw (.interface node address))) := by
  rw [← n.toOption_requireAddress]
  exact final_given_eq_met fun _ hn => final_interfaceDeleted h.faults hn

theorem final_labelChanged_eq_met (h : s.Ready) (node : NodeId) :
    final (labelChanged n node) s =
      s.met n ((n.param? "new_node_label").bind fun label => some (.label node label)) := by
  rw [← n.toOption_requireParam]
  exact final_given_eq_met fun _ hn => final_labelChanged h.faults hn

theorem final_interfaceReparented_eq_met (h : s.Ready) :
    final (interfaceReparented n) s =
      s.met n (n.address.bind fun address =>
        (n.nodeParam "old_node_id").toOption.bind fun source =>
          (n.nodeParam "new_node_id").toOption.bind fun target =>
            some (.move address source target)) := by
  rw [← n.toOption_requireAddress]
  refine final_given_eq_met fun address ha => ?_
  rw [given_of_ok ha]
  refine final_given_eq_met fun source hs => ?_
  rw [given_of_ok hs]
  refine final_given_eq_met fun target ht => ?_
  have moved := final_interfaceReparented h.faults ha hs ht
  rw [interfaceReparented, given_of_ok ha, given_of_ok hs] at moved
  exact moved

theorem final_reloadRequested_eq_met (h : s.Ready) (hp : s.Patient) :
    final (reloadRequested n) s = s.met n (some .reload) := by
  rw [met]
  split
  · next ha =>
    cases hc : s.store.read with
    | ok c => exact final_of_ok (reloadRequested_of_ok h hp ha hc)
    | error e => rw [final, reloadRequested_of_error h.faults ha hc]
  · next ha => exact final_reloadRequested_of_other ha

/-- What is done for a node is done if the notification is about one. -/
theorem final_node_eq_met {next : NodeId → EngineM Disposition} {demand : NodeId → Option Demand}
    (h : ∀ node, final (next node) s = s.met n (demand node)) :
    final (given n.requireNode next) s = s.met n (n.validNode?.bind demand) := by
  rw [← n.toOption_requireNode]
  refine final_given_eq_met fun node hn => ?_
  rw [given_of_ok hn]
  exact h node

/-- The engine meets what a notification asks for, and does nothing else. -/
theorem final_handle (h : s.Ready) (hp : s.Patient) (n : Notification) :
    final (handle n) s = s.met n n.demand? := by
  unfold handle Notification.demand?
  cases n.kind with
  | nodeGainedService | resumePollingService =>
    exact final_node_eq_met (final_serviceGained_eq_met h hp)
  | suspendPollingService | serviceDeleted =>
    exact final_node_eq_met (final_serviceRemoved_eq_met h)
  | interfaceDeleted => exact final_node_eq_met (final_interfaceDeleted_eq_met h)
  | nodeDeleted | duplicateNodeDeleted =>
    exact final_node_eq_met fun node => final_nodeDeleted h
  | nodeLabelChanged => exact final_node_eq_met (final_labelChanged_eq_met h)
  | nodeCategoryMembershipChanged | assetInfoChanged =>
    exact final_node_eq_met fun node => final_membershipChanged h hp false
  | thresholdConfigChanged | reloadDaemonConfigSuccessful | reloadDaemonConfigFailed => rfl
  | interfaceReparented => exact final_node_eq_met fun _ => final_interfaceReparented_eq_met h
  | nodeLocationChanged => exact final_node_eq_met fun node => final_membershipChanged h hp true
  | scheduledOutagesChanged => exact final_calendarChanged h hp
  | reloadDaemonConfig => exact final_reloadRequested_eq_met h hp

end Engine

end Polling
