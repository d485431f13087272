import Polling.Engine.Reconciliation

namespace Polling

inductive DiscardReason where
  | malformed (cause : InputError)
  | otherDaemon
  | serviceUntracked (key : ServiceKey)
  | interfaceUntracked (node : NodeId) (address : Address)
  | nodeUntracked (node : NodeId)
  | oldNodeUntracked (node : NodeId)
  | newNodeUntracked (node : NodeId)
deriving DecidableEq, Repr

def DiscardReason.message : DiscardReason → String
  | malformed cause => cause.message
  | otherDaemon => "reload request names another daemon"
  | serviceUntracked key => s!"service {key} is not tracked"
  | interfaceUntracked node address => s!"interface {address} is not tracked on node {node}"
  | nodeUntracked node => s!"node {node} is not tracked"
  | oldNodeUntracked node => s!"old node {node} is not tracked"
  | newNodeUntracked node => s!"new node {node} is not tracked"

inductive Disposition where
  /-- The transition took place, or had taken place before. -/
  | applied
  | discarded (reason : DiscardReason)
  | ignored
deriving DecidableEq, Repr

namespace Engine

open Poller

/-- Goes on with a field of the notification, which is discarded if it lacks the field. -/
def given {α : Type} (field : Except InputError α) (next : α → EngineM Disposition) :
    EngineM Disposition :=
  match field with
  | .ok a => next a
  | .error cause => return .discarded (.malformed cause)

def serviceGained (n : Notification) (node : NodeId) : EngineM Disposition :=
  given n.requireSubject fun (address, service) => do
    let key := ⟨node, address, service⟩
    match ← markOf key with
    | some .scheduled => return .applied
    | some .pendingDelete => awaitDeletion key
    | none => pure ()
    let label ← nodeLabel node n
    let location ← nodeLocation node
    discard (scheduleService key { label, location })
    return .applied

def serviceRemoved (n : Notification) (node : NodeId) : EngineM Disposition :=
  given n.requireSubject fun (address, service) => do
    let key := ⟨node, address, service⟩
    closeOutages (.service key) n
    match ← markOf key with
    | none => return .discarded (.serviceUntracked key)
    | some .pendingDelete => return .applied
    | some .scheduled =>
      requestDeletion key
      return .applied

def interfaceDeleted (n : Notification) (node : NodeId) : EngineM Disposition :=
  given n.requireAddress fun address => do
    closeOutages (.interface node address) n
    if ¬ (← hasInterface node address) then return .discarded (.interfaceUntracked node address)
    delete (.interface node address)
    return .applied

def nodeDeleted (n : Notification) (node : NodeId) : EngineM Disposition := do
  closeOutages (.node node) n
  if (← trackedNode node).isNone then return .discarded (.nodeUntracked node)
  delete (.node node)
  return .applied

def interfaceReparented (n : Notification) : EngineM Disposition :=
  given n.requireAddress fun address =>
  given (n.nodeParam "old_node_id") fun source =>
  given (n.nodeParam "new_node_id") fun target => do
    if source = target then return .applied
    if (← trackedNode source).isNone then return .discarded (.oldNodeUntracked source)
    if (← trackedNode target).isNone then return .discarded (.newNodeUntracked target)
    if ¬ (← hasInterface source address) then
      return .discarded (.interfaceUntracked source address)
    reparent address source target
    return .applied

def labelChanged (n : Notification) (node : NodeId) : EngineM Disposition :=
  given (n.requireParam "new_node_label") fun label => do
    if (← trackedNode node).isNone then return .discarded (.nodeUntracked node)
    setLabel node label
    return .applied

def membershipChanged (n : Notification) (node : NodeId) (force : Bool) : EngineM Disposition := do
  rebuildCaches
  discard (reconcile node force n)
  return .applied

/-- The calendar of scheduled outages has changed. The configuration is read again if it can be. -/
def calendarChanged (n : Notification) : EngineM Disposition := do
  discard (attempt (onStore Store.reload) : EngineM _)
  rescheduleAll n
  return .applied

def reloadRequested (n : Notification) : EngineM Disposition := do
  let daemon := (← get).settings.daemonName
  if ¬ ∃ name ∈ n.param? "daemon_name", Text.Caseless name daemon then
    return .discarded .otherDaemon
  let result ← (attempt (do onStore Store.reload; rescheduleAll n) : EngineM _)
  let location := (← get).store.location
  match result with
  | .ok () =>
    discard (attempt (announce { failure := none, daemon, location }) : EngineM _)
    return .applied
  | .error e =>
    discard (attempt (announce { failure := some e, daemon, location }) : EngineM _)
    throw e

/-- Carries out the transition that a notification calls for. One that lacks a field its kind needs,
or is about something the schedule does not hold, is discarded. -/
def handle (n : Notification) : EngineM Disposition :=
  match n.kind with
  | .nodeGainedService | .resumePollingService => given n.requireNode (serviceGained n)
  | .suspendPollingService | .serviceDeleted => given n.requireNode (serviceRemoved n)
  | .interfaceReparented => given n.requireNode fun _ => interfaceReparented n
  | .interfaceDeleted => given n.requireNode (interfaceDeleted n)
  | .nodeDeleted | .duplicateNodeDeleted => given n.requireNode (nodeDeleted n)
  | .nodeLabelChanged => given n.requireNode (labelChanged n)
  | .nodeCategoryMembershipChanged | .assetInfoChanged =>
    given n.requireNode fun node => membershipChanged n node false
  | .nodeLocationChanged => given n.requireNode fun node => membershipChanged n node true
  | .scheduledOutagesChanged => calendarChanged n
  | .reloadDaemonConfig => reloadRequested n
  | .thresholdConfigChanged => return .applied
  | .reloadDaemonConfigSuccessful | .reloadDaemonConfigFailed => return .ignored

end Engine

end Polling
