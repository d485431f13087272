import Polling.Config.Basic
import Polling.Error
import Polling.EventId
import Polling.Instant.Basic
import Polling.Text

namespace Polling

inductive NotificationKind where
  | nodeGainedService
  | resumePollingService
  | suspendPollingService
  | serviceDeleted
  | interfaceReparented
  | interfaceDeleted
  | nodeDeleted
  | duplicateNodeDeleted
  | nodeLabelChanged
  | nodeCategoryMembershipChanged
  | assetInfoChanged
  | nodeLocationChanged
  | scheduledOutagesChanged
  | thresholdConfigChanged
  | reloadDaemonConfig
  | reloadDaemonConfigSuccessful
  | reloadDaemonConfigFailed
deriving DecidableEq, Repr

namespace NotificationKind

def name : NotificationKind → String
  | nodeGainedService => "node_gained_service"
  | resumePollingService => "resume_polling_service"
  | suspendPollingService => "suspend_polling_service"
  | serviceDeleted => "service_deleted"
  | interfaceReparented => "interface_reparented"
  | interfaceDeleted => "interface_deleted"
  | nodeDeleted => "node_deleted"
  | duplicateNodeDeleted => "duplicate_node_deleted"
  | nodeLabelChanged => "node_label_changed"
  | nodeCategoryMembershipChanged => "node_category_membership_changed"
  | assetInfoChanged => "asset_info_changed"
  | nodeLocationChanged => "node_location_changed"
  | scheduledOutagesChanged => "scheduled_outages_changed"
  | thresholdConfigChanged => "threshold_config_changed"
  | reloadDaemonConfig => "reload_daemon_config"
  | reloadDaemonConfigSuccessful => "reload_daemon_config_successful"
  | reloadDaemonConfigFailed => "reload_daemon_config_failed"

instance : ToString NotificationKind := ⟨name⟩

/-- The kinds that the engine subscribes to. -/
def subscribed : List NotificationKind :=
  [nodeGainedService, resumePollingService, suspendPollingService, serviceDeleted,
    interfaceReparented, interfaceDeleted, nodeDeleted, duplicateNodeDeleted, nodeLabelChanged,
    nodeCategoryMembershipChanged, assetInfoChanged, nodeLocationChanged, scheduledOutagesChanged,
    thresholdConfigChanged, reloadDaemonConfig]

def all : List NotificationKind :=
  subscribed ++ [reloadDaemonConfigSuccessful, reloadDaemonConfigFailed]

def ofName? (s : String) : Option NotificationKind := all.find? (·.name = s)

theorem ofName?_name (k : NotificationKind) : ofName? k.name = some k := by
  cases k <;> decide +kernel

end NotificationKind

/-- A change of the inventory or of the administration. Which fields have to be given depends on the
kind. -/
structure Notification where
  id : EventId
  kind : NotificationKind
  node : Option NodeId := none
  address : Option Address := none
  service : Option String := none
  params : List Parameter := []
  /-- When the change happened, and so when the outages it resolves ended. -/
  time : Instant
  transaction : Option Int64 := none
deriving DecidableEq, Repr

namespace Notification

def validNode? (n : Notification) : Option NodeId := n.node.filter (·.Valid)

def param? (n : Notification) (name : String) : Option String := Parameter.lookup n.params name

def nodeParam (n : Notification) (name : String) : Except InputError NodeId :=
  match n.param? name with
  | none => .error (.missingParameter name)
  | some value =>
    match NodeId.ofString? value with
    | none => .error (.invalidParameter name value)
    | some id => .ok id

def requireNode (n : Notification) : Except InputError NodeId :=
  match n.validNode? with
  | some id => .ok id
  | none => .error (.missingNode n.kind.name)

def requireAddress (n : Notification) : Except InputError Address :=
  match n.address with
  | some a => .ok a
  | none => .error (.missingInterface n.kind.name)

/-- The service that the notification is about. A blank name names none. -/
def requireService (n : Notification) : Except InputError String :=
  match n.service.filter (¬ Text.AllBlank ·) with
  | some s => .ok s
  | none => .error (.missingService n.kind.name)

/-- The interface and the service that the notification is about, in this order. -/
def requireSubject (n : Notification) : Except InputError (Address × String) := do
  let a ← n.requireAddress
  let s ← n.requireService
  return (a, s)

def requireParam (n : Notification) (name : String) : Except InputError String :=
  match n.param? name with
  | some value => .ok value
  | none => .error (.missingParameter name)

end Notification

end Polling
