import Polling.ServiceKey

namespace Polling

/-- A failure of the tree of scheduled services, the outage log, the inventory, the filters or the
event bus. -/
inductive CallError where
  | nodeNotFound (node : NodeId)
  | interfaceNotFound (node : NodeId) (address : Address)
  | serviceNotFound (key : ServiceKey)
  | filterFailed (detail : String)
  | backendFailed (detail : String)
  | connectionFailed (detail : String)
deriving DecidableEq, Repr

def CallError.message : CallError → String
  | nodeNotFound node => s!"Node not found: {node}"
  | interfaceNotFound node address => s!"Interface {address} not found on node {node}"
  | serviceNotFound key => s!"Service not found: {key}"
  | filterFailed detail => s!"Filter error: {detail}"
  | backendFailed detail => s!"Storage backend error: {detail}"
  | connectionFailed detail => s!"Connection error: {detail}"

inductive InputError where
  | missingNode (kind : String)
  | missingInterface (kind : String)
  | missingService (kind : String)
  | missingParameter (name : String)
  | invalidParameter (name value : String)
  | unknownKind (value : String)
deriving DecidableEq, Repr

def InputError.message : InputError → String
  | missingNode kind => s!"Notification '{kind}' carries no node id"
  | missingInterface kind => s!"Notification '{kind}' carries no interface address"
  | missingService kind => s!"Notification '{kind}' carries no service name"
  | missingParameter name => s!"Required parameter '{name}' is missing"
  | invalidParameter name value => s!"Parameter '{name}' has invalid value '{value}'"
  | unknownKind value => s!"Unknown notification kind '{value}'"

inductive ExecutionError where
  | monitorUnavailable (implementation reason : String)
  /-- A deletion was not confirmed in time; the wait is in milliseconds. -/
  | deletionTimeout (key : ServiceKey) (waited : Nat)
  | callFailed (cause : CallError)
  | queueFull (path : String) (capacity : Nat)
  | disconnected (path : String)
deriving DecidableEq, Repr

def ExecutionError.message : ExecutionError → String
  | monitorUnavailable implementation reason =>
    s!"Monitor implementation '{implementation}' unavailable: {reason}"
  | deletionTimeout key waited => s!"Deletion of {key} not confirmed after {waited}ms"
  | callFailed cause => s!"Storage error: {cause.message}"
  | queueFull path capacity => s!"Queue full on path '{path}' (capacity {capacity})"
  | disconnected path => s!"Worker path '{path}' disconnected"

inductive ConfigError where
  | unreadable (location detail : String)
  | malformed (detail : String)
  | invalid (detail : String)
  | unwritable (detail : String)
  | notPersisted (location detail : String)
deriving DecidableEq, Repr

def ConfigError.message : ConfigError → String
  | unreadable location detail => s!"Failed to read configuration from {location}: {detail}"
  | malformed detail => s!"Failed to parse configuration: {detail}"
  | invalid detail => s!"Invalid configuration: {detail}"
  | unwritable detail => s!"Failed to serialize configuration: {detail}"
  | notPersisted location detail => s!"Failed to persist configuration to {location}: {detail}"

inductive Error where
  | input (cause : InputError)
  | execution (cause : ExecutionError)
  | config (cause : ConfigError)
  | internal (detail : String)
deriving DecidableEq, Repr

namespace Error

def message : Error → String
  | input cause => s!"Validation error: {cause.message}"
  | execution cause => s!"Execution error: {cause.message}"
  | config cause => s!"Configuration error: {cause.message}"
  | internal detail => s!"Internal error: {detail}"

def ofCall (cause : CallError) : Error := execution (.callFailed cause)

def IsDeletionTimeout : Error → Prop
  | execution (.deletionTimeout _ _) => True
  | _ => False

instance : DecidablePred IsDeletionTimeout
  | execution (.deletionTimeout _ _) => .isTrue trivial
  | execution (.monitorUnavailable _ _) => .isFalse id
  | execution (.callFailed _) => .isFalse id
  | execution (.queueFull _ _) => .isFalse id
  | execution (.disconnected _) => .isFalse id
  | input _ => .isFalse id
  | config _ => .isFalse id
  | internal _ => .isFalse id

end Error

end Polling
