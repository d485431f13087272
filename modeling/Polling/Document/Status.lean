import Polling.Document.Configuration
import Polling.Document.Notification
import Polling.Engine.Transition

namespace Polling

open Json

namespace Json

def texts (ss : List String) : Json := .array (ss.map text)

def shown {α : Type} [ToString α] (a : α) : Json := text (toString a)

def ofNat (n : Nat) : Json := .int n

def orNull {α : Type} (write : α → Json) : Option α → Json
  | none => .null
  | some a => write a

end Json

namespace Error

/-- The names of the classes that an error belongs to. -/
def classes (e : Error) : List String :=
  (match e with
    | input _ => ["validation"]
    | execution _ => ["execution"]
    | config _ => ["config"]
    | internal _ => ["internal"]) ++
    if e.IsDeletionTimeout then ["deletion_timeout"] else []

end Error

namespace AddressMap

def toJson (m : AddressMap) : Json :=
  record (m.toList.map fun e => (e.1, .array (e.2.toList.map Address.toJson)))

end AddressMap

namespace Locator

def toJson (l : Locator) : Json :=
  record [
    ("service", text l.service),
    ("implementation", text l.implementation),
    ("contexts", .array (l.contexts.map DistributionContext.toJson)),
    ("monitor", text l.implementation)]

end Locator

namespace Options

def toJson (o : Options) : Json :=
  record [
    ("local_server", text o.localServer),
    ("verify_server", .bool o.verifyServer),
    ("distribution_context", o.context.toJson)]

end Options

namespace NodeInfo

def fields (i : NodeInfo) : List (String × Json) :=
  [("label", orNull text i.label), ("location", orNull text i.location)]

end NodeInfo

namespace Schedule

def stateName : Option Mark → String
  | none => "untracked"
  | some .scheduled => "scheduled"
  | some .pendingDelete => "pending_delete"

def serviceToJson (s : Schedule) (key : ServiceKey) : Json :=
  .array [key.address.toJson, text key.service, text (stateName (s.mark? key))]

def toJson (s : Schedule) : Json :=
  .array (s.nodes.toList.map fun (node, info) =>
    record ([("node", node.toJson)] ++ info.fields ++
      [("services", .array ((s.keysIn (.node node)).map s.serviceToJson))]))

end Schedule

namespace InventoryNode

def toJson (n : InventoryNode) : Json :=
  record (n.info.fields ++
    [("services", texts (n.services.map fun s => toString s.1 ++ "/" ++ s.2))])

end InventoryNode

namespace Outage

def toJson (o : Outage) : Json :=
  record [
    ("key", shown o.key),
    ("open", .bool o.Open),
    ("opened_at", o.openedAt.toJson),
    ("closed_at", orNull (fun c => c.time.toJson) o.closure),
    ("closed_by", orNull (fun c => c.event.toJson) o.closure)]

end Outage

namespace Reconciliation

def toJson (r : Reconciliation) : Json :=
  record [
    ("removed", .array (r.removed.map shown)),
    ("rescheduled", .array (r.rescheduled.map shown)),
    ("scheduled", .array (r.scheduled.map shown)),
    ("unpolled", .array (r.unpolled.map shown))]

end Reconciliation

namespace Disposition

def name : Disposition → String
  | applied => "applied"
  | discarded _ => "discarded"
  | ignored => "ignored"

def toJson (d : Disposition) : Json :=
  record ([
    ("disposition", text d.name),
    ("applied", .bool (d.name = "applied")),
    ("discarded", .bool (d.name = "discarded"))] ++
    match d with
    | discarded reason => [("reason", text reason.message)]
    | _ => [])

end Disposition

end Polling
