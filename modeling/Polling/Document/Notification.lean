import Polling.Document.Parts
import Polling.Instant.Basic
import Polling.Instant.Parser
import Polling.Json.Printer
import Polling.Json.Reader
import Polling.Notification

namespace Polling

open Json

namespace EventId

def toJson (id : EventId) : Json := text (toString id)

def ofJson? (v : Json) : Option EventId := do ofString? (← v.text?)

end EventId

namespace Instant

def toJson (t : Instant) : Json := text (toString t)

def ofJson? (v : Json) : Option Instant := do ofString? (← v.text?)

end Instant

namespace NotificationKind

def toJson (k : NotificationKind) : Json := text k.name

def ofJson? (v : Json) : Option NotificationKind := do ofName? (← v.choice?)

end NotificationKind

namespace Notification

def toJson (n : Notification) : Json :=
  record ([("id", n.id.toJson), ("kind", n.kind.toJson)] ++
    optionalField "node_id" (n.node.map NodeId.toJson) ++
    optionalField "interface" (n.address.map Address.toJson) ++
    optionalField "service" (n.service.map text) ++
    listField "params" (n.params.map Parameter.toJson) ++
    [("time", n.time.toJson)] ++
    optionalField "transaction_id" (n.transaction.map fun t => .int t.toInt))

def ofJson? (v : Json) : Option Notification := do
  let fields ← v.fields? ["id", "kind", "node_id", "interface", "service", "params", "time",
    "transaction_id"]
  return {
    id := ← fields.required "id" EventId.ofJson?
    kind := ← fields.required "kind" NotificationKind.ofJson?
    node := ← fields.withDefault "node_id" none (nullable? NodeId.ofJson?)
    address := ← fields.withDefault "interface" none (nullable? Address.ofJson?)
    service := ← fields.withDefault "service" none (nullable? text?)
    params := ← fields.withDefault "params" [] (list? Parameter.ofJson?)
    time := ← fields.required "time" Instant.ofJson?
    transaction := ← fields.withDefault "transaction_id" none (nullable? fun v => do
      return Int64.ofInt (← v.int? Int64.minValue.toInt Int64.maxValue.toInt)) }

def render (n : Notification) : String := n.toJson.compact

def parse? (document : String) : Option Notification := do ofJson? (← Json.ofString? document)

end Notification

end Polling
