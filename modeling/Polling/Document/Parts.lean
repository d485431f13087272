import Polling.Address.Basic
import Polling.Address.Parser
import Polling.Config.Basic
import Polling.Json.Basic
import Polling.ServiceKey

namespace Polling

open Json

/-- A field that is left out when it has no value. -/
def optionalField (name : String) (value : Option Json) : List (String × Json) :=
  (value.map (name, ·)).toList

def listField (name : String) (items : List Json) : List (String × Json) :=
  if items.isEmpty then [] else [(name, .array items)]

namespace Address

def toJson (a : Address) : Json := text (toString a)

def ofJson? (v : Json) : Option Address := do ofString? (← v.text?)

end Address

namespace AddressRange

def toJson (r : AddressRange) : Json :=
  record [("begin", r.first.toJson), ("end", r.last.toJson)]

def ofJson? (v : Json) : Option AddressRange := do
  let fields ← v.fields? ["begin", "end"]
  return {
    first := ← fields.required "begin" Address.ofJson?
    last := ← fields.required "end" Address.ofJson? }

end AddressRange

namespace NodeId

def toJson (n : NodeId) : Json := .int n.number.toNat

def ofJson? (v : Json) : Option NodeId := do return ⟨(← v.natBelow? UInt32.size).toUInt32⟩

end NodeId

namespace ServiceKey

def ofJson? (v : Json) : Option ServiceKey := do
  let fields ← v.fields? ["node_id", "ip", "service"]
  return {
    node := ← fields.required "node_id" NodeId.ofJson?
    address := ← fields.required "ip" Address.ofJson?
    service := ← fields.required "service" text? }

end ServiceKey

namespace Parameter

def toJson (p : Parameter) : Json := record [("key", text p.key), ("value", text p.value)]

def ofJson? (v : Json) : Option Parameter := do
  let fields ← v.fields? ["key", "value"]
  return { key := ← fields.required "key" text?, value := ← fields.required "value" text? }

end Parameter

end Polling
