import Polling.Schedule.Basic

namespace Polling

structure InventoryNode where
  info : NodeInfo := {}
  services : List (Address × String) := []
deriving DecidableEq, Repr

abbrev Inventory := Std.ExtTreeMap NodeId InventoryNode

namespace Inventory

def entry (i : Inventory) (node : NodeId) : InventoryNode := i.getD node {}

def services (i : Inventory) (node : NodeId) : List (Address × String) := (i.entry node).services

/-- Enters a node, or replaces what is known of it. Its services stay. -/
def addNode (i : Inventory) (node : NodeId) (info : NodeInfo) : Inventory :=
  i.insert node { i.entry node with info }

def addService (i : Inventory) (key : ServiceKey) : Inventory :=
  let entry := i.entry key.node
  let service := (key.address, key.service)
  i.insert key.node
    (if service ∈ entry.services then entry
    else { entry with services := entry.services ++ [service] })

def removeService (i : Inventory) (key : ServiceKey) : Inventory :=
  i.modify key.node fun entry =>
    { entry with services := entry.services.filter (· ≠ (key.address, key.service)) }

def setLocation (i : Inventory) (node : NodeId) (location : String) :
    Except CallError Inventory :=
  match i[node]? with
  | none => .error (.nodeNotFound node)
  | some entry => .ok (i.insert node { entry with info.location := some location })

def removeNode (i : Inventory) (node : NodeId) : Inventory := i.erase node

end Inventory

end Polling
