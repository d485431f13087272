import Polling.Error
import Std.Data.ExtTreeMap

namespace Polling

/-- The part of the schedule that a removal is for. -/
inductive Scope where
  | service (key : ServiceKey)
  | interface (node : NodeId) (address : Address)
  | node (node : NodeId)
deriving DecidableEq, Repr

namespace Scope

def owner : Scope → NodeId
  | service key => key.node
  | interface n _ => n
  | node n => n

def Contains : Scope → ServiceKey → Prop
  | service k, key => key = k
  | interface n a, key => key.node = n ∧ key.address = a
  | node n, key => key.node = n

instance : Membership ServiceKey Scope := ⟨Contains⟩

instance (key : ServiceKey) : (scope : Scope) → Decidable (key ∈ scope)
  | service k => inferInstanceAs (Decidable (key = k))
  | interface n a => inferInstanceAs (Decidable (key.node = n ∧ key.address = a))
  | node n => inferInstanceAs (Decidable (key.node = n))

@[simp] theorem mem_service {key k : ServiceKey} : key ∈ service k ↔ key = k := Iff.rfl

@[simp] theorem mem_interface {key : ServiceKey} {n : NodeId} {a : Address} :
    key ∈ interface n a ↔ key.node = n ∧ key.address = a := Iff.rfl

@[simp] theorem mem_node {key : ServiceKey} {n : NodeId} : key ∈ node n ↔ key.node = n := Iff.rfl

/-- All keys of a scope are on its node. -/
theorem node_eq_owner {key : ServiceKey} : {scope : Scope} → key ∈ scope → key.node = scope.owner
  | service _, h => congrArg ServiceKey.node h
  | interface _ _, h => h.1
  | node _, h => h

def notFound : Scope → CallError
  | service key => .serviceNotFound key
  | interface n a => .interfaceNotFound n a
  | node n => .nodeNotFound n

end Scope

inductive Mark where
  | scheduled
  /-- The removal of the key is requested and not yet confirmed. -/
  | pendingDelete
deriving DecidableEq, Repr

structure NodeInfo where
  label : Option String := none
  location : Option String := none
deriving DecidableEq, Repr

inductive Change where
  | schedule (key : ServiceKey)
  | delete (scope : Scope)
  | reparent (address : Address) (source target : NodeId)
  | setLabel (node : NodeId) (label : String)
deriving DecidableEq, Repr

instance : ToString Change where
  toString
    | .schedule key => s!"schedule {key}"
    | .delete (.service key) => s!"delete {key}"
    | .delete (.interface node address) => s!"delete_interface {node}/{address}"
    | .delete (.node node) => s!"delete_node {node}"
    | .reparent address source target => s!"reparent {address} {source}->{target}"
    | .setLabel node label => s!"set_label {node} {label}"

/-- The tracked keys and nodes, the removals to be carried out and the changes made, both oldest
first. A key without a mark is untracked, and a node is tracked as long as one of its keys is. -/
structure Schedule where
  marks : Std.ExtTreeMap ServiceKey Mark := ∅
  nodes : Std.ExtTreeMap NodeId NodeInfo := ∅
  queue : List Scope := []
  journal : List Change := []

namespace Schedule

def mark? (s : Schedule) (key : ServiceKey) : Option Mark := s.marks[key]?

def keys (s : Schedule) : List ServiceKey := s.marks.keys

def keysIn (s : Schedule) (scope : Scope) : List ServiceKey := s.keys.filter (· ∈ scope)

def Tracks (s : Schedule) (scope : Scope) : Prop := ∃ key ∈ s.keys, key ∈ scope

instance (s : Schedule) (scope : Scope) : Decidable (s.Tracks scope) :=
  inferInstanceAs (Decidable (∃ key ∈ s.keys, key ∈ scope))

theorem mem_keys {s : Schedule} {key : ServiceKey} : key ∈ s.keys ↔ (s.mark? key).isSome := by
  simp [keys, mark?]

theorem tracks_iff {s : Schedule} {scope : Scope} :
    s.Tracks scope ↔ ∃ key ∈ scope, (s.mark? key).isSome := by
  simp only [Tracks, mem_keys]
  exact exists_congr fun key => And.comm

def nodeIds (s : Schedule) : List NodeId := s.nodes.keys

def node? (s : Schedule) (node : NodeId) : Option NodeInfo := s.nodes[node]?

/-- Drops what is known of a node that has no key left. -/
def prune (s : Schedule) (node : NodeId) : Schedule :=
  if s.Tracks (.node node) then s else { s with nodes := s.nodes.erase node }

@[simp] theorem mark?_prune (s : Schedule) (node : NodeId) (key : ServiceKey) :
    (s.prune node).mark? key = s.mark? key := by
  unfold prune
  split <;> rfl

/-- Schedules a key. A node that is new to the schedule comes with the given information. There is
no result if the key is tracked already. -/
def add? (s : Schedule) (key : ServiceKey) (info : NodeInfo) : Option Schedule :=
  if (s.mark? key).isSome then none
  else
    some { s with
      marks := s.marks.insert key .scheduled
      nodes := s.nodes.insertIfNew key.node info
      journal := s.journal ++ [.schedule key] }

/-- A key that is added is scheduled, and no other key changes. -/
theorem mark?_of_add? {s t : Schedule} {key : ServiceKey} {info : NodeInfo}
    (h : s.add? key info = some t) (k : ServiceKey) :
    t.mark? k = if k = key then some .scheduled else s.mark? k := by
  unfold add? at h
  split at h
  · contradiction
  · cases h
    rw [mark?, Std.ExtTreeMap.getElem?_insert]
    by_cases hk : k = key
    · subst hk
      rw [if_pos Std.ReflOrd.compare_self, if_pos rfl]
    · rw [if_neg hk, if_neg fun e => hk (Std.LawfulEqOrd.eq_of_compare e).symm]
      rfl

def setLabel (s : Schedule) (node : NodeId) (label : String) : Except CallError Schedule :=
  match s.node? node with
  | none => .error (.nodeNotFound node)
  | some info =>
    .ok { s with
      nodes := s.nodes.insert node { info with label := some label }
      journal := s.journal ++ [.setLabel node label] }

theorem mark?_of_setLabel {s t : Schedule} {node : NodeId} {label : String}
    (h : s.setLabel node label = .ok t) (k : ServiceKey) : t.mark? k = s.mark? k := by
  unfold setLabel at h
  split at h
  · contradiction
  · cases h
    rfl

def scheduledAt (s : Schedule) (node : NodeId) (address : Address) : List ServiceKey :=
  s.keys.filter fun key => key ∈ Scope.interface node address ∧ s.mark? key = some .scheduled

/-- Moves an interface to another tracked node. Its scheduled services are scheduled there; those
that were to be removed are dropped, because their removals are queued for the node they leave. -/
def reparent (s : Schedule) (address : Address) (source target : NodeId) :
    Except CallError Schedule :=
  if s.node? target = none then .error (.nodeNotFound target)
  else if s.node? source = none then .error (.nodeNotFound source)
  else if ¬ s.Tracks (.interface source address) then .error (.interfaceNotFound source address)
  else if source = target then .ok s
  else
    let left := s.marks.filter fun key _ => key ∉ Scope.interface source address
    let moved := (s.scheduledAt source address).map fun key => { key with node := target }
    let marks := moved.foldl (fun marks key => marks.insert key .scheduled) left
    let journal := s.journal ++ [.reparent address source target]
    .ok ({ s with marks, journal }.prune source)

end Schedule

end Polling
