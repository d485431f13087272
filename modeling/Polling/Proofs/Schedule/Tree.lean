import Polling.Schedule.Deletion

namespace Polling

abbrev ServiceMarks := Std.ExtTreeMap String Mark

/-- A node of the tree: what is known of it, and its interfaces. -/
structure Branch where
  info : NodeInfo
  interfaces : Std.ExtTreeMap Address ServiceMarks := ∅

/-- Nodes by number, with the removals to be carried out and the changes made, both oldest first. -/
structure Tree where
  nodes : Std.ExtTreeMap NodeId Branch := ∅
  queue : List Scope := []
  journal : List Change := []

namespace Branch

def mark? (b : Branch) (address : Address) (service : String) : Option Mark :=
  b.interfaces[address]?.bind fun services => services[service]?

def keys (b : Branch) (node : NodeId) : List ServiceKey :=
  b.interfaces.toList.flatMap fun entry =>
    entry.2.keys.map fun service => ⟨node, entry.1, service⟩

def add (b : Branch) (address : Address) (service : String) : Branch :=
  { b with
    interfaces := b.interfaces.alter address fun services =>
      some ((services.getD ∅).insert service .scheduled) }

def request (b : Branch) (scope : Scope) : Branch :=
  { b with
    interfaces := b.interfaces.map fun address services =>
      services.map fun service mark =>
        if (⟨scope.owner, address, service⟩ : ServiceKey) ∈ scope then .pendingDelete else mark }

/-- Drops the marked services of a scope, and then the interfaces that have none left. -/
def drop (b : Branch) (scope : Scope) : Branch :=
  let left := b.interfaces.map fun address services =>
    services.filter fun service mark =>
      ¬ ((⟨scope.owner, address, service⟩ : ServiceKey) ∈ scope ∧ mark = .pendingDelete)
  { b with interfaces := left.filter fun _ services => services ≠ ∅ }

def without (b : Branch) (address : Address) : Branch :=
  { b with interfaces := b.interfaces.erase address }

def receive (b : Branch) (address : Address) (services : ServiceMarks) : Branch :=
  { b with interfaces := b.interfaces.alter address fun own => some (own.getD ∅ ∪ services) }

def setLabel (b : Branch) (label : String) : Branch :=
  { b with info := { b.info with label := some label } }

/-- The branch, if it has an interface. -/
def pruned (b : Branch) : Option Branch := if b.interfaces = ∅ then none else some b

end Branch

namespace Tree

def mark? (t : Tree) (key : ServiceKey) : Option Mark :=
  t.nodes[key.node]?.bind fun b => b.mark? key.address key.service

def node? (t : Tree) (node : NodeId) : Option NodeInfo := t.nodes[node]?.map Branch.info

def HasInterface (t : Tree) (node : NodeId) (address : Address) : Prop :=
  ∃ b ∈ t.nodes[node]?, address ∈ b.interfaces

instance (t : Tree) (node : NodeId) (address : Address) : Decidable (t.HasInterface node address) :=
  inferInstanceAs (Decidable (∃ b ∈ t.nodes[node]?, address ∈ b.interfaces))

def nodeIds (t : Tree) : List NodeId := t.nodes.keys

def keysOf (t : Tree) (node : NodeId) : List ServiceKey :=
  t.nodes[node]?.elim [] fun b => b.keys node

def keys (t : Tree) : List ServiceKey := t.nodes.toList.flatMap fun entry => entry.2.keys entry.1

def Tracks (t : Tree) : Scope → Prop
  | .service key => (t.mark? key).isSome
  | .interface node address => t.HasInterface node address
  | .node node => (t.node? node).isSome

instance (t : Tree) : (scope : Scope) → Decidable (t.Tracks scope)
  | .service key => inferInstanceAs (Decidable (t.mark? key).isSome)
  | .interface node address => inferInstanceAs (Decidable (t.HasInterface node address))
  | .node node => inferInstanceAs (Decidable (t.node? node).isSome)

def Requested (t : Tree) : Scope → Prop
  | .service key => t.mark? key = some .pendingDelete
  | _ => False

instance (t : Tree) : (scope : Scope) → Decidable (t.Requested scope)
  | .service key => inferInstanceAs (Decidable (t.mark? key = some .pendingDelete))
  | .interface _ _ => inferInstanceAs (Decidable False)
  | .node _ => inferInstanceAs (Decidable False)

/-- Puts a branch in the place of another, either of which may be missing. -/
def alter (t : Tree) (node : NodeId) (f : Option Branch → Option Branch) : Tree :=
  { t with nodes := t.nodes.alter node f }

def record (t : Tree) (change : Change) : Tree := { t with journal := t.journal ++ [change] }

/-- Schedules a key. A node that is new to the tree comes with the given information. -/
def insert (t : Tree) (key : ServiceKey) (info : NodeInfo) : Tree :=
  t.alter key.node fun b => some ((b.getD { info }).add key.address key.service)

def add? (t : Tree) (key : ServiceKey) (info : NodeInfo) : Option Tree :=
  if (t.mark? key).isSome then none else some ((t.insert key info).record (.schedule key))

def request (t : Tree) (scope : Scope) : Tree :=
  t.alter scope.owner (Option.map (·.request scope))

def delete (t : Tree) (scope : Scope) : Except CallError Tree :=
  if ¬ t.Tracks scope then .error scope.notFound
  else if t.Requested scope then .ok t
  else .ok { (t.request scope).record (.delete scope) with queue := t.queue ++ [scope] }

def relabel (t : Tree) (node : NodeId) (label : String) : Tree :=
  t.alter node (Option.map (·.setLabel label))

def setLabel (t : Tree) (node : NodeId) (label : String) : Except CallError Tree :=
  if t.node? node = none then .error (.nodeNotFound node)
  else .ok ((t.relabel node label).record (.setLabel node label))

def scheduledAt (t : Tree) (node : NodeId) (address : Address) : ServiceMarks :=
  ((t.nodes[node]?.bind fun b => b.interfaces[address]?).getD ∅).filter fun _ mark =>
    mark = .scheduled

/-- Takes an interface away from its node, which is pruned. -/
def detach (t : Tree) (node : NodeId) (address : Address) : Tree :=
  t.alter node (Option.bind · fun b => (b.without address).pruned)

def attach (t : Tree) (node : NodeId) (address : Address) (services : ServiceMarks) : Tree :=
  if services = ∅ then t else t.alter node (Option.map (·.receive address services))

/-- Moves an interface. Its scheduled services join what is there on the other node. -/
def move (t : Tree) (address : Address) (source target : NodeId) : Tree :=
  (t.detach source address).attach target address (t.scheduledAt source address)

def reparent (t : Tree) (address : Address) (source target : NodeId) : Except CallError Tree :=
  if t.node? target = none then .error (.nodeNotFound target)
  else if t.node? source = none then .error (.nodeNotFound source)
  else if ¬ t.HasInterface source address then .error (.interfaceNotFound source address)
  else if source = target then .ok t
  else .ok ((t.move address source target).record (.reparent address source target))

def drop (t : Tree) (scope : Scope) : Tree :=
  t.alter scope.owner (Option.bind · fun b => (b.drop scope).pruned)

def advance (t : Tree) (count : Nat) : Tree :=
  (t.queue.take count).foldl drop { t with queue := t.queue.drop count }

end Tree

namespace Branch

variable {b : Branch}

theorem mark?_add (b : Branch) (address : Address) (service : String) (a : Address) (v : String) :
    (b.add address service).mark? a v =
      if a = address ∧ v = service then some .scheduled else b.mark? a v := by
  rw [mark?, add, Std.ExtTreeMap.getElem?_alter]
  by_cases ha : address = a
  · subst ha
    simp only [Std.ReflOrd.compare_self, if_true, Option.bind_some, true_and,
      Std.ExtTreeMap.getElem?_insert, Std.compare_eq_iff_eq, @eq_comm _ v service, mark?]
    cases b.interfaces[address]? <;> simp
  · simp only [Std.compare_eq_iff_eq, ha, if_false, Ne.symm ha, false_and, mark?]

theorem mark?_request (b : Branch) (scope : Scope) (a : Address) (v : String) :
    (b.request scope).mark? a v =
      if (⟨scope.owner, a, v⟩ : ServiceKey) ∈ scope then (b.mark? a v).map fun _ => .pendingDelete
      else b.mark? a v := by
  rw [mark?, request, Std.ExtTreeMap.getElem?_map, mark?]
  cases b.interfaces[a]? with
  | none => simp
  | some services =>
    simp only [Option.map_some, Option.bind_some, Std.ExtTreeMap.getElem?_map]
    split <;> simp

theorem mark?_drop (b : Branch) (scope : Scope) (a : Address) (v : String) :
    (b.drop scope).mark? a v = (b.mark? a v).filter fun mark =>
      ¬ ((⟨scope.owner, a, v⟩ : ServiceKey) ∈ scope ∧ mark = .pendingDelete) := by
  rw [mark?, drop, Std.ExtTreeMap.getElem?_filter', Std.ExtTreeMap.getElem?_map, mark?]
  cases b.interfaces[a]? with
  | none => rfl
  | some services =>
    have found : (services.filter fun service mark =>
        ¬ ((⟨scope.owner, a, service⟩ : ServiceKey) ∈ scope ∧ mark = .pendingDelete))[v]? =
        services[v]?.filter fun mark =>
          ¬ ((⟨scope.owner, a, v⟩ : ServiceKey) ∈ scope ∧ mark = .pendingDelete) :=
      Std.ExtTreeMap.getElem?_filter'
    rw [Option.bind_some, ← found, Option.map_some]
    -- An interface that is dropped has no service left.
    generalize services.filter _ = left
    by_cases he : left = ∅
    · simp [Option.filter, he]
    · simp [Option.filter, he]

theorem mark?_without (b : Branch) (address : Address) (a : Address) (v : String) :
    (b.without address).mark? a v = if a = address then none else b.mark? a v := by
  rw [mark?, without, Std.ExtTreeMap.getElem?_erase]
  simp only [Std.compare_eq_iff_eq, @eq_comm _ a address]
  split <;> rfl

theorem mark?_receive (b : Branch) (address : Address) (services : ServiceMarks) (a : Address)
    (v : String) :
    (b.receive address services).mark? a v =
      if a = address then services[v]?.or (b.mark? a v) else b.mark? a v := by
  rw [mark?, receive, Std.ExtTreeMap.getElem?_alter]
  by_cases ha : address = a
  · subst ha
    simp only [Std.ReflOrd.compare_self, if_true, Option.bind_some,
      Std.ExtTreeMap.getElem?_union, mark?]
    cases b.interfaces[address]? <;> simp
  · simp only [Std.compare_eq_iff_eq, ha, if_false, Ne.symm ha, mark?]

theorem bind_mark?_pruned (b : Branch) (a : Address) (v : String) :
    (b.pruned.bind fun b => b.mark? a v) = b.mark? a v := by
  unfold pruned
  split
  · next he => simp [mark?, he]
  · rfl

/-- Pruning keeps what is not empty. -/
theorem pruned_eq_some {c : Branch} (h : b.pruned = some c) : c = b ∧ b.interfaces ≠ ∅ := by
  unfold pruned at h
  split at h
  · cases h
  · next hn =>
    cases h
    exact ⟨rfl, hn⟩

end Branch

namespace Tree

variable {t u : Tree}

theorem getElem?_alter (t : Tree) (node : NodeId) (f : Option Branch → Option Branch)
    (m : NodeId) :
    (t.alter node f).nodes[m]? = if m = node then f t.nodes[m]? else t.nodes[m]? := by
  rw [alter, Std.ExtTreeMap.getElem?_alter]
  simp only [Std.compare_eq_iff_eq, @eq_comm _ m node]
  split
  · next e => rw [e]
  · rfl

theorem mark?_alter (t : Tree) (node : NodeId) (f : Option Branch → Option Branch)
    (k : ServiceKey) :
    (t.alter node f).mark? k =
      if k.node = node then (f t.nodes[k.node]?).bind fun b => b.mark? k.address k.service
      else t.mark? k := by
  rw [mark?, getElem?_alter]
  split <;> rfl

theorem node?_alter (t : Tree) (node : NodeId) (f : Option Branch → Option Branch) (m : NodeId) :
    (t.alter node f).node? m = if m = node then (f t.nodes[m]?).map Branch.info else t.node? m := by
  rw [node?, getElem?_alter]
  split <;> rfl

theorem mark?_insert (t : Tree) (key : ServiceKey) (info : NodeInfo) (k : ServiceKey) :
    (t.insert key info).mark? k = if k = key then some .scheduled else t.mark? k := by
  rw [insert, mark?_alter]
  by_cases hn : k.node = key.node
  · have same : k = key ↔ k.address = key.address ∧ k.service = key.service := by
      cases k
      cases key
      simp only [ServiceKey.mk.injEq]
      exact and_iff_right hn
    have before : (t.nodes[k.node]?.getD { info }).mark? k.address k.service = t.mark? k := by
      rw [mark?]
      cases t.nodes[k.node]? <;> simp [Branch.mark?]
    rw [if_pos hn, Option.bind_some, Branch.mark?_add, before]
    simp only [same]
  · rw [if_neg hn, if_neg fun e => hn (congrArg ServiceKey.node e)]

theorem node?_insert (t : Tree) (key : ServiceKey) (info : NodeInfo) (m : NodeId) :
    (t.insert key info).node? m =
      if m = key.node then some ((t.node? m).getD info) else t.node? m := by
  rw [insert, node?_alter, node?]
  cases t.nodes[m]? <;> rfl

theorem mark?_request (t : Tree) (scope : Scope) (k : ServiceKey) :
    (t.request scope).mark? k =
      if k ∈ scope then (t.mark? k).map fun _ => .pendingDelete else t.mark? k := by
  rw [request, mark?_alter]
  split
  · next hn =>
    rw [mark?]
    cases t.nodes[k.node]? with
    | none => simp
    | some b =>
      rw [Option.map_some, Option.bind_some, Branch.mark?_request, ← hn]
      rfl
  · next hn => rw [if_neg fun hk => hn (Scope.node_eq_owner hk)]

theorem node?_request (t : Tree) (scope : Scope) (m : NodeId) :
    (t.request scope).node? m = t.node? m := by
  rw [request, node?_alter, node?]
  cases t.nodes[m]? <;> simp [Branch.request]

theorem mark?_relabel (t : Tree) (node : NodeId) (label : String) (k : ServiceKey) :
    (t.relabel node label).mark? k = t.mark? k := by
  rw [relabel, mark?_alter, mark?]
  cases t.nodes[k.node]? <;> simp [Branch.setLabel, Branch.mark?]

theorem node?_relabel (t : Tree) (node : NodeId) (label : String) (m : NodeId) :
    (t.relabel node label).node? m =
      if m = node then (t.node? m).map fun info => { info with label := some label }
      else t.node? m := by
  rw [relabel, node?_alter, node?]
  cases t.nodes[m]? <;> rfl

theorem mark?_drop (t : Tree) (scope : Scope) (k : ServiceKey) :
    (t.drop scope).mark? k =
      (t.mark? k).filter fun mark => ¬ (k ∈ scope ∧ mark = .pendingDelete) := by
  rw [drop, mark?_alter]
  split
  · next hn =>
    rw [mark?]
    cases t.nodes[k.node]? with
    | none => rfl
    | some b =>
      rw [Option.bind_some, Branch.bind_mark?_pruned, Branch.mark?_drop, ← hn]
      rfl
  · next hn =>
    have out : k ∉ scope := fun hk => hn (Scope.node_eq_owner hk)
    cases t.mark? k <;> simp [Option.filter, out]

/-- The services that move are those that are scheduled. -/
theorem getElem?_scheduledAt (t : Tree) (node : NodeId) (address : Address) (service : String) :
    (t.scheduledAt node address)[service]? =
      (t.mark? ⟨node, address, service⟩).filter fun mark => mark = .scheduled := by
  rw [scheduledAt, Std.ExtTreeMap.getElem?_filter', mark?]
  cases t.nodes[node]? with
  | none => simp
  | some b =>
    rw [Option.bind_some, Option.bind_some, Branch.mark?]
    cases b.interfaces[address]? <;> simp

theorem mark?_detach (t : Tree) (node : NodeId) (address : Address) (k : ServiceKey) :
    (t.detach node address).mark? k =
      if k ∈ Scope.interface node address then none else t.mark? k := by
  rw [detach, mark?_alter]
  simp only [Scope.mem_interface]
  by_cases hn : k.node = node
  · rw [if_pos hn, mark?]
    cases t.nodes[k.node]? with
    | none => simp
    | some b =>
      rw [Option.bind_some, Branch.bind_mark?_pruned, Branch.mark?_without]
      simp [hn]
  · simp [hn]

theorem mark?_attach {node : NodeId} (hn : (t.node? node).isSome) (address : Address)
    (services : ServiceMarks) (k : ServiceKey) :
    (t.attach node address services).mark? k =
      if k ∈ Scope.interface node address then services[k.service]?.or (t.mark? k)
      else t.mark? k := by
  unfold attach
  split
  · next he => simp [he]
  · rw [mark?_alter]
    by_cases hk : k.node = node
    · subst hk
      obtain ⟨b, hb⟩ : ∃ b, t.nodes[k.node]? = some b := by
        rwa [node?, Option.isSome_map, Option.isSome_iff_exists] at hn
      rw [if_pos rfl, mark?, hb, Option.map_some, Option.bind_some, Option.bind_some,
        Branch.mark?_receive]
      simp
    · simp [hk]

/-- A node that is pruned keeps what is known of it, or is gone. -/
theorem node?_alter_pruned (t : Tree) (node : NodeId) {f : Branch → Branch}
    (hf : ∀ b, (f b).info = b.info) (m : NodeId) :
    (t.alter node (Option.bind · fun b => (f b).pruned)).node? m = none ∨
      (t.alter node (Option.bind · fun b => (f b).pruned)).node? m = t.node? m := by
  rw [node?_alter, node?]
  cases t.nodes[m]? with
  | none => simp
  | some b =>
    rw [Option.bind_some, Branch.pruned]
    by_cases hm : m = node
    · by_cases he : (f b).interfaces = ∅
      · simp [hm, he]
      · simp [hm, he, hf]
    · simp [hm]

theorem node?_detach (t : Tree) (node : NodeId) (address : Address) (m : NodeId) :
    (t.detach node address).node? m = none ∨ (t.detach node address).node? m = t.node? m :=
  t.node?_alter_pruned node (fun b => (rfl : (b.without address).info = b.info)) m

theorem node?_drop (t : Tree) (scope : Scope) (m : NodeId) :
    (t.drop scope).node? m = none ∨ (t.drop scope).node? m = t.node? m :=
  t.node?_alter_pruned scope.owner (fun b => (rfl : (b.drop scope).info = b.info)) m

theorem queue_attach (t : Tree) (node : NodeId) (address : Address) (services : ServiceMarks) :
    (t.attach node address services).queue = t.queue := by
  unfold attach
  split <;> rfl

theorem journal_attach (t : Tree) (node : NodeId) (address : Address) (services : ServiceMarks) :
    (t.attach node address services).journal = t.journal := by
  unfold attach
  split <;> rfl

theorem node?_attach (t : Tree) (node : NodeId) (address : Address) (services : ServiceMarks)
    (m : NodeId) : (t.attach node address services).node? m = t.node? m := by
  unfold attach
  split
  · rfl
  · rw [node?_alter, node?]
    cases t.nodes[m]? <;> simp [Branch.receive]

end Tree

end Polling
