import Polling.Proofs.Schedule.Listing
import Polling.Proofs.Schedule.Tree

namespace Polling

section Maps

variable {α β : Type} [Ord α] [Std.TransOrd α] {m : Std.ExtTreeMap α β}

theorem ne_empty_of_getElem? {k : α} {v : β} (h : m[k]? = some v) : m ≠ ∅ := by
  rintro rfl
  simp at h

theorem exists_getElem?_of_ne_empty (h : m ≠ ∅) : ∃ (k : α) (v : β), m[k]? = some v := by
  rw [Ne, Std.ExtTreeMap.eq_empty_iff_forall_not_mem, Classical.not_forall] at h
  obtain ⟨k, hk⟩ := h
  exact ⟨k, _, Std.ExtTreeMap.getElem?_eq_some_getElem (Classical.not_not.1 hk)⟩

end Maps

namespace Branch

def Served (b : Branch) : Prop :=
  ∀ (address : Address) (services : ServiceMarks),
    b.interfaces[address]? = some services → services ≠ ∅

variable {b : Branch}

theorem interfaces_add_ne (b : Branch) (address : Address) (service : String) :
    (b.add address service).interfaces ≠ ∅ :=
  ne_empty_of_getElem? Std.ExtTreeMap.getElem?_alter_self

theorem Served.add (h : b.Served) (address : Address) (service : String) :
    (b.add address service).Served := by
  intro a services hs
  rw [Branch.add, Std.ExtTreeMap.getElem?_alter] at hs
  split at hs
  · cases hs
    exact ne_empty_of_getElem? Std.ExtTreeMap.getElem?_insert_self
  · exact h a services hs

theorem interfaces_request_ne (h : b.interfaces ≠ ∅) (scope : Scope) :
    (b.request scope).interfaces ≠ ∅ := by
  obtain ⟨a, services, hs⟩ := exists_getElem?_of_ne_empty h
  apply ne_empty_of_getElem?
  rw [Branch.request, Std.ExtTreeMap.getElem?_map, hs]
  rfl

theorem Served.request (h : b.Served) (scope : Scope) : (b.request scope).Served := by
  intro a services hs
  rw [Branch.request, Std.ExtTreeMap.getElem?_map, Option.map_eq_some_iff] at hs
  obtain ⟨old, ho, rfl⟩ := hs
  obtain ⟨v, mark, hv⟩ := exists_getElem?_of_ne_empty (h a old ho)
  apply ne_empty_of_getElem?
  rw [Std.ExtTreeMap.getElem?_map, hv]
  rfl

theorem served_drop (b : Branch) (scope : Scope) : (b.drop scope).Served := by
  intro a services hs
  rw [Branch.drop, Std.ExtTreeMap.getElem?_filter', Option.filter_eq_some_iff] at hs
  exact of_decide_eq_true hs.2

theorem Served.without (h : b.Served) (address : Address) : (b.without address).Served := by
  intro a services hs
  rw [Branch.without, Std.ExtTreeMap.getElem?_erase] at hs
  split at hs
  · cases hs
  · exact h a services hs

theorem interfaces_receive_ne (b : Branch) (address : Address) (services : ServiceMarks) :
    (b.receive address services).interfaces ≠ ∅ :=
  ne_empty_of_getElem? Std.ExtTreeMap.getElem?_alter_self

theorem Served.receive (h : b.Served) (address : Address) {services : ServiceMarks}
    (hn : services ≠ ∅) : (b.receive address services).Served := by
  intro a joined hs
  rw [Branch.receive, Std.ExtTreeMap.getElem?_alter] at hs
  split at hs
  · cases hs
    obtain ⟨v, mark, hv⟩ := exists_getElem?_of_ne_empty hn
    apply ne_empty_of_getElem?
    rw [Std.ExtTreeMap.getElem?_union, hv]
    rfl
  · exact h a joined hs

theorem mem_keys {node : NodeId} {key : ServiceKey} :
    key ∈ b.keys node ↔ key.node = node ∧ (b.mark? key.address key.service).isSome := by
  simp only [keys, List.mem_flatMap, List.mem_map, Prod.exists,
    Std.ExtTreeMap.mem_toList_iff_getElem?_eq_some, Std.ExtTreeMap.mem_keys, mark?]
  constructor
  · rintro ⟨address, services, hs, service, hv, rfl⟩
    rw [hs, Option.bind_some]
    exact ⟨rfl, Std.ExtTreeMap.isSome_getElem?_iff_mem.2 hv⟩
  · rintro ⟨rfl, ht⟩
    cases hs : b.interfaces[key.address]? with
    | none =>
      rw [hs] at ht
      cases ht
    | some services =>
      rw [hs] at ht
      exact ⟨key.address, services, hs, key.service,
        Std.ExtTreeMap.isSome_getElem?_iff_mem.1 ht, rfl⟩

theorem ascending_keys (b : Branch) (node : NodeId) : ServiceKey.Ascending (b.keys node) := by
  rw [ServiceKey.Ascending, keys, List.pairwise_flatMap]
  constructor
  · rintro ⟨address, services⟩ _
    rw [List.pairwise_map]
    exact Std.ExtTreeMap.ordered_keys.imp fun h => ServiceKey.compare_of_service h
  · refine Std.ExtTreeMap.ordered_keys_toList.imp fun {x y} h => ?_
    simp only [List.mem_map]
    rintro _ ⟨v, -, rfl⟩ _ ⟨w, -, rfl⟩
    exact ServiceKey.compare_of_address h

end Branch

namespace Tree

variable {t : Tree}

/-- Nothing in the tree is empty. -/
def Full (t : Tree) : Prop :=
  ∀ (node : NodeId) (b : Branch), t.nodes[node]? = some b → b.interfaces ≠ ∅ ∧ b.Served

/-- A tree stays full if what is put into it is. -/
theorem Full.alter (h : t.Full) {node : NodeId} {f : Option Branch → Option Branch}
    (hf : ∀ b, f t.nodes[node]? = some b → b.interfaces ≠ ∅ ∧ b.Served) :
    (t.alter node f).Full := by
  intro m b hb
  rw [getElem?_alter] at hb
  split at hb
  · next e =>
    subst e
    exact hf b hb
  · exact h m b hb

/-- What is done to a node that is there and leaves it full leaves the tree full. -/
theorem Full.alter_map (h : t.Full) (node : NodeId) {f : Branch → Branch}
    (hf : ∀ b : Branch, b.interfaces ≠ ∅ → b.Served →
      (f b).interfaces ≠ ∅ ∧ (f b).Served) : (t.alter node (Option.map f)).Full := by
  apply h.alter
  intro c hc
  obtain ⟨b, hb, rfl⟩ := Option.map_eq_some_iff.1 hc
  obtain ⟨hi, hs⟩ := h node b hb
  exact hf b hi hs

/-- A node that is pruned only has to have its interfaces served. -/
theorem Full.alter_pruned (h : t.Full) (node : NodeId) {f : Branch → Branch}
    (hf : ∀ b : Branch, b.Served → (f b).Served) :
    (t.alter node (Option.bind · fun b => (f b).pruned)).Full := by
  apply h.alter
  intro c hc
  obtain ⟨b, hb, hc⟩ := Option.bind_eq_some_iff.1 hc
  obtain ⟨rfl, hn⟩ := Branch.pruned_eq_some hc
  exact ⟨hn, hf b (h node b hb).2⟩

theorem Full.insert (h : t.Full) (key : ServiceKey) (info : NodeInfo) :
    (t.insert key info).Full := by
  apply h.alter
  intro b hb
  cases hb
  refine ⟨Branch.interfaces_add_ne _ _ _, Branch.Served.add ?_ _ _⟩
  cases hn : t.nodes[key.node]? with
  | none =>
    intro a services hs
    simp at hs
  | some b => exact (h key.node b hn).2

theorem Full.request (h : t.Full) (scope : Scope) : (t.request scope).Full :=
  h.alter_map scope.owner fun _ hi hs =>
    ⟨Branch.interfaces_request_ne hi scope, hs.request scope⟩

theorem Full.relabel (h : t.Full) (node : NodeId) (label : String) : (t.relabel node label).Full :=
  h.alter_map node fun _ hi hs => ⟨hi, hs⟩

theorem Full.detach (h : t.Full) (node : NodeId) (address : Address) :
    (t.detach node address).Full :=
  h.alter_pruned node fun _ hs => hs.without address

theorem Full.attach (h : t.Full) (node : NodeId) (address : Address) (services : ServiceMarks) :
    (t.attach node address services).Full := by
  unfold Tree.attach
  split
  · exact h
  · next hn =>
    exact h.alter_map node fun b _ hs =>
      ⟨Branch.interfaces_receive_ne b address services, hs.receive address hn⟩

theorem Full.drop (h : t.Full) (scope : Scope) : (t.drop scope).Full :=
  h.alter_pruned scope.owner fun b _ => Branch.served_drop b scope

theorem Full.exists_mark? (h : t.Full) {node : NodeId} {b : Branch} (hb : t.nodes[node]? = some b)
    {address : Address} {services : ServiceMarks} (hs : b.interfaces[address]? = some services) :
    ∃ service, (t.mark? ⟨node, address, service⟩).isSome := by
  obtain ⟨service, mark, hm⟩ := exists_getElem?_of_ne_empty ((h node b hb).2 address services hs)
  refine ⟨service, ?_⟩
  rw [mark?, hb, Option.bind_some, Branch.mark?, hs, Option.bind_some, hm]
  rfl

theorem exists_branch {key : ServiceKey} (h : (t.mark? key).isSome) :
    ∃ b ∈ t.nodes[key.node]?, key.address ∈ b.interfaces := by
  obtain ⟨mark, hm⟩ := Option.isSome_iff_exists.1 h
  obtain ⟨b, hb, hm⟩ := Option.bind_eq_some_iff.1 hm
  obtain ⟨services, hs, -⟩ := Option.bind_eq_some_iff.1 hm
  exact ⟨b, hb, Std.ExtTreeMap.isSome_getElem?_iff_mem.1 (Option.isSome_of_eq_some hs)⟩

/-- A full tree tracks a scope as long as it tracks one of its keys. -/
theorem Full.tracks_iff (h : t.Full) (scope : Scope) :
    t.Tracks scope ↔ ∃ key ∈ scope, (t.mark? key).isSome := by
  -- Nothing is empty, so a key is found below every node and every interface.
  cases scope with
  | service key =>
    constructor
    · exact fun ht => ⟨key, rfl, ht⟩
    · rintro ⟨k, rfl, ht⟩
      exact ht
  | interface node address =>
    constructor
    · rintro ⟨b, hb, hi⟩
      obtain ⟨service, hm⟩ := h.exists_mark? hb (Std.ExtTreeMap.getElem?_eq_some_getElem hi)
      exact ⟨⟨node, address, service⟩, ⟨rfl, rfl⟩, hm⟩
    · rintro ⟨key, ⟨rfl, rfl⟩, hm⟩
      exact exists_branch hm
  | node node =>
    rw [Tracks, node?, Option.isSome_map]
    constructor
    · intro hs
      obtain ⟨b, hb⟩ := Option.isSome_iff_exists.1 hs
      obtain ⟨address, services, hs⟩ := exists_getElem?_of_ne_empty (h node b hb).1
      obtain ⟨service, hm⟩ := h.exists_mark? hb hs
      exact ⟨⟨node, address, service⟩, rfl, hm⟩
    · rintro ⟨key, rfl, hm⟩
      obtain ⟨b, hb, -⟩ := exists_branch hm
      exact Option.isSome_of_eq_some hb

theorem mem_nodeIds {node : NodeId} : node ∈ t.nodeIds ↔ (t.node? node).isSome := by
  simp [nodeIds, node?]

theorem mem_keysOf {node : NodeId} {key : ServiceKey} :
    key ∈ t.keysOf node ↔ key.node = node ∧ (t.mark? key).isSome := by
  rw [keysOf]
  cases hb : t.nodes[node]? with
  | none =>
    rw [Option.elim_none]
    simp only [List.not_mem_nil, false_iff, not_and]
    rintro rfl
    simp [mark?, hb]
  | some b =>
    rw [Option.elim_some, Branch.mem_keys]
    apply and_congr_right
    rintro rfl
    rw [mark?, hb, Option.bind_some]

theorem lists_keysOf (t : Tree) (node : NodeId) :
    ServiceKey.Lists (t.keysOf node) fun key => key.node = node ∧ (t.mark? key).isSome where
  ascending := by
    rw [keysOf]
    cases t.nodes[node]? with
    | none => exact .nil
    | some b => exact b.ascending_keys node
  mem_iff _ := mem_keysOf

theorem lists_keys (t : Tree) : ServiceKey.Lists t.keys fun key => (t.mark? key).isSome where
  ascending := by
    rw [ServiceKey.Ascending, keys, List.pairwise_flatMap]
    constructor
    · exact fun entry _ => entry.2.ascending_keys entry.1
    · refine Std.ExtTreeMap.ordered_keys_toList.imp fun {x y} h => ?_
      intro k hk l hl
      apply ServiceKey.compare_of_node
      rwa [(Branch.mem_keys.1 hk).1, (Branch.mem_keys.1 hl).1]
  mem_iff key := by
    simp only [keys, List.mem_flatMap, Prod.exists,
      Std.ExtTreeMap.mem_toList_iff_getElem?_eq_some, Branch.mem_keys]
    constructor
    · rintro ⟨node, b, hb, rfl, hm⟩
      rwa [mark?, hb, Option.bind_some]
    · intro hm
      obtain ⟨b, hb, -⟩ := exists_branch hm
      refine ⟨key.node, b, hb, rfl, ?_⟩
      rwa [mark?, hb, Option.bind_some] at hm

end Tree

end Polling
