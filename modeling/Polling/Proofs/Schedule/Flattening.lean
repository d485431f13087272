import Polling.Proofs.Schedule.Confirmation
import Polling.Proofs.Schedule.Levels

namespace Polling

namespace Tree

def after (t : Tree) : Except CallError Tree → Tree
  | .ok u => u
  | .error _ => t

def act (t : Tree) : Schedule.Action → Tree
  | .add key info => (t.add? key info).getD t
  | .delete scope => t.after (t.delete scope)
  | .reparent address source target => t.after (t.reparent address source target)
  | .setLabel node label => t.after (t.setLabel node label)
  | .work count => t.advance count
  | .carryOut scope => t.drop scope

def run (t : Tree) (actions : List Schedule.Action) : Tree := actions.foldl act t

/-- A full tree and a trim schedule hold the same. -/
structure Represents (t : Tree) (s : Schedule) : Prop where
  mark? : ∀ key, t.mark? key = s.mark? key
  node? : ∀ node, t.node? node = s.node? node
  queue : t.queue = s.queue
  journal : t.journal = s.journal
  full : t.Full
  trim : s.Trim

variable {t u : Tree} {s r : Schedule}

namespace Represents

theorem tracks_iff (h : t.Represents s) (scope : Scope) : t.Tracks scope ↔ s.Tracks scope := by
  simp only [h.full.tracks_iff, Schedule.tracks_iff, h.mark?]

theorem requested_iff (h : t.Represents s) (scope : Scope) :
    t.Requested scope ↔ s.Requested scope := by
  cases scope with
  | service key =>
    rw [Requested, h.mark?]
    exact Iff.rfl
  | interface node address => exact Iff.rfl
  | node node => exact Iff.rfl

/-- Pruning does not have to be compared: on both sides a node keeps what is known of it as long as
one of its keys is left. -/
theorem node?_of_kept (h : t.Represents s) (full : u.Full) (trim : r.Trim)
    (marks : ∀ key, u.mark? key = r.mark? key)
    (kept : ∀ m, u.node? m = none ∨ u.node? m = t.node? m) (kept' : Schedule.KeepsInfo s r)
    (m : NodeId) : u.node? m = r.node? m := by
  have known : (u.node? m).isSome ↔ r.Tracks (.node m) := by
    rw [Schedule.tracks_iff]
    simp only [← marks]
    exact full.tracks_iff (.node m)
  rw [trim.node?_of_kept (kept' m)]
  split
  · next left =>
    rw [← h.node?]
    rcases kept m with hn | he
    · have lost := known.2 left
      rw [hn] at lost
      cases lost
    · exact he
  · next gone => exact Option.not_isSome_iff_eq_none.1 (mt known.1 gone)

end Represents

/-- A call ends alike on both: with the same error, or with a tree and a schedule that hold the
same. -/
def Alike : Except CallError Tree → Except CallError Schedule → Prop
  | .ok u, .ok r => u.Represents r
  | .error e, .error e' => e = e'
  | _, _ => False

theorem Alike.after {x : Except CallError Tree} {y : Except CallError Schedule}
    (hxy : Alike x y) (h : t.Represents s) : (t.after x).Represents (s.after y) := by
  cases x <;> cases y
  · exact h
  · cases hxy
  · cases hxy
  · exact hxy

namespace Represents

theorem add (h : t.Represents s) (key : ServiceKey) (info : NodeInfo) :
    (t.act (.add key info)).Represents (s.act (.add key info)) := by
  have trim := h.trim.add key info
  by_cases hk : (s.mark? key).isSome
  · rw [act, add?, h.mark?, if_pos hk, Schedule.act, Schedule.add?_eq_none.2 hk]
    exact h
  · obtain ⟨r, hr⟩ : ∃ r, s.add? key info = some r :=
      Option.ne_none_iff_exists'.1 (mt Schedule.add?_eq_none.1 hk)
    have rest : r.queue = s.queue ∧ r.journal = s.journal ++ [.schedule key] := by
      rw [Schedule.add?, if_neg hk] at hr
      cases hr
      exact ⟨rfl, rfl⟩
    rw [Schedule.act, hr, Option.getD_some] at trim
    rw [act, add?, h.mark?, if_neg hk, Schedule.act, hr, Option.getD_some, Option.getD_some]
    exact {
      mark? := fun k => by
        rw [Schedule.mark?_of_add? hr, ← h.mark?]
        exact mark?_insert t key info k
      node? := fun m => by
        rw [Schedule.node?_of_add? hr, ← h.node?]
        exact node?_insert t key info m
      queue := h.queue.trans rest.1.symm
      journal := (congrArg (· ++ _) h.journal).trans rest.2.symm
      full := h.full.insert key info
      trim }

theorem delete (h : t.Represents s) (scope : Scope) : Alike (t.delete scope) (s.delete scope) := by
  rw [Tree.delete]
  simp only [h.tracks_iff, h.requested_iff]
  cases hr : s.delete scope with
  | error e =>
    have ht := Schedule.delete_error hr
    rw [Schedule.delete, if_pos ht] at hr
    cases hr
    rw [if_pos ht]
    rfl
  | ok r =>
    have trim : r.Trim := by simpa [Schedule.act, Schedule.after, hr] using h.trim.delete scope
    rcases Schedule.delete_cases hr with ⟨ht, ⟨requested, rfl⟩ | ⟨fresh, e⟩⟩
    · rw [if_neg (not_not_intro ht), if_pos requested]
      exact h
    · rw [if_neg (not_not_intro ht), if_neg fresh]
      exact {
        mark? := fun k => by
          rw [Schedule.mark?_of_delete hr, ← h.mark?]
          exact mark?_request t scope k
        node? := fun m => by
          rw [Schedule.node?_of_delete hr, ← h.node?]
          exact node?_request t scope m
        queue := by rw [e, h.queue]
        journal := by
          rw [e, ← h.journal]
          rfl
        full := h.full.request scope
        trim }

theorem setLabel (h : t.Represents s) (node : NodeId) (label : String) :
    Alike (t.setLabel node label) (s.setLabel node label) := by
  rw [Tree.setLabel, h.node?]
  cases hn : s.node? node with
  | none =>
    rw [if_pos rfl, Schedule.setLabel, hn]
    rfl
  | some info =>
    have trim := h.trim.setLabel node label
    rw [if_neg (Option.some_ne_none info)]
    cases hr : s.setLabel node label with
    | error e =>
      rw [Schedule.setLabel, hn] at hr
      cases hr
    | ok r =>
      have rest : r.queue = s.queue ∧ r.journal = s.journal ++ [.setLabel node label] := by
        rw [Schedule.setLabel, hn] at hr
        cases hr
        exact ⟨rfl, rfl⟩
      rw [Schedule.act, hr] at trim
      exact {
        mark? := fun k => by
          rw [Schedule.mark?_of_setLabel hr, ← h.mark?]
          exact mark?_relabel t node label k
        node? := fun m => by
          rw [Schedule.node?_of_setLabel hr, ← h.node?]
          exact node?_relabel t node label m
        queue := h.queue.trans rest.1.symm
        journal := (congrArg (· ++ _) h.journal).trans rest.2.symm
        full := h.full.relabel node label
        trim }

theorem drop (h : t.Represents s) (scope : Scope) : (t.drop scope).Represents (s.drop scope) := by
  have full := h.full.drop scope
  have trim := h.trim.drop scope
  have marks (k : ServiceKey) : (t.drop scope).mark? k = (s.drop scope).mark? k := by
    rw [mark?_drop, h.mark?, Schedule.mark?_drop]
  exact {
    mark? := marks
    node? := h.node?_of_kept full trim marks
      (t.node?_drop scope) (s.keepsInfo_drop scope)
    queue := by simp [Tree.drop, alter, Schedule.drop, h.queue]
    journal := by simp [Tree.drop, alter, Schedule.drop, h.journal]
    full, trim }

theorem foldl_drop (h : t.Represents s) (scopes : List Scope) :
    (scopes.foldl Tree.drop t).Represents (scopes.foldl Schedule.drop s) := by
  induction scopes generalizing t s with
  | nil => exact h
  | cons scope scopes ih => exact ih (h.drop scope)

theorem work (h : t.Represents s) (count : Nat) :
    (t.advance count).Represents (s.advance count) := by
  rw [advance, Schedule.advance, ← h.queue]
  have taken : Represents { t with queue := t.queue.drop count }
      { s with queue := t.queue.drop count } := { h with queue := rfl }
  exact taken.foldl_drop (t.queue.take count)

/-- What moves is what the schedule moves. -/
theorem mark?_move (h : t.Represents s) {address : Address} {source target : NodeId}
    (hne : source ≠ target) (hn : (t.node? target).isSome)
    (hr : s.reparent address source target = .ok r) (k : ServiceKey) :
    (t.move address source target).mark? k = r.mark? k := by
  have there : ((t.detach source address).node? target).isSome := by
    rwa [detach, node?_alter, if_neg (Ne.symm hne)]
  rw [move, mark?_attach there, mark?_detach, getElem?_scheduledAt,
    Schedule.mark?_of_reparent hne hr, h.mark?, h.mark?]
  obtain ⟨node, a, service⟩ := k
  simp only [Scope.mem_interface]
  -- A key is on the interface that moves, on the one that it joins, or on neither.
  by_cases hk : node = source ∧ a = address
  · simp [hk, hne]
  · by_cases hk' : node = target ∧ a = address
    · rw [hk'.2, if_pos ⟨hk'.1, rfl⟩]
      cases s.mark? ⟨source, address, service⟩ with
      | none => simp [hk'.1, hne.symm]
      | some mark => cases mark <;> simp [Option.filter, hk'.1, hne.symm]
    · simp [hk, hk']

theorem moved (h : t.Represents s) {address : Address} {source target : NodeId}
    (hne : source ≠ target) (hr : s.reparent address source target = .ok r) :
    ((t.move address source target).record (.reparent address source target)).Represents r := by
  have trim := h.trim.reparent address source target
  have kept := s.keepsInfo_reparent address source target
  rw [Schedule.act, hr] at trim kept
  rcases Schedule.reparent_cases hr with ⟨hn, -, -, ⟨e, -⟩ | ⟨-, e⟩⟩
  · exact absurd e hne
  rw [← h.node?] at hn
  have full := (h.full.detach source address).attach target address (t.scheduledAt source address)
  have marks := h.mark?_move hne hn hr
  have kept' (m : NodeId) : (t.move address source target).node? m = none ∨
      (t.move address source target).node? m = t.node? m := by
    rw [move, node?_attach]
    exact node?_detach t source address m
  exact {
    mark? := marks
    node? := h.node?_of_kept full trim marks kept' kept
    queue := by
      rw [e, Schedule.queue_prune, record, move, queue_attach, detach, alter, h.queue]
    journal := by
      rw [e, Schedule.journal_prune, record, move, journal_attach, detach, alter, h.journal]
    full, trim }

theorem reparent (h : t.Represents s) (address : Address) (source target : NodeId) :
    Alike (t.reparent address source target) (s.reparent address source target) := by
  have there : t.HasInterface source address ↔ s.Tracks (.interface source address) :=
    h.tracks_iff (.interface source address)
  cases hr : s.reparent address source target with
  | ok r =>
    rw [Tree.reparent]
    simp only [h.node?, there]
    rcases Schedule.reparent_cases hr with ⟨ht, hs, hi, moved⟩
    rw [if_neg (Option.isSome_iff_ne_none.1 ht), if_neg (Option.isSome_iff_ne_none.1 hs),
      if_neg (not_not_intro hi)]
    rcases moved with ⟨e, rfl⟩ | ⟨hne, -⟩
    · rw [if_pos e]
      exact h
    · rw [if_neg hne]
      exact h.moved hne hr
  | error e =>
    -- The checks are the same, in the same order.
    rw [← hr, Tree.reparent, Schedule.reparent]
    simp only [h.node?, there]
    rw [Schedule.reparent] at hr
    split
    · rfl
    · split
      · rfl
      · split
        · rfl
        · next ht hs hi =>
          rw [if_neg ht, if_neg hs, if_neg hi] at hr
          split at hr <;> cases hr

theorem act (h : t.Represents s) (action : Schedule.Action) :
    (t.act action).Represents (s.act action) := by
  cases action with
  | add key info => exact h.add key info
  | delete scope => exact (h.delete scope).after h
  | reparent address source target => exact (h.reparent address source target).after h
  | setLabel node label => exact (h.setLabel node label).after h
  | work count => exact h.work count
  | carryOut scope => exact h.drop scope

theorem run (h : t.Represents s) (actions : List Schedule.Action) :
    (t.run actions).Represents (s.run actions) := by
  induction actions generalizing t s with
  | nil => exact h
  | cons action actions ih => exact ih (h.act action)

theorem empty : Represents {} {} where
  mark? key := by simp [Tree.mark?, Schedule.mark?]
  node? node := by simp [Tree.node?, Schedule.node?]
  queue := rfl
  journal := rfl
  full node b hb := by simp at hb
  trim := Schedule.trim_empty

end Represents

structure WellFormed (t : Tree) : Prop where
  occupied : ∀ (node : NodeId) (b : Branch), t.nodes[node]? = some b → b.interfaces ≠ ∅
  served : ∀ (node : NodeId) (b : Branch) (address : Address) (services : ServiceMarks),
    t.nodes[node]? = some b → b.interfaces[address]? = some services → services ≠ ∅
  marked : ∀ (node : NodeId) (b : Branch) (address : Address) (services : ServiceMarks)
    (service : String) (mark : Mark),
    t.nodes[node]? = some b → b.interfaces[address]? = some services →
      services[service]? = some mark → mark = .scheduled ∨ mark = .pendingDelete
  node_iff : ∀ node, (t.node? node).isSome ↔ ∃ key, key.node = node ∧ (t.mark? key).isSome
  interface_iff : ∀ node address,
    t.HasInterface node address ↔ ∃ service, (t.mark? ⟨node, address, service⟩).isSome
  keysOf : ∀ node,
    ServiceKey.Lists (t.keysOf node) fun key => key.node = node ∧ (t.mark? key).isSome
  keys : ServiceKey.Lists t.keys fun key => (t.mark? key).isSome
  nodeIds : t.nodeIds.Pairwise fun m n => compare m n = .lt
  mem_nodeIds : ∀ node, node ∈ t.nodeIds ↔ (t.node? node).isSome

theorem Full.wellFormed (h : t.Full) : t.WellFormed where
  occupied node b hb := (h node b hb).1
  served node b address services hb hs := (h node b hb).2 address services hs
  marked _ _ _ _ _ mark _ _ _ := by cases mark <;> simp
  node_iff node := h.tracks_iff (.node node)
  interface_iff node address := by
    refine (h.tracks_iff (.interface node address)).trans ⟨?_, ?_⟩
    · rintro ⟨key, ⟨rfl, rfl⟩, hk⟩
      exact ⟨key.service, hk⟩
    · rintro ⟨service, hk⟩
      exact ⟨_, ⟨rfl, rfl⟩, hk⟩
  keysOf := t.lists_keysOf
  keys := t.lists_keys
  nodeIds := Std.ExtTreeMap.ordered_keys
  mem_nodeIds _ := mem_nodeIds

structure Answers (t : Tree) (s : Schedule) : Prop where
  mark? : ∀ key, s.mark? key = t.mark? key
  node? : ∀ node, s.node? node = t.node? node
  interface_iff : ∀ node address,
    s.Tracks (.interface node address) ↔ t.HasInterface node address
  keysOf : ∀ node, s.keysIn (.node node) = t.keysOf node
  keys : s.keys = t.keys
  nodeIds : s.nodeIds = t.nodeIds

theorem Represents.answers (h : t.Represents s) : t.Answers s where
  mark? key := (h.mark? key).symm
  node? node := (h.node? node).symm
  interface_iff node address := (h.tracks_iff (.interface node address)).symm
  keysOf node := by
    apply (s.lists_keysIn_node node).eq
    simpa only [h.mark?] using t.lists_keysOf node
  keys := by
    apply s.lists_keys.eq
    simpa only [h.mark?] using t.lists_keys
  nodeIds := by
    apply eq_of_ascending Std.ExtTreeMap.ordered_keys Std.ExtTreeMap.ordered_keys
    intro node
    exact Schedule.mem_nodeIds.trans (h.node? node ▸ mem_nodeIds.symm)

/-- Whatever callers and the worker do, the tree is a well-formed map from keys, and the schedule
answers as the tree does. -/
theorem wellFormed_run (actions : List Schedule.Action) :
    (run {} actions).WellFormed ∧ (run {} actions).Answers (Schedule.run {} actions) :=
  have h := Represents.empty.run actions
  ⟨h.full.wellFormed, h.answers⟩

end Tree

end Polling
