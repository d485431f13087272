import Polling.Proofs.Engine.Effects
import Polling.Proofs.Engine.Removal

namespace Polling

def NotificationKind.NeedsNode (kind : NotificationKind) : Prop :=
  kind ∉ [scheduledOutagesChanged, thresholdConfigChanged, reloadDaemonConfig,
    reloadDaemonConfigSuccessful, reloadDaemonConfigFailed]

instance : DecidablePred NotificationKind.NeedsNode := fun kind =>
  inferInstanceAs (Decidable (kind ∉ _))

def Schedule.Action.On (node : NodeId) : Schedule.Action → Prop
  | .add key _ => key.node = node
  | .delete scope => scope.owner = node
  | .reparent _ source target => source = node ∧ target = node
  | .setLabel m _ => m = node
  | .work _ | .carryOut _ => True

/-- The effect is on the node, as far as it is on nodes, and announces nothing. -/
def Effect.On (node : NodeId) : Effect → Prop
  | .met _ | .stored _ => True
  | .acted action => action.On node
  | .closed scope _ => scope.owner = node
  | .announced _ => False

/-- The effect is on the node, and neither schedules a key nor replaces the configuration. -/
def Effect.PlainOn (node : NodeId) : Effect → Prop
  | .acted (.add _ _) | .stored _ | .announced _ => False
  | .met _ => True
  | .acted action => action.On node
  | .closed scope _ => scope.owner = node

theorem Effect.PlainOn.on {node : NodeId} {e : Effect} (h : e.PlainOn node) : e.On node := by
  cases e with
  | acted action =>
    cases action with
    | add key info => cases h
    | work count | carryOut scope => trivial
    | _ => exact h
  | closed scope closure => exact h
  | _ => trivial

theorem Poller.Within.on {node : NodeId} {ε α : Type} {x : EStateM ε Poller α}
    (h : Within (Effect.PlainOn node) x) : Within (Effect.On node) x :=
  h.mono fun _ he => he.on

def Effect.Moves (address : Address) (source target : NodeId) : Effect → Prop
  | .met _ => True
  | .acted action => action = .reparent address source target
  | .stored _ | .closed _ _ | .announced _ => False

/-- The effects that a notification can have. One that is not about a node can have any. -/
def Notification.Footprint (n : Notification) (e : Effect) : Prop :=
  if n.kind = .interfaceReparented then
    ∃ address source target, n.requireAddress = .ok address ∧
      n.nodeParam "old_node_id" = .ok source ∧ n.nodeParam "new_node_id" = .ok target ∧
        e.Moves address source target
  else if n.kind.NeedsNode then ∃ node, n.requireNode = .ok node ∧ e.On node
  else True

namespace Engine

open Poller

variable {node : NodeId}

theorem within_pause : Within (Effect.PlainOn node) pause := by
  refine .of_final fun s => ?_
  cases hw : s.worker with
  | prompt =>
    exact .inr ⟨.acted (.work s.schedule.queue.length), trivial, final_of_ok (pause_of_prompt hw)⟩
  | idle => exact .inl (final_of_ok (pause_of_idle hw))

theorem within_awaitWithin (key : ServiceKey) (interval pauses waited : Nat) :
    Within (Effect.PlainOn node) (awaitWithin key interval pauses waited) := by
  induction pauses generalizing waited with
  | zero =>
    refine .bind (.lift (within_ask _ trivial)) fun mark => ?_
    split
    · exact .throw _
    · exact .pure _
  | succ pauses ih =>
    refine .bind (.lift (within_ask _ trivial)) fun mark => ?_
    split
    · exact .bind within_pause fun _ => ih _
    · exact .pure _

theorem within_awaitDeletion (key : ServiceKey) :
    Within (Effect.PlainOn node) (awaitDeletion key) :=
  .bind .get fun _ => within_awaitWithin _ _ _ _

theorem within_requestDeletion {key : ServiceKey} (hk : key.node = node) :
    Within (Effect.PlainOn node) (requestDeletion key) := by
  refine .bind (.attempt (within_delete trivial hk)) fun result => ?_
  split
  · exact .pure _
  · exact .pure _
  · exact .throw _

theorem within_removeAndWait {key : ServiceKey} (hk : key.node = node) :
    Within (Effect.PlainOn node) (removeAndWait key) := by
  refine .bind (.lift (within_ask _ trivial)) fun mark => ?_
  split
  · exact .bind (within_requestDeletion hk) fun _ => within_awaitDeletion key
  · exact within_awaitDeletion key

theorem within_nodeLabel (m : NodeId) (n : Notification) :
    Within (Effect.PlainOn node) (nodeLabel m n) := by
  refine .bind (.attempt (within_ask _ trivial)) fun result => ?_
  split <;> exact .pure _

theorem within_nodeLocation (m : NodeId) : Within (Effect.PlainOn node) (nodeLocation m) := by
  refine .bind (.attempt (within_ask _ trivial)) fun result => ?_
  split <;> exact .pure _

theorem within_scheduleService {key : ServiceKey} (hk : key.node = node) (info : NodeInfo) :
    Within (Effect.On node) (scheduleService key info) := by
  refine .bind .get fun s => ?_
  split
  · exact .pure _
  · exact .lift (within_addToSchedule trivial hk)

theorem within_listedKeys (node : NodeId) : Within (Effect.PlainOn node) (listedKeys node) :=
  .bind (.lift (within_ask _ trivial)) fun _ => .pure _

theorem returns_listedKeys (node : NodeId) :
    Returns (listedKeys node) fun keys => ∀ key ∈ keys, key.node = node := by
  refine .bind fun services => .pure fun key hk => ?_
  rw [Std.ExtTreeSet.mem_toList, Std.ExtTreeSet.mem_ofList, List.contains_iff_mem,
    List.mem_map] at hk
  obtain ⟨service, -, rfl⟩ := hk
  rfl

theorem returns_trackedKeys (node : NodeId) :
    Returns (trackedKeys node) fun keys => ∀ key ∈ keys, key.node = node := by
  refine returns_ask _ fun s key hk => ?_
  rw [Schedule.keysIn, List.mem_filter] at hk
  exact Scope.mem_node.1 (of_decide_eq_true hk.2)

theorem within_removeKeys (n : Notification) {keys : List ServiceKey}
    (hk : ∀ key ∈ keys, key.node = node) : Within (Effect.PlainOn node) (removeKeys n keys) := by
  induction keys with
  | nil => exact .pure _
  | cons key keys ih =>
    have hkey := hk key List.mem_cons_self
    exact .bind (within_removeAndWait hkey) fun _ =>
      .bind (.lift (within_closeOutages trivial hkey)) fun _ =>
        ih fun k h => hk k (List.mem_cons_of_mem _ h)

theorem within_removeForRescheduling (force : Bool) {keys : List ServiceKey}
    (hk : ∀ key ∈ keys, key.node = node) :
    Within (Effect.PlainOn node) (removeForRescheduling force keys) := by
  induction keys with
  | nil => exact .pure _
  | cons key keys ih =>
    have rest := ih fun k h => hk k (List.mem_cons_of_mem _ h)
    refine .bind (.lift (within_ask _ trivial)) fun mark => ?_
    split
    · exact .bind (within_removeAndWait (hk key List.mem_cons_self)) fun _ =>
        .bind rest fun _ => .pure _
    · exact rest

theorem within_scheduleKeys (n : Notification) (info : NodeInfo) {keys : List ServiceKey}
    (hk : ∀ key ∈ keys, key.node = node) : Within (Effect.On node) (scheduleKeys n info keys) := by
  induction keys with
  | nil => exact .pure _
  | cons key keys ih =>
    have hkey := hk key List.mem_cons_self
    have rest := ih fun k h => hk k (List.mem_cons_of_mem _ h)
    refine .bind (within_scheduleService hkey info) fun added => .bind .get fun s => ?_
    dsimp only
    split
    · exact .bind (.lift (within_closeOutages trivial hkey)) fun _ => .bind rest fun _ => .pure _
    · exact .bind rest fun _ => .pure _

theorem within_reconcile (node : NodeId) (force : Bool) (n : Notification) :
    Within (Effect.On node) (reconcile node force n) := by
  refine .bind_of (within_listedKeys node).on (returns_listedKeys node) fun listed hl =>
    .bind_of (.lift (within_ask _ trivial)) (.lift (returns_trackedKeys node)) fun tracked ht =>
      .bind (.lift (within_ask _ trivial)) fun info => ?_
  extract_lets removed common goOn
  have rest (label : Option String) : Within (Effect.On node) (goOn label) :=
    .bind (within_nodeLocation node).on fun _ =>
      .bind (within_removeKeys n fun k h => ht k (List.mem_filter.1 h).1).on fun _ =>
        .bind (within_removeForRescheduling force fun k h => ht k (List.mem_filter.1 h).1).on
          fun _ => .bind (within_scheduleKeys n _ fun k h => hl k (List.mem_filter.1 h).1)
            fun _ => .pure _
  -- A label that is tracked need not be looked up; from then on there is no difference.
  split
  · exact .bind (.pure _) rest
  · exact .bind (within_nodeLabel node n).on rest

theorem within_rebuildCaches {E : Effect → Prop} (h : ∀ store, E (.stored store)) :
    Within E rebuildCaches :=
  .of_final fun s => .inr ⟨.stored s.store.rebuild, h _, rfl⟩

theorem within_given {E : Effect → Prop} {α : Type} {field : Except InputError α}
    {next : α → EngineM Disposition} (h : ∀ a, field = .ok a → Within E (next a)) :
    Within E (given field next) := by
  unfold given
  split
  · exact h _ rfl
  · exact .pure _

theorem within_serviceGained (n : Notification) (node : NodeId) :
    Within (Effect.On node) (serviceGained n node) := by
  refine within_given fun subject _ => .bind (.lift (within_ask _ trivial)) fun mark => ?_
  let key : ServiceKey := ⟨node, subject.1, subject.2⟩
  have hk : key.node = node := rfl
  have add : Within (Effect.On node) (do
      let label ← nodeLabel node n
      let location ← nodeLocation node
      discard (scheduleService key { label, location })
      return Disposition.applied) :=
    .bind (within_nodeLabel node n).on fun _ => .bind (within_nodeLocation node).on fun _ =>
      .bind (.discard (within_scheduleService hk _)) fun _ => .pure _
  split
  · exact .pure _
  · exact .bind (within_awaitDeletion _).on fun _ => add
  · exact add

theorem within_serviceRemoved (n : Notification) (node : NodeId) :
    Within (Effect.PlainOn node) (serviceRemoved n node) := by
  refine within_given fun subject _ => .bind (.lift (within_closeOutages trivial rfl)) fun _ =>
    .bind (.lift (within_ask _ trivial)) fun mark => ?_
  split
  · exact .pure _
  · exact .pure _
  · exact .bind (within_requestDeletion rfl) fun _ => .pure _

theorem within_interfaceDeleted (n : Notification) (node : NodeId) :
    Within (Effect.PlainOn node) (interfaceDeleted n node) := by
  refine within_given fun address _ => .bind (.lift (within_closeOutages trivial rfl)) fun _ =>
    .bind (.lift (within_ask _ trivial)) fun tracked => ?_
  split
  · exact .pure _
  · exact .bind (.lift (within_delete trivial rfl)) fun _ => .pure _

theorem within_nodeDeleted (n : Notification) (node : NodeId) :
    Within (Effect.PlainOn node) (nodeDeleted n node) := by
  refine .bind (.lift (within_closeOutages trivial rfl)) fun _ =>
    .bind (.lift (within_ask _ trivial)) fun info => ?_
  split
  · exact .pure _
  · exact .bind (.lift (within_delete trivial rfl)) fun _ => .pure _

theorem within_labelChanged (n : Notification) (node : NodeId) :
    Within (Effect.PlainOn node) (labelChanged n node) := by
  refine within_given fun label _ => .bind (.lift (within_ask _ trivial)) fun info => ?_
  split
  · exact .pure _
  · exact .bind (.lift (within_setLabel trivial rfl)) fun _ => .pure _

theorem within_membershipChanged (n : Notification) (node : NodeId) (force : Bool) :
    Within (Effect.On node) (membershipChanged n node force) :=
  .bind (within_rebuildCaches fun _ => trivial) fun _ =>
    .bind (.discard (within_reconcile node force n)) fun _ => .pure _

theorem within_interfaceReparented {E : Effect → Prop} (n : Notification)
    (h : ∀ address source target, n.requireAddress = .ok address →
      n.nodeParam "old_node_id" = .ok source → n.nodeParam "new_node_id" = .ok target →
      ∀ e : Effect, e.Moves address source target → E e) : Within E (interfaceReparented n) := by
  refine within_given fun address hi => within_given fun source hs =>
    within_given fun target ht => .mono ?_ (h address source target hi hs ht)
  split
  · exact .pure _
  refine .bind (.lift (within_ask _ trivial)) fun info => ?_
  split
  · exact .pure _
  refine .bind (.lift (within_ask _ trivial)) fun info => ?_
  split
  · exact .pure _
  refine .bind (.lift (within_ask _ trivial)) fun tracked => ?_
  split
  · exact .pure _
  · exact .bind (.lift (within_reparent trivial rfl)) fun _ => .pure _

theorem within_rescheduleNodes (n : Notification) (nodes : List NodeId) :
    Within (fun _ => True) (rescheduleNodes n nodes) := by
  induction nodes with
  | nil => exact .pure _
  | cons node nodes ih =>
    have first := (within_reconcile node true n).mono fun _ _ => trivial
    exact .bind (.discard (.attempt first)) fun _ => ih

theorem within_rescheduleAll (n : Notification) : Within (fun _ => True) (rescheduleAll n) :=
  .bind (within_rebuildCaches fun _ => trivial) fun _ =>
    .bind (.lift (within_ask _ trivial)) fun nodes => within_rescheduleNodes n nodes

theorem within_calendarChanged (n : Notification) : Within (fun _ => True) (calendarChanged n) :=
  .bind (.discard (.attempt (within_onStore _ fun _ => trivial))) fun _ =>
    .bind (within_rescheduleAll n) fun _ => .pure _

theorem within_reloadRequested (n : Notification) :
    Within (fun _ => True) (reloadRequested n) := by
  refine .bind .get fun s => ?_
  dsimp only
  split
  · exact .pure _
  refine .bind (.attempt (.bind (within_onStore _ fun _ => trivial) fun _ =>
    within_rescheduleAll n)) fun result => .bind .get fun s => ?_
  split
  · exact .bind (.discard (.attempt (within_announce trivial trivial))) fun _ => .pure _
  · exact .bind (.discard (.attempt (within_announce trivial trivial))) fun _ => .throw _

/-- A notification has no effects but those that it can have. -/
theorem within_handle (n : Notification) : Within n.Footprint (handle n) := by
  -- The kinds about one node, and those that may touch any.
  have on {kind : NotificationKind} {next : NodeId → EngineM Disposition} (hk : n.kind = kind)
      (hn : kind ≠ .interfaceReparented ∧ kind.NeedsNode)
      (h : ∀ node, Within (Effect.On node) (next node)) :
      Within n.Footprint (given n.requireNode next) := by
    refine within_given fun node hnode => (h node).mono fun e he => ?_
    rw [Notification.Footprint, hk, if_neg hn.1, if_pos hn.2]
    exact ⟨node, hnode, he⟩
  have any {kind : NotificationKind} {x : EngineM Disposition} (hk : n.kind = kind)
      (hn : kind ≠ .interfaceReparented ∧ ¬ kind.NeedsNode) (h : Within (fun _ => True) x) :
      Within n.Footprint x := by
    refine h.mono fun e _ => ?_
    rw [Notification.Footprint, hk, if_neg hn.1, if_neg hn.2]
    trivial
  unfold handle
  split
  · next hk => exact on hk (by decide) (within_serviceGained n)
  · next hk => exact on hk (by decide) (within_serviceGained n)
  · next hk => exact on hk (by decide) fun node => (within_serviceRemoved n node).on
  · next hk => exact on hk (by decide) fun node => (within_serviceRemoved n node).on
  · next hk =>
    refine within_given fun _ _ => within_interfaceReparented n fun a s t ha hs ht e he => ?_
    rw [Notification.Footprint, if_pos hk]
    exact ⟨a, s, t, ha, hs, ht, he⟩
  · next hk => exact on hk (by decide) fun node => (within_interfaceDeleted n node).on
  · next hk => exact on hk (by decide) fun node => (within_nodeDeleted n node).on
  · next hk => exact on hk (by decide) fun node => (within_nodeDeleted n node).on
  · next hk => exact on hk (by decide) fun node => (within_labelChanged n node).on
  · next hk => exact on hk (by decide) fun node => within_membershipChanged n node false
  · next hk => exact on hk (by decide) fun node => within_membershipChanged n node false
  · next hk => exact on hk (by decide) fun node => within_membershipChanged n node true
  · next hk => exact any hk (by decide) (within_calendarChanged n)
  · next hk => exact any hk (by decide) (within_reloadRequested n)
  · exact .pure _
  · exact .pure _
  · exact .pure _

end Engine

end Polling
