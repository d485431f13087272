import Polling.Proofs.Engine.Licence
import Polling.Proofs.Engine.OutageSafety
import Polling.Proofs.Store.Consistency

namespace Polling

namespace Poller

variable {s t : Poller}

/-- From one state to the other the store is replaced at most once, by one that comes about, and
from then on there are only effects that the configuration in force licenses. -/
structure Lawful (s t : Poller) : Prop where
  store : s.store.Reachable → t.store.Reachable
  effects : ∃ effects : List Effect, (∀ e ∈ effects, e.Licensed t.store.active) ∧
    t = effects.foldl after { s with store := t.store }

theorem Lawful.refl (s : Poller) : Lawful s s := ⟨id, [], by simp, rfl⟩

section Operations

variable {ε α β : Type} {x : EStateM ε Poller α} {f : α → EStateM ε Poller β}

/-- The store is replaced, and the operation obeys from there on. -/
theorem ObeysFrom.lawful {store : Store} (hx : ObeysFrom { s with store } x)
    (h : s.store.Reachable → store.Reachable) : Lawful s (final x { s with store }) := by
  obtain ⟨effects, he, hs⟩ := hx
  have same : (final x { s with store }).store = store := hs ▸ store_foldl_after he _
  refine ⟨fun hr => ?_, effects, ?_, ?_⟩
  · rw [same]
    exact h hr
  · rw [same]
    exact he
  · rw [same]
    exact hs

theorem Obeys.lawful (hx : Obeys x) (s : Poller) : Lawful s (final x s) := by
  have same : ObeysFrom { s with store := s.store } x := hx s
  exact same.lawful id

theorem Lawful.bind {u : Poller} (hx : Lawful s (final x u)) (hf : ∀ a, Obeys (f a)) :
    Lawful s (final (x >>= f) u) := by
  cases hr : x u with
  | ok a t =>
    rw [final_bind_of_ok hr]
    rw [final_of_ok hr] at hx
    obtain ⟨first, hfirst, hs⟩ := hx.effects
    obtain ⟨second, hsecond, ht⟩ := hf a t
    -- The second part keeps the store, so its configuration licenses the effects of both.
    have same : (final (f a) t).store = t.store := ht ▸ store_foldl_after hsecond t
    refine ⟨fun h => same ▸ hx.store h, first ++ second, fun e he => ?_, ?_⟩
    · rw [same]
      exact (List.mem_append.1 he).elim (hfirst e) (hsecond e)
    · rw [same, List.foldl_append, ← hs]
      exact ht
  | error e t =>
    rw [final_of_error (bind_of_error hr)]
    rw [final_of_error hr] at hx
    exact hx

end Operations

end Poller

namespace Engine

open Poller

variable {s : Poller}

theorem lawful_given {α : Type} {field : Except InputError α} {next : α → EngineM Disposition}
    (h : ∀ a, field = .ok a → Lawful s (final (next a) s)) :
    Lawful s (final (given field next) s) := by
  unfold given
  split
  · exact h _ rfl
  · exact .refl s

theorem valid_of_requireNode {n : Notification} {node : NodeId} (h : n.requireNode = .ok node) :
    node.Valid := by
  have named : n.node.filter (·.Valid) = some node := Notification.requireNode_eq_ok.1 h
  exact of_decide_eq_true (Option.filter_eq_some_iff.1 named).2

theorem reachable_rebuild {store : Store} (h : store.Reachable) : store.rebuild.Reachable :=
  .asked .rebuild h

theorem lawful_membershipChanged (n : Notification) {node : NodeId} (hn : node.Valid)
    (force : Bool) : Lawful s (final (membershipChanged n node force) s) := by
  have rest : Obeys (do
      discard (reconcile node force n)
      return Disposition.applied) :=
    .bind (.discard (obeys_reconcile hn force n)) fun _ => .pure _
  rw [membershipChanged, final_bind_of_ok (rebuildCaches_eq s)]
  exact (rest _).lawful reachable_rebuild

/-- All known nodes are scheduled afresh under the configuration of a store, the address caches of
which are built again first. -/
theorem lawful_rescheduleAll (n : Notification) (known : ∀ node ∈ s.schedule.nodeIds, node.Valid)
    {store : Store} (h : s.store.Reachable → store.Reachable) :
    Lawful s (final (rescheduleAll n) { s with store }) := by
  have all : ObeysFrom { s with store := store.rebuild } (do
      let nodes ← (liftM trackedNodes : EngineM (List NodeId))
      rescheduleNodes n nodes) := by
    refine ((obeys_ask _ _).lift _).bind fun nodes t ht => ?_
    obtain ⟨found, faults, rfl⟩ := ask_eq_ok (lift_eq_ok ht)
    have valid : ∀ node ∈ nodes, node.Valid := found ▸ known
    exact obeys_rescheduleNodes n valid _
  rw [rescheduleAll, final_bind_of_ok (rebuildCaches_eq _)]
  exact all.lawful fun hr => reachable_rebuild (h hr)

theorem reachable_reload {store : Store} (h : store.Reachable) :
    (final Store.reload store).Reachable :=
  .asked .reload h

theorem lawful_calendarChanged (n : Notification)
    (known : ∀ node ∈ s.schedule.nodeIds, node.Valid) :
    Lawful s (final (calendarChanged n) s) := by
  obtain ⟨result, read⟩ := attempt_reload_eq s
  rw [calendarChanged, final_bind_of_ok (discard_of_ok read)]
  exact (lawful_rescheduleAll n known reachable_reload).bind fun _ => .pure _

/-- Nothing is scheduled if the configuration could not be read. -/
theorem lawful_reloadAll (n : Notification) (known : ∀ node ∈ s.schedule.nodeIds, node.Valid) :
    Lawful s (final (do onStore Store.reload; rescheduleAll n : EngineM Unit) s) := by
  cases hr : s.store.read with
  | ok c =>
    have loaded : (onStore Store.reload : EngineM Unit) s =
        .ok () { s with store := s.store.install c } := by
      rw [onStore, Store.reload_of_ok hr]
    have reachable (h : s.store.Reachable) : (s.store.install c).Reachable := by
      have := reachable_reload h
      rwa [final_of_ok (Store.reload_of_ok hr)] at this
    rw [final_bind_of_ok loaded]
    exact lawful_rescheduleAll n known reachable
  | error e =>
    have failed : (onStore Store.reload : EngineM Unit) s = .error (.config e) s := by
      rw [onStore, Store.reload_of_error hr]
    rw [final_of_error (bind_of_error failed)]
    exact .refl s

theorem lawful_reloadRequested (n : Notification)
    (known : ∀ node ∈ s.schedule.nodeIds, node.Valid) :
    Lawful s (final (reloadRequested n) s) := by
  by_cases ha : Addressed s n
  · have announced (a : Announcement) : Obeys (announce a) :=
      (within_announce (fun _ => trivial) fun _ => trivial).obeys
    unfold Addressed at ha
    rw [reloadRequested, final_bind_of_ok (get_eq s)]
    dsimp only
    rw [if_neg (not_not_intro ha)]
    refine Lawful.bind ?_ fun result => .bind .get fun u => ?_
    · rw [final_attempt]
      exact lawful_reloadAll n known
    · split
      · exact .bind (.discard (.attempt (announced _))) fun _ => .pure _
      · exact .bind (.discard (.attempt (announced _))) fun _ => .throw _
  · rw [final_reloadRequested_of_other ha]
    exact .refl s

/-- A notification of any kind is handled lawfully, with success or not, as long as all nodes that
are known are valid. -/
theorem lawful_handle (n : Notification) (known : ∀ node ∈ s.schedule.nodeIds, node.Valid) :
    Lawful s (final (handle n) s) := by
  have node {next : NodeId → EngineM Disposition}
      (h : ∀ node, node.Valid → Lawful s (final (next node) s)) :
      Lawful s (final (given n.requireNode next) s) :=
    lawful_given fun node hn => h node (valid_of_requireNode hn)
  -- Of the kinds about one node, some schedule keys, and the others have plain effects only.
  have plain {next : NodeId → EngineM Disposition}
      (h : ∀ node, Within (Effect.PlainOn node) (next node)) :
      Lawful s (final (given n.requireNode next) s) :=
    node fun m _ => (h m).obeys_of_plain.lawful s
  unfold handle
  cases n.kind with
  | nodeGainedService | resumePollingService =>
    exact node fun _ hn => (obeys_serviceGained n hn).lawful s
  | suspendPollingService | serviceDeleted => exact plain (within_serviceRemoved n)
  | interfaceDeleted => exact plain (within_interfaceDeleted n)
  | nodeDeleted | duplicateNodeDeleted => exact plain (within_nodeDeleted n)
  | nodeLabelChanged => exact plain (within_labelChanged n)
  | nodeCategoryMembershipChanged | assetInfoChanged =>
    exact node fun _ hn => lawful_membershipChanged n hn false
  | nodeLocationChanged => exact node fun _ hn => lawful_membershipChanged n hn true
  | interfaceReparented =>
    have moved : Within (fun e => ∀ c, e.Licensed c) (interfaceReparented n) :=
      within_interfaceReparented n fun _ _ _ _ _ _ _ he => he.licensed
    exact node fun _ _ => moved.obeys.lawful s
  | scheduledOutagesChanged => exact lawful_calendarChanged n known
  | reloadDaemonConfig => exact lawful_reloadRequested n known
  | thresholdConfigChanged | reloadDaemonConfigSuccessful | reloadDaemonConfigFailed =>
    exact .refl s

end Engine

namespace Poller

variable {s t : Poller}

inductive Occurrence where
  /-- A notification is handled, be it with success or not. -/
  | notified (n : Notification)
  | asked (r : Store.Request)
  | worked (count : Nat)
  /-- The worker carries out a removal, whichever are queued before it. -/
  | carriedOut (scope : Scope)
  /-- All but the schedule and the configuration in force is replaced: the inventory, the outages,
  the document, the address lists and filters, the faults and how the worker behaves. -/
  | surrounded (t : Poller)

def next (s : Poller) : Occurrence → Poller
  | .notified n => final (Engine.handle n) s
  | .asked r => { s with store := final r.meet s.store }
  | .worked count => s.acted (.work count)
  | .carriedOut scope => s.acted (.carryOut scope)
  | .surrounded t =>
    { t with schedule := s.schedule, store := { t.store with active := s.store.active } }

def course (s : Poller) (occurrences : List Occurrence) : Poller := occurrences.foldl next s

/-- All that is scheduled from one state to the other is authorized by the configuration that is in
force in the end, and it is in force whenever the schedule changes. -/
structure Authorized (s t : Poller) : Prop where
  recorded : Schedule.Writes t.store.active.Authorizes s.schedule t.schedule
  moments : ∃ effects : List Effect, (∀ e ∈ effects, e.Licensed t.store.active) ∧
    t.schedule = (effects.foldl after { s with store := t.store }).schedule

/-- The store is one that comes about, and all that is and ever was tracked is proper. -/
structure Regular (s : Poller) : Prop where
  store : s.store.Reachable
  schedule : s.schedule.Proper

theorem Lawful.authorized (h : Lawful s t) : Authorized s t := by
  obtain ⟨effects, licensed, ht⟩ := h.effects
  have scheduled := congrArg schedule ht
  have recorded := writes_foldl_after licensed { s with store := t.store }
  rw [← scheduled] at recorded
  exact ⟨recorded, effects, licensed, scheduled⟩

theorem Lawful.regular (h : Lawful s t) (hs : s.Regular) : t.Regular := by
  have reachable := h.store hs.store
  obtain ⟨effects, licensed, ht⟩ := h.effects
  have proper : (effects.foldl after { s with store := t.store }).schedule.Proper :=
    proper_foldl_after licensed (fun _ => reachable.named) hs.schedule
  rw [← ht] at proper
  exact ⟨reachable, proper⟩

/-- Only the worker acts on the schedule besides the engine, and it adds nothing. -/
theorem lawful_acted {action : Schedule.Action} (h : ∀ P, action.AddsOnly P) :
    Lawful s (s.acted action) where
  store := id
  effects := ⟨[.acted action], by simpa [Effect.Licensed] using h _, rfl⟩

/-- Whatever happens to a regular poller, it stays regular and schedules only what is authorized. -/
theorem Regular.next (hs : s.Regular) (o : Occurrence) :
    (s.next o).Regular ∧ Authorized s (s.next o) := by
  have lawful {t : Poller} (h : Lawful s t) : t.Regular ∧ Authorized s t :=
    ⟨h.regular hs, h.authorized⟩
  cases o with
  | notified n =>
    have known (node : NodeId) (hn : node ∈ s.schedule.nodeIds) : node.Valid :=
      hs.schedule.node (Schedule.mem_nodeIds.1 hn)
    exact lawful (Engine.lawful_handle n known)
  | asked r => exact lawful ⟨.asked r, [], by simp, rfl⟩
  | worked count => exact lawful (lawful_acted fun _ => trivial)
  | carriedOut scope => exact lawful (lawful_acted fun _ => trivial)
  | surrounded t =>
    have reachable : (s.next (.surrounded t)).store.Reachable :=
      Store.Reachable.surrounded (s := s.store) rfl hs.store
    exact ⟨⟨reachable, hs.schedule⟩, .refl s.schedule, [], by simp, rfl⟩

theorem Regular.course (hs : s.Regular) (occurrences : List Occurrence) :
    (s.course occurrences).Regular := by
  induction occurrences generalizing s with
  | nil => exact hs
  | cons o occurrences ih => exact ih (hs.next o).1

/-- In every run from a store that was opened and an empty schedule, each key is scheduled with the
authority of the configuration in force, and all that is ever tracked is on a valid node and names a
service. -/
theorem scheduled_with_authority {opened store : Store} (h : opened.load = .ok store)
    (inventory : Inventory) (settings : Settings) (occurrences : List Occurrence) :
    let start := started store inventory settings
    (∀ past o, past ++ [o] <+: occurrences →
      Authorized (start.course past) (start.course (past ++ [o]))) ∧
    (∀ past, past <+: occurrences → ∀ key, ((start.course past).schedule.mark? key).isSome →
      key.node.Valid ∧ ¬ Text.AllBlank key.service) ∧
    ∀ changes, changes <+: (start.course occurrences).schedule.journal →
      ∀ key ∈ replay changes, key.node.Valid ∧ ¬ Text.AllBlank key.service := by
  intro start
  have regular (past : List Occurrence) : (start.course past).Regular :=
    Regular.course ⟨.opened h, Schedule.proper_empty⟩ past
  refine ⟨fun past o _ => ?_, fun past _ key hk => ?_, fun changes hc key hk => ?_⟩
  · rw [course, course, List.foldl_append]
    exact ((regular past).next o).2
  · have proper := (regular past).schedule.tracked key hk
    exact ⟨proper.node, proper.service⟩
  · have proper := (regular occurrences).schedule.past changes hc key hk
    exact ⟨proper.node, proper.service⟩

end Poller

namespace Sample

def found : Notification :=
  { change with
    kind := .nodeGainedService
    address := some inside
    service := some "HTTP" }

/-- A monitor for no service is declared and another package added before the service is found. -/
def discovery : List Poller.Occurrence :=
  [.asked (.addMonitor ⟨" ", "icmp"⟩), .asked (.addPackage outer), .notified found]

end Sample

namespace Poller

/-- The service that is found is scheduled with the authority of the package. -/
theorem http_scheduled_with_authority :
    ∃ store, Sample.selecting.load = .ok store ∧
      Authorized ((started store ∅ {}).course (Sample.discovery.take 2))
        ((started store ∅ {}).course Sample.discovery) ∧
      ((started store ∅ {}).course Sample.discovery).schedule.journal =
        [.schedule ⟨⟨1⟩, Sample.inside, "HTTP"⟩] := by
  have found : Sample.selecting.read = .ok Sample.held :=
    Store.read_of_parse rfl (Configuration.parse?_write (.lines 0) Sample.held)
  have loaded : Sample.selecting.load = .ok (Sample.selecting.install Sample.held) := by
    rw [Store.load_eq, found]
    rfl
  have authorized := (scheduled_with_authority loaded ∅ {} Sample.discovery).1
    (Sample.discovery.take 2) (.notified Sample.found) (List.prefix_refl _)
  exact ⟨_, loaded, authorized, by decide +kernel⟩

end Poller

end Polling
