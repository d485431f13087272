import Polling.Proofs.Engine.Demand
import Polling.Proofs.Engine.OutageSafety
import Polling.Proofs.Engine.Redelivery

namespace Polling

namespace Notification

def LacksNode (n : Notification) : Prop := ∀ node ∈ n.node, ¬ node.Valid

def LacksService (n : Notification) : Prop := ∀ service ∈ n.service, Text.AllBlank service

def LacksNodeParam (n : Notification) (name : String) : Prop :=
  ∀ value ∈ n.param? name, NodeId.ofString? value = none

/-- The notification lacks a field that its kind needs. A reload request has to name the daemon. -/
def Malformed (n : Notification) (daemon : String) : Prop :=
  match n.kind with
  | .nodeGainedService | .resumePollingService | .suspendPollingService | .serviceDeleted =>
    n.LacksNode ∨ n.address = none ∨ n.LacksService
  | .interfaceReparented =>
    n.LacksNode ∨ n.address = none ∨ n.LacksNodeParam "old_node_id" ∨
      n.LacksNodeParam "new_node_id"
  | .interfaceDeleted => n.LacksNode ∨ n.address = none
  | .nodeLabelChanged => n.LacksNode ∨ n.param? "new_node_label" = none
  | .nodeDeleted | .duplicateNodeDeleted | .nodeCategoryMembershipChanged | .assetInfoChanged
  | .nodeLocationChanged => n.LacksNode
  | .reloadDaemonConfig => ∀ name ∈ n.param? "daemon_name", ¬ Text.Caseless name daemon
  | .scheduledOutagesChanged | .thresholdConfigChanged | .reloadDaemonConfigSuccessful
  | .reloadDaemonConfigFailed => False

variable {n : Notification}

theorem not_lacksNode {node : NodeId} (h : n.requireNode = .ok node) : ¬ n.LacksNode := by
  obtain ⟨given, valid⟩ := validNode?_eq_some.1 (requireNode_eq_ok.1 h)
  exact fun lacks => lacks node given valid

theorem subject_of_requireSubject {address : Address} {service : String}
    (h : n.requireSubject = .ok (address, service)) :
    n.address = some address ∧ ¬ n.LacksService := by
  obtain ⟨ha, given, named⟩ := subject?_eq_some.1 (requireSubject_eq_ok.1 h)
  exact ⟨ha, fun lacks => named (lacks service given)⟩

theorem not_lacksNodeParam {name : String} {id : NodeId} (h : n.nodeParam name = .ok id) :
    ¬ n.LacksNodeParam name := by
  intro lacks
  unfold nodeParam at h
  split at h
  · cases h
  · next value hv =>
    rw [lacks value hv] at h
    cases h

theorem param_of_requireParam {name value : String} (h : n.requireParam name = .ok value) :
    n.param? name = some value := by
  rw [← toOption_requireParam, h]
  rfl

end Notification

namespace Engine

open Poller

variable {s : Poller} {n : Notification}

def Refuses (x : EngineM Disposition) (s : Poller) : Prop :=
  ∃ reason, x s = .ok (.discarded reason) s

/-- A field that is missing is reason enough; otherwise one that is asked for later has to be. -/
theorem refuses_given {α : Type} {field : Except InputError α} {next : α → EngineM Disposition}
    (h : ∀ a, field = .ok a → Refuses (next a) s) : Refuses (given field next) s := by
  unfold given
  split
  · exact h _ rfl
  · next cause => exact ⟨.malformed cause, rfl⟩

theorem refuses_of_lacksNode (h : n.LacksNode) (next : NodeId → EngineM Disposition) :
    Refuses (given n.requireNode next) s :=
  refuses_given fun _ hn => absurd h (Notification.not_lacksNode hn)

theorem refuses_of_no_subject (h : n.address = none ∨ n.LacksService)
    (next : Address × String → EngineM Disposition) :
    Refuses (given n.requireSubject next) s := by
  refine refuses_given fun subject hs => ?_
  obtain ⟨address, service⟩ := subject
  obtain ⟨ha, hv⟩ := Notification.subject_of_requireSubject hs
  rcases h with h | h
  · rw [ha] at h
    cases h
  · exact absurd h hv

theorem refuses_of_no_address (h : n.address = none) (next : Address → EngineM Disposition) :
    Refuses (given n.requireAddress next) s := by
  refine refuses_given fun address ha => ?_
  rw [Notification.requireAddress_eq_ok.1 ha] at h
  cases h

theorem refuses_serviceGained (h : n.address = none ∨ n.LacksService) (node : NodeId) :
    Refuses (serviceGained n node) s :=
  refuses_of_no_subject h _

theorem refuses_serviceRemoved (h : n.address = none ∨ n.LacksService) (node : NodeId) :
    Refuses (serviceRemoved n node) s :=
  refuses_of_no_subject h _

theorem refuses_interfaceReparented
    (h : n.address = none ∨ n.LacksNodeParam "old_node_id" ∨ n.LacksNodeParam "new_node_id") :
    Refuses (interfaceReparented n) s := by
  rcases h with h | h | h
  · exact refuses_of_no_address h _
  · exact refuses_given fun _ _ => refuses_given fun _ hs =>
      absurd h (Notification.not_lacksNodeParam hs)
  · exact refuses_given fun _ _ => refuses_given fun _ _ => refuses_given fun _ ht =>
      absurd h (Notification.not_lacksNodeParam ht)

theorem refuses_labelChanged (h : n.param? "new_node_label" = none) (node : NodeId) :
    Refuses (labelChanged n node) s := by
  refine refuses_given fun label hl => ?_
  rw [Notification.param_of_requireParam hl] at h
  cases h

theorem refuses_reloadRequested
    (h : ∀ name ∈ n.param? "daemon_name", ¬ Text.Caseless name s.settings.daemonName) :
    Refuses (reloadRequested n) s := by
  refine ⟨.otherDaemon, ?_⟩
  have other : ¬ Addressed s n := by
    rintro ⟨name, given, same⟩
    exact h name given same
  rw [reloadRequested, bind_of_ok (get_eq s)]
  exact congrFun (if_pos other) s

/-- A missing field may be the node, or be asked for once the node is known. -/
theorem refuses_given_node {next : NodeId → EngineM Disposition} {P : Prop}
    (h : n.LacksNode ∨ P) (hp : P → ∀ node, Refuses (next node) s) :
    Refuses (given n.requireNode next) s := by
  rcases h with h | h
  · exact refuses_of_lacksNode h next
  · exact refuses_given fun node _ => hp h node

theorem refuses_handle (h : n.Malformed s.settings.daemonName) : Refuses (handle n) s := by
  unfold Notification.Malformed at h
  unfold handle
  split
  all_goals
    rename_i hk
    rw [hk] at h
  · exact refuses_given_node h refuses_serviceGained
  · exact refuses_given_node h refuses_serviceGained
  · exact refuses_given_node h refuses_serviceRemoved
  · exact refuses_given_node h refuses_serviceRemoved
  · exact refuses_given_node h fun h _ => refuses_interfaceReparented h
  · exact refuses_given_node h fun h _ => refuses_of_no_address h _
  · exact refuses_of_lacksNode h _
  · exact refuses_of_lacksNode h _
  · exact refuses_given_node h refuses_labelChanged
  · exact refuses_of_lacksNode h _
  · exact refuses_of_lacksNode h _
  · exact refuses_of_lacksNode h _
  · cases h
  · exact refuses_reloadRequested h
  · cases h
  · cases h
  · cases h

end Engine

def Effect.OnOutages : Effect → Prop
  | .met _ | .closed _ _ => True
  | .acted _ | .stored _ | .announced _ => False

namespace Poller

/-- The schedule with its journal and its queue, the configuration with all that is derived from it,
and the announcements are the same. -/
structure Unaltered (s t : Poller) : Prop where
  schedule : t.schedule = s.schedule
  store : t.store = s.store
  sent : t.sent = s.sent

variable {s t u : Poller}

theorem Unaltered.refl (s : Poller) : Unaltered s s := ⟨rfl, rfl, rfl⟩

theorem Unaltered.trans (h : Unaltered s t) (h' : Unaltered t u) : Unaltered s u :=
  ⟨h'.schedule.trans h.schedule, h'.store.trans h.store, h'.sent.trans h.sent⟩

theorem unaltered_after (s : Poller) {e : Effect} (h : e.OnOutages) : Unaltered s (s.after e) := by
  cases e with
  | met call => exact ⟨rfl, rfl, rfl⟩
  | closed scope c => exact ⟨rfl, rfl, rfl⟩
  | acted action => cases h
  | stored store => cases h
  | announced a => cases h

/-- The operation applies a notification, or drops it without a trace. -/
def Traceless (x : EngineM Disposition) : Prop :=
  ∀ s d t, x s = .ok d t → d = .applied ∨ Unaltered s t

theorem Traceless.pure (d : Disposition) : Traceless (pure d) := by
  intro s d t h
  cases h
  exact .inr (.refl s)

/-- An operation that never drops a notification may leave any traces. -/
theorem Traceless.of_returns {x : EngineM Disposition} (h : Returns x (· = .applied)) :
    Traceless x :=
  fun s d t hd => .inl (h s d t hd)

/-- Closing outages first does no harm. -/
theorem Traceless.bind {α : Type} {x : EngineM α} {f : α → EngineM Disposition}
    (hx : Within Effect.OnOutages x) (hf : ∀ a, Traceless (f a)) : Traceless (x >>= f) := by
  intro s d u h
  obtain ⟨a, t, ha, hd⟩ := bind_eq_ok h
  have before : Unaltered s t := by
    rw [← final_of_ok ha]
    exact hx.leads .refl .trans (fun s e he => unaltered_after s he) s
  exact (hf a t d u hd).imp_right before.trans

end Poller

namespace Engine

open Poller

theorem traceless_given {α : Type} {field : Except InputError α} {next : α → EngineM Disposition}
    (h : ∀ a, Traceless (next a)) : Traceless (given field next) := by
  unfold given
  split
  · exact h _
  · exact .pure _

theorem traceless_serviceGained (n : Notification) (node : NodeId) :
    Traceless (serviceGained n node) := by
  refine traceless_given fun subject => .of_returns (.bind fun mark => ?_)
  split
  · exact .pure rfl
  · exact .bind fun _ => .bind fun _ => .bind fun _ => .bind fun _ => .pure rfl
  · exact .bind fun _ => .bind fun _ => .bind fun _ => .pure rfl

theorem traceless_serviceRemoved (n : Notification) (node : NodeId) :
    Traceless (serviceRemoved n node) := by
  refine traceless_given fun subject =>
    .bind (.lift (within_closeOutages trivial trivial)) fun _ =>
      .bind (.lift (within_ask _ trivial)) fun mark => ?_
  split
  · exact .pure _
  · exact .pure _
  · exact .of_returns (.bind fun _ => .pure rfl)

theorem traceless_interfaceDeleted (n : Notification) (node : NodeId) :
    Traceless (interfaceDeleted n node) := by
  refine traceless_given fun address =>
    .bind (.lift (within_closeOutages trivial trivial)) fun _ =>
      .bind (.lift (within_ask _ trivial)) fun tracked => ?_
  split
  · exact .pure _
  · exact .of_returns (.bind fun _ => .pure rfl)

theorem traceless_nodeDeleted (n : Notification) (node : NodeId) :
    Traceless (nodeDeleted n node) := by
  refine .bind (.lift (within_closeOutages trivial trivial)) fun _ =>
    .bind (.lift (within_ask _ trivial)) fun info => ?_
  split
  · exact .pure _
  · exact .of_returns (.bind fun _ => .pure rfl)

theorem traceless_interfaceReparented (n : Notification) : Traceless (interfaceReparented n) := by
  refine traceless_given fun address => traceless_given fun source =>
    traceless_given fun target => ?_
  split
  · exact .pure _
  refine .bind (.lift (within_ask _ trivial)) fun info => ?_
  split
  · exact .pure _
  refine .bind (.lift (within_ask _ trivial)) fun info => ?_
  split
  · exact .pure _
  refine .bind (.lift (within_ask _ trivial)) fun tracked => ?_
  split
  · exact .pure _
  · exact .of_returns (.bind fun _ => .pure rfl)

theorem traceless_labelChanged (n : Notification) (node : NodeId) :
    Traceless (labelChanged n node) := by
  refine traceless_given fun label => .bind (.lift (within_ask _ trivial)) fun info => ?_
  split
  · exact .pure _
  · exact .of_returns (.bind fun _ => .pure rfl)

theorem traceless_membershipChanged (n : Notification) (node : NodeId) (force : Bool) :
    Traceless (membershipChanged n node force) :=
  .of_returns (.bind fun _ => .bind fun _ => .pure rfl)

theorem traceless_calendarChanged (n : Notification) : Traceless (calendarChanged n) :=
  .of_returns (.bind fun _ => .bind fun _ => .pure rfl)

theorem traceless_reloadRequested (n : Notification) : Traceless (reloadRequested n) := by
  refine .bind .get fun s => ?_
  dsimp only
  split
  · exact .pure _
  refine .of_returns (.bind fun result => .bind fun s => ?_)
  split
  · exact .bind fun _ => .pure rfl
  · exact .bind fun _ => .throw _

theorem traceless_handle (n : Notification) : Traceless (handle n) := by
  unfold handle
  split
  · exact traceless_given (traceless_serviceGained n)
  · exact traceless_given (traceless_serviceGained n)
  · exact traceless_given (traceless_serviceRemoved n)
  · exact traceless_given (traceless_serviceRemoved n)
  · exact traceless_given fun _ => traceless_interfaceReparented n
  · exact traceless_given (traceless_interfaceDeleted n)
  · exact traceless_given (traceless_nodeDeleted n)
  · exact traceless_given (traceless_nodeDeleted n)
  · exact traceless_given (traceless_labelChanged n)
  · exact traceless_given fun node => traceless_membershipChanged n node false
  · exact traceless_given fun node => traceless_membershipChanged n node false
  · exact traceless_given fun node => traceless_membershipChanged n node true
  · exact traceless_calendarChanged n
  · exact traceless_reloadRequested n
  · exact .pure _
  · exact .pure _
  · exact .pure _

/-- A notification that is dropped leaves no trace but outages that are closed, and one that lacks a
field that its kind needs, or is the engine's own, is dropped without any. -/
theorem dropped_without_trace (s : Poller) (n : Notification) :
    (∀ d t, handle n s = .ok d t → d ≠ .applied → Unaltered s t) ∧
    (n.Malformed s.settings.daemonName → ∃ reason, handle n s = .ok (.discarded reason) s) ∧
    (n.kind = .reloadDaemonConfigSuccessful ∨ n.kind = .reloadDaemonConfigFailed →
      handle n s = .ok .ignored s) := by
  refine ⟨fun d t h hd => ?_, refuses_handle, fun h => ?_⟩
  · exact (traceless_handle n s d t h).resolve_left hd
  · unfold handle
    rcases h with h | h
    · rw [h]
      rfl
    · rw [h]
      rfl

end Engine

namespace Sample

def nameless : Notification := { gained ⟨1⟩ with service := some " " }

def reloaded : Notification := { change with kind := .reloadDaemonConfigSuccessful }

end Sample

namespace Engine

open Poller

/-- Where the interface is not tracked its removal only asks for outages to be closed. A blank name
and an outcome do not even do that. -/
theorem interface_gone_unseen :
    (∃ d t, handle Sample.interfaceGone Sample.start = .ok d t ∧ d ≠ .applied ∧
      Unaltered Sample.start t ∧ t.outages.closings = 1) ∧
    (∃ reason, handle Sample.nameless Sample.start = .ok (.discarded reason) Sample.start) ∧
      handle Sample.reloaded Sample.start = .ok .ignored Sample.start := by
  obtain ⟨unaltered, -, -⟩ := dropped_without_trace Sample.start Sample.interfaceGone
  obtain ⟨-, refused, -⟩ := dropped_without_trace Sample.start Sample.nameless
  obtain ⟨-, -, ignored⟩ := dropped_without_trace Sample.start Sample.reloaded
  have blank : Sample.nameless.Malformed Sample.start.settings.daemonName := by
    refine .inr (.inr fun service (hs : some " " = some service) => ?_)
    cases hs
    decide +kernel
  have gone : ∃ t, handle Sample.interfaceGone Sample.start =
      .ok (.discarded (.interfaceUntracked ⟨1⟩ Sample.address)) t ∧ t.outages.closings = 1 :=
    ⟨_, rfl, rfl⟩
  obtain ⟨t, ht, once⟩ := gone
  exact ⟨⟨_, t, ht, by decide, unaltered _ t ht (by decide), once⟩, refused blank,
    ignored (.inl rfl)⟩

end Engine

end Polling
