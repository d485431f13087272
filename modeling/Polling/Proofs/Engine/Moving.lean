import Polling.Proofs.Engine.Handling
import Polling.Proofs.Engine.Reconciliation
import Polling.Proofs.Schedule.Confirmation

namespace Polling

namespace Schedule

def Action.Requests (key : ServiceKey) : Action → Prop
  | .delete scope => key ∈ scope
  | _ => False

def Action.Displaces (key : ServiceKey) : Action → Prop
  | .reparent address source target => key ∈ Scope.interface source address ∧ source ≠ target
  | _ => False

def Action.ByWorker : Action → Prop
  | .work _ | .carryOut _ => True
  | _ => False

variable {s t : Schedule} {key : ServiceKey} {action : Action}

theorem mark?_act_of_byWorker (h : s.mark? key ≠ some .pendingDelete) (ha : action.ByWorker) :
    (s.act action).mark? key = s.mark? key := by
  cases action with
  | work count =>
    rw [mark?_act_work]
    exact filter_of_not_pending (by simp) h
  | carryOut scope =>
    rw [mark?_act_carryOut]
    exact filter_of_not_pending (by simp) h
  | add _ _ | delete _ | reparent _ _ _ | setLabel _ _ => cases ha

/-- A key whose removal is neither pending nor requested keeps its mark, gets scheduled, or goes
with its interface. -/
theorem mark?_act_of_unrequested (h : s.mark? key ≠ some .pendingDelete)
    (ha : ¬ action.Requests key) :
    (s.act action).mark? key = s.mark? key ∨ (s.act action).mark? key = some .scheduled ∨
      action.Displaces key ∧ (s.act action).mark? key = none := by
  cases action with
  | add k info =>
    rw [mark?_act_add]
    split
    · exact .inr (.inl rfl)
    · exact .inl rfl
  | delete scope =>
    have out : key ∉ scope := ha
    rw [mark?_act_delete, if_neg out]
    exact .inl rfl
  | reparent address source target =>
    -- The key is at the interface that moves, arrives with it, or has nothing to do with it.
    rw [mark?_act_reparent]
    split
    · next moves =>
      split
      · next displaced => exact .inr (.inr ⟨⟨displaced, moves.1⟩, rfl⟩)
      · split
        · exact .inr (.inl rfl)
        · exact .inl rfl
    · exact .inl rfl
  | setLabel node label => exact .inl (mark?_act_setLabel s node label key)
  | work count => exact .inl (mark?_act_of_byWorker h trivial)
  | carryOut scope => exact .inl (mark?_act_of_byWorker h trivial)

/-- Only a request makes the removal of a key pending. -/
theorem not_pending_act (h : s.mark? key ≠ some .pendingDelete) (ha : ¬ action.Requests key) :
    (s.act action).mark? key ≠ some .pendingDelete := by
  rcases mark?_act_of_unrequested h ha with same | scheduled | ⟨-, gone⟩
  · rw [same]
    exact h
  · simp [scheduled]
  · simp [gone]

/-- A scheduled key stays so until its removal is requested or its interface moves away. -/
theorem scheduled_act (h : s.mark? key = some .scheduled) (hr : ¬ action.Requests key)
    (hd : ¬ action.Displaces key) : (s.act action).mark? key = some .scheduled := by
  have unmarked : s.mark? key ≠ some .pendingDelete := by simp [h]
  rcases mark?_act_of_unrequested unmarked hr with same | scheduled | ⟨displaced, -⟩
  · rw [same, h]
  · exact scheduled
  · exact absurd displaced hd

theorem not_pending_run (h : s.mark? key ≠ some .pendingDelete) {actions : List Action}
    (ha : ∀ action ∈ actions, ¬ action.Requests key) :
    (s.run actions).mark? key ≠ some .pendingDelete :=
  run_induction_of (P := fun t => t.mark? key ≠ some .pendingDelete)
    (fun _ _ hr hp => not_pending_act hp hr) h ha

theorem scheduled_run (h : s.mark? key = some .scheduled) {actions : List Action}
    (ha : ∀ action ∈ actions, ¬ action.Requests key ∧ ¬ action.Displaces key) :
    (s.run actions).mark? key = some .scheduled :=
  run_induction_of (P := fun t => t.mark? key = some .scheduled)
    (fun _ _ hq hp => scheduled_act hp hq.1 hq.2) h ha

/-- An interface has moved from one node to another, and nothing is lost or invented. -/
structure Moved (address : Address) (source target : NodeId) (s t : Schedule) : Prop where
  arrived : ∀ service, t.mark? ⟨target, address, service⟩ =
    if s.mark? ⟨source, address, service⟩ = some .scheduled then some .scheduled
    else s.mark? ⟨target, address, service⟩
  left : ∀ service, t.mark? ⟨source, address, service⟩ = none
  others : ∀ key, key ∉ Scope.interface source address → key ∉ Scope.interface target address →
    t.mark? key = s.mark? key
  /-- The source is known as long as it has a key at another address. -/
  source_known : (t.node? source).isSome ↔
    ∃ key : ServiceKey, key.node = source ∧ key.address ≠ address ∧ (s.mark? key).isSome
  /-- Nodes that are left keep their label and location, the target among them. -/
  info : ∀ m, m ≠ source ∨ (t.node? m).isSome → t.node? m = s.node? m
  journal : t.journal = s.journal ++ [.reparent address source target]
  queue : t.queue = s.queue

/-- However the schedule goes on, a message that the worker carries out takes the key away only once
a removal of the key has been requested. -/
def Shielded (s : Schedule) (key : ServiceKey) : Prop :=
  ∀ later : List Action, (∀ action ∈ later, ¬ action.Requests key) →
    (∀ action, action.ByWorker →
      ((s.run later).act action).mark? key = (s.run later).mark? key) ∧
    ((∀ action ∈ later, ¬ action.Displaces key) → (s.run later).mark? key = some .scheduled)

theorem shielded_of_scheduled (h : s.mark? key = some .scheduled) : s.Shielded key := by
  intro later unrequested
  have unmarked : (s.run later).mark? key ≠ some .pendingDelete :=
    not_pending_run (by simp [h]) unrequested
  refine ⟨fun action hw => mark?_act_of_byWorker unmarked hw, fun stays => ?_⟩
  exact scheduled_run h fun action ha => ⟨unrequested action ha, stays action ha⟩

variable {address : Address} {source target : NodeId}

theorem node?_of_reparent (h : s.reparent address source target = .ok t) {m : NodeId}
    (hm : m ≠ source) : t.node? m = s.node? m := by
  rcases reparent_cases h with ⟨-, -, -, ⟨-, rfl⟩ | ⟨-, rfl⟩⟩
  · rfl
  · rw [node?_prune, if_neg (fun e => hm e.1)]
    rfl

/-- The source keeps the keys at its other addresses. -/
theorem tracks_source_of_reparent (hne : source ≠ target)
    (h : s.reparent address source target = .ok t) :
    t.Tracks (.node source) ↔
      ∃ key : ServiceKey, key.node = source ∧ key.address ≠ address ∧ (s.mark? key).isSome := by
  rw [tracks_iff]
  constructor
  · intro ht
    obtain ⟨key, on, tracked⟩ := ht
    rw [Scope.mem_node] at on
    rw [mark?_of_reparent hne h] at tracked
    split at tracked
    · cases tracked
    · next out =>
      have elsewhere : key.address ≠ address := fun e => out ⟨on, e⟩
      rw [if_neg (fun e => elsewhere e.1.2)] at tracked
      exact ⟨key, on, elsewhere, tracked⟩
  · intro hk
    obtain ⟨key, on, elsewhere, tracked⟩ := hk
    refine ⟨key, on, ?_⟩
    rw [mark?_of_reparent hne h, if_neg (fun e => elsewhere e.2), if_neg (fun e => elsewhere e.1.2)]
    exact tracked

theorem moved_of_reparent (hs : s.Trim) (hne : source ≠ target)
    (h : s.reparent address source target = .ok t) : Moved address source target s t := by
  have trim : t.Trim := by
    have after := hs.reparent address source target
    rw [act, h] at after
    exact after
  have marks := mark?_of_reparent hne h
  have written : t.journal = s.journal ++ [.reparent address source target] ∧
      t.queue = s.queue := by
    rcases reparent_cases h with ⟨-, -, -, ⟨e, -⟩ | ⟨-, rfl⟩⟩
    · exact absurd e hne
    · exact ⟨journal_prune _ source, queue_prune _ source⟩
  exact {
    arrived := fun service => by
      have out : (⟨target, address, service⟩ : ServiceKey) ∉ Scope.interface source address :=
        fun e => hne e.1.symm
      rw [marks, if_neg out]
      simp
    left := fun service => by
      rw [marks, if_pos ⟨rfl, rfl⟩]
    others := fun key hs ht => by
      rw [marks, if_neg hs, if_neg (fun e => ht e.1)]
    source_known := (trim source).trans (tracks_source_of_reparent hne h)
    info := fun m hm => by
      rcases hm with hm | hm
      · exact node?_of_reparent h hm
      · have kept := keepsInfo_reparent s address source target m
        rw [act, h] at kept
        exact kept.resolve_left (Option.isSome_iff_ne_none.1 hm)
    journal := written.1
    queue := written.2 }

end Schedule

namespace Poller

open Schedule

variable {s : Poller} {address : Address} {source target : NodeId}

theorem reparent_of_error (h : s.faults = []) {e : CallError}
    (he : s.schedule.reparent address source target = .error e) :
    reparent address source target s = .error e s :=
  change_of_error (Call.meet_of_no_faults h _) he

theorem reparent_of_unknown_target (h : s.faults = []) (ht : s.schedule.node? target = none) :
    reparent address source target s = .error (.nodeNotFound target) s :=
  reparent_of_error h (by rw [Schedule.reparent, if_pos ht])

theorem reparent_of_unknown_source (h : s.faults = []) (ht : s.schedule.node? target ≠ none)
    (hs : s.schedule.node? source = none) :
    reparent address source target s = .error (.nodeNotFound source) s :=
  reparent_of_error h (by rw [Schedule.reparent, if_neg ht, if_pos hs])

theorem reparent_of_nothing_there (h : s.faults = []) (ht : s.schedule.node? target ≠ none)
    (hs : s.schedule.node? source ≠ none)
    (hi : ¬ s.schedule.Tracks (.interface source address)) :
    reparent address source target s = .error (.interfaceNotFound source address) s :=
  reparent_of_error h (by rw [Schedule.reparent, if_neg ht, if_neg hs, if_pos hi])

/-- Moving an interface fails for want of the target, the source or the interface, in this order,
and changes nothing then. Otherwise what is scheduled moves, and nothing but a new request lets a
removal take it away. -/
theorem reparent_moves_exactly (hs : s.Reachable) (address : Address) (source target : NodeId) :
    (s.schedule.node? target = none →
      reparent address source target s = .error (.nodeNotFound target) s) ∧
    (s.schedule.node? target ≠ none → s.schedule.node? source = none →
      reparent address source target s = .error (.nodeNotFound source) s) ∧
    (s.schedule.node? target ≠ none → s.schedule.node? source ≠ none →
      (∀ service, s.schedule.mark? ⟨source, address, service⟩ = none) →
      reparent address source target s = .error (.interfaceNotFound source address) s) ∧
    (s.schedule.node? target ≠ none → s.schedule.node? source ≠ none →
      (∃ service, (s.schedule.mark? ⟨source, address, service⟩).isSome) →
      ∃ t, reparent address source target s = .ok () { s with schedule := t } ∧
        (source = target → t = s.schedule) ∧
        (source ≠ target → Moved address source target s.schedule t ∧
          ∀ service, s.schedule.mark? ⟨source, address, service⟩ = some .scheduled →
            t.Shielded ⟨target, address, service⟩)) := by
  have ready := hs.ready
  refine ⟨reparent_of_unknown_target ready.faults, reparent_of_unknown_source ready.faults,
    fun ht hn untracked => ?_, fun ht hn tracked => ?_⟩
  · apply reparent_of_nothing_there ready.faults ht hn
    rw [tracks_interface]
    intro h
    obtain ⟨service, there⟩ := h
    rw [untracked service] at there
    cases there
  · have there := tracks_interface.2 tracked
    have done := reparent_ok hn ht there
    refine ⟨_, Engine.reparent_eq ready.faults hn ht there, fun same => ?_, fun apart => ?_⟩
    · exact act_reparent_of_not (.inl same)
    · have moved := moved_of_reparent ready.trim apart done
      refine ⟨moved, fun service scheduled => shielded_of_scheduled ?_⟩
      rw [moved.arrived, if_pos scheduled]

end Poller

namespace Sample

/-- On the first node the removal of HTTP is pending, and the second node is to be removed as a
whole. -/
def busy : Poller :=
  { start with
    schedule := Schedule.run {} [.add http {}, .add icmp {}, .add { icmp with node := ⟨2⟩ } {},
      .delete (.service http), .delete (.node ⟨2⟩)] }

theorem reachable_busy : busy.Reachable :=
  .acted (.delete (.node ⟨2⟩)) <| .acted (.delete (.service http)) <|
    .acted (.add { icmp with node := ⟨2⟩ } {}) <| .acted (.add icmp {}) <| .acted (.add http {}) <|
      .start start.store start.inventory {}

end Sample

namespace Poller

/-- The worker carries out both removals after the move, and ICMP stays where it has moved. -/
theorem icmp_moves_to_node_going : ∃ t,
    reparent Sample.address ⟨1⟩ ⟨2⟩ Sample.busy = .ok () { Sample.busy with schedule := t } ∧
      t.mark? { Sample.icmp with node := ⟨2⟩ } = some .scheduled ∧
      t.mark? { Sample.http with node := ⟨2⟩ } = none ∧ t.node? ⟨1⟩ = none ∧
      t.queue = [.service Sample.http, .node ⟨2⟩] ∧
      (t.run [.work 2]).mark? { Sample.icmp with node := ⟨2⟩ } = some .scheduled := by
  obtain ⟨-, -, -, moves⟩ :=
    reparent_moves_exactly Sample.reachable_busy Sample.address ⟨1⟩ ⟨2⟩
  obtain ⟨t, done, -, moved⟩ :=
    moves (by decide +kernel) (by decide +kernel) ⟨"ICMP", by decide +kernel⟩
  obtain ⟨moved, shielded⟩ := moved (by decide)
  have arrives : Sample.busy.schedule.mark? ⟨⟨1⟩, Sample.address, "ICMP"⟩ = some .scheduled := by
    decide +kernel
  have stays := (shielded "ICMP" arrives [.work 2] (by simp [Schedule.Action.Requests])).2
    (by simp [Schedule.Action.Displaces])
  refine ⟨t, done, ?_, ?_, ?_, ?_, stays⟩
  · exact (moved.arrived "ICMP").trans (if_pos arrives)
  · refine (moved.arrived "HTTP").trans ?_
    decide +kernel
  · rw [← Option.not_isSome_iff_eq_none, moved.source_known]
    intro h
    obtain ⟨key, on, elsewhere, tracked⟩ := h
    have listed : ∀ k ∈ Sample.busy.schedule.keys, k.node = ⟨1⟩ → k.address = Sample.address := by
      decide +kernel
    exact elsewhere (listed key (Schedule.mem_keys.2 tracked) on)
  · rw [moved.queue]
    decide +kernel

end Poller

end Polling
