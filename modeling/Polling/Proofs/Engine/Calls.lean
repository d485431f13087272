import Polling.Engine.Transition
import Polling.Proofs.Schedule.Actions

namespace Polling

section Operations

variable {ε ε' σ α β : Type} {x : EStateM ε σ α} {f : α → EStateM ε σ β} {s t : σ} {a : α} {e : ε}

theorem bind_of_ok (h : x s = .ok a t) : (x >>= f) s = f a t := by
  change EStateM.bind x f s = f a t
  rw [EStateM.bind, h]

theorem bind_of_error (h : x s = .error e t) : (x >>= f) s = .error e t := by
  change EStateM.bind x f s = .error e t
  rw [EStateM.bind, h]

/-- An operation in two parts has a result if both have one. -/
theorem bind_eq_ok {b : β} {u : σ} (h : (x >>= f) s = .ok b u) :
    ∃ a t, x s = .ok a t ∧ f a t = .ok b u := by
  change EStateM.bind x f s = .ok b u at h
  rw [EStateM.bind] at h
  split at h
  · next a t hx => exact ⟨a, t, hx, h⟩
  · contradiction

theorem get_eq (s : σ) : (get : EStateM ε σ σ) s = .ok s s := rfl

theorem attempt_of_ok (h : x s = .ok a t) : (attempt x : EStateM ε' σ _) s = .ok (.ok a) t := by
  rw [attempt, h]

theorem attempt_of_error (h : x s = .error e t) :
    (attempt x : EStateM ε' σ _) s = .ok (.error e) t := by
  rw [attempt, h]

theorem discard_of_ok (h : x s = .ok a t) :
    (discard x : EStateM ε σ PUnit) s = .ok .unit t := by
  change EStateM.map _ x s = _
  rw [EStateM.map, h]

theorem discard_of_error (h : x s = .error e t) :
    (discard x : EStateM ε σ PUnit) s = .error e t := by
  change EStateM.map _ x s = _
  rw [EStateM.map, h]

end Operations

section Lift

variable {α : Type} {x : CallM α} {s t : Poller} {a : α} {e : CallError}

theorem lift_of_ok (h : x s = .ok a t) : (liftM x : EngineM α) s = .ok a t := by
  change EStateM.adaptExcept Error.ofCall x s = _
  rw [EStateM.adaptExcept, h]

theorem lift_of_error (h : x s = .error e t) :
    (liftM x : EngineM α) s = .error (.ofCall e) t := by
  change EStateM.adaptExcept Error.ofCall x s = _
  rw [EStateM.adaptExcept, h]

theorem lift_eq_ok (h : (liftM x : EngineM α) s = .ok a t) : x s = .ok a t := by
  cases hr : x s with
  | ok b u =>
    rw [lift_of_ok hr] at h
    cases h
    rfl
  | error e u =>
    rw [lift_of_error hr] at h
    cases h

end Lift

namespace Poller

section Change

variable {s t : Poller} {call : Call} {f : Schedule → Except CallError Schedule}
  {schedule : Schedule} {e : CallError}

theorem change_of_ok (hm : call.meet s = .ok () t) (hf : f t.schedule = .ok schedule) :
    call.change f s = .ok () { t with schedule } := by
  rw [Call.change, bind_of_ok hm, bind_of_ok (get_eq t), hf]
  rfl

theorem change_of_error (hm : call.meet s = .ok () t) (hf : f t.schedule = .error e) :
    call.change f s = .error e t := by
  rw [Call.change, bind_of_ok hm, bind_of_ok (get_eq t), hf]
  rfl

end Change

variable {s : Poller} (h : s.faults = [])

include h

theorem ask_eq {α : Type} (call : Call) (f : Poller → α) : call.ask f s = .ok (f s) s := by
  rw [Call.ask, bind_of_ok (Call.meet_of_no_faults h call)]
  rfl

theorem trackedNodes_eq : trackedNodes s = .ok s.schedule.nodeIds s := ask_eq h _ _

theorem trackedNode_eq (node : NodeId) : trackedNode node s = .ok (s.schedule.node? node) s :=
  ask_eq h _ _

theorem hasInterface_eq (node : NodeId) (address : Address) :
    hasInterface node address s = .ok (decide (s.schedule.Tracks (.interface node address))) s :=
  ask_eq h _ _

theorem markOf_eq (key : ServiceKey) : markOf key s = .ok (s.schedule.mark? key) s :=
  ask_eq h _ _

theorem trackedKeys_eq (node : NodeId) :
    trackedKeys node s = .ok (s.schedule.keysIn (.node node)) s :=
  ask_eq h _ _

theorem inventoryServices_eq (node : NodeId) :
    inventoryServices node s = .ok (s.inventory.services node) s :=
  ask_eq h _ _

theorem inventoryLabel_eq (node : NodeId) :
    inventoryLabel node s = .ok (s.inventory.entry node).info.label s :=
  ask_eq h _ _

theorem inventoryLocation_eq (node : NodeId) :
    inventoryLocation node s = .ok (s.inventory.entry node).info.location s :=
  ask_eq h _ _

theorem addToSchedule_eq (key : ServiceKey) (info : NodeInfo) :
    addToSchedule key info s =
      .ok (decide (s.schedule.mark? key = none))
        { s with schedule := s.schedule.act (.add key info) } := by
  rw [addToSchedule, bind_of_ok (Call.meet_of_no_faults h _), bind_of_ok (get_eq s), Schedule.act]
  cases ha : s.schedule.add? key info with
  | none =>
    have hk : s.schedule.mark? key ≠ none := by
      rw [Schedule.add?_eq_none, Option.isSome_iff_ne_none] at ha
      exact ha
    rw [decide_eq_false hk]
    rfl
  | some schedule =>
    have hk : s.schedule.mark? key = none := by
      rw [← Option.not_isSome_iff_eq_none, ← Schedule.add?_eq_none, ha]
      simp
    rw [decide_eq_true hk]
    rfl

/-- A removal is requested if the schedule tracks a key of the scope. -/
theorem delete_eq {scope : Scope} (ht : s.schedule.Tracks scope) :
    delete scope s = .ok () { s with schedule := s.schedule.act (.delete scope) } := by
  cases hd : s.schedule.delete scope with
  | ok t =>
    rw [Schedule.act, hd]
    exact change_of_ok (Call.meet_of_no_faults h _) hd
  | error e => exact absurd ht (Schedule.delete_error hd)

theorem delete_of_not_tracks {scope : Scope} (ht : ¬ s.schedule.Tracks scope) :
    delete scope s = .error scope.notFound s :=
  change_of_error (Call.meet_of_no_faults h _) (by simp [Schedule.delete, ht])

theorem closeOutages_eq (scope : Scope) (n : Notification) :
    closeOutages scope n s =
      .ok () { s with outages := s.outages.close scope ⟨n.time, n.id⟩ } := by
  rw [closeOutages, bind_of_ok (Call.meet_of_no_faults h _)]
  rfl

theorem announce_eq (a : Announcement) :
    announce a s = .ok () { s with sent := s.sent ++ [a] } := by
  rw [announce, bind_of_ok (Call.meet_of_no_faults h _)]
  rfl

end Poller

end Polling
