import Polling.Proofs.Engine.Footprint
import Polling.Proofs.Engine.OutageSafety
import Polling.Proofs.Schedule.Confirmation

namespace Polling

namespace Schedule

variable {s t u : Schedule} {node : NodeId}

/-- Of the other nodes the schedule keeps the scheduled keys, gets no new keys, and loses only keys
whose removal was pending. What is known of these nodes stays as long as they are tracked. -/
structure SparesOthers (node : NodeId) (s t : Schedule) : Prop where
  mark? : ∀ key : ServiceKey, key.node ≠ node →
    t.mark? key = s.mark? key ∨ s.mark? key = some .pendingDelete ∧ t.mark? key = none
  node? : ∀ m, m ≠ node → t.node? m = none ∨ t.node? m = s.node? m

theorem SparesOthers.refl (node : NodeId) (s : Schedule) : SparesOthers node s s :=
  ⟨fun _ _ => .inl rfl, fun _ _ => .inr rfl⟩

theorem SparesOthers.trans (h : SparesOthers node s t) (h' : SparesOthers node t u) :
    SparesOthers node s u where
  mark? key hk := by
    rcases h'.mark? key hk with same | ⟨pending, gone⟩
    · rw [same]
      exact h.mark? key hk
    · rcases h.mark? key hk with same | ⟨-, gone'⟩
      · exact .inr ⟨same ▸ pending, gone⟩
      · rw [gone'] at pending
        cases pending
  node? m hm := by
    rcases h'.node? m hm with gone | same
    · exact .inl gone
    · rw [same]
      exact h.node? m hm

/-- An action on a node spares the others. -/
theorem sparesOthers_act (s : Schedule) {action : Action} (h : action.On node) :
    SparesOthers node s (s.act action) := by
  cases action with
  | add key info =>
    have hn : key.node = node := h
    refine ⟨fun k hk => .inl ?_, fun m hm => .inr ?_⟩
    · rw [mark?_act_add, if_neg]
      rintro ⟨rfl, -⟩
      exact hk hn
    · exact s.node?_act_add_of_ne info fun e => hm (e.symm.trans hn)
  | delete scope =>
    have hn : scope.owner = node := h
    refine ⟨fun k hk => .inl ?_, fun m _ => s.keepsInfo_delete scope m⟩
    rw [mark?_act_delete, if_neg fun hin => hk ((Scope.node_eq_owner hin).trans hn)]
  | reparent address source target =>
    have hn : source = node ∧ target = node := h
    rw [act_reparent_of_not (.inl (hn.1.trans hn.2.symm))]
    exact .refl node s
  | setLabel m label =>
    have hn : m = node := h
    refine ⟨fun k _ => .inl (s.mark?_act_setLabel m label k), fun k hk => .inr ?_⟩
    rw [node?_act_setLabel, if_neg fun e => hk (e.trans hn)]
  | work count =>
    refine ⟨fun k _ => ?_, fun m _ => keepsInfo_foldl_drop { s with queue := _ } _ m⟩
    rw [mark?_act_work]
    exact filter_of_scheduled (by simp) _
  | carryOut scope =>
    refine ⟨fun k _ => ?_, fun m _ => s.keepsInfo_drop scope m⟩
    rw [mark?_act_carryOut]
    exact filter_of_scheduled (by simp) _

end Schedule

/-- Closing outages on a node leaves the records of the others. -/
theorem OutageLog.filter_outages_close (l : OutageLog) (scope : Scope) (c : Closure) :
    (l.close scope c).outages.filter (·.key.node ≠ scope.owner) =
      l.outages.filter (·.key.node ≠ scope.owner) := by
  rw [close, List.filter_map]
  have same (o : Outage) : ((fun o : Outage => decide (o.key.node ≠ scope.owner)) ∘
      fun o => if o.Open ∧ o.key ∈ scope then o.close c else o) o =
      decide (o.key.node ≠ scope.owner) := by
    simp only [Function.comp_apply]
    split <;> rfl
  rw [funext same]
  apply (List.map_congr_left fun o ho => ?_).trans (List.map_id' _)
  have other := of_decide_eq_true (List.mem_filter.1 ho).2
  exact if_neg fun hs => other (Scope.node_eq_owner hs.2)

namespace Poller

variable {s t u : Poller} {node source target : NodeId} {address : Address}

structure SparesOthers (node : NodeId) (s t : Poller) : Prop where
  schedule : s.schedule.SparesOthers node t.schedule
  outages : t.outages.outages.filter (·.key.node ≠ node) =
    s.outages.outages.filter (·.key.node ≠ node)

theorem SparesOthers.refl (node : NodeId) (s : Poller) : SparesOthers node s s :=
  ⟨.refl node _, rfl⟩

theorem SparesOthers.trans (h : SparesOthers node s t) (h' : SparesOthers node t u) :
    SparesOthers node s u :=
  ⟨h.schedule.trans h'.schedule, h'.outages.trans h.outages⟩

theorem sparesOthers_after (s : Poller) {e : Effect} (h : e.On node) :
    SparesOthers node s (s.after e) := by
  cases e with
  | met call => exact ⟨.refl node _, rfl⟩
  | acted action => exact ⟨s.schedule.sparesOthers_act h, rfl⟩
  | closed scope c =>
    have hn : scope.owner = node := h
    exact ⟨.refl node _, hn ▸ s.outages.filter_outages_close scope c⟩
  | stored store => exact ⟨.refl node _, rfl⟩
  | announced a => cases h

/-- Off the interface, on both nodes, the schedule keeps all marks, and the nodes that are left keep
what is known of them. No outage is touched. -/
structure MovesOnly (address : Address) (source target : NodeId) (s t : Poller) : Prop where
  mark? : ∀ key : ServiceKey, key ∉ Scope.interface source address →
    key ∉ Scope.interface target address → t.schedule.mark? key = s.schedule.mark? key
  node? : s.schedule.KeepsInfo t.schedule
  outages : t.outages = s.outages

theorem MovesOnly.refl (s : Poller) : MovesOnly address source target s s :=
  ⟨fun _ _ _ => rfl, .refl _, rfl⟩

theorem MovesOnly.trans (h : MovesOnly address source target s t)
    (h' : MovesOnly address source target t u) : MovesOnly address source target s u :=
  ⟨fun key hs ht => (h'.mark? key hs ht).trans (h.mark? key hs ht), h.node?.trans h'.node?,
    h'.outages.trans h.outages⟩

theorem movesOnly_after (s : Poller) {e : Effect} (h : e.Moves address source target) :
    MovesOnly address source target s (s.after e) := by
  cases e with
  | met call => exact ⟨fun _ _ _ => rfl, .refl _, rfl⟩
  | acted action =>
    have hm : action = .reparent address source target := h
    subst hm
    refine ⟨fun key hs ht => ?_, s.schedule.keepsInfo_reparent address source target, rfl⟩
    change (s.schedule.act (.reparent address source target)).mark? key = _
    simp only [Schedule.mark?_act_reparent, hs, ht, false_and, if_false, ite_self]
  | closed scope c => cases h
  | stored store => cases h
  | announced a => cases h

end Poller

namespace Engine

open Poller

/-- A notification about a node spares the others, and one about an interface that moves touches
nothing but this interface on the two nodes. -/
theorem confined (s : Poller) (n : Notification) :
    (∀ node, n.kind.NeedsNode → n.kind ≠ .interfaceReparented → n.node = some node → node.Valid →
      SparesOthers node s (final (handle n) s)) ∧
    (∀ address source target, n.kind = .interfaceReparented → n.address = some address →
      n.nodeParam "old_node_id" = .ok source → n.nodeParam "new_node_id" = .ok target →
      MovesOnly address source target s (final (handle n) s)) := by
  -- Both follow from the footprint of the notification, one effect at a time.
  constructor
  · intro node hk hr hn hv
    have named : n.requireNode = .ok node := by
      simp [Notification.requireNode, Notification.validNode?, Option.filter, hn, hv]
    refine (within_handle n).leads (.refl node) .trans (fun s e he => ?_) s
    rw [Notification.Footprint, if_neg hr, if_pos hk] at he
    obtain ⟨m, hm, on⟩ := he
    rw [named] at hm
    cases hm
    exact sparesOthers_after s on
  · intro address source target hk ha hs ht
    have there : n.requireAddress = .ok address := by
      simp [Notification.requireAddress, ha]
    refine (within_handle n).leads .refl .trans (fun s e he => ?_) s
    rw [Notification.Footprint, if_pos hk] at he
    obtain ⟨a, m, m', ha', hs', ht', moves⟩ := he
    rw [there] at ha'
    rw [hs] at hs'
    rw [ht] at ht'
    cases ha'
    cases hs'
    cases ht'
    exact movesOnly_after s moves

end Engine

namespace Sample

def otherHttp : ServiceKey := { http with node := ⟨2⟩ }

def otherIcmp : ServiceKey := { icmp with node := ⟨2⟩ }

/-- On both nodes ICMP is to be removed, and HTTP is not. -/
def neighbours : Poller :=
  { start with
    schedule := Schedule.run {} [.add http {}, .add icmp {}, .add otherHttp {}, .add otherIcmp {},
      .delete (.service icmp), .delete (.service otherIcmp)] }

end Sample

namespace Engine

open Poller

/-- The wait for ICMP on the first node completes the removal of ICMP on the second. When the
interface moves instead, nothing is waited for. -/
theorem other_icmp_removed_in_passing :
    let gained := final (handle (Sample.gained ⟨1⟩)) Sample.neighbours
    let moved := final (handle Sample.moved) Sample.neighbours
    (SparesOthers ⟨1⟩ Sample.neighbours gained ∧
      gained.schedule.mark? Sample.otherHttp = some .scheduled ∧
      gained.schedule.mark? Sample.otherIcmp = none) ∧
    MovesOnly Sample.address ⟨1⟩ ⟨2⟩ Sample.neighbours moved ∧
      moved.schedule.mark? Sample.otherIcmp = some .pendingDelete := by
  intro gained moved
  have spared := (confined Sample.neighbours (Sample.gained ⟨1⟩)).1 ⟨1⟩ (by decide) (by decide) rfl
    (by decide)
  have only := (confined Sample.neighbours Sample.moved).2 Sample.address ⟨1⟩ ⟨2⟩ rfl rfl
    rfl rfl
  exact ⟨⟨spared, by decide +kernel, by decide +kernel⟩, only, by decide +kernel⟩

end Engine

end Polling
