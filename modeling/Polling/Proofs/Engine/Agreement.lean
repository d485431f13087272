import Polling.Proofs.Engine.Alignment

namespace Polling

namespace Poller

variable {s t u : Poller} {node : NodeId} {force : Bool} {n : Notification}

/-- The same keys and nodes are tracked in the same way, the outages are the same, and so are the
configuration in force, its registry and its caches. -/
structure Agrees (s t : Poller) : Prop where
  marks : s.schedule.marks = t.schedule.marks
  nodes : s.schedule.nodes = t.schedule.nodes
  outages : s.outages.outages = t.outages.outages
  active : s.store.active = t.store.active

namespace Agrees

theorem refl (s : Poller) : Agrees s s := ⟨rfl, rfl, rfl, rfl⟩

theorem trans (h : Agrees s t) (k : Agrees t u) : Agrees s u :=
  ⟨h.marks.trans k.marks, h.nodes.trans k.nodes, h.outages.trans k.outages,
    h.active.trans k.active⟩

/-- It is enough that each key and each node is tracked in the same way. -/
theorem of_tracked (marks : ∀ key, s.schedule.mark? key = t.schedule.mark? key)
    (nodes : ∀ m, s.schedule.node? m = t.schedule.node? m)
    (outages : s.outages.outages = t.outages.outages) (active : s.store.active = t.store.active) :
    Agrees s t :=
  ⟨Std.ExtTreeMap.ext_getElem? fun {key} => marks key,
    Std.ExtTreeMap.ext_getElem? fun {m} => nodes m, outages, active⟩

theorem mark? (h : Agrees s t) (key : ServiceKey) :
    s.schedule.mark? key = t.schedule.mark? key := by
  rw [Schedule.mark?, h.marks]
  rfl

theorem node? (h : Agrees s t) (m : NodeId) : s.schedule.node? m = t.schedule.node? m := by
  rw [Schedule.node?, h.nodes]
  rfl

theorem tracks_iff (h : Agrees s t) (scope : Scope) :
    s.schedule.Tracks scope ↔ t.schedule.Tracks scope :=
  Schedule.tracks_congr fun key _ => by rw [h.mark?]

theorem mem_openKeys (h : Agrees s t) {key : ServiceKey} :
    key ∈ s.outages.openKeys ↔ key ∈ t.outages.openKeys := by
  rw [OutageLog.mem_openKeys, OutageLog.mem_openKeys, h.outages]

theorem quiet (h : Agrees s t) (hq : t.schedule.Quiet) : s.schedule.Quiet := by
  intro key
  rw [h.mark?]
  exact hq key

end Agrees

theorem listed_congr (h : s.inventory = t.inventory) (node : NodeId) :
    s.listed node = t.listed node := by
  rw [listed, h]
  rfl

/-- Whether a node is in line depends on what pollers agree on. -/
theorem Aligned.congr (ha : t.Aligned n node) (h : Agrees s t) (hi : s.inventory = t.inventory) :
    s.Aligned n node where
  marks := by
    intro key hk
    rw [h.mark?, ha.marks key hk, listed_congr hi, h.active]
  info := by
    have label : s.labelOf node n = t.labelOf node n := by
      rw [labelOf, h.node?, hi]
      rfl
    rw [h.node?, ha.info, label, hi]
    simp only [h.tracks_iff]
  closed := by
    intro key hl ho
    rw [h.active]
    rw [listed_congr hi] at hl
    exact ha.closed key hl (h.mem_openKeys.1 ho)

/-- With no removal pending nothing is lost but what is removed. -/
theorem mark?_cleared_of_quiet (hc : s.schedule.Covered) (hq : s.schedule.Quiet)
    (key : ServiceKey) :
    (s.cleared node force).mark? key =
      if key ∈ s.unlisted node ++ s.redone node force then none else s.schedule.mark? key := by
  rw [mark?_cleared hc]
  split
  · next h =>
    rw [h]
    exact (if_neg List.not_mem_nil).symm
  · rw [hq.filter_mark?]

/-- A reconciliation leaves no removal pending. -/
theorem quiet_reconciled (hc : s.schedule.Covered) (hq : s.schedule.Quiet) (node : NodeId)
    (force : Bool) (n : Notification) : (s.reconciled node force n).schedule.Quiet := by
  intro key
  rw [mark?_reconciled hc]
  split
  · split <;> simp
  · rw [mark?_cleared_of_quiet hc hq]
    split
    · simp
    · exact hq key

theorem quiet_reconciledAll (h : s.Ready) (hp : s.Patient) (hq : s.schedule.Quiet)
    (n : Notification) (nodes : List NodeId) : (s.reconciledAll n nodes).schedule.Quiet := by
  induction nodes generalizing s with
  | nil => exact hq
  | cons node nodes ih =>
    have first := quiet_reconciled h.covered hq node true n
    exact ih (Engine.ready_reconciled h hp node true n) hp first

/-- The node has only keys that the inventory lists, among them those that a local package polls,
and no listed key that nobody polls has an open outage without being tracked. -/
structure Stable (s : Poller) (node : NodeId) : Prop where
  listed : ∀ key : ServiceKey, key.node = node → (s.schedule.mark? key).isSome →
    key ∈ s.listed node
  polled : ∀ key ∈ s.listed node, s.store.active.PollsLocally key.address key.service →
    (s.schedule.mark? key).isSome
  closed : ∀ key ∈ s.listed node, s.schedule.mark? key = none → key ∈ s.outages.openKeys →
    s.store.active.Polls key.address key.service

theorem Stable.congr (hs : t.Stable node) (h : Agrees s t) (hi : s.inventory = t.inventory) :
    s.Stable node where
  listed := by
    intro key hk ht
    rw [h.mark?] at ht
    rw [listed_congr hi]
    exact hs.listed key hk ht
  polled := by
    intro key hl hp
    rw [listed_congr hi] at hl
    rw [h.active] at hp
    rw [h.mark?]
    exact hs.polled key hl hp
  closed := by
    intro key hl hm ho
    rw [listed_congr hi] at hl
    rw [h.mark?] at hm
    rw [h.active]
    exact hs.closed key hl hm (h.mem_openKeys.1 ho)

/-- Of a stable node no key is removed. -/
theorem Stable.unlisted_eq_nil (hs : s.Stable node) : s.unlisted node = [] := by
  apply List.eq_nil_iff_forall_not_mem.2
  intro key hk
  obtain ⟨ht, hn, hl⟩ := mem_unlisted.1 hk
  exact hl (hs.listed key hn ht)

theorem Aligned.stable (ha : s.Aligned n node) : s.Stable node where
  listed := by
    intro key hk ht
    rw [ha.marks key hk] at ht
    split at ht
    · next h => exact h.1
    · cases ht
  polled := by
    intro key hl hp
    rw [ha.marks key (mem_listed.1 hl).1, if_pos ⟨hl, hp⟩]
    rfl
  closed := fun key hl _ ho => ha.closed key hl ho

/-- To a node in line a reconciliation by force does nothing that is left to be seen. -/
theorem Aligned.agrees_reconciled (ha : s.Aligned n node) (h : s.Ready) (hp : s.Patient)
    (hq : s.schedule.Quiet) : Agrees (s.reconciled node true n) s := by
  have same (key : ServiceKey) (hk : key.node = node) :
      (s.reconciled node true n).schedule.mark? key = s.schedule.mark? key := by
    rw [mark?_reconciled_force h.covered n hk, ha.marks key hk]
  apply Agrees.of_tracked
  · intro key
    by_cases hk : key.node = node
    · exact same key hk
    · exact mark?_reconciled_of_ne h.covered hk (hq key)
  · -- The node is entered anew, as it was entered before, and the others keep what is known.
    intro m
    by_cases hm : m = node
    · have tracked : (s.reconciled node true n).schedule.Tracks (.node node) ↔
          s.schedule.Tracks (.node node) :=
        Schedule.tracks_congr fun key hk => by rw [same key hk]
      rw [hm, node?_reconciled_force h.covered h.trim, ha.info]
      simp only [tracked]
    · exact node?_reconciled_of_ne h hp hm fun key _ => hq key
  · apply OutageLog.outages_closeAll_of_closed
    intro key hk ho
    rw [ha.stable.unlisted_eq_nil, List.nil_append, summary, List.mem_filter, missing_force] at hk
    have polled := ha.closed key hk.1 ho
    simp [polled] at hk
  · rfl

/-- The same goes for several nodes in line, reconciled one after the other. -/
theorem agrees_reconciledAll (h : s.Ready) (hp : s.Patient) (hq : s.schedule.Quiet)
    {nodes : List NodeId} (ha : ∀ node ∈ nodes, s.Aligned n node) :
    Agrees (s.reconciledAll n nodes) s := by
  induction nodes generalizing s with
  | nil => exact .refl s
  | cons node nodes ih =>
    have first := (ha node List.mem_cons_self).agrees_reconciled h hp hq
    have rest := ih (Engine.ready_reconciled h hp node true n) hp (first.quiet hq)
      fun m hm => (ha m (List.mem_cons_of_mem _ hm)).congr first rfl
    exact rest.trans first

/-- With no removal pending a reconciliation without force schedules nothing afresh. -/
theorem redone_of_quiet (hc : s.schedule.Covered) (hq : s.schedule.Quiet) (node : NodeId) :
    s.redone node false = [] := by
  apply List.eq_nil_iff_forall_not_mem.2
  intro key hk
  exact hq key ((mem_redone_unforced hc).1 hk).2.1

theorem stable_reconciled (hc : s.schedule.Covered) (hq : s.schedule.Quiet) :
    (s.reconciled node false n).Stable node where
  listed := by
    intro key hk ht
    apply Decidable.byContradiction
    intro hl
    change key ∉ s.listed node at hl
    rw [mark?_reconciled_of_not_listed hc n hk hl] at ht
    cases ht
  polled := by
    intro key hl hp
    have scheduled := (mark?_reconciled_unforced hc n hl hp).2 fun h => hq key h.1
    rw [scheduled]
    rfl
  closed := by
    intro key hl hm ho
    apply (mem_openKeys_reconciled.1 ho).2.2
    -- A listed key that was tracked is kept, so one that is not tracked was missing.
    refine mem_missing.2 ⟨hl, fun hk => ?_⟩
    have there := hq.eq_scheduled (mem_common.1 hk).1
    have out : key ∉ s.redone node false := by
      rw [redone_of_quiet hc hq]
      exact List.not_mem_nil
    rw [mark?_reconciled_of_kept hc there (not_mem_unlisted hl) out] at hm
    cases hm

/-- Without force a reconciliation does nothing to a stable node. -/
theorem Stable.agrees_reconciled (hs : s.Stable node) (hc : s.schedule.Covered)
    (hq : s.schedule.Quiet) : Agrees (s.reconciled node false n) s := by
  have unlisted := hs.unlisted_eq_nil
  have redone := redone_of_quiet hc hq node
  have untracked {key : ServiceKey} (hk : key ∈ s.missing node false) :
      s.schedule.mark? key = none := by
    obtain ⟨hl, hr⟩ := mem_missing.1 hk
    rw [redone] at hr
    apply Option.not_isSome_iff_eq_none.1
    intro ht
    exact List.not_mem_nil (hr (mem_common.2 ⟨ht, (mem_listed.1 hl).1, hl⟩))
  -- What is missing is not tracked, so no local package polls it and nothing is added.
  have added : ((s.missing node false).filter fun key =>
      s.store.active.PollsLocally key.address key.service) = [] := by
    apply List.filter_eq_nil_iff.2
    intro key hk hp
    have ht := hs.polled key (mem_missing.1 hk).1 (by simpa using hp)
    rw [untracked hk] at ht
    cases ht
  have schedule : (s.reconciled node false n).schedule = s.schedule := by
    rw [reconciled, added, cleared, unlisted, redone]
    rfl
  refine ⟨by rw [schedule], by rw [schedule], ?_, rfl⟩
  apply OutageLog.outages_closeAll_of_closed
  intro key hk ho
  rw [unlisted, List.nil_append, summary, List.mem_filter] at hk
  have polled := hs.closed key (mem_missing.1 hk.1).1 (untracked hk.1) ho
  simp [polled] at hk

end Poller

end Polling
