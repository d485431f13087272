import Polling.Proofs.Engine.Handling
import Polling.Proofs.Engine.Reconciliation

namespace Polling

open Poller Engine

namespace Poller

variable {s : Poller} {node : NodeId} {n : Notification} {key : ServiceKey}

/-- No removal of a key of the node is pending. -/
def SettledOn (s : Poller) (node : NodeId) : Prop :=
  ∀ key : ServiceKey, key.node = node → s.schedule.mark? key ≠ some .pendingDelete

theorem SettledOn.mark? (h : s.SettledOn node) (hn : key.node = node)
    (ht : (s.schedule.mark? key).isSome) : s.schedule.mark? key = some .scheduled := by
  obtain ⟨mark, hm⟩ := Option.isSome_iff_exists.1 ht
  cases mark with
  | scheduled => exact hm
  | pendingDelete => exact absurd hm (h key hn)

/-- Without pending removals nothing is scheduled afresh. -/
theorem SettledOn.redone_eq_nil (hc : s.schedule.Covered) (h : s.SettledOn node) :
    s.redone node false = [] := by
  rw [List.eq_nil_iff_forall_not_mem]
  intro key hk
  obtain ⟨common, pending, -⟩ := (mem_redone_unforced hc).1 hk
  exact h key (mem_common.1 common).2.1 pending

/-- The listed keys that are not tracked are missing. -/
theorem SettledOn.mem_missing (hc : s.schedule.Covered) (h : s.SettledOn node) :
    key ∈ s.missing node false ↔ key ∈ s.listed node ∧ s.schedule.mark? key = none := by
  rw [Poller.mem_missing, h.redone_eq_nil hc, mem_common, ← Option.not_isSome_iff_eq_none]
  constructor
  · rintro ⟨hl, hm⟩
    refine ⟨hl, fun ht => ?_⟩
    cases hm ⟨ht, (mem_listed.1 hl).1, hl⟩
  · rintro ⟨hl, ht⟩
    exact ⟨hl, fun hm => absurd hm.1 ht⟩

/-- The removals are written first, and then what is scheduled. -/
theorem SettledOn.journal_reconciled (hc : s.schedule.Covered) (h : s.SettledOn node) :
    (s.reconciled node false n).schedule.journal =
      s.schedule.journal ++
        (s.summary node false).removed.map (fun key => .delete (.service key)) ++
        (s.summary node false).scheduled.map .schedule := by
  have scheduled : ∀ key ∈ s.unlisted node, s.schedule.mark? key = some .scheduled := by
    intro key hk
    obtain ⟨ht, hn, -⟩ := mem_unlisted.1 hk
    exact h.mark? hn ht
  have unlisted : (s.unlisted node).Nodup := (s.lists_unlisted node).ascending.nodup
  have cleared : s.cleared node false = s.schedule.expelAll (s.unlisted node) := by
    rw [Poller.cleared, h.redone_eq_nil hc, List.append_nil]
  have distinct : (s.summary node false).scheduled.Nodup :=
    (((s.ascending_listed node).filter _).filter _).nodup
  have added : ∀ key ∈ (s.summary node false).scheduled,
      (s.cleared node false).mark? key = none := by
    intro key hk
    exact mark?_cleared_of_missing hc (List.mem_of_mem_filter hk)
  rw [reconciled, ← scheduled_summary hc]
  dsimp only
  rw [Schedule.journal_addAll _ distinct added, cleared,
    Schedule.journal_expelAll hc unlisted scheduled]
  rfl

/-- A key is tracked afterwards if it is listed and was tracked before or is polled. -/
theorem SettledOn.mark?_reconciled (hc : s.schedule.Covered) (h : s.SettledOn node)
    (hn : key.node = node) :
    (s.reconciled node false n).schedule.mark? key =
      if key ∈ s.listed node ∧ ((s.schedule.mark? key).isSome ∨
          s.store.active.PollsLocally key.address key.service) then some .scheduled
      else none := by
  rw [Poller.mark?_reconciled hc]
  simp only [h.mem_missing hc]
  cases hm : s.schedule.mark? key with
  | none =>
    rw [mark?_cleared hc, hm]
    by_cases hl : key ∈ s.listed node <;> simp [hl]
  | some mark =>
    have ht : (s.schedule.mark? key).isSome := Option.isSome_of_eq_some hm
    obtain rfl : mark = .scheduled := Option.some_inj.1 (hm.symm.trans (h.mark? hn ht))
    rw [if_neg (by simp), mark?_cleared hc, h.redone_eq_nil hc, List.append_nil, hm]
    by_cases hl : key ∈ s.listed node
    · have out : key ∉ s.unlisted node := not_mem_unlisted hl
      simp [hl, out]
    · have gone : key ∈ s.unlisted node := mem_unlisted.2 ⟨ht, hn, hl⟩
      simp [hl, gone, List.ne_nil_of_mem gone]

/-- What a reconciliation removes and schedules is the difference between the node as it was tracked
and the listed keys of it that are polled. -/
structure IsDifference (s t : Poller) (node : NodeId) (r : Reconciliation) : Prop where
  removed : ServiceKey.Lists r.removed fun key => key.node = node ∧
    (s.schedule.mark? key).isSome ∧ (key.address, key.service) ∉ s.inventory.services node
  rescheduled : r.rescheduled = []
  scheduled : ServiceKey.Lists r.scheduled fun key => key.node = node ∧
    s.schedule.mark? key = none ∧ (key.address, key.service) ∈ s.inventory.services node ∧
      (s.store.active.packageFor? key.address key.service).isSome
  journal : t.schedule.journal =
    s.schedule.journal ++ r.removed.map (fun key => .delete (.service key)) ++
      r.scheduled.map .schedule
  marks : ∀ key : ServiceKey, key.node = node →
    t.schedule.mark? key =
      if (key.address, key.service) ∈ s.inventory.services node ∧
          ((s.schedule.mark? key).isSome ∨
            (s.store.active.packageFor? key.address key.service).isSome) then some .scheduled
      else none

theorem SettledOn.isDifference (hc : s.schedule.Covered) (h : s.SettledOn node) :
    IsDifference s (s.reconciled node false n) node (s.summary node false) where
  removed := s.lists_unlisted node
  rescheduled := h.redone_eq_nil hc
  scheduled := by
    refine ⟨((s.ascending_listed node).filter _).filter _, fun key => ?_⟩
    rw [scheduled_summary hc, List.mem_filter, h.mem_missing hc, mem_listed, decide_eq_true_eq,
      Active.isSome_packageFor?]
    constructor
    · rintro ⟨⟨⟨hn, hl⟩, hm⟩, hp⟩
      exact ⟨hn, hm, hl, hp⟩
    · rintro ⟨hn, hm, hl, hp⟩
      exact ⟨⟨⟨hn, hl⟩, hm⟩, hp⟩
  journal := h.journal_reconciled hc
  marks := by
    intro key hn
    rw [h.mark?_reconciled hc hn]
    simp only [mem_listed, hn, true_and, Active.isSome_packageFor?]

/-- Once the difference is made up there is none. -/
theorem IsDifference.journal_again {t u : Poller} {r r' : Reconciliation}
    (first : IsDifference s t node r) (second : IsDifference t u node r')
    (hi : t.inventory = s.inventory) (hs : t.store = s.store) :
    u.schedule.journal = t.schedule.journal := by
  -- The marks after the first leave no key to be removed and none to be scheduled.
  have removed : r'.removed = [] := by
    rw [List.eq_nil_iff_forall_not_mem]
    intro key hk
    obtain ⟨hn, tracked, unlisted⟩ := (second.removed.mem_iff key).1 hk
    rw [hi] at unlisted
    rw [first.marks key hn, if_neg fun h => unlisted h.1] at tracked
    cases tracked
  have scheduled : r'.scheduled = [] := by
    rw [List.eq_nil_iff_forall_not_mem]
    intro key hk
    obtain ⟨hn, untracked, listed, polled⟩ := (second.scheduled.mem_iff key).1 hk
    rw [hi] at listed
    rw [hs] at polled
    rw [first.marks key hn, if_pos ⟨listed, .inr polled⟩] at untracked
    cases untracked
  rw [second.journal, removed, scheduled, List.map_nil, List.map_nil, List.append_nil,
    List.append_nil]

end Poller

namespace Sample

def snmp : ServiceKey := ⟨⟨1⟩, address, "SNMP"⟩

def partly : Poller :=
  { start with schedule := Schedule.run {} [.add http {}, .add snmp {}] }

theorem reachable_partly : partly.Reachable :=
  .acted (.add snmp {}) <| .acted (.add http {}) (.start start.store start.inventory {})

theorem settledOn_partly : partly.SettledOn ⟨1⟩ := by
  have scheduled : ∀ key ∈ partly.schedule.keys, partly.schedule.mark? key = some .scheduled := by
    decide +kernel
  intro key _ pending
  have tracked : (partly.schedule.mark? key).isSome := Option.isSome_of_eq_some pending
  rw [scheduled key (Schedule.mem_keys.2 tracked)] at pending
  cases pending

end Sample

namespace Engine

/-- Without force, and if no removal of the node is pending, a reconciliation makes the least
change, and another one right after it changes nothing. -/
theorem reconcile_minimal (hs : s.Reachable) (hp : s.Patient) (n : Notification)
    (h : ∀ key : ServiceKey, key.node = node → s.schedule.mark? key ≠ some .pendingDelete) :
    ∃ r t, reconcile node false n s = .ok r t ∧ IsDifference s t node r ∧
      ∀ m, ∃ r' u, reconcile node false m t = .ok r' u ∧
        u.schedule.journal = t.schedule.journal := by
  have ready := hs.ready
  have first : IsDifference s (s.reconciled node false n) node _ :=
    SettledOn.isDifference ready.covered h
  refine ⟨_, _, reconcile_eq ready.toPrompt hp node false n, first, fun m => ?_⟩
  have ready' := ready_reconciled ready hp node false n
  have settled : (s.reconciled node false n).SettledOn node := by
    intro key hn
    rw [first.marks key hn]
    split <;> simp
  exact ⟨_, _, reconcile_eq ready'.toPrompt hp node false m,
    first.journal_again (settled.isDifference ready'.covered) rfl rfl⟩

theorem snmp_goes_icmp_comes :
    ∃ r t, reconcile ⟨1⟩ false Sample.change Sample.partly = .ok r t ∧
      t.schedule.journal = [.schedule Sample.http, .schedule Sample.snmp,
        .delete (.service Sample.snmp), .schedule Sample.icmp] := by
  obtain ⟨r, t, h, difference, -⟩ := reconcile_minimal Sample.reachable_partly (by decide)
    Sample.change Sample.settledOn_partly
  have plan : Sample.partly.IsDifference _ ⟨1⟩ (Sample.partly.summary ⟨1⟩ false) :=
    Sample.settledOn_partly.isDifference (n := Sample.change) Sample.reachable_partly.ready.covered
  refine ⟨r, t, h, ?_⟩
  rw [difference.journal, difference.removed.eq plan.removed,
    difference.scheduled.eq plan.scheduled]
  decide +kernel

end Engine

end Polling
