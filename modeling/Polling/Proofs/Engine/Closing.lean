import Polling.Proofs.Engine.Reconciliation
import Polling.Proofs.Engine.Safety

namespace Polling

open Poller Engine

namespace Schedule

/-- Where a key is marked one is scheduled afresh. -/
theorem redone_ne_nil {s : Schedule} {keys : List ServiceKey} {key : ServiceKey} (hk : key ∈ keys)
    (hm : s.mark? key = some .pendingDelete) : s.redone false keys ≠ [] := by
  have found : (keys.find? fun key => s.mark? key = some .pendingDelete).isSome :=
    List.find?_isSome.2 ⟨key, hk, decide_eq_true hm⟩
  obtain ⟨first, hf⟩ := Option.isSome_iff_exists.1 found
  simp [redone, hf]

end Schedule

namespace Poller

variable {s : Poller} {node : NodeId} {force : Bool} {n : Notification} {key : ServiceKey}

def resolved (s : Poller) (node : NodeId) (force : Bool) : List ServiceKey :=
  s.unlisted node ++ (s.summary node force).unpolled

/-- A reconciliation leaves the key untracked and forgets its outage: only remote collectors poll it
and it is to be scheduled, or it is left out. -/
def Forsakes (s : Poller) (node : NodeId) (force : Bool) (key : ServiceKey) : Prop :=
  key.node = node ∧
    (s.RemoteOnly s.store key ∧ (force ∨ s.schedule.mark? key ≠ some .scheduled) ∨
      force = false ∧ key ∈ s.listed node ∧ s.LeavesOut node key)

/-- A forgotten key is listed. -/
theorem Forsakes.mem_listed (h : s.Forsakes node force key) : key ∈ s.listed node := by
  obtain ⟨hn, ⟨⟨listed, -⟩, -⟩ | ⟨-, hl, -⟩⟩ := h
  · exact Poller.mem_listed.2 ⟨hn, hn ▸ listed⟩
  · exact hl

theorem mem_unpolled :
    key ∈ (s.summary node force).unpolled ↔
      key ∈ s.missing node force ∧ ¬ s.store.active.Polls key.address key.service := by
  rw [summary, List.mem_filter, decide_eq_true_eq]

/-- A listed key is taken for missing by force, or if it is not scheduled, unless it is left out. -/
theorem mem_missing_iff (hc : s.schedule.Covered) (hl : key ∈ s.listed node) :
    key ∈ s.missing node force ↔
      (force ∨ s.schedule.mark? key ≠ some .scheduled) ∧
        ¬ (force = false ∧ s.LeavesOut node key) := by
  cases force with
  | true => simp [missing_force, hl]
  | false =>
    have tracked : key ∈ s.common node ↔ (s.schedule.mark? key).isSome := by
      rw [mem_common]
      exact ⟨fun h => h.1, fun h => ⟨h, (mem_listed.1 hl).1, hl⟩⟩
    have chosen : key ∈ s.redone node false → s.schedule.mark? key = some .pendingDelete :=
      fun h => ((mem_redone_unforced hc).1 h).2.1
    rw [mem_missing, tracked, leavesOut_iff hc hl]
    rcases hm : s.schedule.mark? key with _ | _ | _
    · simp [hl]
    · have kept : key ∉ s.redone node false := by
        intro h
        rw [chosen h] at hm
        cases hm
      simp [kept]
    · simp [hl]

/-- A listed key that is not taken for missing is tracked afterwards, unless it is left out. -/
theorem mark?_reconciled_of_not_missing (hc : s.schedule.Covered) (hl : key ∈ s.listed node)
    (hm : key ∉ s.missing node force) :
    (s.reconciled node force n).schedule.mark? key = none ↔
      force = false ∧ s.LeavesOut node key := by
  cases force with
  | true => exact absurd (by rwa [missing_force]) hm
  | false =>
    have kept : key ∈ s.common node ∧ key ∉ s.redone node false := by
      simpa [mem_missing, hl] using hm
    have out : key ∉ s.unlisted node ++ s.redone node false := by
      rw [List.mem_append, not_or]
      exact ⟨not_mem_unlisted hl, kept.2⟩
    rw [mark?_reconciled hc, if_neg hm, mark?_cleared hc, if_neg out, leavesOut_iff hc hl]
    obtain ⟨mark, hk⟩ := Option.isSome_iff_exists.1 (mem_common.1 kept.1).1
    cases mark with
    | scheduled =>
      rw [hk]
      split <;> simp
    | pendingDelete =>
      -- One key at least is waited for, and the wait drops the marked keys.
      have waits : s.unlisted node ++ s.redone node false ≠ [] := by
        intro h
        obtain ⟨hu, hr⟩ := List.append_eq_nil_iff.1 h
        rw [redone, hu] at hr
        exact Schedule.redone_ne_nil kept.1 hk hr
      simp [waits, hk, kept.2]

theorem mark?_reconciled_of_missing (hc : s.schedule.Covered) (hm : key ∈ s.missing node force) :
    (s.reconciled node force n).schedule.mark? key = none ↔
      ¬ s.store.active.PollsLocally key.address key.service := by
  rw [mark?_reconciled hc, if_pos hm]
  split
  · next hp => simp [hp]
  · next hp => simp [hp]

/-- The forgotten keys are the listed ones that are untracked afterwards and not resolved. -/
theorem forsakes_iff (hc : s.schedule.Covered) (n : Notification) (hl : key ∈ s.listed node) :
    s.Forsakes node force key ↔
      (s.reconciled node force n).schedule.mark? key = none ∧ key ∉ s.resolved node force := by
  obtain ⟨hn, listed⟩ := mem_listed.1 hl
  have unresolved : key ∉ s.resolved node force ↔
      (key ∈ s.missing node force → s.store.active.Polls key.address key.service) := by
    have kept : key ∉ s.unlisted node := not_mem_unlisted hl
    simp [resolved, mem_unpolled, kept]
  have remote : s.RemoteOnly s.store key ↔ s.store.active.Polls key.address key.service ∧
      ¬ s.store.active.PollsLocally key.address key.service := by
    rw [RemoteOnly, hn]
    exact and_iff_right listed
  rw [Forsakes, unresolved, remote]
  simp only [hn, hl, true_and]
  -- A missing key comes out untracked unless it is polled here, any other if it is left out.
  by_cases hm : key ∈ s.missing node force
  · obtain ⟨wanted, kept⟩ := (mem_missing_iff hc hl).1 hm
    rw [mark?_reconciled_of_missing hc hm]
    simp only [hm, wanted, kept, and_true, or_false, true_imp_iff]
    exact and_comm
  · have left (wanted : force ∨ s.schedule.mark? key ≠ some .scheduled) :
        force = false ∧ s.LeavesOut node key :=
      Classical.not_not.1 fun kept => hm ((mem_missing_iff hc hl).2 ⟨wanted, kept⟩)
    rw [mark?_reconciled_of_not_missing hc hl hm]
    simp only [hm, false_imp_iff, and_true]
    exact ⟨fun h => h.elim (fun h => left h.2) id, .inr⟩

/-- What is resolved is untracked afterwards. -/
theorem mark?_reconciled_of_resolved (hc : s.schedule.Covered) (n : Notification)
    (h : key ∈ s.resolved node force) :
    key.node = node ∧ ((s.schedule.mark? key).isSome ∨
        (key.address, key.service) ∈ s.inventory.services node) ∧
      (s.reconciled node force n).schedule.mark? key = none := by
  rcases List.mem_append.1 h with hu | hp
  · obtain ⟨tracked, hn, unlisted⟩ := mem_unlisted.1 hu
    exact ⟨hn, .inl tracked, mark?_reconciled_of_not_listed hc n hn unlisted⟩
  · obtain ⟨hm, unpolled⟩ := mem_unpolled.1 hp
    obtain ⟨hn, listed⟩ := mem_listed.1 (mem_missing.1 hm).1
    refine ⟨hn, .inr listed, (mark?_reconciled_of_missing hc hm).2 ?_⟩
    exact fun local_ => unpolled local_.polls

/-- The outages that are closed are those of the keys that are left untracked and not forgotten. -/
theorem mem_resolved (hc : s.schedule.Covered) (n : Notification) :
    key ∈ s.resolved node force ↔
      key.node = node ∧ ((s.schedule.mark? key).isSome ∨
          (key.address, key.service) ∈ s.inventory.services node) ∧
        (s.reconciled node force n).schedule.mark? key = none ∧ ¬ s.Forsakes node force key := by
  constructor
  · intro h
    obtain ⟨hn, known, gone⟩ := mark?_reconciled_of_resolved hc n h
    exact ⟨hn, known, gone,
      fun forsaken => ((forsakes_iff hc n forsaken.mem_listed).1 forsaken).2 h⟩
  · rintro ⟨hn, known, gone, kept⟩
    by_cases hl : key ∈ s.listed node
    · exact Classical.not_not.1 fun h => kept ((forsakes_iff hc n hl).2 ⟨gone, h⟩)
    · have tracked : (s.schedule.mark? key).isSome :=
        known.resolve_right fun listed => hl (mem_listed.2 ⟨hn, listed⟩)
      exact List.mem_append_left _ (mem_unlisted.2 ⟨tracked, hn, hl⟩)

theorem outages_reconciled (s : Poller) (node : NodeId) (force : Bool) (n : Notification) :
    (s.reconciled node force n).outages =
      s.outages.closeAll (s.resolved node force) ⟨n.time, n.id⟩ := rfl

end Poller

namespace Engine

/-- A reconciliation closes, as of the notification, exactly the open outages of those keys of the
node, tracked before or listed, that are untracked afterwards and not forgotten. So it leaves no
outage open on an untracked one exactly if it forgets none. -/
theorem reconcile_resolves_iff {t : Poller} {r : Reconciliation} (hs : s.Reachable)
    (h : reconcile node force n s = .ok r t) :
    (∃ closed : List ServiceKey,
      (∀ key : ServiceKey, key ∈ closed ↔ key.node = node ∧ ((s.schedule.mark? key).isSome ∨
          (key.address, key.service) ∈ s.inventory.services node) ∧
        t.schedule.mark? key = none ∧ ¬ s.Forsakes node force key) ∧
      t.outages.outages = s.outages.outages.map fun o =>
        if o.Open ∧ o.key ∈ closed then o.close ⟨n.time, n.id⟩ else o) ∧
    ((∀ key : ServiceKey, key.node = node → ((s.schedule.mark? key).isSome ∨
        (key.address, key.service) ∈ s.inventory.services node) →
        t.schedule.mark? key = none → key ∉ t.outages.openKeys) ↔
      ∀ key ∈ s.outages.openKeys, ¬ s.Forsakes node force key) := by
  have ready := hs.ready
  have hc := ready.covered
  obtain ⟨-, rfl⟩ := reconcile_ok ready.toPrompt h
  have stays (key : ServiceKey) : key ∈ (s.reconciled node force n).outages.openKeys ↔
      key ∈ s.outages.openKeys ∧ key ∉ s.resolved node force := by
    rw [outages_reconciled, OutageLog.mem_openKeys_closeAll]
  refine ⟨⟨s.resolved node force, fun key => mem_resolved hc n, ?_⟩, ?_, ?_⟩
  · rw [outages_reconciled, OutageLog.outages_closeAll]
  · intro none_left key ho forsaken
    obtain ⟨gone, unresolved⟩ := (forsakes_iff hc n forsaken.mem_listed).1 forsaken
    have listed := (mem_listed.1 forsaken.mem_listed).2
    exact none_left key forsaken.1 (.inr listed) gone ((stays key).2 ⟨ho, unresolved⟩)
  · intro none_forgotten key hn known gone ho
    obtain ⟨ho, unresolved⟩ := (stays key).1 ho
    exact unresolved ((mem_resolved hc n).2 ⟨hn, known, gone, none_forgotten key ho⟩)

end Engine

namespace Sample

/-- ICMP was scheduled and is down when only remote collectors are left to poll it. -/
def remote : Poller :=
  { start with
    store := { start.store with active := { active with
      configuration := { packages := [{
        name := "main"
        filter := "any"
        remote := true
        services := [{ name := "HTTP" }, { name := "ICMP" }] }] } } }
    schedule := Schedule.run {} [.add icmp {}]
    outages := OutageLog.openOutage {} icmp change.time }

theorem reachable_remote : remote.Reachable :=
  .polled remote.outages <| .configured remote.store <| .acted (.add icmp {})
    (.start start.store start.inventory {})

end Sample

/-- ICMP is removed by force and not scheduled again, and its outage stays open. -/
theorem Engine.icmp_forsaken :
    ∃ r t, reconcile ⟨1⟩ true Sample.change Sample.remote = .ok r t ∧
      ∃ key, t.Dangles key := by
  obtain ⟨r, t, h⟩ := reconcile_isOk Sample.reachable_remote.ready.toPrompt (by decide) ⟨1⟩ true
    Sample.change
  have forsaken : Sample.remote.Forsakes ⟨1⟩ true Sample.icmp :=
    ⟨rfl, .inl ⟨⟨by decide +kernel, by decide +kernel, by decide +kernel⟩, .inl rfl⟩⟩
  have down : Sample.icmp ∈ Sample.remote.outages.openKeys := by decide +kernel
  refine ⟨r, t, h, ?_⟩
  obtain ⟨-, resolves⟩ := reconcile_resolves_iff Sample.reachable_remote h
  have left : ¬ ∀ key ∈ Sample.remote.outages.openKeys, ¬ Sample.remote.Forsakes ⟨1⟩ true key :=
    fun none_forgotten => none_forgotten Sample.icmp down forsaken
  rw [← resolves] at left
  simp only [Classical.not_forall, Classical.not_not] at left
  obtain ⟨key, -, -, gone, ho⟩ := left
  exact ⟨key, gone, ho⟩

end Polling
