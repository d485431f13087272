import Polling.Proofs.Engine.Demand
import Polling.Proofs.Engine.OutageSafety
import Polling.Proofs.Schedule.Journal

namespace Polling

namespace Schedule

variable {s : Schedule} {key : ServiceKey}

theorem scheduled_act_delete (s : Schedule) (scope : Scope) :
    (s.act (.delete scope)).scheduled = s.scheduled.filter (· ∉ scope) := by
  ext k
  rw [mem_scheduled, mark?_act_delete, Finset.mem_filter, mem_scheduled]
  by_cases hk : k ∈ scope <;> simp [hk]

theorem scheduled_act_add (h : s.mark? key = none) (info : NodeInfo) :
    (s.act (.add key info)).scheduled = insert key s.scheduled := by
  ext k
  rw [mem_scheduled, mark?_act_add, Finset.mem_insert, mem_scheduled]
  by_cases hk : k = key
  · simp [hk, h]
  · simp [hk]

/-- Waiting for a key that is not scheduled drops no scheduled key. -/
theorem scheduled_expel (h : s.mark? key ≠ some .scheduled) :
    (s.expel key).scheduled = s.scheduled := by
  cases hk : s.mark? key with
  | none => rw [expel_of_untracked hk]
  | some mark =>
    cases mark with
    | scheduled => exact absurd hk h
    | pendingDelete =>
      rw [expel_of_pending hk, settle_eq]
      exact scheduled_foldl_drop _ _

end Schedule

structure Outlook where
  scheduled : Finset ServiceKey
  outages : OutageLog

/-- The outlook after a notification, which is told from the notification alone: a key that is
gained joins if a local package polls it, and the keys of a scope that is withdrawn leave and have
their outages closed. -/
def Outlook.after (c : Active) (o : Outlook) (n : Notification) : Outlook :=
  match n.demand? with
  | some (.poll key) =>
    if c.PollsLocally key.address key.service then { o with scheduled := insert key o.scheduled }
    else o
  | some (.withdraw scope) =>
    { scheduled := o.scheduled.filter (· ∉ scope)
      outages := o.outages.close scope ⟨n.time, n.id⟩ }
  | _ => o

namespace NotificationKind

def gainOrLoss : List NotificationKind :=
  [nodeGainedService, resumePollingService, suspendPollingService, serviceDeleted,
    interfaceDeleted, nodeDeleted, duplicateNodeDeleted]

end NotificationKind

/-- A notification of a gain or a loss asks for a key to be polled, for a scope to be withdrawn, or
for nothing. -/
theorem Notification.demand?_of_gainOrLoss {n : Notification}
    (h : n.kind ∈ NotificationKind.gainOrLoss) :
    n.demand? = none ∨ (∃ key, n.demand? = some (.poll key)) ∨
      ∃ scope, n.demand? = some (.withdraw scope) := by
  unfold demand?
  cases hk : n.kind with
  | nodeGainedService | resumePollingService | suspendPollingService | serviceDeleted =>
    cases n.validNode? <;> cases n.subject? <;> simp
  | interfaceDeleted => cases n.validNode? <;> cases n.address <;> simp
  | nodeDeleted | duplicateNodeDeleted => cases n.validNode? <;> simp
  | _ =>
    rw [hk] at h
    exact absurd h (by decide)

namespace Poller

open Engine

variable {s : Poller} {n : Notification}

def outlook (s : Poller) : Outlook := ⟨s.schedule.scheduled, s.outages⟩

/-- A key that is not scheduled is scheduled if a local package polls it. -/
theorem outlook_gain (h : s.schedule.Covered) {key : ServiceKey}
    (hk : s.schedule.mark? key ≠ some .scheduled) :
    (s.gain n key).outlook =
      if s.store.active.PollsLocally key.address key.service then
        { s.outlook with scheduled := insert key s.outlook.scheduled }
      else s.outlook := by
  unfold gain
  split
  · have gone : (s.schedule.expel key).mark? key = none := Schedule.mark?_expel_self h key
    change Outlook.mk ((s.schedule.expel key).act (.add key _)).scheduled _ = _
    rw [Schedule.scheduled_act_add gone, Schedule.scheduled_expel hk]
    rfl
  · change Outlook.mk (s.schedule.expel key).scheduled _ = _
    rw [Schedule.scheduled_expel hk]
    rfl

theorem outlook_withdraw (s : Poller) (n : Notification) (scope : Scope) :
    (s.withdraw n scope).outlook =
      ⟨s.outlook.scheduled.filter (· ∉ scope), s.outlook.outages.close scope ⟨n.time, n.id⟩⟩ := by
  change Outlook.mk (s.schedule.act (.delete scope)).scheduled _ = _
  rw [Schedule.scheduled_act_delete]
  rfl

/-- Whichever way the engine goes with a gain or a loss, the outlook is told from the
notification. -/
theorem outlook_met (h : s.schedule.Covered) (hn : n.kind ∈ NotificationKind.gainOrLoss) :
    (s.met n n.demand?).outlook = s.outlook.after s.store.active n ∧
      (s.met n n.demand?).store = s.store := by
  unfold Outlook.after
  rcases n.demand?_of_gainOrLoss hn with e | ⟨key, e⟩ | ⟨scope, e⟩
  · rw [e]
    exact ⟨rfl, rfl⟩
  · simp only [e, met]
    split
    · next hk =>
      -- The key is left alone, as it is in the set already.
      have there : insert key s.outlook.scheduled = s.outlook.scheduled :=
        Finset.insert_eq_self.2 (Schedule.mem_scheduled.2 hk)
      refine ⟨?_, rfl⟩
      rw [there]
      exact (ite_self _).symm
    · next hk => exact ⟨outlook_gain h hk, store_gain s n key⟩
  · rw [e]
    exact ⟨outlook_withdraw s n scope, rfl⟩

inductive Turn where
  | handle (n : Notification)
  | work (count : Nat)
  /-- The worker carries out a removal that it has in hand, which may be out of date. -/
  | carryOut (scope : Scope)

def Turn.notification? : Turn → Option Notification
  | handle n => some n
  | work _ | carryOut _ => none

def Turn.notifications (turns : List Turn) : List Notification := turns.filterMap notification?

def turned (s : Poller) : Turn → Poller
  | .handle n => final (handle n) s
  | .work count => s.acted (.work count)
  | .carryOut scope => s.acted (.carryOut scope)

def takeTurns (s : Poller) (turns : List Turn) : Poller := turns.foldl turned s

theorem evolves_turned (s : Poller) (turn : Turn) : Evolves s (s.turned turn) := by
  cases turn with
  | handle n => exact orderly_handle n s
  | work count => exact Evolves.act s (.work count) s.store s.outages s.sent
  | carryOut scope => exact Evolves.act s (.carryOut scope) s.store s.outages s.sent

/-- A turn of the worker changes no outlook. -/
theorem outlook_turned (h : s.Ready) (hp : s.Patient) {turn : Turn}
    (hn : ∀ n ∈ turn.notification?, n.kind ∈ NotificationKind.gainOrLoss) :
    (s.turned turn).outlook = turn.notification?.elim s.outlook (s.outlook.after s.store.active) ∧
      (s.turned turn).store = s.store := by
  cases turn with
  | handle n =>
    rw [turned, final_handle h hp]
    exact outlook_met h.covered (hn n rfl)
  | work count =>
    refine ⟨?_, rfl⟩
    -- The worker drops marked keys only.
    change Outlook.mk (s.schedule.advance count).scheduled s.outages = _
    rw [Schedule.advance, Schedule.scheduled_foldl_drop]
    rfl
  | carryOut scope =>
    refine ⟨?_, rfl⟩
    change Outlook.mk (s.schedule.drop scope).scheduled s.outages = _
    rw [Schedule.scheduled_drop]
    rfl

theorem outlook_takeTurns (h : s.Ready) (hp : s.Patient) {turns : List Turn}
    (hn : ∀ n ∈ Turn.notifications turns, n.kind ∈ NotificationKind.gainOrLoss) :
    (s.takeTurns turns).outlook =
      (Turn.notifications turns).foldl (Outlook.after s.store.active) s.outlook := by
  induction turns generalizing s with
  | nil => rfl
  | cons turn turns ih =>
    have first (n : Notification) (hturn : n ∈ turn.notification?) :
        n.kind ∈ NotificationKind.gainOrLoss :=
      hn n (List.mem_filterMap.2 ⟨turn, List.mem_cons_self, hturn⟩)
    obtain ⟨outlook, store⟩ := outlook_turned h hp first
    have e := evolves_turned s turn
    have rest := ih (h.evolves e) (hp.evolves e) fun n hin =>
      hn n (List.filterMap_subset _ (List.subset_cons_self _ _) hin)
    change ((s.turned turn).takeTurns turns).outlook = _
    rw [rest, outlook, store]
    cases turn <;> rfl

/-- When the worker takes its turns makes no difference. From every reachable state a patient engine
that handles gains and losses ends with the scheduled keys and the outages that are told from the
notifications alone, one after the other. -/
theorem worker_timing_irrelevant (hs : s.Reachable) (hp : s.Patient) {turns : List Turn}
    (hn : ∀ n ∈ Turn.notifications turns, n.kind ∈ NotificationKind.gainOrLoss) :
    (s.takeTurns turns).outlook =
        (Turn.notifications turns).foldl (Outlook.after s.store.active) s.outlook ∧
      ∀ others, Turn.notifications others = Turn.notifications turns →
        (s.takeTurns others).outlook = (s.takeTurns turns).outlook := by
  have told := outlook_takeTurns hs.ready hp hn
  refine ⟨told, fun others same => ?_⟩
  rw [told, outlook_takeTurns hs.ready hp (same ▸ hn), same]

end Poller

namespace Sample

def suspended : Notification := { gained ⟨1⟩ with kind := .suspendPollingService }

def down : Poller := { pending with outages := OutageLog.openOutage {} icmp change.time }

end Sample

namespace Poller

/-- The worker comes late or early, and once with a removal that is out of date. -/
theorem icmp_regained_whenever_worker_comes :
    let late : List Turn :=
      [.handle (Sample.gained ⟨1⟩), .handle Sample.suspended, .handle (Sample.gained ⟨1⟩)]
    let early : List Turn :=
      [.work 2, .handle (Sample.gained ⟨1⟩), .handle Sample.suspended, .work 1,
        .carryOut (.service Sample.icmp), .handle (Sample.gained ⟨1⟩),
        .carryOut (.service Sample.icmp)]
    (Sample.down.Reachable ∧ Sample.down.Patient) ∧
      (Sample.down.takeTurns late).outlook.scheduled = {Sample.icmp} ∧
      (Sample.down.takeTurns late).outlook.outages.openKeys = [] ∧
      (Sample.down.takeTurns early).outlook = (Sample.down.takeTurns late).outlook := by
  intro late early
  have reachable : Sample.down.Reachable := .polled _ Sample.reachable_pending
  have patient : Sample.down.Patient := by decide
  have kinds : ∀ n ∈ Turn.notifications late, n.kind ∈ NotificationKind.gainOrLoss := by
    decide +kernel
  obtain ⟨told, whenever⟩ := worker_timing_irrelevant reachable patient kinds
  refine ⟨⟨reachable, patient⟩, ?_, ?_, whenever early (by decide +kernel)⟩
  · rw [told]
    decide +kernel
  · rw [told]
    decide +kernel

end Poller

end Polling
