import Polling.Proofs.Engine.Demand
import Polling.Proofs.Engine.Reconciliation
import Polling.Proofs.Engine.Safety

namespace Polling

namespace Poller

open Engine

variable {s : Poller} {n : Notification} {key : ServiceKey}

/-- What keeps a notification from closing the outage of a key that it takes off the schedule. An
interface that moves keeps the outages of its services where they were, and a node that is scheduled
afresh keeps those of the keys that only remote collectors poll. -/
def Forgets (s : Poller) (n : Notification) (key : ServiceKey) : Prop :=
  match n.kind with
  | .interfaceReparented =>
    n.validNode?.isSome ∧ n.address = some key.address ∧
      n.nodeParam "old_node_id" = .ok key.node ∧
        ∃ target, n.nodeParam "new_node_id" = .ok target ∧ key.node ≠ target ∧
          (s.schedule.node? target).isSome
  | .nodeLocationChanged =>
    n.validNode? = some key.node ∧ s.RemoteOnly s.store.rebuild key
  | .scheduledOutagesChanged => s.RemoteOnly (final Store.reload s.store).rebuild key
  | .reloadDaemonConfig =>
    Addressed s n ∧ ∃ c, s.store.read = .ok c ∧ s.RemoteOnly (s.store.install c).rebuild key
  | _ => False

/-- A notification that lacks a field changes nothing. -/
theorem safeAt_given {α : Type} {field : Except InputError α} {next : α → EngineM Disposition}
    (hs : s.SafeAt key) (h : ∀ a, field = .ok a → (final (given field next) s).SafeAt key) :
    (final (given field next) s).SafeAt key := by
  cases hf : field with
  | ok a =>
    rw [← hf]
    exact h a hf
  | error e => exact hs

theorem safeAt_serviceGained (h : s.Ready) (hp : s.Patient) (hs : s.SafeAt key) (node : NodeId) :
    (final (serviceGained n node) s).SafeAt key := by
  apply safeAt_given hs
  intro subject hn
  change (final (serviceGained n node) s).SafeAt key
  rw [final_serviceGained h hp hn]
  split
  · exact hs
  · next hk => exact safeAt_gain h.covered hs hk

theorem safeAt_serviceRemoved (h : s.Ready) (hs : s.SafeAt key) (node : NodeId) :
    (final (serviceRemoved n node) s).SafeAt key := by
  apply safeAt_given hs
  intro subject hn
  change (final (serviceRemoved n node) s).SafeAt key
  rw [final_serviceRemoved h.faults hn]
  exact safeAt_withdraw hs _

theorem safeAt_interfaceDeleted (h : s.Ready) (hs : s.SafeAt key) (node : NodeId) :
    (final (interfaceDeleted n node) s).SafeAt key := by
  apply safeAt_given hs
  intro address hn
  change (final (interfaceDeleted n node) s).SafeAt key
  rw [final_interfaceDeleted h.faults hn]
  exact safeAt_withdraw hs _

theorem safeAt_nodeDeleted (h : s.Ready) (hs : s.SafeAt key) (node : NodeId) :
    (final (nodeDeleted n node) s).SafeAt key := by
  rw [final_nodeDeleted h]
  exact safeAt_withdraw hs _

theorem safeAt_labelChanged (h : s.Ready) (hs : s.SafeAt key) (node : NodeId) :
    (final (labelChanged n node) s).SafeAt key := by
  apply safeAt_given hs
  intro label hn
  change (final (labelChanged n node) s).SafeAt key
  rw [final_labelChanged h.faults hn]
  exact safeAt_setLabel hs node label

/-- Without force a reconciliation leaves no key behind. -/
theorem safeAt_membershipChanged (h : s.Ready) (hp : s.Patient) (hs : s.SafeAt key)
    (node : NodeId) : (final (membershipChanged n node false) s).SafeAt key := by
  rw [final_membershipChanged h hp]
  exact safeAt_reconciled_unforced (h.withStore s.store.rebuild).covered hs

theorem leftIf_membershipChanged (h : s.Ready) (hp : s.Patient) (hs : s.SafeAt key)
    (node : NodeId) :
    (final (membershipChanged n node true) s).LeftIf key
      (key ∈ s.outages.openKeys ∧ key.node = node ∧ s.RemoteOnly s.store.rebuild key) := by
  rw [final_membershipChanged h hp]
  have hc := (h.withStore s.store.rebuild).covered
  by_cases hn : key.node = node
  · subst hn
    constructor
    · rintro ⟨ho, -, hr⟩
      exact dangles_reconciled_force hc ho hr
    · intro hleft ho
      have hopen := (mem_openKeys_reconciled.1 ho).1
      exact safeAt_reconciled_force hc hs (fun hr => hleft ⟨hopen, rfl, hr⟩) ho
  · apply SafeAt.leftIf
    · exact safeAt_reconciled_of_ne hc hn hs
    · exact fun hleft => hn hleft.2.1

/-- An interface leaves outages behind if the notification says from where to where it moves. -/
theorem leftIf_interfaceReparented (h : s.Ready) (hs : s.SafeAt key) :
    (final (interfaceReparented n) s).LeftIf key
      (key ∈ s.outages.openKeys ∧ n.address = some key.address ∧
        n.nodeParam "old_node_id" = .ok key.node ∧
          ∃ target, n.nodeParam "new_node_id" = .ok target ∧ key.node ≠ target ∧
            (s.schedule.node? target).isSome) := by
  -- A notification that lacks a field moves nothing.
  cases ha : n.requireAddress with
  | error e =>
    rw [interfaceReparented, final_given_of_error ha]
    apply hs.leftIf
    rintro ⟨-, hk, -⟩
    rw [Notification.requireAddress_eq_ok.2 hk] at ha
    cases ha
  | ok address =>
  cases hsource : n.nodeParam "old_node_id" with
  | error e =>
    rw [interfaceReparented, given_of_ok ha, final_given_of_error hsource]
    apply hs.leftIf
    rintro ⟨-, -, hk, -⟩
    cases hk
  | ok source =>
  cases htarget : n.nodeParam "new_node_id" with
  | error e =>
    rw [interfaceReparented, given_of_ok ha, given_of_ok hsource, final_given_of_error htarget]
    apply hs.leftIf
    rintro ⟨-, -, -, target, ht, -⟩
    cases ht
  | ok target =>
    rw [final_interfaceReparented h.faults ha hsource htarget]
    apply (leftIf_reparent h hs address source target).congr
    rw [Notification.requireAddress_eq_ok] at ha
    rw [ha]
    constructor
    · rintro ⟨ho, hk, hn, t, ht, hne, hknown⟩
      cases hk
      cases hn
      cases ht
      exact ⟨ho, rfl, rfl, hne, hknown⟩
    · rintro ⟨ho, rfl, rfl, hne, hknown⟩
      exact ⟨ho, rfl, rfl, target, rfl, hne, hknown⟩

theorem leftIf_reloadRequested (h : s.Ready) (hp : s.Patient) (hs : s.SafeAt key) :
    (final (reloadRequested n) s).LeftIf key
      (key ∈ s.outages.openKeys ∧ Addressed s n ∧
        ∃ c, s.store.read = .ok c ∧ s.RemoteOnly (s.store.install c).rebuild key) := by
  by_cases ha : Addressed s n
  · cases hc : s.store.read with
    | error e =>
      obtain ⟨sent, ht⟩ := final_reloadRequested_of_error h.faults ha hc
      rw [ht]
      apply SafeAt.leftIf (s := { s with sent }) hs
      rintro ⟨-, -, c, hr, -⟩
      cases hr
    | ok c =>
      obtain ⟨sent, ht⟩ := final_reloadRequested_of_ok h hp ha hc
      rw [ht]
      apply LeftIf.congr (leftIf_rescheduled h hp hs (s.store.install c))
      constructor
      · rintro ⟨ho, -, c', hc', hr⟩
        cases hc'
        exact ⟨ho, hr⟩
      · rintro ⟨ho, hr⟩
        exact ⟨ho, ha, c, rfl, hr⟩
  · rw [final_reloadRequested_of_other ha]
    exact hs.leftIf fun h => ha h.2.1

/-- A notification leaves a key behind if it forgets the key and the key has an open outage. -/
def LeavesBehind (s : Poller) (n : Notification) (key : ServiceKey) : Prop :=
  key ∈ s.outages.openKeys ∧ s.Forgets n key

theorem safeAt_of_node {next : NodeId → EngineM Disposition} (hs : s.SafeAt key)
    (h : ∀ node, (final (next node) s).SafeAt key) :
    (final (given n.requireNode next) s).SafeAt key := by
  apply safeAt_given hs
  intro node hn
  rw [given_of_ok hn]
  exact h node

theorem leftIf_of_node {next : NodeId → EngineM Disposition} {p : NodeId → Prop} {q : Prop}
    (hs : s.SafeAt key) (h : ∀ node, (final (next node) s).LeftIf key (p node))
    (hq : q → n.validNode?.isSome) (hpq : ∀ node, n.validNode? = some node → (q ↔ p node)) :
    (final (given n.requireNode next) s).LeftIf key q := by
  cases hn : n.requireNode with
  | error e =>
    refine SafeAt.leftIf hs fun hleft => ?_
    obtain ⟨node, hnode⟩ := Option.isSome_iff_exists.1 (hq hleft)
    rw [Notification.requireNode_eq_ok.2 hnode] at hn
    cases hn
  | ok node => exact (h node).congr (hpq node (Notification.requireNode_eq_ok.1 hn))

/-- A notification leaves a key behind as said, and otherwise keeps it safe. -/
theorem leftIf_handle (h : s.Ready) (hp : s.Patient) (hs : s.SafeAt key) :
    (final (handle n) s).LeftIf key (s.LeavesBehind n key) := by
  -- For a kind that forgets no key the condition is never met.
  have never (x : EngineM Disposition) (hx : (final x s).SafeAt key) :
      (final x s).LeftIf key (key ∈ s.outages.openKeys ∧ False) := hx.leftIf fun h => h.2
  unfold LeavesBehind Forgets handle
  cases n.kind with
  | nodeGainedService | resumePollingService =>
    exact never _ (safeAt_of_node hs (safeAt_serviceGained h hp hs))
  | suspendPollingService | serviceDeleted =>
    exact never _ (safeAt_of_node hs (safeAt_serviceRemoved h hs))
  | interfaceDeleted => exact never _ (safeAt_of_node hs (safeAt_interfaceDeleted h hs))
  | nodeDeleted | duplicateNodeDeleted =>
    exact never _ (safeAt_of_node hs (safeAt_nodeDeleted h hs))
  | nodeLabelChanged => exact never _ (safeAt_of_node hs (safeAt_labelChanged h hs))
  | nodeCategoryMembershipChanged | assetInfoChanged =>
    exact never _ (safeAt_of_node hs (safeAt_membershipChanged h hp hs))
  | thresholdConfigChanged | reloadDaemonConfigSuccessful | reloadDaemonConfigFailed =>
    exact never _ hs
  | interfaceReparented =>
    refine leftIf_of_node hs (fun _ => leftIf_interfaceReparented h hs) (fun hq => hq.2.1) ?_
    intro node hn
    simp [hn]
  | nodeLocationChanged =>
    refine leftIf_of_node hs (leftIf_membershipChanged h hp hs) (fun hq => ?_) ?_
    · rw [hq.2.1]
      rfl
    · intro node hn
      simp only [hn, Option.some_inj, eq_comm]
  | scheduledOutagesChanged =>
    rw [final_calendarChanged h hp]
    exact leftIf_rescheduled h hp hs _
  | reloadDaemonConfig => exact leftIf_reloadRequested h hp hs

inductive Event where
  | notified (n : Notification)
  | listed (inventory : Inventory)
  | configured (store : Store)
  | worked (count : Nat)
  /-- A poll of the key fails, which opens an outage if the key is scheduled. -/
  | down (key : ServiceKey) (time : Instant)

def step (s : Poller) : Event → Poller
  | .notified n => final (handle n) s
  | .listed inventory => { s with inventory }
  | .configured store => { s with store }
  | .worked count => s.acted (.work count)
  | .down key time =>
    if s.schedule.mark? key = some .scheduled then
      { s with outages := s.outages.openOutage key time }
    else s

def run (s : Poller) (events : List Event) : Poller := events.foldl step s

def Leaks (s : Poller) (key : ServiceKey) : Event → Prop
  | .notified n => s.LeavesBehind n key
  | _ => False

theorem ready_step (h : s.Ready) (e : Event) : (s.step e).Ready := by
  cases e with
  | notified n => exact h.evolves (orderly_handle n s)
  | listed inventory => exact h.withInventory inventory
  | configured store => exact h.withStore store
  | worked count => exact h.evolves (Evolves.act s (.work count) s.store s.outages s.sent)
  | down key time =>
    rw [step]
    split
    · exact h.withOutages _
    · exact h

theorem settings_step (s : Poller) (e : Event) : (s.step e).settings = s.settings := by
  cases e with
  | notified n => exact (orderly_handle n s).settings
  | down key time =>
    rw [step]
    split <;> rfl
  | _ => rfl

/-- An event leaves a key behind as said, and otherwise keeps it safe. -/
theorem leftIf_step (h : s.Ready) (hp : s.Patient) (hs : s.SafeAt key) (e : Event) :
    (s.step e).LeftIf key (s.Leaks key e) := by
  cases e with
  | notified n => exact leftIf_handle h hp hs
  | listed inventory => exact SafeAt.leftIf (s := { s with inventory }) hs id
  | configured store => exact SafeAt.leftIf (s := { s with store }) hs id
  | worked count => exact (safeAt_work hs count).leftIf id
  | down k time =>
    refine SafeAt.leftIf ?_ id
    rw [step]
    split
    · next hk =>
      intro ho
      rcases (OutageLog.mem_openKeys_openOutage _ _ _ _).1 ho with ho | rfl
      · exact hs ho
      · exact hk
    · exact hs

/-- Up to some event, no key dangles exactly if no key is left behind. -/
theorem dangles_iff_leaks (h : s.Ready) (hp : s.Patient) (hs : ∀ key, s.SafeAt key)
    (events : List Event) :
    (∀ past, past <+: events → ∀ key, ¬ (s.run past).Dangles key) ↔
      ∀ past e, past ++ [e] <+: events → ∀ key, ¬ (s.run past).Leaks key e := by
  induction events generalizing s with
  | nil =>
    constructor
    · intro _ past e he
      simp at he
    · intro _ past hpast key
      rw [List.prefix_nil.1 hpast]
      exact (hs key).not_dangles
  | cons e events ih =>
    by_cases hleak : ∃ key, s.Leaks key e
    · -- The key that is left behind dangles from here on, so both sides fail at once.
      obtain ⟨key, hleak⟩ := hleak
      constructor
      · intro hd
        refine absurd ((leftIf_step h hp (hs key) e).1 hleak) (hd [e] ?_ key)
        exact List.cons_prefix_cons.2 ⟨rfl, List.nil_prefix⟩
      · intro hl
        exact absurd hleak (hl [] e (List.cons_prefix_cons.2 ⟨rfl, List.nil_prefix⟩) key)
    · -- The event keeps every key safe, and what follows is a run from where it leads.
      have hs' (key : ServiceKey) : (s.step e).SafeAt key :=
        (leftIf_step h hp (hs key) e).2 fun hk => hleak ⟨key, hk⟩
      have hp' : (s.step e).Patient := by
        rw [Patient, settings_step]
        exact hp
      have later := ih (ready_step h e) hp' hs'
      constructor
      · intro hd past e' hpast key
        rcases List.prefix_cons_iff.1 hpast with hpast | ⟨rest, hr, hrest⟩
        · simp at hpast
        cases past with
        | nil =>
          cases hr
          exact fun hk => hleak ⟨key, hk⟩
        | cons first past =>
          cases hr
          refine later.1 (fun past hpast => ?_) past e' hrest key
          exact hd (e :: past) (List.cons_prefix_cons.2 ⟨rfl, hpast⟩)
      · intro hl past hpast key
        rcases List.prefix_cons_iff.1 hpast with rfl | ⟨rest, rfl, hrest⟩
        · exact (hs key).not_dangles
        · refine later.2 (fun past e' hpast => ?_) rest hrest key
          exact hl (e :: past) e' (List.cons_prefix_cons.2 ⟨rfl, hpast⟩)

def started (store : Store) (inventory : Inventory) (settings : Settings) : Poller :=
  { store, inventory, settings }

/-- From the start of a patient poller on, no key is ever untracked with an open outage exactly if
no notification leaves a key behind. -/
theorem outage_safety_iff {store : Store} {inventory : Inventory} {settings : Settings}
    (hp : 0 < settings.deletionTimeout) (events : List Event) :
    (∀ past, past <+: events → ∀ key,
        ¬ ((started store inventory settings).run past).Dangles key) ↔
      ∀ past n, past ++ [.notified n] <+: events → ∀ key,
        ¬ ((started store inventory settings).run past).LeavesBehind n key := by
  have ready : (started store inventory settings).Ready := ready_start store inventory settings
  have safe (key : ServiceKey) : (started store inventory settings).SafeAt key := nofun
  rw [dangles_iff_leaks ready hp safe]
  constructor
  · exact fun h past n hpast key => h past (.notified n) hpast key
  · intro h past e hpast key
    cases e with
    | notified n => exact h past n hpast key
    | _ => exact id

end Poller

namespace Sample

def gained (node : NodeId) : Notification :=
  { change with
    kind := .nodeGainedService
    node := some node
    address := some address
    service := some "ICMP" }

def moved : Notification :=
  { change with
    kind := .interfaceReparented
    address := some address
    params := [⟨"old_node_id", "1"⟩, ⟨"new_node_id", "2"⟩] }

end Sample

namespace Poller

/-- An interface that moves while one of its services is down leaves an outage open. -/
theorem moved_interface_dangles :
    let events : List Event := [.notified (Sample.gained ⟨1⟩), .notified (Sample.gained ⟨2⟩),
      .down Sample.icmp Sample.change.time, .notified Sample.moved]
    ¬ ∀ past, past <+: events → ∀ key,
      ¬ ((started Sample.start.store Sample.start.inventory {}).run past).Dangles key := by
  intro events
  rw [outage_safety_iff (by decide)]
  intro h
  refine h (events.take 3) Sample.moved (List.prefix_refl _) Sample.icmp ⟨?_, ?_⟩
  · decide +kernel
  · exact ⟨rfl, rfl, rfl, ⟨2⟩, rfl, by decide +kernel, by decide +kernel⟩

end Poller

end Polling
