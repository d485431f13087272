import Polling.Engine.Poller

namespace Polling

/-- What a reconciliation did, each list in ascending order. -/
structure Reconciliation where
  removed : List ServiceKey
  rescheduled : List ServiceKey
  scheduled : List ServiceKey
  /-- The keys that the inventory lists and no package polls. -/
  unpolled : List ServiceKey
deriving DecidableEq, Repr

namespace Engine

open Poller

def pause : EngineM Unit := modify fun s =>
  match s.worker with
  | .prompt => { s with schedule := s.schedule.settle }
  | .idle => s

def awaitWithin (key : ServiceKey) (interval : Nat) : (pauses waited : Nat) → EngineM Unit
  | 0, waited => do
    if (← markOf key).isSome then throw (.execution (.deletionTimeout key waited))
  | pauses + 1, waited => do
    if (← markOf key).isSome then
      pause
      awaitWithin key interval pauses (waited + interval)

def awaitDeletion (key : ServiceKey) : EngineM Unit := do
  let settings := (← get).settings
  awaitWithin key settings.pollInterval settings.pauses 0

/-- Requests the removal of a key. That the key is gone already is no failure. -/
def requestDeletion (key : ServiceKey) : EngineM Unit := do
  match ← attempt (delete (.service key)) with
  | .ok () | .error (.serviceNotFound _) => return ()
  | .error e => throw (.ofCall e)

def removeAndWait (key : ServiceKey) : EngineM Unit := do
  if (← markOf key) = some .scheduled then requestDeletion key
  awaitDeletion key

/-- The label of a node in the inventory, or else in the notification. -/
def nodeLabel (node : NodeId) (n : Notification) : EngineM (Option String) := do
  match ← attempt (inventoryLabel node) with
  | .ok (some label) => return label
  | .ok none | .error _ => return n.param? "node_label"

def nodeLocation (node : NodeId) : EngineM (Option String) := do
  match ← attempt (inventoryLocation node) with
  | .ok location => return location
  | .error _ => return none

def scheduleService (key : ServiceKey) (info : NodeInfo) : EngineM Bool := do
  match (← get).store.active.packageFor? key.address key.service with
  | none => return false
  | some _ => addToSchedule key info

def listedKeys (node : NodeId) : EngineM (List ServiceKey) := do
  let services ← inventoryServices node
  return (Std.ExtTreeSet.ofList (services.map fun s => ⟨node, s.1, s.2⟩)).toList

def removeKeys (n : Notification) : List ServiceKey → EngineM Unit
  | [] => return ()
  | key :: keys => do
    removeAndWait key
    closeOutages (.service key) n
    removeKeys n keys

/-- Removes those keys that are to be scheduled afresh, all of them or those whose removal is
pending, and gives them back. -/
def removeForRescheduling (force : Bool) : List ServiceKey → EngineM (List ServiceKey)
  | [] => return []
  | key :: keys => do
    let mark ← markOf key
    if force ∨ mark = some .pendingDelete then
      removeAndWait key
      return key :: (← removeForRescheduling force keys)
    else removeForRescheduling force keys

/-- Schedules keys, closes the outages of those that no package polls, and gives back the keys
scheduled and the keys not polled. -/
def scheduleKeys (n : Notification) (info : NodeInfo) :
    List ServiceKey → EngineM (List ServiceKey × List ServiceKey)
  | [] => return ([], [])
  | key :: keys => do
    let added ← scheduleService key info
    let polled := decide ((← get).store.active.Polls key.address key.service)
    if ¬ polled then closeOutages (.service key) n
    let (scheduled, unpolled) ← scheduleKeys n info keys
    return (if added then key :: scheduled else scheduled,
      if polled then unpolled else key :: unpolled)

/-- Brings the schedule of a node in line with the inventory. Keys that are listed and scheduled
already are left alone, unless this is done by force. -/
def reconcile (node : NodeId) (force : Bool) (n : Notification) : EngineM Reconciliation := do
  let listed ← listedKeys node
  let tracked ← trackedKeys node
  let label ← match ← trackedNode node with
    | some { label := some label, .. } => pure (some label)
    | _ => nodeLabel node n
  let location ← nodeLocation node
  let removed := tracked.filter (· ∉ listed)
  removeKeys n removed
  let common := tracked.filter (· ∈ listed)
  let rescheduled ← removeForRescheduling force common
  -- A key of this list may have been dropped by the waits since it was read.
  let kept := common.filter (· ∉ rescheduled)
  let (scheduled, unpolled) ← scheduleKeys n { label, location } (listed.filter (· ∉ kept))
  return { removed, rescheduled, scheduled, unpolled }

/-- Reconciles nodes by force. One that fails stays as it is by then, and the next is taken up. -/
def rescheduleNodes (n : Notification) : List NodeId → EngineM Unit
  | [] => return ()
  | node :: nodes => do
    discard (attempt (reconcile node true n) : EngineM _)
    rescheduleNodes n nodes

def rebuildCaches : EngineM Unit := modify fun s => { s with store := s.store.rebuild }

def rescheduleAll (n : Notification) : EngineM Unit := do
  rebuildCaches
  rescheduleNodes n (← trackedNodes)

end Engine

end Polling
