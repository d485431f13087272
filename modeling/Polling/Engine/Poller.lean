import Polling.Error
import Polling.Inventory
import Polling.Notification
import Polling.Outage
import Polling.Schedule.Deletion
import Polling.Store.Queries

namespace Polling

inductive Call where
  | nodeIds
  | node
  | hasInterface
  | mark
  | keys
  | schedule
  | deleteService
  | deleteInterface
  | deleteNode
  | reparent
  | setLabel
  | closeServiceOutages
  | closeInterfaceOutages
  | closeNodeOutages
  | inventoryServices
  | inventoryLabel
  | inventoryLocation
  | announce
deriving DecidableEq, Repr

structure Fault where
  skip : Nat := 0
  /-- The number of calls that fail after those that are skipped, or `none` if all do. -/
  times : Option Nat := none
  error : CallError
deriving DecidableEq, Repr

/-- The failure of the next call, if it fails, and the fault after it. -/
def Fault.next (f : Fault) : Option CallError × Fault :=
  match f.skip, f.times with
  | skip + 1, _ => (none, { f with skip })
  | 0, none => (some f.error, f)
  | 0, some 0 => (none, f)
  | 0, some (times + 1) => (some f.error, { f with times })

abbrev FaultPlan := List (Call × Fault)

namespace FaultPlan

def plan (p : FaultPlan) (call : Call) (fault : Fault) : FaultPlan :=
  (call, fault) :: p.filter (·.1 ≠ call)

def next (p : FaultPlan) (call : Call) : Option CallError × FaultPlan :=
  match p.lookup call with
  | none => (none, p)
  | some fault => (fault.next.1, p.plan call fault.next.2)

end FaultPlan

/-- How the engine waits for removals, and the name it goes by. Times are in milliseconds. -/
structure Settings where
  pollInterval : Nat := 20
  deletionTimeout : Nat := 30000
  daemonName : String := "pollerd"
  /-- An interval of zero is left out, with which the engine would look again and again until the
  timeout without ever pausing. -/
  pollInterval_pos : 0 < pollInterval := by decide

/-- The number of pauses after which a wait has reached its timeout. -/
def Settings.pauses (s : Settings) : Nat :=
  (s.deletionTimeout + s.pollInterval - 1) / s.pollInterval

/-- What the worker that carries out removals does while the engine pauses. -/
inductive Worker where
  | prompt
  | idle
deriving DecidableEq, Repr

structure Announcement where
  failure : Option Error
  daemon : String
  location : String
deriving DecidableEq, Repr

namespace Announcement

def kind (a : Announcement) : NotificationKind :=
  match a.failure with
  | none => .reloadDaemonConfigSuccessful
  | some _ => .reloadDaemonConfigFailed

def params (a : Announcement) : List Parameter :=
  (a.failure.map fun e => ⟨"reason", e.message⟩).toList ++
    [⟨"daemon_name", a.daemon⟩, ⟨"config_file", a.location⟩]

end Announcement

structure Poller where
  store : Store
  schedule : Schedule := {}
  outages : OutageLog := {}
  inventory : Inventory := ∅
  sent : List Announcement := []
  faults : FaultPlan := []
  settings : Settings := {}
  worker : Worker := .prompt

abbrev CallM := EStateM CallError Poller

/-- An operation of the engine. What it did before it failed stays done. -/
abbrev EngineM := EStateM Error Poller

instance : MonadLift CallM EngineM where
  monadLift call := call.adaptExcept Error.ofCall

/-- Hands over a failure as a value. -/
def attempt {ε ε' σ α : Type} (x : EStateM ε σ α) : EStateM ε' σ (Except ε α) := fun s =>
  match x s with
  | .ok a s => .ok (.ok a) s
  | .error e s => .ok (.error e) s

def onStore {α : Type} (x : StoreM α) : EngineM α := fun s =>
  match x s.store with
  | .ok a store => .ok a { s with store }
  | .error e store => .error (.config e) { s with store }

namespace Call

def delete : Scope → Call
  | .service _ => deleteService
  | .interface _ _ => deleteInterface
  | .node _ => deleteNode

def closeOutages : Scope → Call
  | .service _ => closeServiceOutages
  | .interface _ _ => closeInterfaceOutages
  | .node _ => closeNodeOutages

/-- Lets a call fail as planned. -/
def meet (call : Call) : CallM Unit := fun s =>
  match s.faults.next call with
  | (none, faults) => .ok () { s with faults }
  | (some e, faults) => .error e { s with faults }

theorem meet_of_no_faults {s : Poller} (h : s.faults = []) (call : Call) :
    call.meet s = .ok () s := by
  obtain ⟨⟩ := s
  cases h
  rfl

def ask {α : Type} (call : Call) (f : Poller → α) : CallM α := do
  call.meet
  return f (← get)

def change (call : Call) (f : Schedule → Except CallError Schedule) : CallM Unit := do
  call.meet
  let s ← get
  match f s.schedule with
  | .ok changed => set { s with schedule := changed }
  | .error e => throw e

end Call

namespace Poller

def trackedNodes : CallM (List NodeId) := Call.ask .nodeIds (·.schedule.nodeIds)

def trackedNode (node : NodeId) : CallM (Option NodeInfo) :=
  Call.ask .node (·.schedule.node? node)

def hasInterface (node : NodeId) (address : Address) : CallM Bool :=
  Call.ask .hasInterface fun s => decide (s.schedule.Tracks (.interface node address))

def markOf (key : ServiceKey) : CallM (Option Mark) := Call.ask .mark (·.schedule.mark? key)

def trackedKeys (node : NodeId) : CallM (List ServiceKey) :=
  Call.ask .keys (·.schedule.keysIn (.node node))

def addToSchedule (key : ServiceKey) (info : NodeInfo) : CallM Bool := do
  Call.schedule.meet
  let s ← get
  match s.schedule.add? key info with
  | none => return false
  | some schedule =>
    set { s with schedule }
    return true

def delete (scope : Scope) : CallM Unit := (Call.delete scope).change (·.delete scope)

def reparent (address : Address) (source target : NodeId) : CallM Unit :=
  Call.reparent.change (·.reparent address source target)

def setLabel (node : NodeId) (label : String) : CallM Unit :=
  Call.setLabel.change (·.setLabel node label)

def closeOutages (scope : Scope) (n : Notification) : CallM Unit := do
  (Call.closeOutages scope).meet
  modify fun s => { s with outages := s.outages.close scope ⟨n.time, n.id⟩ }

def inventoryServices (node : NodeId) : CallM (List (Address × String)) :=
  Call.ask .inventoryServices (·.inventory.services node)

def inventoryLabel (node : NodeId) : CallM (Option String) :=
  Call.ask .inventoryLabel (·.inventory.entry node |>.info.label)

def inventoryLocation (node : NodeId) : CallM (Option String) :=
  Call.ask .inventoryLocation (·.inventory.entry node |>.info.location)

def announce (a : Announcement) : CallM Unit := do
  Call.announce.meet
  modify fun s => { s with sent := s.sent ++ [a] }

end Poller

end Polling
