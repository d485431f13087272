import Polling.EventId
import Polling.Instant.Basic
import Polling.Schedule.Basic

namespace Polling

structure Closure where
  time : Instant
  event : EventId
deriving DecidableEq, Repr

structure Outage where
  key : ServiceKey
  openedAt : Instant
  closure : Option Closure := none
deriving DecidableEq, Repr

namespace Outage

def Open (o : Outage) : Prop := o.closure = none

instance (o : Outage) : Decidable o.Open := inferInstanceAs (Decidable (o.closure = none))

def close (o : Outage) (c : Closure) : Outage := { o with closure := some c }

end Outage

/-- The outages, in the order in which they were opened. -/
structure OutageLog where
  outages : List Outage := []
  /-- How often outages of a scope were asked to be closed. -/
  closings : Nat := 0
deriving DecidableEq, Repr

namespace OutageLog

def openKeys (l : OutageLog) : List ServiceKey := (l.outages.filter (·.Open)).map Outage.key

/-- Opens an outage of a key, unless it has one. -/
def openOutage (l : OutageLog) (key : ServiceKey) (time : Instant) : OutageLog :=
  if key ∈ l.openKeys then l
  else { l with outages := l.outages ++ [{ key, openedAt := time }] }

def countOpen (l : OutageLog) (scope : Scope) : Nat :=
  l.outages.countP fun o => o.Open ∧ o.key ∈ scope

def close (l : OutageLog) (scope : Scope) (c : Closure) : OutageLog where
  outages := l.outages.map fun o => if o.Open ∧ o.key ∈ scope then o.close c else o
  closings := l.closings + 1

end OutageLog

end Polling
