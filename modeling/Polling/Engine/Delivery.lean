import Polling.Engine.Transition

namespace Polling

structure DeliverySettings where
  workers : Nat := 4
  capacity : Nat := 1024
deriving DecidableEq, Repr

namespace Delivery

def queueName : String := "notifications"

def places (capacity : Nat) : Nat := max capacity 1

/-- The error of a caller that does not wait as long as a notification takes. -/
def notInTime (milliseconds : Nat) : Error :=
  .internal s!"notification not processed within {milliseconds}ms"

/-- Which of the notifications submitted without waiting are accepted, while no worker is free and
so many places are left. -/
def accept (capacity : Nat) : (left : Nat) → List Notification → List (Except Error Notification)
  | _, [] => []
  | left, n :: ns =>
    if n.kind ∉ NotificationKind.subscribed then .ok n :: accept capacity left ns
    else
      match left with
      | 0 => .error (.execution (.queueFull queueName (places capacity))) :: accept capacity 0 ns
      | left + 1 => .ok n :: accept capacity left ns

/-- Delivers notifications one after the other. The failure of one does not keep the others from
being delivered. -/
def deliver : List Notification → EngineM (List (Except Error Disposition))
  | [] => return []
  | n :: ns => do
    let result ← attempt (Engine.handle n)
    return result :: (← deliver ns)

def deliverAccepted : List (Except Error Notification) → EngineM (List (Except Error Disposition))
  | [] => return []
  | .error e :: ns => return .error e :: (← deliverAccepted ns)
  | .ok n :: ns => do
    let result ← attempt (Engine.handle n)
    return result :: (← deliverAccepted ns)

end Delivery

end Polling
