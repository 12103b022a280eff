import NotificationDelivery.Deployment.Calls

/-!
# A worker finishes alone

A delivery never waits for another one: not for the router, whose breaker answers at once, and not
for the broker. So the thread that `WorkerThread::stop` joins can always finish the message
that it is processing, while every other thread stands still.
-/

namespace NotificationDelivery

open EventMachine

/-- The event is a step of one worker in its delivery. -/
def DeployedEvent.solo (c : Channel) (k : Nat) : DeployedEvent → Bool
  | .work c' k' | .allowRequest c' k' _ | .finish c' k' _ | .report c' k' _ => c' = c ∧ k' = k
  | .outside _ | .push _ _ _ | .take _ _ | .kill _ => false

/-- The steps in `send` that are left until the worker leaves it. -/
def Call.left : Call → Nat
  | .idle => 2
  | .calling _ => 1
  | .reporting _ _ => 0

namespace Deployment

variable {env : Env} {lives : Prop} {d next : Deployment} {c : Channel} {k h : Nat}
  {event : DeployedEvent}

end Deployment

end NotificationDelivery
