/-
  Forward/Local.lean --- `src/forward/local.rs`: `handle_forward_to_target`, the end
  of a forwarded connection at which the TCP connection to the target is made.

  A listener runs it for a `LocalForward` request, a dialer in `-R` mode for a
  `ReverseForward` request.
-/
import Sape.Types

set_option autoImplicit false

namespace Sape

/-- The operations `handle_forward_to_target` awaits. -/
inductive ForwardOp where
  /-- `TcpStream::connect(&target)` -/
  | connect (target : String)
  /-- `tunnel_copy` between the connection and the stream -/
  | tunnelCopy
  deriving DecidableEq, Repr, Inhabited

/-- Where `handle_forward_to_target` is suspended. -/
inductive ForwardTask where
  | connecting (target : String)
  | copying (target : String)
  | ended (result : Except Report Unit)
  deriving DecidableEq, Repr, Inhabited

/-- What an awaited operation came back with. -/
inductive ForwardEvent where
  | connected (result : Except IoError Unit)
  | copied (result : Except IoError Unit)
  deriving DecidableEq, Repr, Inhabited

namespace ForwardTask

/-- The awaited operation. -/
def op : ForwardTask → Option ForwardOp
  | .connecting target => some (.connect target)
  | .copying _ => some .tunnelCopy
  | .ended _ => none

/-- `handle_forward_to_target`, up to its first await. -/
def start (target : String) : ForwardTask := .connecting target

/-- The code between the await a task is suspended on and the next one. -/
def resume : ForwardTask → ForwardEvent → Option ForwardTask
  | .connecting target, .connected (.ok ()) => some (.copying target)
  | .connecting target, .connected (.error err) =>
      some (.ended (.error (.wrap s!"cannot connect to target {target}" (.io err))))
  | .copying _, .copied (.ok _) => some (.ended (.ok ()))
  | .copying _, .copied (.error err) => some (.ended (.error (.io err)))
  | _, _ => none

/-- A task connects once: no await leads back to the first one. -/
theorem resume_ne_connecting {task next : ForwardTask} {event : ForwardEvent}
    (h : task.resume event = some next) (target : String) : next ≠ .connecting target := by
  rintro rfl
  cases task with
  | connecting target' => rcases event with (_ | _) | (_ | _) <;> cases h
  | copying target' => rcases event with (_ | _) | (_ | _) <;> cases h
  | ended result => cases h

end ForwardTask

end Sape
