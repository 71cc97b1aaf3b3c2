/-!
# Why a link operation fails

The kinds of failure that an operating system reports for a port, and what
the operations of a link make of them. `LinkError.message` is the wording.
-/

namespace Cnc

/-- What a device or an operating system reports. -/
inductive DeviceFault where
  | notFound | busy | permission | invalid | timedOut | brokenPipe | other
deriving DecidableEq, Repr

/-- Why an operation on a link fails. -/
inductive LinkError where
  /-- There is no such port, or another program uses it. -/
  | portUnavailable (port : String)
  /-- The port may not be opened by this user. -/
  | permissionDenied (port : String)
  /-- The link is open already. -/
  | alreadyOpen (port : String)
  /-- The port cannot be opened for another reason. -/
  | device (port reason : String)
  /-- The link is closed, or was closed before the operation was done. -/
  | notConnected
  /-- Writing to the port failed. -/
  | transfer (reason : String)
deriving DecidableEq, Repr

namespace LinkError

/-- What opening a port fails with when the device reports a fault. -/
def ofOpening (port : String) (fault : DeviceFault) (reason : String) : LinkError :=
  match fault with
  | .notFound | .busy => portUnavailable port
  | .permission => permissionDenied port
  | _ => device port reason

/-- The wording of an error. -/
def message : LinkError → String
  | portUnavailable port => s!"serial port '{port}' is not available"
  | permissionDenied port => s!"permission denied opening serial port '{port}'"
  | alreadyOpen port => s!"link is already open on '{port}'"
  | device port reason => s!"device error on '{port}': {reason}"
  | notConnected => "link is not connected"
  | transfer reason => s!"serial I/O error: {reason}"

end LinkError

end Cnc
