import HartRuntime.Machine

namespace HartRuntime.Machine

variable {n : Nat}

/-- What bytes sent to a console do to the devices. -/
def transmit (console : Console n) (bytes : List UInt8) (m : Machine n) : Machine n :=
  match console with
  | .recorder _ => m
  | .uart i => m.updateDevice i fun device => { device with uart := device.uart.transmit bytes }

/-- Sends bytes to the registered console; without one they are lost. -/
def emit (bytes : List UInt8) (m : Machine n) : Machine n :=
  match m.console with
  | none => m
  | some console =>
    { m.transmit console bytes with events := m.events ++ bytes.map (.sent console) }

/-- Writes a record to the console if the filter admits it. -/
def log (level : Log.Level) (text : String) (m : Machine n) : Machine n :=
  if m.filter.admits level then m.emit (utf8 (Log.line level text)) else m

/-- Says why the hart is about to halt. While records are switched off the message goes
    to the console as it is, so that it is never filtered away. -/
def report (message : String) (m : Machine n) : Machine n :=
  if m.filter = .off then m.emit (utf8 (message ++ "\n")) else m.log .error message

end HartRuntime.Machine
