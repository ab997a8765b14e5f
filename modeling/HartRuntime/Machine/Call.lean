import HartRuntime.Machine.Output
import HartRuntime.Syscall

namespace HartRuntime

open Trap (Outcome State)

/-- A call of the runtime that takes no trap. -/
inductive Call (n : Nat) where
  | registerConsole (console : Console n)
  | hasConsole
  | consoleChar (byte : UInt8)
  | consoleText (text : String)
  | printf (format : List UInt8) (args : List Format.Arg)
  | puts (bytes : List UInt8)
  | putchar (byte : UInt8)
  | print (text : String)
  | printLine (text : String)
  | setFilter (setting : Option String)
  | filter
  | log (level : Log.Level) (text : String)
  | write (fd : Int32) (buffer : List UInt8)
  | close (fd : Int32)
  | isTerminal (fd : Int32)
  | seek (fd offset whence : Int32)
  | kill (process signal : Int32)
  | processId
  | status (fd : Int32) (stat : Syscall.Stat)
  | registerPlatform (device : Fin n)
  | platform
  | armTimeout (period : UInt64)
  | startTicking (device : Fin n)

/-- What a call or a step answers. -/
inductive Answer (n : Nat) where
  | nothing
  | flag (value : Bool)
  | count (value : UInt64)
  | number (value : Int32)
  | filter (value : Log.Filter)
  | status (value : Int32) (stat : Syscall.Stat)
  | platform (value : Option (Fin n))
  | state (value : State)
  | outcome (value : Outcome)
  | taken (outcome : Outcome) (state : State)
  deriving DecidableEq

namespace Machine

variable {n : Nat}

/-- Sends bytes and answers how many of them the console received. -/
def counted (bytes : List UInt8) (m : Machine n) : Answer n × Machine n :=
  (.count (if m.console.isSome then Format.count bytes else 0), m.emit bytes)

/-- Sends bytes and answers whether there is a console. -/
def offered (bytes : List UInt8) (m : Machine n) : Answer n × Machine n :=
  (.flag m.console.isSome, m.emit bytes)

/-- Makes a call. Writing to a file claims all of the buffer even if nothing received it. -/
def perform (call : Call n) (m : Machine n) : Answer n × Machine n :=
  match call with
  | .registerConsole console => (.nothing, m.registerConsole console)
  | .hasConsole => (.flag m.console.isSome, m)
  | .consoleChar byte => m.offered [byte]
  | .consoleText text => m.offered (utf8 text)
  | .printf format args => m.counted (Format.output format args)
  | .puts bytes => m.counted (Format.beforeNul bytes)
  | .putchar byte => m.counted [byte]
  | .print text => (.nothing, m.emit (utf8 text))
  | .printLine text => (.nothing, (m.emit (utf8 text)).emit (utf8 "\n"))
  | .log level text => (.nothing, m.log level text)
  | .write _ buffer => (.count (Format.count buffer), m.emit buffer)
  | .setFilter setting =>
    (.filter (Log.Filter.ofSetting setting), { m with filter := Log.Filter.ofSetting setting })
  | .filter => (.filter m.filter, m)
  | .close fd => (.number (Syscall.close fd), m)
  | .isTerminal fd => (.number (Syscall.isTerminal fd), m)
  | .seek fd offset whence => (.number (Syscall.seek fd offset whence), m)
  | .kill _ _ => (.nothing, m)
  | .processId => (.number Syscall.processId, m)
  | .status fd stat => let (value, stat) := Syscall.status fd stat; (.status value stat, m)
  | .registerPlatform i => (.nothing, m.registerPlatform i)
  | .platform => (.platform m.platform, m)
  | .armTimeout period => (.nothing, m.armTimeout period)
  | .startTicking i => (.nothing, m.startTicking i)

end Machine

end HartRuntime
