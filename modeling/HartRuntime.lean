import HartRuntime.Board
import HartRuntime.Board.Build
import HartRuntime.Board.Files
import HartRuntime.Board.Reader
import HartRuntime.Format.Arg
import HartRuntime.Format.Item
import HartRuntime.Format.Output
import HartRuntime.Image.Host
import HartRuntime.Image.Layout
import HartRuntime.Image.Script
import HartRuntime.Launch.Line
import HartRuntime.Launch.Plan
import HartRuntime.Launch.Request
import HartRuntime.Launch.Tools
import HartRuntime.Log
import HartRuntime.Machine
import HartRuntime.Machine.Call
import HartRuntime.Machine.Handler
import HartRuntime.Machine.Output
import HartRuntime.Main
import HartRuntime.Numeral
import HartRuntime.Numeral.Scratch
import HartRuntime.Platform
import HartRuntime.Register
import HartRuntime.Session
import HartRuntime.Syscall
import HartRuntime.Text.Hidden
import HartRuntime.Text.Quoted
import HartRuntime.Text.Utf8
import HartRuntime.Timer
import HartRuntime.Timer.SplitRead
import HartRuntime.Toml.Document
import HartRuntime.Toml.Number
import HartRuntime.Toml.Text
import HartRuntime.Toml.Time
import HartRuntime.Toml.Value
import HartRuntime.Trap.Cause
import HartRuntime.Trap.Dispatcher
import HartRuntime.Trap.Routine
import HartRuntime.Trap.Table
import HartRuntime.Uart
import HartRuntime.Proofs.Format.Grammar
import HartRuntime.Proofs.Format.Printed
import HartRuntime.Proofs.Format.Append
import HartRuntime.Proofs.Format.Shares
import HartRuntime.Proofs.Format.Precision
import HartRuntime.Proofs.Format.Alike
import HartRuntime.Proofs.Numeral.Canonical
import HartRuntime.Proofs.Numeral.Reuse
import HartRuntime.Proofs.Format.Columns
import HartRuntime.Proofs.Trap.Dispatch
import HartRuntime.Proofs.Trap.Watched
import HartRuntime.Proofs.Trap.Absorbing
import HartRuntime.Proofs.Trap.Sequence
import HartRuntime.Proofs.Log.Line
import HartRuntime.Proofs.Machine.Output
import HartRuntime.Proofs.Machine.Cadence
import HartRuntime.Proofs.Machine.Exception
import HartRuntime.Proofs.Timer.SplitRead
import HartRuntime.Proofs.Register.Bytes
import HartRuntime.Proofs.Register.History
import HartRuntime.Proofs.Session.Action
import HartRuntime.Proofs.Session.Run
import HartRuntime.Proofs.Session.Output
import HartRuntime.Proofs.Session.Registration
import HartRuntime.Proofs.Session.Devices
import HartRuntime.Proofs.Session.Ticks
import HartRuntime.Proofs.Session.Report
import HartRuntime.Proofs.Image.Copy
import HartRuntime.Proofs.Image.Startup
import HartRuntime.Proofs.Image.Idempotence
import HartRuntime.Proofs.Launch.Words
import HartRuntime.Proofs.Launch.Line
import HartRuntime.Proofs.Launch.Calls
import HartRuntime.Proofs.Launch.Choices
import HartRuntime.Proofs.Text.Token
import HartRuntime.Proofs.Toml.WellFormed
import HartRuntime.Proofs.Toml.Edit
import HartRuntime.Proofs.Board.Description
import HartRuntime.Proofs.Board.Reader
import HartRuntime.Proofs.Board.Sections
import HartRuntime.Proofs.Board.Outcome
import HartRuntime.Proofs.Board.Reading
import HartRuntime.Proofs.Uart.Cell
import HartRuntime.Proofs.Log.Setting
import HartRuntime.Proofs.Session.Records
import HartRuntime.Proofs.Format.Verbatim
import HartRuntime.Proofs.Machine.Paths
