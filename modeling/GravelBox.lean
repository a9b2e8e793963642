import GravelBox.Lib.Runs
import GravelBox.Lib.Stateful
import GravelBox.Lib.Projection
import GravelBox.Lib.Script
import GravelBox.Lib.Fallible
import GravelBox.Lib.Entries
import GravelBox.Lib.Ledger
import GravelBox.Lib.Posix
import GravelBox.Lib.Sinks
import GravelBox.Lib.Loops
import GravelBox.Lib.Codes
import GravelBox.Lib.Decoding
import GravelBox.Utils
import GravelBox.Fd
import GravelBox.Trace.World
import GravelBox.Trace.Tracer
import GravelBox.Trace.Handling
import GravelBox.Trace.Kernel
import GravelBox.Trace.Registry
import GravelBox.Trace.Mediation
import GravelBox.Trace.Lifetime
import GravelBox.Trace.ExitStatus
import GravelBox.Trace.Interleaving
import GravelBox.Trace.Signals
import GravelBox.Trace.Effect
import GravelBox.Trace.Death
import GravelBox.Parser.OStream
import GravelBox.Parser.ArgTypes
import GravelBox.Parser.Parser
import GravelBox.Parser.StrRead
import GravelBox.Parser.Shown
import GravelBox.Parser.Escapes
import GravelBox.Parser.Fresh
import GravelBox.Parser.Unambiguous
import GravelBox.Parser.Printable
import GravelBox.Ui.IStream
import GravelBox.Ui.PinentryConn
import GravelBox.Ui.Dialogue
import GravelBox.Ui.FailClosed
import GravelBox.Ui.Lockstep
import GravelBox.Ui.Losing
import GravelBox.Ui.User
import GravelBox.Ui.Interview
import GravelBox.Ui.Assuan
import GravelBox.Ui.Password
import GravelBox.Ui.Pwd
import GravelBox.Ui.Console
import GravelBox.Config.Json
import GravelBox.Config.FileConfig
import GravelBox.Config.Document
import GravelBox.Config.Hex
import GravelBox.Config.Settings
import GravelBox.Parser.Load
import GravelBox.Parser.Accepted
import GravelBox.Parser.Table
import GravelBox.Parser.Written
import GravelBox.Trace.Decision
import GravelBox.Trace.Referee
import GravelBox.Trace.Wakeup
import GravelBox.Trace.Consultation
import GravelBox.Trace.Independence
import GravelBox.Trace.Redirect
import GravelBox.Trace.Startup
import GravelBox.Trace.Outputs
import GravelBox.Modules
import GravelBox.Sign
import GravelBox.Authorisation
import GravelBox.Limit
import GravelBox.Descriptors
import GravelBox.Wiring
import GravelBox.Enforcement
