/-
# From the options to the tracer

`run` (`modules.cpp`, lines 15 to 55) is where the parts are put together: it reads the
configuration, has it verified unless told not to, starts one pinentry or two, loads the
definitions, and starts the tracer with what it got.

`run` is modelled up to the call of `tracer.run`, in two steps: what comes before anything that
asks (reading the configuration, which may throw) and the rest (`launch`), over a `Session` with
the configuration and the log.  The log is not in the source: it records which pinentry was
started, when the signature was verified and which definitions were read, in order, so that a
theorem can say what was used before what.

What is easy to get wrong here is the order.  The option `--pinentry` starts its program before
the configuration is verified, and without the option `run` starts the program `pinentry` to ask
for the key, and only afterwards the one that the configuration names.  So no program is started
on the word of a file that nobody has verified.

The environment is a parameter: which files there are, and which programs start.  Not modelled:
how the command line is parsed, which is left to the library; and of a `PinentryUI` only that it
starts or fails, and what the user answers through it.
-/
import GravelBox.Config.FileConfig
import GravelBox.Parser.Load
import GravelBox.Ui.User

namespace GravelBox

open Stateful

/-- The options that `run` looks at before it starts the tracer. -/
structure Options where
  config : Str
  pinentry : Option Str
  noSignature : Bool

/-- The files there are, and what becomes of the constructor of a `PinentryUI`. -/
structure Environment where
  files : Str → Option Str
  /-- The program accepts the title, so that the constructor returns. -/
  starts : Str → Bool
  /-- What the constructor does otherwise: it throws, or it waits for an answer for ever, as it
  holds the other ends of its pipes itself. -/
  failure : Str → Fault

/-- What `run` uses. -/
inductive Use
  | pinentry (program : Str)
  /-- The signature was verified. -/
  | verified
  | definitions (path : Str)
  deriving DecidableEq

/-- The state of `run` once the configuration was read. -/
structure Launch (Re : Type) where
  config : FileConfig Re
  log : List Use

variable {Re : Type} (lib : Libraries Re) (env : Environment)

/-- Record a use. -/
def Launch.record (use : Use) (l : Launch Re) : Launch Re := { l with log := l.log ++ [use] }

/-- `std::make_unique<PinentryUI>(program)`. -/
def startPinentry (program : Str) : EStateM Fault (Launch Re) Unit := do
  modify (Launch.record (.pinentry program))
  if env.starts program = false then throw (env.failure program)

theorem ends_startPinentry {program : Str} {l : Launch Re} {Q : Unit → Launch Re → Prop}
    {R : Fault → Launch Re → Prop} :
    Ends (startPinentry env program) l Q R ↔
      if env.starts program = true then Q ⟨⟩ (l.record (.pinentry program))
      else R (env.failure program) (l.record (.pinentry program)) := by
  rw [startPinentry, ends_bind, ends_modify]
  cases env.starts program with
  | false => rfl
  | true => rfl

/-- `config->verify_signature(key)`. -/
def verifyKey (key : Str) : EStateM Fault (Launch Re) Bool := do
  let verified ← zoom Launch.config (fun l c => { l with config := c })
    (FileConfig.verifySignature lib env.files key)
  if verified = true then modify (Launch.record .verified)
  return verified

/-- The `if` on `pinentry`, at the start. -/
def openPinentry (opts : Options) : EStateM Fault (Session (Launch Re)) Unit :=
  match opts.pinentry with
  | some program => withoutUser (startPinentry env program)
  | none => pure ⟨⟩

/-- The `if` on `no-signature`: `false` if the user cancelled. -/
def authorise (opts : Options) : EStateM Fault (Session (Launch Re)) Bool := do
  if opts.noSignature = true then
    withoutUser (modify fun l =>
      { l with config := l.config.dismissSignature.removePassword })
    return true
  else
    if opts.pinentry = none then withoutUser (startPinentry env "pinentry".toList)
    askUntil "Enter the configuration file signing key.".toList "key: ".toList
      "Incorrect key, or the configuration has been changed.".toList (verifyKey lib env)

/-- `std::make_unique<Parser>(path)`. -/
def makeParser (path : Str) : EStateM Fault (Launch Re) Parser := do
  modify (Launch.record (.definitions path))
  match Parser.load lib.toJsonCpp env.files path with
  | .ok parser => return parser
  | .error f => throw f

theorem ends_makeParser {path : Str} {l : Launch Re} {Q : Parser → Launch Re → Prop}
    {R : Fault → Launch Re → Prop} :
    Ends (makeParser lib env path) l Q R ↔
      match Parser.load lib.toJsonCpp env.files path with
      | .ok parser => Q parser (l.record (.definitions path))
      | .error f => R f (l.record (.definitions path)) := by
  rw [makeParser, ends_bind, ends_modify]
  cases Parser.load lib.toJsonCpp env.files path with
  | ok parser => rfl
  | error f => rfl

/-- What is left once the configuration may be used. -/
def makeTracer (opts : Options) : EStateM Fault (Launch Re) (Parser × FileConfig Re) := do
  let config := (← get).config
  if opts.pinentry = none then startPinentry env config.pinentry
  let parser ← makeParser lib env config.syscalldef
  return (parser, config)

/-- `run` from where the configuration was read, up to `tracer.run`: the parser and the
configuration that the tracer is given, or `none` if `EXIT_FAILURE` is returned. -/
def launch (opts : Options) :
    EStateM Fault (Session (Launch Re)) (Option (Parser × FileConfig Re)) := do
  openPinentry env opts
  let authorised ← authorise lib env opts
  if authorised = false then return none
  let tracer ← withoutUser (makeTracer lib env opts)
  return some tracer

/-- `run`, up to `tracer.run`. -/
def run (opts : Options) (user : User) :
    Except Fault
      (EStateM.Result Fault (Session (Launch Re)) (Option (Parser × FileConfig Re))) := do
  let config ← FileConfig.read lib env.files opts.config
  return (launch lib env opts).run { inner := { config := config, log := [] }, user := user }

end GravelBox
