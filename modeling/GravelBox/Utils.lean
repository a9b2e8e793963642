/-
# What every part of GravelBox shares: strings, faults, the arguments of a system call

`utils.h` (lines 22 to 51) has the translation of `errno` to exceptions and `SyscallArgs`, and
`exceptions.h` the exceptions of the program itself.

A `std::string` is the list of its characters, a `Char` standing for one C++ `char`.  A
`Fault` is whatever can leave a function other than by returning: the exceptions the source
throws, an `assert` that does not hold, and `std::terminate`, which no handler sees.  There is
one more that is no exception at all: a function that waits for something that cannot come
(`blocked`) does not return either, and no handler and no destructor runs after it.

The faults are told apart because the source tells them apart.  The loop of the tracer goes on
after an `ESRCH` and after nothing else (`Recovers`), `main` has handlers for three of the
exceptions, and a `noexcept` function makes all of them `terminate`.  Each keeps the data that
its handlers read: the number of a `std::system_error`, the text of a `PinentryException`, the
three texts that a `ConfigException` is made of.

Not modelled: how the texts are put together for the reader (`ConfigException::what`), and the
exceptions that mean that the memory has run out.
-/
import GravelBox.Lib.Stateful

namespace GravelBox

/-- `std::string`. -/
abbrev Str := List Char

/-- `pid_t`, used for processes and threads alike. -/
abbrev Tid := Nat

/-! ## 1. `errno` values the source compares with -/

def EPERM : Nat := 1
def ESRCH : Nat := 3
def EFAULT : Nat := 14

/-! ## 2. Faults -/

/-- Everything that can become of a function instead of a value. -/
inductive Fault
  /-- `std::system_error`, with its code. -/
  | systemError (code : Nat)
  /-- `std::out_of_range`, from `unordered_map::at`. -/
  | outOfRange
  /-- `ConfigException`: path, type and details. -/
  | configException (path type details : Str)
  /-- `Json::Exception`. -/
  | jsonException (what : Str)
  /-- `std::regex_error`. -/
  | regexError (what : Str)
  /-- `PinentryException`. -/
  | pinentryException (msg : Str)
  /-- A read past the end of an array. -/
  | outOfBounds
  /-- An `assert` that does not hold, in a build that has them. -/
  | assertion
  /-- `std::terminate`, which ends the process. -/
  | terminate
  /-- No end at all: a read that waits for ever.  No handler is reached from here. -/
  | blocked
  deriving DecidableEq, Repr

/-- `std::ios_base::failure` is a `system_error` with code `io_errc::stream`. -/
def Fault.iosFailure : Fault := .systemError 1

/-- What becomes of a fault at the edge of a `noexcept` function: an exception does not get
out of it. -/
def Fault.inNoexcept : Fault → Fault
  | .assertion => .assertion
  | .outOfBounds => .outOfBounds
  | .blocked => .blocked
  | _ => .terminate

/-- A `noexcept` function. -/
def noexcept {S α : Type} (x : EStateM Fault S α) : EStateM Fault S α :=
  Stateful.mapError Fault.inNoexcept x

/-! ## 3. The start of a number -/

/-- `std::isspace` in the C locale. -/
def isspace (c : Char) : Bool := c = ' ' || (9 ≤ c.toNat && c.toNat ≤ 13)

/-- Skip the sign of a number, if it has one, and say whether it is a minus. -/
def takeSign : Str → Bool × Str
  | '-' :: s => (true, s)
  | '+' :: s => (false, s)
  | s => (false, s)

/-! ## 4. `Utils::SyscallArgs` -/

/-- System call registers. -/
structure SyscallArgs where
  number : BitVec 64
  args : Fin 6 → BitVec 64
  int80 : Bool

end GravelBox
