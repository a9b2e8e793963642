/-
# The tracing loop of `run_with_callbacks`

The loop (`trace/tracer.cpp`, lines 89 to 171) waits for any child, keeps one `ThreadStatus` per
tracee in a table, and answers each stop with a few `ptrace` requests.  A run of the loop is driven
by the events `waitpid` reports; an `Event` also carries what the kernel would answer to the
requests made while the stop is handled (the syscall info, the registers, the memory, and when the
tracee dies).

`handleStop` is the body of the `try` block and `body` one turn of the `while` loop.  The order of
requests and writes to the table is that of the source, since a request that fails leaves whatever
was written before it: an entry that was set before the tracee died stays set.

The callbacks are a parameter, with a state of their own.  They cannot reach the table, and the
loop cannot reach their state; but both are called in the middle of a handling, and may throw
there, so they are programs over their state and the world of the stop.

The requests and the calls of callbacks are written down in the order in which they are made.  That
record is not in the source.  It is what "the callback was asked once" and "no register was
written" are statements about.

Not modelled: the options that are set before the loop, which are in what the kernel can report
(`Trace/Kernel.lean`), and a `waitpid` that fails, which throws before there is an event.
-/
import GravelBox.Trace.World
import Mathlib.Data.List.AList

namespace GravelBox

/-! ## 1. What the kernel reports -/

/-- `wstatus`, through the macros the loop reads it with. -/
inductive WaitStatus
  | exited (code : Nat)
  | signaled (sig : Nat)
  | stopped (sig : Nat)
  deriving DecidableEq, Repr

def SIGKILL : Nat := 9
def SIGSTOP : Nat := 19
def SIGTRAP : Nat := 5

/-- `SIGTRAP | 0x80`: a syscall stop under `PTRACE_O_TRACESYSGOOD`. -/
def SIGTRAP_SYSGOOD : Nat := SIGTRAP ||| 0x80

/-- `info.op` of `PTRACE_GET_SYSCALL_INFO`. -/
inductive SyscallOp
  | none
  | entry
  | exit
  deriving DecidableEq, Repr

def AUDIT_ARCH_I386 : BitVec 32 := 0x40000003
def AUDIT_ARCH_X86_64 : BitVec 32 := 0xC000003E

/-- The fields of `ptrace_syscall_info` the loop reads. -/
structure SyscallInfo where
  op : SyscallOp
  arch : BitVec 32
  nr : BitVec 64
  args : Fin 6 → BitVec 64

/-- `user_regs_struct`. -/
structure UserRegs where
  r15 : BitVec 64
  r14 : BitVec 64
  r13 : BitVec 64
  r12 : BitVec 64
  rbp : BitVec 64
  rbx : BitVec 64
  r11 : BitVec 64
  r10 : BitVec 64
  r9 : BitVec 64
  r8 : BitVec 64
  rax : BitVec 64
  rcx : BitVec 64
  rdx : BitVec 64
  rsi : BitVec 64
  rdi : BitVec 64
  orig_rax : BitVec 64
  rip : BitVec 64
  cs : BitVec 64
  eflags : BitVec 64
  rsp : BitVec 64
  ss : BitVec 64
  fs_base : BitVec 64
  gs_base : BitVec 64
  ds : BitVec 64
  es : BitVec 64
  fs : BitVec 64
  gs : BitVec 64
  deriving DecidableEq

/-- One `waitpid` report, with what the kernel answers while it is handled. -/
structure Event where
  child : Tid
  wstatus : WaitStatus
  info : SyscallInfo
  regs : UserRegs
  mem : Tid → Memory
  life : Option Nat

/-! ## 2. The state of the loop -/

/-- `enum class ThreadStatus`. -/
inductive ThreadStatus
  | userspace
  | kernelspaceAllow
  | kernelspaceDeny
  deriving DecidableEq, Repr

/-- `std::unordered_map<pid_t, ThreadStatus>`. -/
abbrev ThreadTable := AList (fun _ : Tid => ThreadStatus)

/-- What survives from one turn of the loop to the next: the table, and the state `σ` the
callbacks keep. -/
structure Loop (σ : Type) where
  threadStatus : ThreadTable
  user : σ

/-- `pid_callback` and `syscall_callback`.  They have a state of their own and may read the
memory of the target; they cannot reach the table. -/
structure Callbacks (σ : Type) where
  pidCallback : Tid → EStateM Fault (σ × World) Unit
  syscallCallback : SyscallArgs → EStateM Fault (σ × World) Bool

/-- The requests and callbacks made while a stop is handled. -/
inductive Call
  | getSyscallInfo (child : Tid)
  | pidCallback (child : Tid)
  | syscallCallback (args : SyscallArgs)
  | answer (b : Bool)
  | getRegs (child : Tid)
  | setRegs (child : Tid) (regs : UserRegs)
  | syscall (child : Tid) (sig : Nat)

/-- The state while a stop is handled. -/
structure Handling (σ : Type) where
  threadStatus : ThreadTable
  user : σ
  world : World
  info : SyscallInfo
  regs : UserRegs
  /-- The calls made so far, in order. -/
  calls : List Call
  /-- The signal `PTRACE_SYSCALL` resumed the tracee with, once it has. -/
  resumed : Option Nat

/-- Where the handling of `e` starts. -/
def Handling.start {σ : Type} (s : Loop σ) (e : Event) : Handling σ :=
  { threadStatus := s.threadStatus, user := s.user,
    world := ⟨e.mem, e.child, e.life⟩, info := e.info, regs := e.regs, calls := [],
    resumed := none }

variable {σ : Type}

/-- The callback was asked, and this was its answer. -/
def Handling.answered (h : Handling σ) (b : Bool) : Bool :=
  h.calls.any fun c => match c with
    | .answer b' => b' == b
    | _ => false

/-- Programs that handle a stop. -/
abbrev Handler (σ α : Type) := EStateM Fault (Handling σ) α

/-! ## 3. Requests -/

/-- Note the call, then make the request: `check(::ptrace(..))`. -/
def issue (c : Call) : Handler σ Unit := do
  modify fun h => { h with calls := h.calls ++ [c] }
  Stateful.zoom Handling.world (fun h w => { h with world := w }) request

/-- `thread_status[child] = st`. -/
def setStatus (child : Tid) (st : ThreadStatus) : Handler σ Unit :=
  modify fun h => { h with threadStatus := h.threadStatus.insert child st }

/-- Run a callback: it sees its own state and the world. -/
def callback {α : Type} (x : EStateM Fault (σ × World) α) : Handler σ α :=
  Stateful.zoom (fun h => (h.user, h.world)) (fun h p => { h with user := p.1, world := p.2 }) x

def ptraceGetSyscallInfo (child : Tid) : Handler σ SyscallInfo := do
  issue (.getSyscallInfo child)
  return (← get).info

def ptraceGetRegs (child : Tid) : Handler σ UserRegs := do
  issue (.getRegs child)
  return (← get).regs

def ptraceSetRegs (child : Tid) (regs : UserRegs) : Handler σ Unit := do
  issue (.setRegs child regs)
  modify fun h => { h with regs := regs }

def ptraceSyscall (child : Tid) (sig : Nat) : Handler σ Unit := do
  issue (.syscall child sig)
  modify fun h => { h with resumed := some sig }

/-- `assert`, which a build with `NDEBUG` leaves out. -/
def cAssert (ndebug : Bool) (p : Prop) [Decidable p] : Handler σ Unit :=
  if ndebug = false ∧ ¬ p then throw .assertion else pure ()

/-! ## 4. The body of the loop -/

/-- The `SyscallArgs` made of `info.entry`. -/
def SyscallInfo.toArgs (info : SyscallInfo) : SyscallArgs :=
  { number := info.nr, args := info.args, int80 := info.arch == AUDIT_ARCH_I386 }

/-- Case `USERSPACE`: syscall-enter-stop. -/
def syscallEnterStop (cb : Callbacks σ) (ndebug : Bool) (child : Tid) : Handler σ Unit := do
  let info ← ptraceGetSyscallInfo child
  cAssert ndebug (info.op = .entry)
  cAssert ndebug (info.arch = AUDIT_ARCH_I386 ∨ info.arch = AUDIT_ARCH_X86_64)
  modify fun h => { h with calls := h.calls ++ [.pidCallback child] }
  callback (cb.pidCallback child)
  modify fun h => { h with calls := h.calls ++ [.syscallCallback info.toArgs] }
  let allowed ← callback (cb.syscallCallback info.toArgs)
  modify fun h => { h with calls := h.calls ++ [.answer allowed] }
  if allowed then
    setStatus child .kernelspaceAllow
  else do
    let regs ← ptraceGetRegs child
    ptraceSetRegs child { regs with orig_rax := -1 }
    setStatus child .kernelspaceDeny

/-- Case `KERNELSPACE_DENY`, up to its fall-through: syscall-exit-stop. -/
def deniedExitStop (child : Tid) : Handler σ Unit := do
  let regs ← ptraceGetRegs child
  ptraceSetRegs child { regs with rax := -(BitVec.ofNat 64 EPERM) }

/-- The `switch` on the stop signal. -/
def dispatchStop (cb : Callbacks σ) (ndebug : Bool) (child : Tid) (stopsig : Nat) :
    Handler σ Unit := do
  let h ← get
  if stopsig = SIGSTOP then
    if h.threadStatus.lookup child = none then setStatus child .userspace
  else if stopsig = SIGTRAP_SYSGOOD then
    match h.threadStatus.lookup child with
    | none => throw .outOfRange
    | some .userspace => syscallEnterStop cb ndebug child
    | some .kernelspaceDeny => do
      deniedExitStop child
      setStatus child .userspace
    | some .kernelspaceAllow => setStatus child .userspace

/-- What the `try` block does with a stop. -/
def handleStop (cb : Callbacks σ) (ndebug : Bool) (child : Tid) (stopsig : Nat) :
    Handler σ Unit := do
  dispatchStop cb ndebug child stopsig
  ptraceSyscall child 0

/-- How a turn of the loop ends. -/
inductive Outcome (σ : Type)
  /-- `waitpid` is called again. -/
  | next (s : Loop σ)
  /-- `run_with_callbacks` returned. -/
  | returned (code : Nat) (s : Loop σ)
  /-- An exception left it. -/
  | threw (f : Fault) (s : Loop σ)

/-- The exit code reported for the last tracee, consistent with bash. -/
def WaitStatus.code : WaitStatus → Nat
  | .exited code => code
  | .signaled sig => 128 + sig
  | .stopped _ => 0

/-- `WIFEXITED(wstatus) || WIFSIGNALED(wstatus)`. -/
def WaitStatus.isExit : WaitStatus → Bool
  | .stopped _ => false
  | _ => true

/-- A report is of a stop or of an exit. -/
theorem WaitStatus.stopped_or_isExit (w : WaitStatus) :
    (∃ stopsig, w = .stopped stopsig) ∨ w.isExit := by
  cases w with
  | stopped stopsig => exact Or.inl ⟨stopsig, rfl⟩
  | exited | signaled => exact Or.inr rfl

/-- The turn of the loop that an exit notification takes. -/
def exitTurn (e : Event) (s : Loop σ) : Outcome σ :=
  let s' := { s with threadStatus := s.threadStatus.erase e.child }
  if s'.threadStatus.entries.length = 0 then .returned e.wstatus.code s' else .next s'

/-- The `try` block run on a stop. -/
def handled (cb : Callbacks σ) (ndebug : Bool) (e : Event) (stopsig : Nat) (s : Loop σ) :
    EStateM.Result Fault (Handling σ) Unit :=
  (handleStop cb ndebug e.child stopsig).run (Handling.start s e)

/-- What is left of a handling for the next turn. -/
def Handling.loop (h : Handling σ) : Loop σ := ⟨h.threadStatus, h.user⟩

/-- The `catch` clause: `ESRCH` means the tracee died during the stop. -/
def catchTurn : EStateM.Result Fault (Handling σ) Unit → Outcome σ
  | .ok () h => .next h.loop
  | .error (.systemError code) h =>
    if code = ESRCH then .next h.loop else .threw (.systemError code) h.loop
  | .error f h => .threw f h.loop

/-- One turn of the `while` loop. -/
def body (cb : Callbacks σ) (ndebug : Bool) (e : Event) (s : Loop σ) : Outcome σ :=
  match e.wstatus with
  | .stopped stopsig => catchTurn (handled cb ndebug e stopsig s)
  | _ => exitTurn e s

/-- The table the loop starts with. -/
def initialTable (child : Tid) : ThreadTable :=
  (∅ : ThreadTable).insert child .userspace

theorem lookup_initialTable (child t : Tid) :
    (initialTable child).lookup t = if t = child then some .userspace else none := by
  unfold initialTable
  rcases eq_or_ne t child with rfl | h
  · rw [AList.lookup_insert, if_pos rfl]
  · rw [AList.lookup_insert_ne h, AList.lookup_empty, if_neg h]

end GravelBox
