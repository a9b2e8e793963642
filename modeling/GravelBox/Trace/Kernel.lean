/-
# The kernel under `ptrace`, and the tracer running on it

The kernel side follows ptrace(2) for the options the tracer sets (`trace/tracer.cpp`, lines 76 to
84: `TRACESYSGOOD`, `TRACECLONE`, `TRACEFORK`, `TRACEVFORK`, no `TRACEEXEC`):

* a tracee alternates syscall-enter-stops and syscall-exit-stops;
* a process or thread that a tracee creates is attached from its creation; its first stop is a
  `SIGSTOP` with no syscall stop in progress, reported whenever `waitpid` gets to it;
* any thread can be killed at any time, also while its stop is being handled;
* a thread other than the leader that completes `execve` goes on under the tid of the leader: its
  own tid vanishes with no exit notification, and the leader's death is not reported;
* the exit of a leader is not reported before the rest of its thread group is gone.

A state `Sys` is the kernel together with the loop.  A `Move` is one step of the whole: the
kernel does something on its own, or `waitpid` reports an event and the loop handles it.  In
between anything may happen that is enabled, so a statement about every run is one about every
interleaving and every order of reports.

The last two items of the list are where the difficulty comes from.  The tracer has no option set
that would tell it of an `execve`, so what its table says of a tid can be about another thread than
the one that has the tid now.

Not modelled: stops for job control, tracees that are resumed by anybody else, and memory that is
shared between tracees; each event brings the memory it is handled with.
-/
import GravelBox.Trace.Handling
import GravelBox.Lib.Runs

namespace GravelBox

open Stateful Runs

/-! ## 1. Threads -/

/-- Which syscall stop comes next. -/
inductive Turn
  | enter
  | exit
  deriving DecidableEq, Repr

def Turn.flip : Turn → Turn
  | .enter => .exit
  | .exit => .enter

/-- What `PTRACE_GET_SYSCALL_INFO` reports at the stop. -/
def Turn.op : Turn → SyscallOp
  | .enter => .entry
  | .exit => .exit

/-- An attached thread. -/
structure Thread where
  tgid : Tid
  /-- How it ended, once it has; its exit notification is still to be reported. -/
  dead : Option WaitStatus
  /-- Its first stop has been reported. -/
  started : Bool
  next : Turn
  /-- Its last reported stop was handled without resuming it. -/
  held : Bool
  /-- The kernel carries out the call it is in. -/
  executing : Bool
  /-- The callback was asked about the call it is in, and allowed it. -/
  approved : Bool
  /-- The `SIGTRAP` that `ptrace` adds after `execve` is pending. -/
  trap : Bool
  deriving DecidableEq, Repr

/-- It can run: alive, past its first stop and not held in a stop. -/
def Thread.runs (th : Thread) : Prop := th.dead = none ∧ th.started = true ∧ th.held = false

/-- The kernel carries out a system call of it. -/
def Thread.inCall (th : Thread) : Prop :=
  th.runs ∧ th.next = .exit ∧ th.executing = true

/-- A thread as it is created, attached and about to stop with `SIGSTOP`. -/
def Thread.fresh (tgid : Tid) : Thread :=
  { tgid := tgid, dead := none, started := false, next := .enter, held := false,
    executing := false, approved := false, trap := false }

/-- The attached threads, those included whose exit has not been reported yet. -/
abbrev Kernel := Tid → Option Thread

/-! ## 2. What `waitpid` can report -/

/-- Why a thread stopped or went. -/
inductive Cause
  /-- The exit notification of an attached thread. -/
  | exit
  /-- The exit notification of another child of GravelBox, such as pinentry. -/
  | other
  /-- The first stop of a new tracee. -/
  | attach
  | syscall
  /-- A signal-delivery-stop. -/
  | signal (sig : Nat)
  /-- The `SIGTRAP` that `ptrace` adds after `execve`. -/
  | execTrap
  /-- A `PTRACE_EVENT` stop of `clone`, `fork` or `vfork`. -/
  | event
  deriving DecidableEq, Repr

/-- `waitpid` may report `e`, for the cause given. -/
inductive Reports (others : Tid → Prop) (k : Kernel) (e : Event) : Cause → Prop
  | exit {th : Thread} (hth : k e.child = some th) (hdead : th.dead = some e.wstatus)
      (hexit : e.wstatus.isExit)
      (hlast : th.tgid = e.child → ∀ u, u ≠ e.child → ∀ th', k u = some th' → th'.tgid ≠ e.child) :
      Reports others k e .exit
  | other (hother : others e.child) (hexit : e.wstatus.isExit) : Reports others k e .other
  | attach {th : Thread} (hth : k e.child = some th) (halive : th.dead = none)
      (hnew : th.started = false) (hheld : th.held = false) (hnext : th.next = .enter)
      (hstatus : e.wstatus = .stopped SIGSTOP) : Reports others k e .attach
  | syscall {th : Thread} (hth : k e.child = some th) (hruns : th.runs)
      (hop : e.info.op = th.next.op)
      (harch : e.info.arch = AUDIT_ARCH_I386 ∨ e.info.arch = AUDIT_ARCH_X86_64)
      (hstatus : e.wstatus = .stopped SIGTRAP_SYSGOOD) : Reports others k e .syscall
  | signal {th : Thread} {sig : Nat} (hth : k e.child = some th) (hruns : th.runs)
      (hsig : 1 ≤ sig ∧ sig ≤ 64 ∧ sig ≠ SIGKILL) (hstatus : e.wstatus = .stopped sig) :
      Reports others k e (.signal sig)
  | execTrap {th : Thread} (hth : k e.child = some th) (hruns : th.runs) (htrap : th.trap = true)
      (hstatus : e.wstatus = .stopped SIGTRAP) : Reports others k e .execTrap
  | event {th : Thread} (hth : k e.child = some th) (hcall : th.inCall)
      (hstatus : e.wstatus = .stopped SIGTRAP) : Reports others k e .event

/-- Exactly the syscall stops are reported as `SIGTRAP | 0x80`. -/
theorem Reports.sysgood_iff {others : Tid → Prop} {k : Kernel} {e : Event} {cause : Cause}
    {stopsig : Nat} (hr : Reports others k e cause) (hs : e.wstatus = .stopped stopsig) :
    stopsig = SIGTRAP_SYSGOOD ↔ cause = .syscall := by
  cases hr with
  | exit _ _ hexit | other _ hexit => rw [hs] at hexit; cases hexit
  | attach _ _ _ _ _ hstatus | execTrap _ _ _ hstatus | event _ _ hstatus
  | syscall _ _ _ _ hstatus =>
    rw [hs, WaitStatus.stopped.injEq] at hstatus
    subst hstatus
    decide
  | @signal _ sig _ _ hsig hstatus =>
    rw [hs, WaitStatus.stopped.injEq] at hstatus
    subst hstatus
    have : SIGTRAP_SYSGOOD = 133 := rfl
    simp only [reduceCtorEq, iff_false]
    omega

/-- A stop is reported of an attached thread that is alive and not held; it is the thread's
first stop, with no call in progress, or the thread is started. -/
theorem Reports.stopped {others : Tid → Prop} {k : Kernel} {e : Event} {cause : Cause}
    {stopsig : Nat} (hr : Reports others k e cause) (hs : e.wstatus = .stopped stopsig) :
    ∃ th, k e.child = some th ∧ th.dead = none ∧ th.held = false ∧
      (cause = .attach ∧ th.next = .enter ∧ stopsig = SIGSTOP ∨ th.started = true) := by
  cases hr with
  | exit _ _ hexit | other _ hexit => rw [hs] at hexit; cases hexit
  | attach hth halive _ hheld hnext hstatus =>
    rw [hs, WaitStatus.stopped.injEq] at hstatus
    exact ⟨_, hth, halive, hheld, Or.inl ⟨rfl, hnext, hstatus⟩⟩
  | syscall hth hruns | signal hth hruns | execTrap hth hruns =>
    exact ⟨_, hth, hruns.1, hruns.2.2, Or.inr hruns.2.1⟩
  | event hth hcall => exact ⟨_, hth, hcall.1.1, hcall.1.2.2, Or.inr hcall.1.2.1⟩

/-- An exit is reported of an attached thread or of another child. -/
theorem Reports.of_isExit {others : Tid → Prop} {k : Kernel} {e : Event} {cause : Cause}
    (hr : Reports others k e cause) (hexit : e.wstatus.isExit) :
    cause = .exit ∨ (cause = .other ∧ others e.child) := by
  cases hr with
  | exit => exact Or.inl rfl
  | other hother => exact Or.inr ⟨rfl, hother⟩
  | attach _ _ _ _ _ hstatus | syscall _ _ _ _ hstatus | signal _ _ _ hstatus
  | execTrap _ _ _ hstatus | event _ _ hstatus =>
    rw [hstatus] at hexit
    cases hexit

variable {σ : Type}

/-- The thread after a stop of it was reported and handled. -/
def Thread.afterStop (th : Thread) (cause : Cause) (h : Handling σ) : Thread :=
  { th with
    dead := if h.world.dead then some (.signaled SIGKILL) else none
    started := true
    next := if cause = .syscall then th.next.flip else th.next
    held := h.resumed.isNone
    -- the kernel looks at the number it finds when the thread is resumed from an enter stop
    executing := if cause = .syscall then
        decide (th.next = .enter) && decide (h.regs.orig_rax ≠ -1) && h.resumed.isSome
      else th.executing
    approved := if cause = .syscall then
        decide (th.next = .enter) && h.answered true
      else th.approved
    trap := if cause = .execTrap then false else th.trap }

/-- The state a handling ends in, however it ends. -/
def endState : EStateM.Result Fault (Handling σ) Unit → Handling σ
  | .ok _ h => h
  | .error _ h => h

/-! ## 3. The whole system -/

/-- Where `run_with_callbacks` is. -/
inductive Status
  | running
  | returned (code : Nat)
  | threw (f : Fault)
  deriving DecidableEq, Repr

/-- The kernel and the loop. -/
structure Sys (σ : Type) where
  kern : Kernel
  loop : Loop σ
  status : Status
  /-- The tids that vanished in an `execve` and have had no exit notification since. -/
  vanished : Tid → Bool
  /-- The signals, in order, the kernel was delivering to each thread when it was resumed. -/
  due : Tid → List Nat
  /-- The signals each thread was resumed with. -/
  got : Tid → List Nat

inductive Move
  /-- The tracee `c` creates `t`, as a thread of its own group or as a process. -/
  | create (c t : Tid) (thread : Bool)
  | die (t : Tid) (st : WaitStatus)
  /-- `t` completes `execve`. -/
  | execve (t : Tid)
  | report (cause : Cause) (e : Event)

/-- `t` may complete `execve`: the leader of its thread group has been running, and the rest
of the group is dead or gone. -/
def Kernel.MayExec (k : Kernel) (t : Tid) (th : Thread) : Prop :=
  k t = some th ∧ th.inCall ∧ (∃ l, k th.tgid = some l ∧ l.started = true) ∧
    ∀ u thu, u ≠ t → u ≠ th.tgid → k u = some thu → thu.tgid = th.tgid → thu.dead ≠ none

/-- The move can be made. -/
def Enabled (others : Tid → Prop) (s : Sys σ) : Move → Prop
  | .create c t _ => (∃ th, s.kern c = some th ∧ th.inCall) ∧ s.kern t = none ∧ ¬ others t
  | .die t st => (∃ th, s.kern t = some th ∧ th.dead = none) ∧ st.isExit
  | .execve t => ∃ th, s.kern.MayExec t th
  | .report cause e => Reports others s.kern e cause

/-- The kernel after `t`, whose record is `th`, completed `execve`: what was `t` is now the
leader. -/
def Kernel.execve (k : Kernel) (t : Tid) (th : Thread) : Kernel :=
  Function.update (Function.update k t none) th.tgid (some { th with trap := true })

/-- The signal a stop of this cause was about to deliver to the program. -/
def Cause.delivers : Cause → List Nat
  | .signal sig => [sig]
  | _ => []

/-- The signal given to `PTRACE_SYSCALL` is delivered if the stop was a signal-delivery-stop,
which the attach `SIGSTOP` and the `SIGTRAP` of `execve` are too. -/
def Cause.injects : Cause → Nat → List Nat
  | .signal _, sig | .attach, sig | .execTrap, sig => if sig = 0 then [] else [sig]
  | _, _ => []

def Outcome.loop : Outcome σ → Loop σ
  | .next s | .returned _ s | .threw _ s => s

def Outcome.status : Outcome σ → Status
  | .next _ => .running
  | .returned code _ => .returned code
  | .threw f _ => .threw f

/-- What the move leads to. -/
def Sys.after (cb : Callbacks σ) (ndebug : Bool) (s : Sys σ) : Move → Sys σ
  | .create c t thread =>
    let tgid := if thread then ((s.kern c).elim t Thread.tgid) else t
    { s with kern := Function.update s.kern t (some (.fresh tgid)) }
  | .die t st =>
    { s with
      kern := Function.update s.kern t ((s.kern t).map fun th => { th with dead := some st }) }
  | .execve t =>
    match s.kern t with
    | none => s
    | some th =>
      { s with
        kern := s.kern.execve t th
        vanished := if t = th.tgid then s.vanished else Function.update s.vanished t true }
  | .report cause e =>
    let o := body cb ndebug e s.loop
    match e.wstatus with
    | .stopped stopsig =>
      let h := endState (handled cb ndebug e stopsig s.loop)
      let resumed := h.resumed.isSome
      { s with
        kern := Function.update s.kern e.child
          ((s.kern e.child).map fun th => th.afterStop cause h)
        loop := o.loop
        status := o.status
        due := if resumed then
          Function.update s.due e.child (s.due e.child ++ cause.delivers) else s.due
        got := Function.update s.got e.child
          (s.got e.child ++ h.resumed.elim [] cause.injects) }
    | _ =>
      { s with
        kern := Function.update s.kern e.child none
        loop := o.loop
        status := o.status
        vanished := Function.update s.vanished e.child false }

/-- One step of the whole system. -/
def Step (cb : Callbacks σ) (ndebug : Bool) (others : Tid → Prop) (s : Sys σ) (m : Move)
    (s' : Sys σ) : Prop :=
  s.status = .running ∧ Enabled others s m ∧ s' = s.after cb ndebug m

/-- The loop as it is entered: the spawned child is resumed and about to enter a call. -/
def Sys.init (child : Tid) (u : σ) : Sys σ :=
  { kern := Function.update (fun _ => none) child (some { Thread.fresh child with started := true })
    loop := ⟨initialTable child, u⟩
    status := .running
    vanished := fun _ => false
    due := fun _ => []
    got := fun _ => [] }

/-! ## 4. Events with nothing in particular in them

For the examples: a stop or an exit whose registers are zero apart from the call number, with
no memory mapped, of a tracee that outlives the handling. -/

def UserRegs.zero : UserRegs :=
  ⟨0, 0, 0, 0, 0, 0, 0, 0, 0, 0, 0, 0, 0, 0, 0, 0, 0, 0, 0, 0, 0, 0, 0, 0, 0, 0, 0⟩

def Memory.unmapped : Memory := ⟨fun _ => false, fun _ => 0⟩

def Event.plain (child : Tid) (wstatus : WaitStatus) (op : SyscallOp) (nr : BitVec 64) : Event :=
  { child := child, wstatus := wstatus, info := ⟨op, AUDIT_ARCH_X86_64, nr, fun _ => 0⟩,
    regs := { UserRegs.zero with orig_rax := nr }, mem := fun _ => .unmapped, life := none }

/-- Allow every call. -/
def allowAll : Callbacks Unit :=
  { pidCallback := fun _ => pure (), syscallCallback := fun _ => pure true }

/-- Allow every call but `openat`. -/
def allButOpenat : Callbacks Unit :=
  { pidCallback := fun _ => pure (), syscallCallback := fun args => pure (args.number != 257) }

/-- A syscall stop of call `nr`. -/
abbrev Move.call (child : Tid) (turn : Turn) (nr : BitVec 64) : Move :=
  .report .syscall (.plain child (.stopped SIGTRAP_SYSGOOD) turn.op nr)

/-- The first stop of a new tracee. -/
abbrev Move.attach (child : Tid) : Move :=
  .report .attach (.plain child (.stopped SIGSTOP) .none 0)

/-- The exit notification of a tracee that exited with `code`. -/
abbrev Move.gone (child : Tid) (code : Nat) : Move :=
  .report .exit (.plain child (.exited code) .none 0)

theorem enabled_call {others : Tid → Prop} {s : Sys σ} {th : Thread} (child : Tid)
    (turn : Turn) (nr : BitVec 64) (hth : s.kern child = some th) (hruns : th.runs)
    (hturn : th.next = turn) : Enabled others s (.call child turn nr) :=
  .syscall hth hruns (by rw [hturn]; rfl) (Or.inr rfl) rfl

theorem enabled_attach {others : Tid → Prop} {s : Sys σ} (child tgid : Tid)
    (hth : s.kern child = some (.fresh tgid)) : Enabled others s (.attach child) :=
  .attach hth rfl rfl rfl rfl rfl

/-- A run goes on with one more move. -/
theorem run_move {cb : Callbacks σ} {ndebug : Bool} {others : Tid → Prop} {s₀ s : Sys σ}
    {tr : List (Sys σ × Move)} (h : Run (Step cb ndebug others) s₀ tr s) (m : Move)
    (hst : s.status = .running) (hen : Enabled others s m) :
    Run (Step cb ndebug others) s₀ (tr ++ [(s, m)]) (s.after cb ndebug m) :=
  h.snoc ⟨hst, hen, rfl⟩

/-! ## 5. What a report does to the state -/

section After

variable {cb : Callbacks σ} {ndebug : Bool} {others : Tid → Prop} {s : Sys σ} {cause : Cause}
  {e : Event} {stopsig : Nat}

theorem body_of_stopped {l : Loop σ} (hs : e.wstatus = .stopped stopsig) :
    body cb ndebug e l = catchTurn (handled cb ndebug e stopsig l) := by
  simp only [body, hs]

theorem body_of_isExit {l : Loop σ} (hs : e.wstatus.isExit) :
    body cb ndebug e l = exitTurn e l := by
  unfold body
  split
  · rename_i hw
    rw [hw] at hs
    cases hs
  · rfl

/-- However the handling of a stop ends, the loop keeps its table and user state. -/
theorem body_stop_loop {l : Loop σ} (hs : e.wstatus = .stopped stopsig) :
    (body cb ndebug e l).loop = (endState (handled cb ndebug e stopsig l)).loop := by
  rw [body_of_stopped hs]
  generalize handled cb ndebug e stopsig l = r
  cases r with
  | ok _ h => rfl
  | error f h =>
    cases f with
    | systemError code =>
      simp only [catchTurn, endState]
      split <;> rfl
    | _ => rfl

theorem exitTurn_loop (l : Loop σ) :
    (exitTurn e l).loop = { l with threadStatus := l.threadStatus.erase e.child } := by
  simp only [exitTurn]
  split <;> rfl

theorem exitTurn_status (l : Loop σ) :
    (exitTurn e l).status = if (l.threadStatus.erase e.child).entries.length = 0 then
      .returned e.wstatus.code else .running := by
  simp only [exitTurn]
  split <;> rfl

theorem body_exit_loop {l : Loop σ} (hs : e.wstatus.isExit) :
    (body cb ndebug e l).loop = { l with threadStatus := l.threadStatus.erase e.child } := by
  rw [body_of_isExit hs, exitTurn_loop]

theorem after_stop_kern (hs : e.wstatus = .stopped stopsig) :
    (s.after cb ndebug (.report cause e)).kern = Function.update s.kern e.child
      ((s.kern e.child).map fun th =>
        th.afterStop cause (endState (handled cb ndebug e stopsig s.loop))) := by
  simp only [Sys.after, hs]

theorem after_stop_loop (hs : e.wstatus = .stopped stopsig) :
    (s.after cb ndebug (.report cause e)).loop =
      (endState (handled cb ndebug e stopsig s.loop)).loop := by
  rw [← body_stop_loop hs]
  simp only [Sys.after, hs]

theorem after_stop_table (hs : e.wstatus = .stopped stopsig) :
    (s.after cb ndebug (.report cause e)).loop.threadStatus =
      (endState (handled cb ndebug e stopsig s.loop)).threadStatus := by
  rw [after_stop_loop hs]
  rfl

/-- An exit notification takes the tracee from the kernel's books. -/
theorem after_exit (hs : e.wstatus.isExit) :
    s.after cb ndebug (.report cause e) =
      { s with
        kern := Function.update s.kern e.child none
        loop := (exitTurn e s.loop).loop
        status := (exitTurn e s.loop).status
        vanished := Function.update s.vanished e.child false } := by
  rw [← body_of_isExit hs]
  simp only [Sys.after]
  split
  · rename_i hw
    rw [hw] at hs
    cases hs
  · rfl

theorem after_exit_kern (hs : e.wstatus.isExit) :
    (s.after cb ndebug (.report cause e)).kern = Function.update s.kern e.child none := by
  rw [after_exit hs]

theorem after_exit_loop (hs : e.wstatus.isExit) :
    (s.after cb ndebug (.report cause e)).loop =
      { s.loop with threadStatus := s.loop.threadStatus.erase e.child } := by
  rw [after_exit hs, exitTurn_loop]

theorem after_exit_status (hs : e.wstatus.isExit) :
    (s.after cb ndebug (.report cause e)).status =
      if (s.loop.threadStatus.erase e.child).entries.length = 0 then
        .returned e.wstatus.code else .running := by
  rw [after_exit hs, exitTurn_status]

theorem after_exit_vanished (hs : e.wstatus.isExit) :
    (s.after cb ndebug (.report cause e)).vanished = Function.update s.vanished e.child false := by
  rw [after_exit hs]

/-- A stop never makes the loop return. -/
theorem after_stop_status (hs : e.wstatus = .stopped stopsig) (code : Nat) :
    (s.after cb ndebug (.report cause e)).status ≠ .returned code := by
  simp only [Sys.after, body, hs]
  generalize handled cb ndebug e stopsig s.loop = r
  cases r with
  | ok _ h => simp [catchTurn, Outcome.status]
  | error f h =>
    cases f with
    | systemError c =>
      simp only [catchTurn]
      split <;> simp [Outcome.status]
    | _ => simp [catchTurn, Outcome.status]

/-- The handling of a stop leaves the entries of all other threads alone. -/
theorem endState_frame {l : Loop σ} {t : Tid} (ht : t ≠ e.child) :
    (endState (handled cb ndebug e stopsig l)).threadStatus.lookup t =
      l.threadStatus.lookup t := by
  cases hr : handled cb ndebug e stopsig l with
  | ok _ h => exact handled_frame (Or.inl hr) ht
  | error f h => exact handled_frame (Or.inr ⟨f, hr⟩) ht

end After

end GravelBox
