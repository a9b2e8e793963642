/-
# What the handling of a stop can do

One lemma for each piece of the loop body (`trace/tracer.cpp`, lines 99 to 170) says how it can
end: what it does to the table and the registers, which calls it makes, and in which state an
exception leaves it.  Everything later derives from `syscallEnterStop_spec`, `dispatchStop_spec`
and `handleStop_spec`; no other proof unfolds the body.

What has to be in these lemmas is decided by what can go wrong.  Each of four requests can find
the tracee dead, each of two assertions can fail, `thread_status.at` can miss, and both callbacks
can throw what they like.  An exception in the middle leaves the table and the registers in one of
a few states, which `Dispatched` and the cut cases list: whoever uses a lemma goes through a case
for each, instead of through the branches of the program.

Two facts about every handling are used throughout: one that is not cut short has resumed its
thread with signal 0 (`handled_ok_resumed`), and one that is cut short has not resumed it at all
(`handled_error_resumed`).  In both cases the entries of the other threads are as they were.

Only the callbacks are unknown.  The lemmas hold for all of them, and what a particular one does
comes in by the cases in which it answered or threw.

Not claimed here: anything about more than one stop; the phases of a thread are the subject of
`Trace/Effect.lean`, and runs with the kernel that of `Trace/Kernel.lean`.
-/
import GravelBox.Trace.Tracer

namespace GravelBox

open Stateful

variable {σ : Type}

/-! ## 1. Requests and callbacks -/

/-- The rule for a request on the stopped tracee. -/
theorem ends_issue {c : Call} {h : Handling σ} {Q : Unit → Handling σ → Prop}
    {R : Fault → Handling σ → Prop} :
    Ends (issue c) h Q R ↔
      (¬ h.world.dead → Q () { h with calls := h.calls ++ [c], world := h.world.tick }) ∧
      (h.world.dead → R (.systemError ESRCH) { h with calls := h.calls ++ [c] }) := by
  simp only [issue, ends_bind, ends_modify, ends_zoom, ends_request]

/-- The rule for a callback: it leaves the rest of the handling alone. -/
theorem ends_callback {α : Type} {x : EStateM Fault (σ × World) α} {h : Handling σ}
    {Q : α → Handling σ → Prop} {R : Fault → Handling σ → Prop} :
    Ends (callback x) h Q R ↔
      Ends x (h.user, h.world) (fun a p => Q a { h with user := p.1, world := p.2 })
        (fun e p => R e { h with user := p.1, world := p.2 }) := by
  simp only [callback, ends_zoom]

theorem ends_cAssert {ndebug : Bool} {p : Prop} [Decidable p] {h : Handling σ}
    {Q : Unit → Handling σ → Prop} {R : Fault → Handling σ → Prop}
    (hq : Q () h) (hr : R .assertion h) : Ends (cAssert ndebug p) h Q R := by
  unfold cAssert
  split
  · exact hr
  · exact hq

/-! ## 2. A syscall-enter-stop -/

/-- The calls up to the question. -/
def enterCalls (child : Tid) (info : SyscallInfo) : List Call :=
  [.getSyscallInfo child, .pidCallback child, .syscallCallback info.toArgs]

/-- The calls of an enter stop whose call is allowed, before it is resumed. -/
def allowedCalls (child : Tid) (info : SyscallInfo) : List Call :=
  enterCalls child info ++ [.answer true]

/-- The calls of an enter stop whose call is refused, before it is resumed. -/
def deniedCalls (child : Tid) (info : SyscallInfo) (regs : UserRegs) : List Call :=
  enterCalls child info ++
    [.answer false, .getRegs child, .setRegs child { regs with orig_rax := -1 }]

/-- How an enter stop ends when the callback allows the call: no register is touched. -/
structure EnterAllowed (child : Tid) (h h' : Handling σ) : Prop where
  calls : h'.calls = h.calls ++ allowedCalls child h.info
  regs : h'.regs = h.regs
  table : h'.threadStatus = h.threadStatus.insert child .kernelspaceAllow
  resumed : h'.resumed = h.resumed

/-- How it ends when the callback refuses the call: the number is replaced. -/
structure EnterDenied (child : Tid) (h h' : Handling σ) : Prop where
  calls : h'.calls = h.calls ++ deniedCalls child h.info h.regs
  regs : h'.regs = { h.regs with orig_rax := -1 }
  table : h'.threadStatus = h.threadStatus.insert child .kernelspaceDeny
  resumed : h'.resumed = h.resumed

/-- What an exception leaves behind: table and registers as they were, and part of the calls
of a refusal made. -/
structure EnterCut (child : Tid) (h h' : Handling σ) : Prop where
  calls : h'.calls <+: h.calls ++ deniedCalls child h.info h.regs
  regs : h'.regs = h.regs
  table : h'.threadStatus = h.threadStatus
  resumed : h'.resumed = h.resumed

theorem EnterCut.of_calls {child : Tid} {h h' : Handling σ} (cs ds : List Call)
    (hcalls : h'.calls = h.calls ++ cs) (hds : cs ++ ds = deniedCalls child h.info h.regs)
    (hregs : h'.regs = h.regs) (htable : h'.threadStatus = h.threadStatus)
    (hresumed : h'.resumed = h.resumed) : EnterCut child h h' :=
  ⟨⟨ds, by rw [hcalls, ← hds, List.append_assoc]⟩, hregs, htable, hresumed⟩

/-- **The syscall-enter-stop.**  It ends with the call allowed or refused; an exception
leaves the table and the registers alone. -/
theorem syscallEnterStop_spec (cb : Callbacks σ) (ndebug : Bool) (child : Tid)
    (h : Handling σ) :
    Ends (syscallEnterStop cb ndebug child) h
      (fun _ h' => EnterAllowed child h h' ∨ EnterDenied child h h')
      (fun _ h' => EnterCut child h h') := by
  simp only [syscallEnterStop, ptraceGetSyscallInfo, ends_bind, ends_issue, ends_get, ends_pure]
  refine ⟨fun _ => ?_, fun _ => .of_calls [.getSyscallInfo child] _ rfl rfl rfl rfl rfl⟩
  have hcut : EnterCut child h { h with
      calls := h.calls ++ [.getSyscallInfo child], world := h.world.tick } :=
    .of_calls [.getSyscallInfo child] _ rfl rfl rfl rfl rfl
  refine ends_cAssert (ends_cAssert ?_ hcut) hcut
  simp only [ends_modify, ends_callback]
  refine ends_of_forall (fun _ p => ?_) fun _ p =>
    .of_calls [.getSyscallInfo child, .pidCallback child] _ (by simp) rfl rfl rfl rfl
  refine ends_of_forall (fun allowed q => ?_) fun _ q =>
    .of_calls (enterCalls child h.info) _ (by simp [enterCalls]) rfl rfl rfl rfl
  cases allowed with
  | true =>
    exact Or.inl ⟨by simp [allowedCalls, enterCalls], rfl, rfl, rfl⟩
  | false =>
    simp only [Bool.false_eq_true, if_false, ptraceGetRegs, ptraceSetRegs, setStatus, ends_bind,
      ends_issue, ends_get, ends_pure, ends_modify]
    refine ⟨fun _ => ⟨fun _ => ?_, fun _ => ?_⟩, fun _ => ?_⟩
    · exact Or.inr ⟨by simp [deniedCalls, enterCalls], rfl, rfl, rfl⟩
    · exact .of_calls (deniedCalls child h.info h.regs) [] (by simp [deniedCalls, enterCalls])
        (by simp) rfl rfl rfl
    · exact .of_calls (enterCalls child h.info ++ [.answer false, .getRegs child]) _
        (by simp [enterCalls]) rfl rfl rfl rfl

/-! ## 3. A syscall-exit-stop of a refused call -/

/-- The calls of the exit stop of a refused call, before it is resumed. -/
def exitDeniedCalls (child : Tid) (regs : UserRegs) : List Call :=
  [.getRegs child, .setRegs child { regs with rax := -(BitVec.ofNat 64 EPERM) }]

/-- How the exit stop of a refused call ends: `rax` holds `-EPERM`. -/
structure ExitDenied (child : Tid) (h h' : Handling σ) : Prop where
  calls : h'.calls = h.calls ++ exitDeniedCalls child h.regs
  regs : h'.regs = { h.regs with rax := -(BitVec.ofNat 64 EPERM) }
  table : h'.threadStatus = h.threadStatus
  resumed : h'.resumed = h.resumed

/-- What an exception leaves behind at that stop. -/
structure ExitCut (child : Tid) (h h' : Handling σ) : Prop where
  calls : h'.calls <+: h.calls ++ exitDeniedCalls child h.regs
  regs : h'.regs = h.regs
  table : h'.threadStatus = h.threadStatus
  resumed : h'.resumed = h.resumed

theorem deniedExitStop_spec (child : Tid) (h : Handling σ) :
    Ends (deniedExitStop child) h (fun _ h' => ExitDenied child h h')
      (fun f h' => f = .systemError ESRCH ∧ ExitCut child h h') := by
  simp only [deniedExitStop, ptraceGetRegs, ptraceSetRegs, ends_bind, ends_issue, ends_get,
    ends_pure, ends_modify]
  refine ⟨fun _ => ⟨fun _ => ?_, fun _ => ?_⟩, fun _ => ?_⟩
  · exact ⟨by simp [exitDeniedCalls], rfl, rfl, rfl⟩
  · exact ⟨trivial, ⟨[], by simp [exitDeniedCalls]⟩, rfl, rfl, rfl⟩
  · exact ⟨trivial, ⟨_, List.append_assoc ..⟩, rfl, rfl, rfl⟩

/-! ## 4. The switch, and the whole `try` block -/

/-- Every way the `switch` on the stop signal can end normally. -/
inductive Dispatched (child : Tid) (stopsig : Nat) (h : Handling σ) : Handling σ → Prop
  /-- `SIGSTOP` of a thread the table does not have. -/
  | attached (hsig : stopsig = SIGSTOP) (hnew : h.threadStatus.lookup child = none) :
      Dispatched child stopsig h
        { h with threadStatus := h.threadStatus.insert child .userspace }
  /-- `SIGSTOP` of a thread the table has, or a stop the `switch` has no case for. -/
  | ignored (hsig : stopsig ≠ SIGTRAP_SYSGOOD)
      (hold : stopsig = SIGSTOP → h.threadStatus.lookup child ≠ none) :
      Dispatched child stopsig h h
  | allowed {h' : Handling σ} (hsig : stopsig = SIGTRAP_SYSGOOD)
      (hst : h.threadStatus.lookup child = some .userspace) (henter : EnterAllowed child h h') :
      Dispatched child stopsig h h'
  | denied {h' : Handling σ} (hsig : stopsig = SIGTRAP_SYSGOOD)
      (hst : h.threadStatus.lookup child = some .userspace) (henter : EnterDenied child h h') :
      Dispatched child stopsig h h'
  | exitDenied {h' : Handling σ} (hsig : stopsig = SIGTRAP_SYSGOOD)
      (hst : h.threadStatus.lookup child = some .kernelspaceDeny) (hexit : ExitDenied child h h') :
      Dispatched child stopsig h
        { h' with threadStatus := h'.threadStatus.insert child .userspace }
  | exitAllowed (hsig : stopsig = SIGTRAP_SYSGOOD)
      (hst : h.threadStatus.lookup child = some .kernelspaceAllow) :
      Dispatched child stopsig h
        { h with threadStatus := h.threadStatus.insert child .userspace }

/-- Every way an exception can leave it. -/
inductive DispatchCut (child : Tid) (stopsig : Nat) (h : Handling σ) : Fault → Handling σ → Prop
  | unregistered (hsig : stopsig = SIGTRAP_SYSGOOD) (hst : h.threadStatus.lookup child = none) :
      DispatchCut child stopsig h .outOfRange h
  | enter {f : Fault} {h' : Handling σ} (hsig : stopsig = SIGTRAP_SYSGOOD)
      (hst : h.threadStatus.lookup child = some .userspace) (hcut : EnterCut child h h') :
      DispatchCut child stopsig h f h'
  | exit {h' : Handling σ} (hsig : stopsig = SIGTRAP_SYSGOOD)
      (hst : h.threadStatus.lookup child = some .kernelspaceDeny) (hcut : ExitCut child h h') :
      DispatchCut child stopsig h (.systemError ESRCH) h'

theorem sigstop_ne_sysgood : SIGSTOP ≠ SIGTRAP_SYSGOOD := by decide

theorem dispatchStop_spec (cb : Callbacks σ) (ndebug : Bool) (child : Tid) (stopsig : Nat)
    (h : Handling σ) :
    Ends (dispatchStop cb ndebug child stopsig) h (fun _ h' => Dispatched child stopsig h h')
      (fun f h' => DispatchCut child stopsig h f h') := by
  simp only [dispatchStop, ends_bind, ends_get]
  by_cases hstop : stopsig = SIGSTOP
  · rw [if_pos hstop]
    by_cases hnew : h.threadStatus.lookup child = none
    · rw [if_pos hnew]
      simp only [setStatus, ends_modify]
      exact .attached hstop hnew
    · rw [if_neg hnew]
      exact .ignored (hstop ▸ sigstop_ne_sysgood) fun _ => hnew
  · rw [if_neg hstop]
    by_cases hsys : stopsig = SIGTRAP_SYSGOOD
    · rw [if_pos hsys]
      cases hst : h.threadStatus.lookup child with
      | none => exact .unregistered hsys hst
      | some st =>
        cases st with
        | userspace =>
          refine (syscallEnterStop_spec cb ndebug child h).mono ?_ fun _ _ hcut =>
            .enter hsys hst hcut
          rintro _ h' (ha | hd)
          · exact .allowed hsys hst ha
          · exact .denied hsys hst hd
        | kernelspaceAllow =>
          simp only [setStatus, ends_modify]
          exact .exitAllowed hsys hst
        | kernelspaceDeny =>
          simp only [setStatus, ends_bind, ends_modify]
          refine (deniedExitStop_spec child h).mono (fun _ _ hexit => .exitDenied hsys hst hexit) ?_
          rintro _ _ ⟨rfl, hcut⟩
          exact .exit hsys hst hcut
    · rw [if_neg hsys]
      exact .ignored hsys fun hs => absurd hs hstop

/-- The final `PTRACE_SYSCALL`, served. -/
def Handling.resume (h : Handling σ) (child : Tid) : Handling σ :=
  { h with calls := h.calls ++ [.syscall child 0], world := h.world.tick, resumed := some 0 }

/-- The final `PTRACE_SYSCALL`, refused because the tracee is dead. -/
def Handling.tryResume (h : Handling σ) (child : Tid) : Handling σ :=
  { h with calls := h.calls ++ [.syscall child 0] }

/-- **The whole handling of a stop.** -/
theorem handleStop_spec (cb : Callbacks σ) (ndebug : Bool) (child : Tid) (stopsig : Nat)
    (h : Handling σ) :
    Ends (handleStop cb ndebug child stopsig) h
      (fun _ h' => ∃ h₁, Dispatched child stopsig h h₁ ∧ ¬ h₁.world.dead ∧ h' = h₁.resume child)
      (fun f h' => DispatchCut child stopsig h f h' ∨
        ∃ h₁, Dispatched child stopsig h h₁ ∧ h₁.world.dead ∧ h' = h₁.tryResume child ∧
          f = .systemError ESRCH) := by
  simp only [handleStop, ptraceSyscall, ends_bind, ends_issue, ends_modify]
  refine (dispatchStop_spec cb ndebug child stopsig h).mono ?_ fun f h' hcut => Or.inl hcut
  intro _ h₁ hd
  exact ⟨fun halive => ⟨h₁, hd, halive, rfl⟩, fun hdead => Or.inr ⟨h₁, hd, hdead, rfl, trivial⟩⟩

/-! ## 5. The same, from the start of a handling -/

section Handled

variable {cb : Callbacks σ} {ndebug : Bool} {e : Event} {stopsig : Nat} {s : Loop σ}

theorem handled_ok {h' : Handling σ} (hr : handled cb ndebug e stopsig s = .ok () h') :
    ∃ h₁, Dispatched e.child stopsig (.start s e) h₁ ∧ ¬ h₁.world.dead ∧
      h' = h₁.resume e.child :=
  (handleStop_spec cb ndebug e.child stopsig (.start s e)).of_ok hr

theorem handled_error {f : Fault} {h' : Handling σ}
    (hr : handled cb ndebug e stopsig s = .error f h') :
    DispatchCut e.child stopsig (.start s e) f h' ∨
      ∃ h₁, Dispatched e.child stopsig (.start s e) h₁ ∧ h₁.world.dead ∧
        h' = h₁.tryResume e.child ∧ f = .systemError ESRCH :=
  (handleStop_spec cb ndebug e.child stopsig (.start s e)).of_error hr

/-- The `switch` changes no other entry of the table and resumes nobody. -/
theorem Dispatched.frame {child : Tid} {h h' : Handling σ} (hd : Dispatched child stopsig h h') :
    (∀ t, t ≠ child → h'.threadStatus.lookup t = h.threadStatus.lookup t) ∧
      h'.resumed = h.resumed := by
  cases hd with
  | attached | exitAllowed => exact ⟨fun t ht => AList.lookup_insert_ne ht, rfl⟩
  | ignored => exact ⟨fun _ _ => rfl, rfl⟩
  | allowed _ _ ha => exact ⟨fun t ht => by rw [ha.table, AList.lookup_insert_ne ht], ha.resumed⟩
  | denied _ _ hd => exact ⟨fun t ht => by rw [hd.table, AList.lookup_insert_ne ht], hd.resumed⟩
  | exitDenied _ _ hx =>
    exact ⟨fun t ht => by rw [AList.lookup_insert_ne ht, hx.table], hx.resumed⟩

/-- Only a syscall stop makes requests before the tracee is resumed. -/
theorem Dispatched.world_eq {child : Tid} {h h' : Handling σ}
    (hd : Dispatched child stopsig h h') (hsig : stopsig ≠ SIGTRAP_SYSGOOD) :
    h'.world = h.world := by
  cases hd with
  | attached | ignored => rfl
  | allowed hsys | denied hsys | exitDenied hsys | exitAllowed hsys => exact absurd hsys hsig

theorem DispatchCut.sysgood {child : Tid} {f : Fault} {h h' : Handling σ}
    (hc : DispatchCut child stopsig h f h') : stopsig = SIGTRAP_SYSGOOD := by
  cases hc with
  | unregistered hsys | enter hsys | exit hsys => exact hsys

theorem DispatchCut.frame {child : Tid} {f : Fault} {h h' : Handling σ}
    (hc : DispatchCut child stopsig h f h') :
    h'.threadStatus = h.threadStatus ∧ h'.resumed = h.resumed := by
  cases hc with
  | unregistered => exact ⟨rfl, rfl⟩
  | enter _ _ hcut => exact ⟨hcut.table, hcut.resumed⟩
  | exit _ _ hcut => exact ⟨hcut.table, hcut.resumed⟩

/-- A handling that ends normally has resumed the tracee, with no signal. -/
theorem handled_ok_resumed {h' : Handling σ} (hr : handled cb ndebug e stopsig s = .ok () h') :
    h'.resumed = some 0 := by
  obtain ⟨h₁, -, -, rfl⟩ := handled_ok hr
  rfl

/-- A handling that is cut short has not resumed the tracee. -/
theorem handled_error_resumed {f : Fault} {h' : Handling σ}
    (hr : handled cb ndebug e stopsig s = .error f h') : h'.resumed = none := by
  rcases handled_error hr with hc | ⟨h₁, hd, -, rfl, -⟩
  · exact hc.frame.2
  · exact hd.frame.2

/-- The handling of a stop leaves the entries of all other threads alone. -/
theorem handled_frame {h' : Handling σ}
    (hr : handled cb ndebug e stopsig s = .ok () h' ∨
      ∃ f, handled cb ndebug e stopsig s = .error f h') {t : Tid} (ht : t ≠ e.child) :
    h'.threadStatus.lookup t = s.threadStatus.lookup t := by
  rcases hr with hr | ⟨f, hr⟩
  · obtain ⟨h₁, hd, -, rfl⟩ := handled_ok hr
    exact hd.frame.1 t ht
  · rcases handled_error hr with hc | ⟨h₁, hd, -, rfl, -⟩
    · rw [hc.frame.1]
      rfl
    · exact hd.frame.1 t ht

end Handled

end GravelBox
