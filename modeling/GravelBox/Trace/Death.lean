/-
# When the death of a tracee brings the tracer down

A tracee can be killed while its stop is handled, and every request after that fails with
`ESRCH`.  The loop catches the exception (`trace/tracer.cpp`, lines 162 to 170), except where it is
thrown inside `Parser::operator()` (`parser/parser.cpp`, line 58): that function is `noexcept`, and
the tracer is terminated.

`survives_iff` says when it is: in a run nothing brings the tracer down if and only if at
every enter stop the tracee is dead before the first request, or lives through the reading of
its string arguments, for a call whose definition fits the six registers and, in a build with
assertions, at a real enter stop.

The window is narrow in time and wide in the code.  It opens after `PTRACE_GET_SYSCALL_INFO` and
closes after the last `process_vm_readv`, one for each string of the call; how many requests that is
depends on the definition of the call, so the condition counts them (`reads`).  A death before the
window or behind it is what the handler is for, and is handled.

What decides the call does not matter, so the policy is arbitrary here (`judge`): it is asked only
once the text is there, and it does not throw an `ESRCH` of its own.

The condition is on each step: the event, with the number of requests the tracee still answers, and
the table.  One bad step is enough, since a terminated process takes no further step.

Not claimed: that nothing else ends the tracer.  What the connection to pinentry throws leaves the
loop as well, and is the subject of `Ui/Losing.lean`.
-/
import GravelBox.Trace.Registry
import GravelBox.Parser.Parser

namespace GravelBox

open Stateful Runs

variable {π : Type} {judge : π → Str → Bool × π} {ndebug : Bool} {others : Tid → Prop}

/-! ## 1. The callbacks of the tracer -/

/-- The callbacks of `Tracer::run` over a parser.  What logger, configuration and user do
with the text is a function `judge` with a state of its own. -/
def parserCallbacks (judge : π → Str → Bool × π) (ndebug : Bool) : Callbacks (Parser × π) where
  pidCallback child := modify fun (u, w) => ((u.1.setpid child, u.2), w)
  syscallCallback args := do
    let (u, _) ← get
    let str ← zoom Prod.snd (fun s w => (s.1, w)) (u.1.call ndebug args)
    let (u, w) ← get
    let (allowed, pol) := judge u.2 str
    set ((u.1, pol), w)
    return allowed

/-- What must be met at an enter stop: the tracee is dead before the first request, or all
that follows up to its answer goes well. -/
def EnterSurvives (ndebug : Bool) (p : Parser) (e : Event) : Prop :=
  e.life = some 0 ∨
    ((ndebug = true ∨ e.info.op = .entry) ∧ p.Fits e.info.toArgs ∧
      ∀ k, e.life = some k → 1 + p.reads e.info.toArgs ≤ k)

/-- A fault that the `catch` clause takes for the death of the tracee. -/
def Recovers (f : Fault) : Prop := f = .systemError ESRCH

/-- A fault that goes past the `catch` clause. -/
def Escapes (f : Fault) : Prop := ∀ code, f ≠ .systemError code

section EnterStop

variable {child : Tid} {h : Handling (Parser × π)}

/-- The condition, in the state an enter stop is handled in. -/
def Lives (ndebug : Bool) (h : Handling (Parser × π)) : Prop :=
  h.world.dead ∨ ((ndebug = true ∨ h.info.op = .entry) ∧ h.user.1.Fits h.info.toArgs ∧
    h.world.Serves (1 + h.user.1.reads h.info.toArgs))

theorem ends_pidCallback {p : (Parser × π) × World} {Q : Unit → (Parser × π) × World → Prop}
    {R : Fault → (Parser × π) × World → Prop} :
    Ends ((parserCallbacks judge ndebug).pidCallback child) p Q R ↔
      Q () ((p.1.1.setpid child, p.1.2), p.2) := Iff.rfl

/-- The question to the callback: it is answered if the definition fits and the target lives
through the reads, and otherwise the tracer is terminated. -/
theorem syscallCallback_death (args : SyscallArgs) (u : Parser × π) (w : World)
    (htarget : u.1.target = w.child) :
    Ends ((parserCallbacks judge ndebug).syscallCallback args) (u, w)
      (fun _ _ => u.1.Fits args ∧ w.Serves (u.1.reads args))
      (fun f _ => Escapes f ∧ ¬ (u.1.Fits args ∧ w.Serves (u.1.reads args))) := by
  have hcost : w.cost u.1.target (u.1.reads args) = u.1.reads args := if_pos htarget
  simp only [parserCallbacks, ends_bind, ends_get, ends_zoom]
  refine (u.1.call_spec ndebug args w).mono ?_ ?_
  · rintro str w' ⟨-, hfits, hserves, -⟩
    rw [hcost] at hserves
    exact ⟨hfits, hserves⟩
  · rintro f w' ⟨hescapes, hun⟩
    rw [hcost] at hun
    exact ⟨hescapes, fun hok => (hun hok.1).2 hok.2⟩

/-- **The enter stop.**  Any fault is recovered from where the condition holds, and gets past
the loop where it does not. -/
theorem syscallEnterStop_death (hchild : h.world.child = child)
    (harch : h.info.arch = AUDIT_ARCH_I386 ∨ h.info.arch = AUDIT_ARCH_X86_64) :
    Ends (syscallEnterStop (parserCallbacks judge ndebug) ndebug child) h
      (fun _ _ => Lives ndebug h)
      (fun f _ => (Recovers f ∧ Lives ndebug h) ∨ (Escapes f ∧ ¬ Lives ndebug h)) := by
  simp only [syscallEnterStop, ptraceGetSyscallInfo, ends_bind, ends_issue, ends_get, ends_pure]
  refine ⟨fun halive => ?_, fun hdead => Or.inl ⟨rfl, Or.inl hdead⟩⟩
  unfold cAssert
  by_cases hop : ndebug = false ∧ ¬ h.info.op = .entry
  · rw [if_pos hop, ends_throw]
    refine Or.inr ⟨nofun, ?_⟩
    rintro (hdead | ⟨hndebug | hentry, -⟩)
    · exact halive hdead
    · rw [hop.1] at hndebug
      cases hndebug
    · exact hop.2 hentry
  · have hop' : ndebug = true ∨ h.info.op = .entry := by
      cases ndebug with
      | true => exact Or.inl rfl
      | false => exact Or.inr (by simpa using hop)
    have hserves : h.world.Serves 1 := by
      rwa [World.dead_iff, not_not] at halive
    rw [if_neg hop, ends_pure, if_neg fun ha => ha.2 harch]
    simp only [ends_pure, ends_modify, ends_callback, ends_pidCallback]
    refine (syscallCallback_death h.info.toArgs (h.user.1.setpid child, h.user.2) h.world.tick
      hchild.symm).mono ?_ ?_
    · rintro allowed ⟨u, w⟩ ⟨hfits, hreads⟩
      have hlives : Lives ndebug h := Or.inr ⟨hop', hfits, World.serves_add.mpr ⟨hserves, hreads⟩⟩
      cases allowed with
      | true => exact hlives
      | false =>
        simp only [Bool.false_eq_true, if_false, ptraceGetRegs, ptraceSetRegs, setStatus,
          ends_bind, ends_issue, ends_get, ends_pure, ends_modify]
        have hrec : Recovers (.systemError ESRCH) ∧ Lives ndebug h := ⟨rfl, hlives⟩
        exact ⟨fun _ => ⟨fun _ => hlives, fun _ => Or.inl hrec⟩, fun _ => Or.inl hrec⟩
    · rintro f - ⟨hescapes, hnot⟩
      refine Or.inr ⟨hescapes, ?_⟩
      rintro (hdead | ⟨-, hfits, hboth⟩)
      · exact halive hdead
      · exact hnot ⟨hfits, (World.serves_add.mp hboth).2⟩

end EnterStop

/-! ## 2. A whole stop -/

section Stop

variable {e : Event} {stopsig : Nat} {l : Loop (Parser × π)}

/-- An enter stop, from its report to its end. -/
theorem handled_enter_death (hst : l.threadStatus.lookup e.child = some .userspace)
    (harch : e.info.arch = AUDIT_ARCH_I386 ∨ e.info.arch = AUDIT_ARCH_X86_64) :
    (∀ f h, handled (parserCallbacks judge ndebug) ndebug e SIGTRAP_SYSGOOD l = .error f h →
      Recovers f) ↔ EnterSurvives ndebug l.user.1 e := by
  have hends : Ends (handleStop (parserCallbacks judge ndebug) ndebug e.child SIGTRAP_SYSGOOD)
      (.start l e) (fun _ _ => EnterSurvives ndebug l.user.1 e)
      (fun f _ => (Recovers f ∧ EnterSurvives ndebug l.user.1 e) ∨
        (Escapes f ∧ ¬ EnterSurvives ndebug l.user.1 e)) := by
    have hst' : (Handling.start l e).threadStatus.lookup e.child = some .userspace := hst
    simp only [handleStop, dispatchStop, ptraceSyscall, ends_bind, ends_get,
      if_neg sigstop_ne_sysgood.symm, if_true, hst', ends_issue, ends_modify]
    refine (syscallEnterStop_death rfl harch).mono ?_ fun _ _ h => h
    intro _ _ hlives
    exact ⟨fun _ => hlives, fun _ => Or.inl ⟨rfl, hlives⟩⟩
  constructor
  · intro hrec
    cases hr : handled (parserCallbacks judge ndebug) ndebug e SIGTRAP_SYSGOOD l with
    | ok _ h => exact hends.of_ok hr
    | error f h =>
      rcases hends.of_error hr with ⟨-, hlives⟩ | ⟨hescapes, -⟩
      · exact hlives
      · exact absurd (hrec f h hr) (hescapes ESRCH)
  · intro hlives f h hr
    rcases hends.of_error hr with ⟨hrec, -⟩ | ⟨-, hnot⟩
    · exact hrec
    · exact absurd hlives hnot

/-- At every other stop of a registered tracee the only fault is its death, and it is
recovered from. -/
theorem handled_recovers {cb : Callbacks (Parser × π)}
    (hreg : stopsig = SIGTRAP_SYSGOOD → l.threadStatus.lookup e.child ≠ none)
    (hst : stopsig = SIGTRAP_SYSGOOD → l.threadStatus.lookup e.child ≠ some .userspace)
    {f : Fault} {h : Handling (Parser × π)} (hr : handled cb ndebug e stopsig l = .error f h) :
    Recovers f := by
  rcases handled_error hr with hc | ⟨-, -, -, -, hf⟩
  · cases hc with
    | unregistered hsig hno => exact absurd hno (hreg hsig)
    | enter hsig hst' => exact absurd hst' (hst hsig)
    | exit => rfl
  · exact hf

theorem catchTurn_status_iff {σ : Type} {r : EStateM.Result Fault (Handling σ) Unit} :
    (∀ f, (catchTurn r).status ≠ .threw f) ↔ ∀ f h, r = .error f h → Recovers f := by
  cases r with
  | ok _ h => simp [catchTurn, Outcome.status]
  | error f h =>
    simp only [EStateM.Result.error.injEq]
    cases f with
    | systemError code =>
      simp only [catchTurn]
      by_cases hc : code = ESRCH
      · rw [if_pos hc]
        simp [Outcome.status, Recovers, hc]
      · rw [if_neg hc]
        simp [Outcome.status, Recovers, hc]
    | _ => simp [catchTurn, Outcome.status, Recovers]

end Stop

/-! ## 3. A run -/

/-- No exception has left the loop, and nothing has terminated the tracer. -/
def Up (s : Sys (Parser × π)) : Prop := ∀ f, s.status ≠ .threw f

/-- What each step must meet. -/
def Survives (ndebug : Bool) (s : Sys (Parser × π)) : Move → Prop
  | .report .syscall e => s.loop.threadStatus.lookup e.child = some .userspace →
      EnterSurvives ndebug s.loop.user.1 e
  | _ => True

/-- A reported stop.  Only an enter stop can bring the loop down. -/
theorem stop_up_iff {s : Sys (Parser × π)} {cause : Cause} {e : Event} {stopsig : Nat}
    (hreg : Registered s) (hen : Reports others s.kern e cause)
    (hw : e.wstatus = .stopped stopsig) :
    Up (s.after (parserCallbacks judge ndebug) ndebug (.report cause e)) ↔
      Survives ndebug s (.report cause e) := by
  obtain ⟨th, hth, -, -, hfirst⟩ := Reports.stopped hen hw
  have hcause := Reports.sysgood_iff hen hw
  have hin : stopsig = SIGTRAP_SYSGOOD → s.loop.threadStatus.lookup e.child ≠ none := by
    intro hsys
    rcases hfirst with ⟨hattach, -⟩ | hst
    · cases hattach.symm.trans (hcause.mp hsys)
    · exact (hreg e.child).mpr (Or.inl ⟨th, hth, hst⟩)
  have hstatus : Up (s.after (parserCallbacks judge ndebug) ndebug (.report cause e)) ↔
      ∀ f h, handled (parserCallbacks judge ndebug) ndebug e stopsig s.loop = .error f h →
        Recovers f := by
    rw [← catchTurn_status_iff, ← body_of_stopped hw]
    simp only [Up, Sys.after, hw]
  rw [hstatus]
  rcases eq_or_ne cause .syscall with rfl | hsys
  · obtain rfl := hcause.mpr rfl
    have harch : e.info.arch = AUDIT_ARCH_I386 ∨ e.info.arch = AUDIT_ARCH_X86_64 := by
      cases hen with
      | syscall _ _ _ harch => exact harch
    by_cases hst : s.loop.threadStatus.lookup e.child = some .userspace
    · rw [handled_enter_death hst harch]
      exact ⟨fun hsur _ => hsur, fun hsur => hsur hst⟩
    · exact ⟨fun _ hst' => absurd hst' hst,
        fun _ _ _ hr => handled_recovers hin (fun _ => hst) hr⟩
  · have hne : stopsig ≠ SIGTRAP_SYSGOOD := fun h => hsys (hcause.mp h)
    have hsur : Survives ndebug s (.report cause e) := by
      cases cause with
      | syscall => exact absurd rfl hsys
      | _ => trivial
    exact ⟨fun _ => hsur, fun _ _ _ hr => handled_recovers hin (fun h => absurd h hne) hr⟩

/-- **The step lemma.** -/
theorem step_up_iff {s s' : Sys (Parser × π)} {m : Move} (hreg : Registered s) (h : Up s)
    (hs : Step (parserCallbacks judge ndebug) ndebug others s m s') :
    Up s' ↔ Survives ndebug s m := by
  obtain ⟨hrun, hen, rfl⟩ := hs
  have hup : ∀ s' : Sys (Parser × π), s'.status = s.status → Up s' := by
    intro s' hst f
    rw [hst]
    exact h f
  cases m with
  | create | die => exact ⟨fun _ => trivial, fun _ => hup _ rfl⟩
  | execve t =>
    refine ⟨fun _ => trivial, fun _ => hup _ ?_⟩
    simp only [Sys.after]
    split <;> rfl
  | report cause e =>
    rcases e.wstatus.stopped_or_isExit with ⟨stopsig, hw⟩ | hexit
    · exact stop_up_iff hreg hen hw
    · have hsur : Survives ndebug s (.report cause e) := by
        rcases Reports.of_isExit hen hexit with rfl | ⟨rfl, -⟩
        · trivial
        · trivial
      refine ⟨fun _ => hsur, fun _ f => ?_⟩
      rw [after_exit_status hexit]
      split <;> simp

/-- What a report does to the rest of the loop: the entries of all other tids stay, that of
the stopped tracee is not removed before its exit is reported, and a loop that did not go down
serves the next report. -/
structure Contained (s s' : Sys (Parser × π)) (e : Event) : Prop where
  others : ∀ t, t ≠ e.child → s'.loop.threadStatus.lookup t = s.loop.threadStatus.lookup t
  kept : ∀ stopsig, e.wstatus = .stopped stopsig → s.loop.threadStatus.lookup e.child ≠ none →
    s'.loop.threadStatus.lookup e.child ≠ none
  removed : e.wstatus.isExit → s'.loop.threadStatus.lookup e.child = none
  serves : ∀ stopsig, e.wstatus = .stopped stopsig → Up s' → s'.status = .running

theorem report_contained {cb : Callbacks (Parser × π)} (s : Sys (Parser × π)) (cause : Cause)
    (e : Event) : Contained s (s.after cb ndebug (.report cause e)) e := by
  refine ⟨fun t ht => ?_, fun stopsig hw hin => ?_, fun hexit => ?_, fun stopsig hw hup => ?_⟩
  · rcases e.wstatus.stopped_or_isExit with ⟨stopsig, hw⟩ | hexit
    · rw [after_stop_table hw, endState_frame ht]
    · rw [after_exit_loop hexit]
      exact AList.lookup_erase_ne ht
  · rw [after_stop_table hw]
    exact lookup_ne_none_of_handled hin
  · rw [after_exit_loop hexit]
    exact AList.lookup_erase _ _
  · cases hst : (s.after cb ndebug (.report cause e)).status with
    | running => rfl
    | returned code => exact absurd hst (after_stop_status hw code)
    | threw f => exact absurd hst (hup f)

/-- **The death of a tracee, and exactly when it brings the tracer down.**  In a run of the
tracer over a parser no fault gets past the loop if and only if every enter stop meets the
condition; what a report does to the table is contained in every case. -/
theorem survives_iff (child : Tid) (u : Parser × π) {tr : List (Sys (Parser × π) × Move)}
    {s : Sys (Parser × π)}
    (hrun : Run (Step (parserCallbacks judge ndebug) ndebug others) (Sys.init child u) tr s) :
    (Always Up tr s ↔ Guarded (Survives ndebug) tr) ∧
      ∀ s₁ cause e, (s₁, Move.report cause e) ∈ tr →
        Contained s₁ (s₁.after (parserCallbacks judge ndebug) ndebug (.report cause e)) e :=
  ⟨hrun.guarded_iff (init_registered child u) nofun (fun _ _ _ => step_registered)
    fun _ _ _ => step_up_iff, fun s₁ cause e _ => report_contained s₁ cause e⟩

/-- A parser that knows `open`. -/
def openParser : Parser :=
  .single 2 { fname := "open".toList, argtypes := [.str, .uint64, .uint64] }

/-- The enter stop of `open` by thread 1, which is killed after `n` more requests. -/
def killedOpen (n : Nat) : Event :=
  { Event.plain 1 (.stopped SIGTRAP_SYSGOOD) .entry 2 with life := some n }

/-- Allow whatever the text. -/
def allowText : Unit → Str → Bool × Unit := fun u _ => (true, u)

/-- Killed after its path was read and before it is resumed: the loop goes on, and ends with
the exit notification. -/
theorem killed_after_read_survives :
    ∃ tr s, Run (Step (parserCallbacks allowText false) false fun _ => False)
        (Sys.init 1 (openParser, ())) tr s ∧
      Always Up tr s ∧ s.status = .returned 137 := by
  have h₀ : Run (Step (parserCallbacks allowText false) false fun _ => False)
    (Sys.init 1 (openParser, ())) [] (Sys.init 1 (openParser, ())) := .nil
  have h₁ := run_move h₀ (.report .syscall (killedOpen 2)) rfl
    (.syscall rfl ⟨rfl, rfl, rfl⟩ rfl (Or.inr rfl) rfl)
  have h₂ := run_move h₁ (.report .exit (.plain 1 (.signaled SIGKILL) .none 0)) rfl
    (.exit rfl rfl rfl fun _ u (hu : u ≠ 1) th hth => by
      rw [run_kern_none h₁ hu (by simp [Move.creates])] at hth
      cases hth)
  refine ⟨_, _, h₂, (survives_iff 1 (openParser, ()) h₂).1.mpr ?_, rfl⟩
  refine guarded_snoc.mpr ⟨guarded_snoc.mpr ⟨guarded_nil, fun _ => Or.inr ?_⟩, trivial⟩
  refine ⟨Or.inr rfl, ?_, ?_⟩
  · rintro d hd
    obtain rfl : { fname := "open".toList, argtypes := [.str, .uint64, .uint64] } = d :=
      Option.some.inj hd
    decide
  · rintro k hk
    obtain rfl : 2 = k := Option.some.inj hk
    decide

/-! ## 4. A death that brings the tracer down -/

/-- Thread 1 enters `open` and is killed, say by `exit_group` in another thread, after its
syscall info was read and before its path is: the exception meets `noexcept`. -/
theorem killed_before_read_terminates :
    ∃ tr s, Run (Step (parserCallbacks allowText false) false fun _ => False)
        (Sys.init 1 (openParser, ())) tr s ∧
      ¬ Up s ∧ s.status = .threw .terminate := by
  have h₀ : Run (Step (parserCallbacks allowText false) false fun _ => False)
    (Sys.init 1 (openParser, ())) [] (Sys.init 1 (openParser, ())) := .nil
  have h₁ := run_move h₀ (.report .syscall (killedOpen 1)) rfl
    (.syscall rfl ⟨rfl, rfl, rfl⟩ rfl (Or.inr rfl) rfl)
  exact ⟨_, _, h₁, fun hup => hup .terminate rfl, rfl⟩

end GravelBox
