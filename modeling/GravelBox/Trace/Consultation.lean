/-
# The tracer with pinentry

`Tracer::run` (`trace/tracer.h`, lines 66 to 104) is instantiated with a `PinentryUI`
(`modules.cpp`, line 46).  `pinentryCallbacks` are its callbacks then, and a run of `PinentryStep`s
is a run of the tracer with them, against any pinentry, in which no exception leaves the loop.

`pinentry_refines_user`: each such run is one of the tracer with a `User`, whose answers are what
`PinentryUI::ask` and `PinentryUI::ask_password` returned, in that order.  The kernel, the table and
the status are the same throughout, and pinentry was sent the commands of the questions that the
`User` is asked, in that order, and nothing else.  So what is proved of all runs with a `User` holds
with pinentry.

The refinement is backwards in time: which answers the user must have is known only when pinentry
has given them.  So every piece of the loop is shown to do the same for some script of answers, with
whatever follows in the script left over (`HandlerScript`), and the scripts are put together in the
order in which the pieces run, first over one handling and then over a run.  That the script is the
answers and no others is an invariant of the state in which they are recorded (`Told`).

The loop for a password has no bound and gets fuel, as much as a step needs; a step that would need
more than any number is not a step.

Not claimed: anything about the step in which an exception leaves the loop, since what pinentry had
answered by then is not kept.  Nor that the questions and answers belong together, which is the
subject of `Ui/Lockstep.lean`.
-/
import GravelBox.Trace.Wakeup
import GravelBox.Ui.Interview
import GravelBox.Ui.Lockstep

namespace GravelBox

open Stateful Runs

/-! ## 1. The callbacks, with a `PinentryUI` -/

section Code

variable {Re ρ : Type} (lib : Libraries Re) (respond : ρ → Str → ρ × List Str)

/-- `case Config::Action::ASK`. -/
def consultAsk (fuel : Nat) (config : FileConfig Re) (syscall : Str) :
    EStateM Fault (Interview (FileConfig Re) ρ) Bool := do
  if !(← Interview.ask respond syscall) then return false
  if !config.hasPassword then return true
  Interview.askUntil respond "Enter the user decision password to continue.".toList
    "password: ".toList "Incorrect password".toList
    (fun password => return (← get).verifyPassword lib password) fuel []

/-- The `switch` of the callback. -/
def consultCall (fuel : Nat) (syscall : Str) :
    EStateM Fault (Interview (FileConfig Re) ρ) Bool := do
  let config := (← get).inner
  match config.getAction lib syscall with
  | .allow => return true
  | .ask => consultAsk lib respond fuel config syscall
  | .deny => return false

/-- The callbacks. -/
def pinentryCallbacks (ndebug : Bool) (fuel : Nat) :
    Callbacks (Parser × Interview (FileConfig Re) ρ) where
  pidCallback child := modify fun (u, w) => ((u.1.setpid child, u.2), w)
  syscallCallback args := do
    let (u, _) ← get
    let syscall ← zoom Prod.snd (fun s w => (s.1, w)) (u.1.call ndebug args)
    zoom (fun s => s.1.2) (fun s t => ((s.1.1, t), s.2)) (consultCall lib respond fuel syscall)

/-- A step of the tracer with pinentry, with as much fuel as it takes, that no exception leaves. -/
def PinentryStep (ndebug : Bool) (others : Tid → Prop)
    (s : Sys (Parser × Interview (FileConfig Re) ρ)) (m : Move)
    (s' : Sys (Parser × Interview (FileConfig Re) ρ)) : Prop :=
  ∃ fuel, Step (pinentryCallbacks lib respond ndebug fuel) ndebug others s m s' ∧ Up s'

end Code

/-! ## 2. Handling a stop with scripted callbacks -/

section Handling

variable {σ τ M : Type} [Monoid M] (put : σ → M → τ) (I : σ → M → Prop)

/-- The handling, with a script in the callbacks' state. -/
def Handling.scripted (h : Handling σ) (m : M) : Handling τ :=
  { threadStatus := h.threadStatus, user := put h.user m, world := h.world, info := h.info
    regs := h.regs, calls := h.calls, resumed := h.resumed }

/-- A handler that does the same with some script. -/
def HandlerScript {α : Type} (x : Handler σ α) (y : Handler τ α) : Prop :=
  ∀ h, Scripted (Handling.scripted put) (fun h k => I h.user k) Recovers x y h

/-- Callbacks that do the same with some script. -/
structure CallbackScript (cb : Callbacks σ) (cb' : Callbacks τ) : Prop where
  pid : ∀ child q, Scripted (fun q m => (put q.1 m, q.2)) (fun q k => I q.1 k) Recovers
    (cb.pidCallback child) (cb'.pidCallback child) q
  call : ∀ args q, Scripted (fun q m => (put q.1 m, q.2)) (fun q k => I q.1 k) Recovers
    (cb.syscallCallback args) (cb'.syscallCallback args) q

variable {put I}

theorem handlerScript_issue (c : Call) : HandlerScript put I (issue c) (issue c) := by
  refine fun h => scripted_of_mirrors (fun m => ?_) fun k hI => ?_
  · unfold issue
    refine mirrors_bind_of_forall (mirrors_modify rfl) fun _ h' => ?_
    exact mirrors_zoom rfl (fun _ => rfl) (mirrors_id request h'.world)
  · exact ends_issue.mpr ⟨fun _ => hI, fun _ => hI⟩

theorem handlerScript_ptraceGetSyscallInfo (child : Tid) :
    HandlerScript put I (ptraceGetSyscallInfo child) (ptraceGetSyscallInfo child) := by
  intro h
  unfold ptraceGetSyscallInfo
  refine scripted_bind (handlerScript_issue _ h) fun _ h' => ?_
  exact scripted_get_bind (fun _ => rfl) (scripted_pure h'.info)

theorem handlerScript_ptraceGetRegs (child : Tid) :
    HandlerScript put I (ptraceGetRegs child) (ptraceGetRegs child) := by
  intro h
  unfold ptraceGetRegs
  refine scripted_bind (handlerScript_issue _ h) fun _ h' => ?_
  exact scripted_get_bind (fun _ => rfl) (scripted_pure h'.regs)

theorem handlerScript_ptraceSetRegs (child : Tid) (regs : UserRegs) :
    HandlerScript put I (ptraceSetRegs child regs) (ptraceSetRegs child regs) := by
  intro h
  unfold ptraceSetRegs
  exact scripted_bind (handlerScript_issue _ h) fun _ _ =>
    scripted_modify (fun _ => rfl) fun _ => id

theorem handlerScript_ptraceSyscall (child : Tid) (sig : Nat) :
    HandlerScript put I (ptraceSyscall child sig) (ptraceSyscall child sig) := by
  intro h
  unfold ptraceSyscall
  exact scripted_bind (handlerScript_issue _ h) fun _ _ =>
    scripted_modify (fun _ => rfl) fun _ => id

theorem handlerScript_setStatus (child : Tid) (st : ThreadStatus) :
    HandlerScript put I (setStatus child st) (setStatus child st) :=
  fun _ => scripted_modify (fun _ => rfl) fun _ => id

theorem handlerScript_cAssert (ndebug : Bool) (p : Prop) [Decidable p] :
    HandlerScript put I (cAssert ndebug p) (cAssert ndebug p) := by
  intro h
  unfold cAssert
  split
  · exact scripted_throw _
  · exact scripted_pure _

theorem handlerScript_callback {α : Type} {x : EStateM Fault (σ × World) α}
    {y : EStateM Fault (τ × World) α}
    (hx : ∀ q, Scripted (fun q m => (put q.1 m, q.2)) (fun q k => I q.1 k) Recovers x y q) :
    HandlerScript put I (callback x) (callback y) :=
  fun _ => scripted_zoom (fun _ => rfl) (fun _ _ _ => rfl) (fun _ => id) (fun _ _ _ _ hu => hu)
    (hx _)

variable {cb : Callbacks σ} {cb' : Callbacks τ}

/-- The enter stop. -/
theorem handlerScript_syscallEnterStop (hcb : CallbackScript put I cb cb') (ndebug : Bool)
    (child : Tid) :
    HandlerScript put I (syscallEnterStop cb ndebug child) (syscallEnterStop cb' ndebug child) := by
  intro h
  unfold syscallEnterStop
  refine scripted_bind (handlerScript_ptraceGetSyscallInfo child h) fun info h₁ => ?_
  refine scripted_bind (handlerScript_cAssert _ _ h₁) fun _ h₂ => ?_
  refine scripted_bind (handlerScript_cAssert _ _ h₂) fun _ h₃ => ?_
  refine scripted_bind (scripted_modify (fun _ => rfl) fun _ => id) fun _ h₄ => ?_
  refine scripted_bind (handlerScript_callback (hcb.pid child) h₄) fun _ h₅ => ?_
  refine scripted_bind (scripted_modify (fun _ => rfl) fun _ => id) fun _ h₆ => ?_
  refine scripted_bind (handlerScript_callback (hcb.call _) h₆) fun allowed h₇ => ?_
  refine scripted_bind (scripted_modify (fun _ => rfl) fun _ => id) fun _ h₈ => ?_
  cases allowed with
  | true => exact handlerScript_setStatus _ _ h₈
  | false =>
    refine scripted_bind (handlerScript_ptraceGetRegs child h₈) fun regs h₉ => ?_
    refine scripted_bind (handlerScript_ptraceSetRegs child _ h₉) fun _ h₁₀ => ?_
    exact handlerScript_setStatus _ _ h₁₀

/-- The switch. -/
theorem handlerScript_dispatchStop (hcb : CallbackScript put I cb cb') (ndebug : Bool)
    (child : Tid) (stopsig : Nat) :
    HandlerScript put I (dispatchStop cb ndebug child stopsig)
      (dispatchStop cb' ndebug child stopsig) := by
  intro h
  unfold dispatchStop
  refine scripted_get_bind (fun _ => rfl) ?_
  have hlookup : (Handling.scripted put h 1).threadStatus.lookup child =
      h.threadStatus.lookup child := rfl
  rw [hlookup]
  by_cases hstop : stopsig = SIGSTOP
  · rw [if_pos hstop, if_pos hstop]
    by_cases hnew : h.threadStatus.lookup child = none
    · rw [if_pos hnew, if_pos hnew]
      exact handlerScript_setStatus _ _ h
    · rw [if_neg hnew, if_neg hnew]
      exact scripted_pure _
  · rw [if_neg hstop, if_neg hstop]
    by_cases hsys : stopsig = SIGTRAP_SYSGOOD
    · rw [if_pos hsys, if_pos hsys]
      cases h.threadStatus.lookup child with
      | none => exact scripted_throw _
      | some st =>
        cases st with
        | userspace => exact handlerScript_syscallEnterStop hcb ndebug child h
        | kernelspaceAllow => exact handlerScript_setStatus _ _ h
        | kernelspaceDeny =>
          refine scripted_bind ?_ fun _ h' => handlerScript_setStatus _ _ h'
          unfold deniedExitStop
          exact scripted_bind (handlerScript_ptraceGetRegs child h) fun _ h' =>
            handlerScript_ptraceSetRegs child _ h'
    · rw [if_neg hsys, if_neg hsys]
      exact scripted_pure _

theorem handlerScript_handleStop (hcb : CallbackScript put I cb cb') (ndebug : Bool) (child : Tid)
    (stopsig : Nat) :
    HandlerScript put I (handleStop cb ndebug child stopsig)
      (handleStop cb' ndebug child stopsig) := by
  intro h
  unfold handleStop
  exact scripted_bind (handlerScript_dispatchStop hcb ndebug child stopsig h) fun _ h' =>
    handlerScript_ptraceSyscall child 0 h'

/-- A stop from its report on, after which the loop goes on. -/
theorem handled_scripted (hcb : CallbackScript put I cb cb') {ndebug : Bool} {e : Event}
    {stopsig : Nat} {l : Loop σ} {k : M} (hI : I l.user k)
    (hgoes : ∀ f, (catchTurn (handled cb ndebug e stopsig l)).status ≠ .threw f) :
    ∃ m, I (endState (handled cb ndebug e stopsig l)).user (k * m) ∧ ∀ rest,
      handled cb' ndebug e stopsig ⟨l.threadStatus, put l.user (m * rest)⟩ =
        seen (Handling.scripted put · rest) (handled cb ndebug e stopsig l) := by
  have hends := handlerScript_handleStop hcb ndebug e.child stopsig (.start l e) k hI
  cases hr : handled cb ndebug e stopsig l with
  | ok _ h => exact hends.of_ok hr
  | error f h => exact hends.of_error hr (catchTurn_status_iff.mp hgoes f h hr)

end Handling

/-! ## 3. A step of the whole -/

section Step

variable {σ τ M : Type} (put : σ → M → τ) {I : σ → M → Prop}

/-- The whole system, with a script in the callbacks' state. -/
def Sys.scripted (s : Sys σ) (m : M) : Sys τ :=
  { kern := s.kern, loop := ⟨s.loop.threadStatus, put s.loop.user m⟩, status := s.status
    vanished := s.vanished, due := s.due, got := s.got }

/-- What a turn makes of a handling. -/
theorem catchTurn_scripted (r : EStateM.Result Fault (Handling σ) Unit) (rest : M) :
    (catchTurn (seen (Handling.scripted put · rest) r)).loop =
        ⟨(catchTurn r).loop.threadStatus, put (catchTurn r).loop.user rest⟩ ∧
      (catchTurn (seen (Handling.scripted put · rest) r)).status = (catchTurn r).status ∧
      endState (seen (Handling.scripted put · rest) r) = (endState r).scripted put rest := by
  cases r with
  | ok _ h => exact ⟨rfl, rfl, rfl⟩
  | error f h =>
    cases f with
    | systemError code =>
      simp only [seen, catchTurn]
      split
      · exact ⟨rfl, rfl, rfl⟩
      · exact ⟨rfl, rfl, rfl⟩
    | _ => exact ⟨rfl, rfl, rfl⟩

variable {put} {cb : Callbacks σ} {cb' : Callbacks τ} {ndebug : Bool}

/-- **One move** after which the loop goes on or has returned. -/
theorem after_scripted [Monoid M] (hcb : CallbackScript put I cb cb') {s : Sys σ} {mv : Move}
    {k : M} (hI : I s.loop.user k) (hgoes : ∀ f, (s.after cb ndebug mv).status ≠ .threw f) :
    ∃ m, I (s.after cb ndebug mv).loop.user (k * m) ∧ ∀ rest,
      (s.scripted put (m * rest)).after cb' ndebug mv =
        (s.after cb ndebug mv).scripted put rest := by
  have hI₁ : I s.loop.user (k * 1) := (mul_one k).symm ▸ hI
  cases mv with
  | create | die => exact ⟨1, hI₁, fun rest => by rw [one_mul]; rfl⟩
  | execve t =>
    simp only [Sys.after]
    cases hth : s.kern t with
    | none =>
      refine ⟨1, hI₁, fun rest => ?_⟩
      rw [one_mul]
      simp only [Sys.scripted, hth]
    | some th =>
      refine ⟨1, hI₁, fun rest => ?_⟩
      rw [one_mul]
      simp only [Sys.scripted, hth]
  | report cause e =>
    rcases e.wstatus.stopped_or_isExit with ⟨stopsig, hw⟩ | hexit
    · have hstatus : (s.after cb ndebug (.report cause e)).status =
          (catchTurn (handled cb ndebug e stopsig s.loop)).status := by
        simp only [Sys.after, hw, body]
      rw [hstatus] at hgoes
      obtain ⟨m, hI', hm⟩ := handled_scripted hcb hI hgoes
      refine ⟨m, ?_, fun rest => ?_⟩
      · rw [after_stop_loop hw]
        exact hI'
      · obtain ⟨hloop, hst, hend⟩ := catchTurn_scripted put
          (handled cb ndebug e stopsig s.loop) rest
        simp only [Sys.after, hw, body, Sys.scripted, hm rest, hloop, hst, hend]
        rfl
    · refine ⟨1, ?_, fun rest => ?_⟩
      · rw [after_exit_loop hexit]
        exact hI₁
      · rw [one_mul, after_exit hexit, after_exit hexit]
        simp only [Sys.scripted, exitTurn_loop, exitTurn_status]

end Step

/-! ## 4. A run -/

section Run

variable {Re ρ : Type} {lib : Libraries Re} {respond : ρ → Str → ρ × List Str} {ndebug : Bool}
  {base : List Str} {others : Tid → Prop}

/-- The state of the callbacks with the answers written down. -/
def writtenDown (u : Parser × Interview (FileConfig Re) ρ) (m : Script) :
    Parser × Session (FileConfig Re) := (u.1, u.2.scripted m)

theorem connFault_not_recovers (f : Fault) (h : ConnFault f) : ¬ Recovers f := by
  cases h with
  | stream => exact iosFailure_not_recovers
  | pinentry what => exact fun h => Fault.noConfusion h

/-- `case Config::Action::ASK`. -/
theorem scripted_consultAsk (fuel : Nat) (config : FileConfig Re) (syscall : Str)
    (s : Interview (FileConfig Re) ρ) :
    Scripted Interview.scripted (Told base) Recovers (consultAsk lib respond fuel config syscall)
      (decideAsk lib config syscall) s := by
  unfold consultAsk decideAsk
  refine scripted_bind (scripted_ask connFault_not_recovers syscall s) fun answer s₁ => ?_
  cases answer with
  | false => exact scripted_pure _
  | true =>
    rw [Bool.not_true, if_neg Bool.false_ne_true, if_neg Bool.false_ne_true]
    split
    · exact scripted_pure _
    · refine scripted_askUntil connFault_not_recovers (fun h => Fault.noConfusion h)
        (fun k u => ?_) fuel s₁
      simp only [ends_bind, ends_get, ends_pure]

/-- The switch. -/
theorem scripted_consultCall (fuel : Nat) (syscall : Str) (s : Interview (FileConfig Re) ρ) :
    Scripted Interview.scripted (Told base) Recovers (consultCall lib respond fuel syscall)
      (decideCall lib syscall) s := by
  unfold consultCall decideCall
  refine scripted_get_bind (fun _ => rfl) ?_
  change Scripted _ _ _
    (match s.inner.getAction lib syscall with
      | .allow => pure true
      | .ask => consultAsk lib respond fuel s.inner syscall
      | .deny => pure false)
    (match s.inner.getAction lib syscall with
      | .allow => pure true
      | .ask => decideAsk lib s.inner syscall
      | .deny => pure false) s
  cases s.inner.getAction lib syscall with
  | allow | deny => exact scripted_pure _
  | ask => exact scripted_consultAsk fuel s.inner syscall s

/-- **The callbacks** with pinentry do what those with the `User` do, who has the script. -/
theorem callbackScript_pinentry (fuel : Nat) :
    CallbackScript writtenDown (fun u k => Told base u.2 k)
      (pinentryCallbacks lib respond ndebug fuel)
      (tracerCallbacks lib ndebug) where
  pid child q := scripted_modify (fun _ => rfl) fun _ => id
  call args q := by
    unfold pinentryCallbacks tracerCallbacks
    refine scripted_get_bind (fun _ => rfl) ?_
    refine scripted_bind ?_ fun syscall q' => ?_
    · refine scripted_of_mirrors (fun m => ?_) fun k hI => ?_
      · exact mirrors_zoom rfl (fun _ => rfl) (mirrors_id _ q.2)
      · exact ends_zoom.mpr (ends_of_forall (fun _ _ => hI) fun _ _ => hI)
    · exact scripted_zoom (fun _ => rfl) (fun _ _ _ => rfl) (fun _ => id) (fun _ _ _ _ hu => hu)
        (scripted_consultCall fuel syscall q'.1.2)

/-- **The step lemma.**  A step with pinentry is one with the `User`, for some script. -/
theorem step_pinentry {s s' : Sys (Parser × Interview (FileConfig Re) ρ)} {mv : Move}
    {k : Script} (htold : Told base s.loop.user.2 k)
    (hs : PinentryStep lib respond ndebug others s mv s') :
    ∃ m, Told base s'.loop.user.2 (k * m) ∧ ∀ rest,
      Step (tracerCallbacks lib ndebug) ndebug others (s.scripted writtenDown (m * rest)) mv
        (s'.scripted writtenDown rest) := by
  obtain ⟨fuel, ⟨hst, hen, rfl⟩, hup⟩ := hs
  obtain ⟨m, htold', hm⟩ := after_scripted (callbackScript_pinentry fuel) htold hup
  refine ⟨m, htold', fun rest => ⟨hst, ?_, (hm rest).symm⟩⟩
  cases mv with
  | create | die | execve | report => exact hen

/-- **The tracer with pinentry is the tracer with a user.**  Each run against any pinentry that no
exception leaves is one with a `User`, with the same moves, through the same states of the kernel,
the table and the loop.  The user's answers are what `PinentryUI::ask` and
`PinentryUI::ask_password` returned in the run, in that order, all of them and no others.  What
pinentry was sent is the commands of the questions asked, in that order, and nothing else. -/
theorem pinentry_refines_user {child : Tid} {p : Parser} {c : FileConfig Re}
    {conn : PinentryConn ρ} {tr : List (Sys (Parser × Interview (FileConfig Re) ρ) × Move)}
    {s : Sys (Parser × Interview (FileConfig Re) ρ)}
    (hrun : Run (PinentryStep lib respond ndebug others)
      (Sys.init child (p, { inner := c, conn := conn, asked := [], answered := 1 })) tr s) :
    s.loop.user.2.conn.sent =
        conn.sent ++ s.loop.user.2.asked.flatMap (fun q => linesOf q.commands) ∧
      ∃ user tr' s', user.asked = [] ∧
        user.confirms = s.loop.user.2.answered.confirms ∧
        user.passwords = s.loop.user.2.answered.passwords ∧
        Run (Step (tracerCallbacks lib ndebug) ndebug others)
          (Sys.init child (p, { inner := c, user := user })) tr' s' ∧
        List.Forall₂ (fun e e' => ∃ m, e' = (e.1.scripted writtenDown m, e.2)) tr tr' ∧
        s' = s.scripted writtenDown 1 := by
  have htold : Told conn.sent (Interview.mk c conn [] 1) 1 := ⟨(List.append_nil _).symm, rfl⟩
  obtain ⟨m, htold', hm⟩ := Run.scripted (Sys.scripted writtenDown)
    (fun s k => Told conn.sent s.loop.user.2 k) htold (fun _ _ _ _ => step_pinentry) hrun
  obtain ⟨tr', hrun', htr⟩ := hm 1
  rw [mul_one] at hrun'
  obtain rfl := htold'.answered
  exact ⟨htold'.sent, ⟨_, _, []⟩, tr', _, rfl, rfl, rfl, hrun', htr, rfl⟩

end Run

/-- The connection as it is after `open`, with an empty log. -/
def answering : PinentryConn Unit :=
  { pinentry := some (), unread := [], junk := fun _ => 0, log := [] }

/-- One call is asked about, which pinentry allows. -/
theorem one_call_consulted :
    ∃ tr s user tr' s',
      Run (PinentryStep askingLib allowing.respond true fun _ => False)
        (Sys.init 1 (bareParser,
          { inner := askingConfig, conn := answering, asked := [], answered := 1 })) tr s ∧
      s.loop.user.2.conn.sent =
        linesOf (Question.ask "syscall(39, 0x0, 0x0, 0x0, 0x0, 0x0, 0x0)".toList).commands ∧
      user.confirms = [true] ∧
      Run (Step (tracerCallbacks askingLib true) true fun _ => False)
        (Sys.init 1 (bareParser, { inner := askingConfig, user := user })) tr' s' ∧
      s'.loop.threadStatus.lookup 1 = some .kernelspaceAllow ∧
      s'.loop.user.2.user.confirms = [] := by
  have h₁ : Run (PinentryStep askingLib allowing.respond true fun _ => False)
      (Sys.init 1 (bareParser,
        { inner := askingConfig, conn := answering, asked := [], answered := 1 })) _ _ :=
    Run.nil.snoc ⟨0, ⟨rfl, enabled_call 1 .enter 39 rfl ⟨rfl, rfl, rfl⟩ rfl, rfl⟩,
      fun _ h => Status.noConfusion h⟩
  obtain ⟨hsent, user, tr', _, -, hconfirms, -, hrun, -, rfl⟩ := pinentry_refines_user h₁
  exact ⟨_, _, user, tr', _, h₁, hsent, hconfirms, hrun, rfl, rfl⟩

end GravelBox
