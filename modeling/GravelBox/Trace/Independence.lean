/-
# Threads do not influence each other

What the loop does for a thread does not depend on the other threads: that is `joint_solo`.
The callbacks are shared too, and one of them goes by a variable of its own: the parser reads
the memory of `target_` (`parser/parser.h`, lines 45 to 48), which `pid_callback` sets.  Here it is
shown that every text is made of the memory of the thread that made the call, whatever other threads
did before (`joint_log`).  `threads_independent` is both.

The variable is set at each enter stop just before the text is made (`trace/tracer.cpp`, lines 117
to 129), and that is all there is to it, but nothing but the order of two lines makes it so: the
type `char*` holds a reference to the variable, set when the parser was constructed, and every call
of every thread goes through it.

What makes this hard to state is that the loop does not know what its callbacks read.  So the second
part is about the callbacks of the tracer, with any decision in the place of theirs, that also log
each text that they decide on (`Logged`); and the texts that the log should have are those of the
events, each with the memory of its own thread.

The answers are another matter.  They come from the configuration, which does not change, and from
the user, who sees one question after the other; that each answer is for the question it was given
to is the subject of `Trace/Referee.lean`.

Not claimed: that threads cannot influence each other through their memory, their files or anything
else that they share.
-/
import GravelBox.Trace.Interleaving
import GravelBox.Trace.Death
import GravelBox.Trace.Decision

namespace GravelBox

open Stateful

/-! ## 1. Whom a call is made for -/

/-- The thread a request or `pid_callback` is given. -/
def Call.tid : Call → Option Tid
  | .getSyscallInfo child | .pidCallback child | .getRegs child => some child
  | .setRegs child _ | .syscall child _ => some child
  | .syscallCallback _ | .answer _ => none

/-- None of these calls is made for another thread. -/
def Concerns (child : Tid) (calls : List Call) : Prop :=
  ∀ c ∈ calls, ∀ t, c.tid = some t → t = child

theorem concerns_append {child : Tid} {cs ds : List Call} :
    Concerns child (cs ++ ds) ↔ Concerns child cs ∧ Concerns child ds := by
  simp only [Concerns, List.mem_append]
  constructor
  · intro h
    exact ⟨fun c hc => h c (Or.inl hc), fun c hc => h c (Or.inr hc)⟩
  · rintro ⟨hcs, hds⟩ c (hc | hc)
    · exact hcs c hc
    · exact hds c hc

theorem Concerns.of_prefix {child : Tid} {cs ds : List Call} (h : Concerns child ds)
    (hcs : cs <+: ds) : Concerns child cs := fun c hc => h c (hcs.subset hc)

theorem concerns_deniedCalls (child : Tid) (info : SyscallInfo) (regs : UserRegs) :
    Concerns child (deniedCalls child info regs) := by
  simp [Concerns, deniedCalls, enterCalls, Call.tid]

theorem concerns_allowedCalls (child : Tid) (info : SyscallInfo) :
    Concerns child (allowedCalls child info) := by
  simp [Concerns, allowedCalls, enterCalls, Call.tid]

theorem concerns_exitDeniedCalls (child : Tid) (regs : UserRegs) :
    Concerns child (exitDeniedCalls child regs) := by
  simp [Concerns, exitDeniedCalls, Call.tid]

theorem concerns_syscall (child : Tid) : Concerns child [.syscall child 0] := by
  simp [Concerns, Call.tid]

section Calls

variable {σ : Type} {child : Tid} {stopsig : Nat} {h h' : Handling σ}

theorem Dispatched.concerns (hd : Dispatched child stopsig h h') (hc : Concerns child h.calls) :
    Concerns child h'.calls := by
  cases hd with
  | attached | ignored | exitAllowed => exact hc
  | allowed _ _ ha =>
    rw [ha.calls, concerns_append]
    exact ⟨hc, concerns_allowedCalls _ _⟩
  | denied _ _ hd =>
    rw [hd.calls, concerns_append]
    exact ⟨hc, concerns_deniedCalls _ _ _⟩
  | exitDenied _ _ hx =>
    simp only [hx.calls, concerns_append]
    exact ⟨hc, concerns_exitDeniedCalls _ _⟩

theorem DispatchCut.concerns {f : Fault} (hcut : DispatchCut child stopsig h f h')
    (hc : Concerns child h.calls) : Concerns child h'.calls := by
  cases hcut with
  | unregistered => exact hc
  | enter _ _ hcut =>
    exact Concerns.of_prefix (concerns_append.mpr ⟨hc, concerns_deniedCalls _ _ _⟩) hcut.calls
  | exit _ _ hcut =>
    exact Concerns.of_prefix (concerns_append.mpr ⟨hc, concerns_exitDeniedCalls _ _⟩) hcut.calls

/-- The calls of a turn are made for the thread whose event it handles. -/
theorem callsOf_concerns (cb : Callbacks σ) (ndebug : Bool) (e : Event) (s : Loop σ) :
    Concerns e.child (callsOf cb ndebug e s) := by
  have hstart : Concerns e.child (Handling.start s e).calls := List.forall_mem_nil _
  rcases e.wstatus.stopped_or_isExit with ⟨stopsig, hw⟩ | hexit
  · rw [callsOf_of_stopped hw]
    cases hr : handled cb ndebug e stopsig s with
    | ok _ h =>
      obtain ⟨h₁, hd, -, rfl⟩ := handled_ok hr
      exact concerns_append.mpr ⟨hd.concerns hstart, concerns_syscall _⟩
    | error f h =>
      rcases handled_error hr with hcut | ⟨h₁, hd, -, rfl, -⟩
      · exact hcut.concerns hstart
      · exact concerns_append.mpr ⟨hd.concerns hstart, concerns_syscall _⟩
  · rw [callsOf_of_isExit hexit]
    exact List.forall_mem_nil _

theorem joint_concerns (cb : Callbacks σ) (ndebug : Bool) (es : List Event) :
    ∀ s : Loop σ, ∀ r ∈ (joint cb ndebug s es).1, Concerns r.event.child r.calls := by
  induction es with
  | nil => exact fun s => List.forall_mem_nil _
  | cons e es ih =>
    intro s
    have hround : Concerns e.child (callsOf cb ndebug e s) := callsOf_concerns cb ndebug e s
    unfold joint
    cases body cb ndebug e s with
    | next s' => exact List.forall_mem_cons.mpr ⟨hround, ih s'⟩
    | returned code s' | threw f s' => exact List.forall_mem_singleton.mpr hround

end Calls

/-! ## 2. The texts -/

/-- The objects the callbacks of `Tracer::run` refer to: the parser, a logger that keeps what
it is given, and the rest. -/
structure Tracing (π : Type) where
  parser : Parser
  /-- The texts written, each with the `target_` it was made for. -/
  log : List (Tid × Str)
  rest : π

/-- The callbacks of `Tracer::run`.  What they do with a text once it is logged is `decide`,
a program on the rest. -/
def loggingCallbacks {π : Type} (decide : Str → EStateM Fault π Bool) (ndebug : Bool) :
    Callbacks (Tracing π) where
  pidCallback child := modify fun (u, w) => ({ u with parser := u.parser.setpid child }, w)
  syscallCallback args := do
    let (u, _) ← get
    let syscall ← zoom Prod.snd (fun s w => (s.1, w)) (u.parser.call ndebug args)
    modify fun (u, w) => ({ u with log := u.log ++ [(u.parser.target, syscall)] }, w)
    zoom (fun s => s.1.rest) (fun s x => ({ s.1 with rest := x }, s.2)) (decide syscall)

section Tracer

variable {Re : Type} (lib : Libraries Re)

/-- The log, hidden. -/
def unlogged {π : Type} (s : Tracing π × World) : (Parser × π) × World :=
  ((s.1.parser, s.1.rest), s.2)

theorem mirrors_pidCallback (ndebug : Bool) (child : Tid)
    (s : Tracing (Session (FileConfig Re)) × World) :
    Mirrors unlogged ((loggingCallbacks (decideCall lib) ndebug).pidCallback child)
      ((tracerCallbacks lib ndebug).pidCallback child) s :=
  mirrors_modify rfl

/-- The callbacks of the tracer are these, with the switch on the action for `decide`: the
log is only kept. -/
theorem mirrors_syscallCallback (ndebug : Bool) (args : SyscallArgs)
    (s : Tracing (Session (FileConfig Re)) × World) :
    Mirrors unlogged ((loggingCallbacks (decideCall lib) ndebug).syscallCallback args)
      ((tracerCallbacks lib ndebug).syscallCallback args) s := by
  refine mirrors_get_bind (mirrors_bind_of_forall ?_ fun syscall s' => ?_)
  · exact mirrors_zoom rfl (fun _ => rfl) (mirrors_id _ _)
  · refine mirrors_hidden rfl ?_
    exact mirrors_zoom rfl (fun _ => rfl) (mirrors_id _ _)

end Tracer

/-- The texts of a turn: one for each call of `syscall_callback`, of the memory of the thread
whose stop is handled. -/
def textsOf (p : Parser) (m : Memory) (child : Tid) (calls : List Call) : List (Tid × Str) :=
  calls.filterMap fun c => match c with
    | .syscallCallback args => some (child, p.text m args)
    | _ => none

def Round.texts (p : Parser) (r : Round) : List (Tid × Str) :=
  textsOf p (r.event.mem r.event.child) r.event.child r.calls

theorem textsOf_append (p : Parser) (m : Memory) (child : Tid) (cs ds : List Call) :
    textsOf p m child (cs ++ ds) = textsOf p m child cs ++ textsOf p m child ds :=
  List.filterMap_append

/-- The text of a call depends only on the definitions. -/
theorem text_congr {p p' : Parser} (h : p.syscallMap = p'.syscallMap) (m : Memory)
    (args : SyscallArgs) : p.text m args = p'.text m args := by
  unfold Parser.text Parser.defOf
  rw [h]

section Log

variable {π : Type} {decide : Str → EStateM Fault π Bool} {ndebug : Bool} {p : Parser}

/-- The parser renders by the definitions of `p`, and the log goes on with these texts. -/
structure Logged (p : Parser) (log texts : List (Tid × Str)) (u : Tracing π) : Prop where
  map : u.parser.syscallMap = p.syscallMap
  log : u.log = log ++ texts

/-- The same when a fault `f` ended the turn: the last text is missing if the parser threw,
and then the fault leaves the loop. -/
def LoggedCut (p : Parser) (log texts : List (Tid × Str)) (f : Fault) (u : Tracing π) : Prop :=
  Logged p log texts u ∨ (Escapes f ∧ u.log <+: log ++ texts)

/-- **The question.**  The text is of the memory of the parser's target. -/
theorem syscallCallback_log (args : SyscallArgs) (u : Tracing π) (w : World) :
    Ends ((loggingCallbacks decide ndebug).syscallCallback args) (u, w)
      (fun _ s => s.1.parser = u.parser ∧
        s.1.log = u.log ++ [(u.parser.target, u.parser.text (w.mem u.parser.target) args)])
      (fun f s => (s.1.parser = u.parser ∧
        s.1.log = u.log ++ [(u.parser.target, u.parser.text (w.mem u.parser.target) args)]) ∨
          (Escapes f ∧ s.1.log = u.log)) := by
  simp only [loggingCallbacks, ends_bind, ends_get, ends_zoom, ends_modify]
  refine (u.parser.call_spec ndebug args w).mono ?_ ?_
  · rintro syscall w' ⟨rfl, -, -, -⟩
    exact ends_of_forall (fun _ _ => ⟨trivial, rfl⟩) fun _ _ => Or.inl ⟨trivial, rfl⟩
  · rintro f w' ⟨hescapes, -⟩
    exact Or.inr ⟨hescapes, trivial⟩

variable {log : List (Tid × Str)} {m : Memory} {child : Tid} {h h' : Handling (Tracing π)}

/-- While a stop of `child`, with memory `m`, is handled. -/
abbrev LoggedAt (p : Parser) (log : List (Tid × Str)) (m : Memory) (child : Tid)
    (h : Handling (Tracing π)) : Prop := Logged p log (textsOf p m child h.calls) h.user

/-- A call without a text. -/
theorem Logged.note {calls : List Call} {u : Tracing π} {c : Call}
    (hl : Logged p log (textsOf p m child calls) u) (hc : textsOf p m child [c] = []) :
    Logged p log (textsOf p m child (calls ++ [c])) u := by
  rw [textsOf_append, hc, List.append_nil]
  exact hl

theorem ends_logging_pidCallback {s : Tracing π × World} {Q : Unit → Tracing π × World → Prop}
    {R : Fault → Tracing π × World → Prop} :
    Ends ((loggingCallbacks decide ndebug).pidCallback child) s Q R ↔
      Q () ({ s.1 with parser := s.1.parser.setpid child }, s.2) := Iff.rfl

/-- **The enter stop.**  The parser's target is the thread that stopped. -/
theorem syscallEnterStop_log (hl : LoggedAt p log (h.world.mem child) child h) :
    Ends (syscallEnterStop (loggingCallbacks decide ndebug) ndebug child) h
      (fun _ h' => LoggedAt p log (h.world.mem child) child h')
      (fun f h' => LoggedCut p log (textsOf p (h.world.mem child) child h'.calls) f h'.user) := by
  simp only [syscallEnterStop, ptraceGetSyscallInfo, ends_bind, ends_issue, ends_get, ends_pure]
  have hinfo : Logged p log (textsOf p (h.world.mem child) child
      (h.calls ++ [.getSyscallInfo child])) h.user := hl.note rfl
  refine ⟨fun _ => ?_, fun _ => Or.inl hinfo⟩
  refine ends_cAssert (ends_cAssert ?_ (Or.inl hinfo)) (Or.inl hinfo)
  simp only [ends_modify, ends_callback, ends_logging_pidCallback]
  have htext : textsOf p (h.world.mem child) child (h.calls ++ [.getSyscallInfo child] ++
      [.pidCallback child] ++ [.syscallCallback h.info.toArgs]) =
        textsOf p (h.world.mem child) child h.calls ++
          [(child, (h.user.parser.setpid child).text (h.world.mem child) h.info.toArgs)] := by
    simp only [textsOf_append]
    rw [text_congr (p := h.user.parser.setpid child) hl.map]
    simp [textsOf]
  have hasked : ∀ u : Tracing π, u.parser = h.user.parser.setpid child →
      u.log = h.user.log ++ [(child,
        (h.user.parser.setpid child).text (h.world.mem child) h.info.toArgs)] →
      Logged p log (textsOf p (h.world.mem child) child (h.calls ++ [.getSyscallInfo child] ++
        [.pidCallback child] ++ [.syscallCallback h.info.toArgs])) u := by
    intro u hparser hlog
    refine ⟨(congrArg Parser.syscallMap hparser).trans hl.map, ?_⟩
    rw [htext, ← List.append_assoc, ← hl.log, hlog]
  refine (syscallCallback_log h.info.toArgs { h.user with parser := h.user.parser.setpid child }
    h.world.tick).mono ?_ ?_
  · rintro allowed ⟨u, w⟩ ⟨hparser, hlog⟩
    have hanswer := (hasked u hparser hlog).note (c := .answer allowed) rfl
    cases allowed with
    | true => exact hanswer
    | false =>
      simp only [Bool.false_eq_true, if_false, ptraceGetRegs, ptraceSetRegs, setStatus, ends_bind,
        ends_issue, ends_get, ends_pure, ends_modify]
      have hregs := hanswer.note (c := .getRegs child) rfl
      exact ⟨fun _ => ⟨fun _ => hregs.note rfl, fun _ => Or.inl (hregs.note rfl)⟩,
        fun _ => Or.inl hregs⟩
  · rintro f ⟨u, w⟩ (⟨hparser, hlog⟩ | ⟨hescapes, hlog⟩)
    · exact Or.inl (hasked u hparser hlog)
    · -- the parser threw
      refine Or.inr ⟨hescapes, ?_⟩
      rw [htext, ← List.append_assoc, ← hl.log]
      exact ⟨_, congrArg (· ++ _) hlog⟩

/-- **The switch.**  Only at an enter stop there is a text. -/
theorem dispatchStop_log (stopsig : Nat) (hl : LoggedAt p log (h.world.mem child) child h) :
    Ends (dispatchStop (loggingCallbacks decide ndebug) ndebug child stopsig) h
      (fun _ h' => LoggedAt p log (h.world.mem child) child h')
      (fun f h' => LoggedCut p log (textsOf p (h.world.mem child) child h'.calls) f h'.user) := by
  simp only [dispatchStop, ends_bind, ends_get]
  by_cases hstop : stopsig = SIGSTOP
  · rw [if_pos hstop]
    split
    · exact hl
    · exact hl
  · rw [if_neg hstop]
    by_cases hsys : stopsig = SIGTRAP_SYSGOOD
    · rw [if_pos hsys]
      cases h.threadStatus.lookup child with
      | none => exact Or.inl hl
      | some st =>
        cases st with
        | userspace => exact syscallEnterStop_log hl
        | kernelspaceAllow => exact hl
        | kernelspaceDeny =>
          simp only [deniedExitStop, ptraceGetRegs, ptraceSetRegs, setStatus, ends_bind,
            ends_issue, ends_get, ends_pure, ends_modify]
          have hregs := hl.note (c := .getRegs child) rfl
          exact ⟨fun _ => ⟨fun _ => hregs.note rfl, fun _ => Or.inl (hregs.note rfl)⟩,
            fun _ => Or.inl hregs⟩
    · rw [if_neg hsys]
      exact hl

theorem handleStop_log (stopsig : Nat) (hl : LoggedAt p log (h.world.mem child) child h) :
    Ends (handleStop (loggingCallbacks decide ndebug) ndebug child stopsig) h
      (fun _ h' => LoggedAt p log (h.world.mem child) child h')
      (fun f h' => LoggedCut p log (textsOf p (h.world.mem child) child h'.calls) f h'.user) := by
  simp only [handleStop, ptraceSyscall, ends_bind, ends_issue, ends_modify]
  refine (dispatchStop_log stopsig hl).mono (fun _ h' hl' => ?_) fun _ _ hcut => hcut
  exact ⟨fun _ => hl'.note rfl, fun _ => Or.inl (hl'.note rfl)⟩

/-! ## 3. A turn, and a run -/

/-- The log of the loop's state goes on with these texts, or with a part of them if an
exception left the loop. -/
def Goes (p : Parser) (log texts : List (Tid × Str)) (o : Outcome (Tracing π)) : Prop :=
  o.loop.user.log <+: log ++ texts ∧
    ((∀ f, o.status ≠ .threw f) → Logged p log texts o.loop.user)

theorem Logged.goes {texts : List (Tid × Str)} {o : Outcome (Tracing π)}
    (hl : Logged p log texts o.loop.user) : Goes p log texts o :=
  ⟨hl.log ▸ List.prefix_rfl, fun _ => hl⟩

/-- One turn after another. -/
theorem Goes.after {texts texts' : List (Tid × Str)} {u : Tracing π} {o : Outcome (Tracing π)}
    (hl : Logged p log texts u) (h : Goes p u.log texts' o) : Goes p log (texts ++ texts') o := by
  obtain ⟨hpre, hall⟩ := h
  rw [hl.log, List.append_assoc] at hpre
  refine ⟨hpre, fun hstatus => ?_⟩
  obtain ⟨hmap, hlog⟩ := hall hstatus
  exact ⟨hmap, by rw [hlog, hl.log, List.append_assoc]⟩

/-- **The turn lemma.** -/
theorem body_log (e : Event) {s : Loop (Tracing π)}
    (hmap : s.user.parser.syscallMap = p.syscallMap) :
    Goes p s.user.log ((roundAt (loggingCallbacks decide ndebug) ndebug e s).texts p)
      (body (loggingCallbacks decide ndebug) ndebug e s) := by
  have hnone : Logged p s.user.log [] s.user := ⟨hmap, (List.append_nil _).symm⟩
  rcases e.wstatus.stopped_or_isExit with ⟨stopsig, hw⟩ | hexit
  · have hends : Ends (handleStop (loggingCallbacks decide ndebug) ndebug e.child stopsig)
      (.start s e) _ _ := handleStop_log stopsig hnone
    have hloop : (body (loggingCallbacks decide ndebug) ndebug e s).loop.user = _ :=
      congrArg Loop.user (body_stop_loop hw)
    rw [Round.texts, roundAt, callsOf_of_stopped hw]
    cases hr : handled (loggingCallbacks decide ndebug) ndebug e stopsig s with
    | ok _ h =>
      rw [hr] at hloop
      refine Logged.goes ?_
      rw [hloop]
      exact hends.of_ok hr
    | error f h =>
      rw [hr] at hloop
      rcases hends.of_error hr with hl | ⟨hescapes, hpre⟩
      · refine Logged.goes ?_
        rw [hloop]
        exact hl
      · refine ⟨hloop ▸ hpre, fun hstatus => ?_⟩
        rw [body_of_stopped hw] at hstatus
        exact absurd (catchTurn_status_iff.mp hstatus f h hr) (hescapes ESRCH)
  · refine Logged.goes ?_
    rw [Round.texts, roundAt, callsOf_of_isExit hexit, body_exit_loop hexit]
    exact hnone

/-- **The run lemma.**  The texts are those of the turns, in order. -/
theorem joint_log (decide : Str → EStateM Fault π Bool) (ndebug : Bool) (p : Parser)
    (es : List Event) : ∀ s : Loop (Tracing π), s.user.parser.syscallMap = p.syscallMap →
    Goes p s.user.log
      ((joint (loggingCallbacks decide ndebug) ndebug s es).1.flatMap (Round.texts p))
      (joint (loggingCallbacks decide ndebug) ndebug s es).2 := by
  induction es with
  | nil =>
    intro s hmap
    exact Logged.goes ⟨hmap, (List.append_nil _).symm⟩
  | cons e es ih =>
    intro s hmap
    have hturn : Goes p s.user.log _ (body (loggingCallbacks decide ndebug) ndebug e s) :=
      body_log e hmap
    unfold joint
    cases hb : body (loggingCallbacks decide ndebug) ndebug e s with
    | next s' =>
      rw [hb] at hturn
      have hl : Logged p s.user.log _ s'.user := hturn.2 fun f hf => Status.noConfusion hf
      exact Goes.after hl (ih s' hl.map)
    | returned code s' | threw f s' =>
      rw [hb] at hturn
      rwa [List.flatMap_singleton]

end Log

/-! ## 4. Both -/

/-- **Threads do not influence each other.**  In every run, over any events of any number of
threads, the calls made for a thread and its entry are those of the run over its own events,
whatever the callbacks are and do; no call is made for another thread than the one whose
event is handled; and with the callbacks of the tracer each text is of the memory of the
thread that made the call. -/
theorem threads_independent (ndebug : Bool) (child : Tid) (es : List Event) :
    (∀ (σ : Type) (cb : Callbacks σ) (u : σ) (t : Tid),
      let run := joint cb ndebug ⟨initialTable child, u⟩ es
      let alone := solo ndebug ⟨ownTable child t, ()⟩ (turnsOf t run.1)
      alone.1 = (roundsOf t run.1).map Round.calls ∧
        alone.2.threadStatus.lookup t = run.2.loop.threadStatus.lookup t ∧
          ((turnsOf t run.1).map Prod.fst <+: es.filter fun e => e.child = t) ∧
            ∀ r ∈ run.1, Concerns r.event.child r.calls) ∧
    ∀ (π : Type) (decide : Str → EStateM Fault π Bool) (p : Parser) (x : π),
      let run := joint (loggingCallbacks decide ndebug) ndebug ⟨initialTable child, ⟨p, [], x⟩⟩ es
      run.2.loop.user.log <+: run.1.flatMap (Round.texts p) ∧
        ((∀ f, run.2.status ≠ .threw f) →
          run.2.loop.user.log = run.1.flatMap (Round.texts p)) := by
  refine ⟨fun σ cb u t => ?_, fun π decide p x => ?_⟩
  · have hsolo := joint_solo cb ndebug t es ⟨initialTable child, u⟩
    unfold Solo at hsolo
    rw [ownLoop, restrict_initialTable] at hsolo
    simp only [hsolo]
    exact ⟨trivial, lookup_restrict _ _, turnsOf_events cb ndebug t es _,
      joint_concerns cb ndebug es _⟩
  · obtain ⟨hpre, hall⟩ :=
      joint_log decide ndebug p es ⟨initialTable child, ⟨p, [], x⟩⟩ rfl
    exact ⟨hpre, fun hstatus => (hall hstatus).log⟩

end GravelBox
