/-
# No tracee is left waiting

A stopped tracee waits for the tracer to resume it, and the tracer waits for a report.  The loop
(`trace/tracer.cpp`, lines 89 to 171) goes on without resuming a tracee only where it takes an
exception for the death of that tracee.  With the callbacks of the tracer it is never wrong about
that: they do not let `ESRCH` out, so the exception comes from a request on the stopped tracee.

`never_stuck`: while the loop runs, every tracee that lives can make its next report, and where
only the leaders of thread groups execute programs `waitpid` always has something to wait for.

The handler does not ask where an `ESRCH` came from.  If a callback let one out, of a process of its
own that is gone, the handler would take it for the death of the tracee and leave that stopped for
ever.  So the first part is about callbacks: what each program in them can throw, through the
parser, the search of the configuration and the questions to the user (`syscallCallback_throws`).

The second part is an invariant of runs: a tracee that is held in a stop is dead (`Awake`).  A dead
one can always be reported, but for a leader whose thread group is not gone yet, and then somebody
else of the group can be; so there is a report as long as there is a tracee, and there is a tracee
as long as the table is not empty and no tid in it has vanished.

Not claimed: that a report comes in the end.  A tracee may compute for ever, and the scheduler may
leave one alone; what is shown is that nothing the tracer did stands in the way.
-/
import GravelBox.Trace.Death
import GravelBox.Trace.Lifetime
import GravelBox.Trace.Referee

namespace GravelBox

open Stateful Runs

variable {Re : Type} {lib : Libraries Re} {ndebug : Bool} {others : Tid → Prop}

/-! ## 1. What is taken for a death -/

/-- What asking for a password throws: that the user is gone, or what the test throws. -/
theorem askUntil_throws {σ : Type} {P : Fault → Prop} {message prompt again : Str}
    {verify : Str → EStateM Fault σ Bool} (hP : P .iosFailure)
    (hverify : ∀ k t, Ends (verify k) t (fun _ _ => True) fun f _ => P f) (s : Session σ) :
    Ends (askUntil message prompt again verify) s (fun _ _ => True) fun f _ => P f := by
  have hgo : ∀ (answers : List Password) (error : Str) (s : Session σ),
      Ends (askUntil.go message prompt again verify error answers) s (fun _ _ => True)
        fun f _ => P f := by
    intro answers
    induction answers with
    | nil =>
      intro error s
      simp only [askUntil.go, askUntil.asked, ends_bind, ends_modify, ends_throw]
      exact hP
    | cons p answers ih =>
      intro error s
      simp only [askUntil.go, askUntil.asked, ends_bind, ends_modify]
      by_cases hcancel : p.cancelled = true
      · rw [if_pos hcancel]
        trivial
      · rw [if_neg hcancel, ends_bind, withoutUser, ends_zoom]
        refine (hverify p.password s.inner).mono ?_ fun _ _ hf => hf
        intro b t' _
        cases b with
        | true => trivial
        | false => exact ih again _
  exact hgo s.user.passwords [] s

theorem iosFailure_not_recovers : ¬ Recovers .iosFailure := by
  unfold Recovers
  decide

/-- The switch throws only if the user is gone. -/
theorem decideCall_throws (text : Str) (t : Session (FileConfig Re)) :
    Ends (decideCall lib text) t (fun _ _ => True) fun f _ => ¬ Recovers f := by
  have hask : Ends (decideAsk lib t.inner text) t (fun _ _ => True) fun f _ => ¬ Recovers f := by
    rw [decideAsk, ends_bind]
    have hgone : Ends (Session.ask text) t (fun _ _ => True) fun f _ => ¬ Recovers f := by
      unfold Ends EStateM.run Session.ask
      cases t.user.confirms with
      | nil => exact iosFailure_not_recovers
      | cons answer answers => trivial
    refine hgone.mono ?_ fun _ _ hf => hf
    intro answer t' _
    cases answer with
    | false => trivial
    | true =>
      rw [Bool.not_true, if_neg Bool.false_ne_true]
      by_cases hpassword : (!t.inner.hasPassword) = true
      · rw [if_pos hpassword]
        trivial
      · rw [if_neg hpassword]
        refine askUntil_throws iosFailure_not_recovers (fun k u => ?_) t'
        simp only [ends_bind, ends_get, ends_pure]
  unfold Ends at hask ⊢
  rw [run_decideCall]
  cases t.inner.getAction lib text with
  | allow | deny => trivial
  | ask => exact hask

/-- **The callbacks do not let `ESRCH` out**: the parser, which reads the target's memory, is
`noexcept`. -/
theorem syscallCallback_throws (args : SyscallArgs)
    (u : (Parser × Session (FileConfig Re)) × World) :
    Ends ((tracerCallbacks lib ndebug).syscallCallback args) u (fun _ _ => True)
      fun f _ => ¬ Recovers f := by
  simp only [tracerCallbacks, ends_bind, ends_get, ends_zoom]
  refine (u.1.1.call_spec ndebug args u.2).mono ?_ fun f _ hf => hf.1 ESRCH
  intro text w _
  exact decideCall_throws text u.1.2

/-- A fault is taken for a death only where the tracee is dead. -/
def Justified {σ : Type} (f : Fault) (h : Handling σ) : Prop := Recovers f → h.world.dead

/-- The enter stop. -/
theorem syscallEnterStop_justified {child : Tid}
    (h : Handling (Parser × Session (FileConfig Re))) :
    Ends (syscallEnterStop (tracerCallbacks lib ndebug) ndebug child) h (fun _ _ => True)
      Justified := by
  simp only [syscallEnterStop, ptraceGetSyscallInfo, ends_bind, ends_issue, ends_get, ends_pure]
  refine ⟨fun _ => ?_, fun hdead _ => hdead⟩
  refine ends_cAssert (ends_cAssert ?_ nofun) nofun
  simp only [ends_modify, ends_callback, ends_tracerPidCallback]
  refine (syscallCallback_throws _ _).mono ?_ fun f _ hf hrec => absurd hrec hf
  intro allowed p _
  cases allowed with
  | true => trivial
  | false =>
    simp only [Bool.false_eq_true, if_false, ptraceGetRegs, ptraceSetRegs, setStatus, ends_bind,
      ends_issue, ends_get, ends_pure, ends_modify]
    exact ⟨fun _ => ⟨fun _ => trivial, fun hdead _ => hdead⟩, fun hdead _ => hdead⟩

/-- Any stop. -/
theorem dispatchStop_justified {child : Tid} {stopsig : Nat}
    (h : Handling (Parser × Session (FileConfig Re))) :
    Ends (dispatchStop (tracerCallbacks lib ndebug) ndebug child stopsig) h (fun _ _ => True)
      Justified := by
  simp only [dispatchStop, ends_bind, ends_get]
  by_cases hstop : stopsig = SIGSTOP
  · rw [if_pos hstop]
    by_cases hnew : h.threadStatus.lookup child = none
    · rw [if_pos hnew]
      trivial
    · rw [if_neg hnew]
      trivial
  · rw [if_neg hstop]
    by_cases hsys : stopsig = SIGTRAP_SYSGOOD
    · rw [if_pos hsys]
      cases h.threadStatus.lookup child with
      | none => exact fun hrec => Fault.noConfusion hrec
      | some st =>
        cases st with
        | userspace => exact syscallEnterStop_justified h
        | kernelspaceAllow => trivial
        | kernelspaceDeny =>
          simp only [deniedExitStop, ptraceGetRegs, ptraceSetRegs, setStatus, ends_bind,
            ends_issue, ends_get, ends_pure, ends_modify]
          exact ⟨fun _ => ⟨fun _ => trivial, fun hdead _ => hdead⟩, fun hdead _ => hdead⟩
    · rw [if_neg hsys]
      trivial

/-- **The whole handling of a stop.**  It ends with the tracee resumed; or with a fault, which is
`ESRCH` only if the tracee is dead. -/
theorem handled_justified {e : Event} {stopsig : Nat}
    {l : Loop (Parser × Session (FileConfig Re))} {f : Fault}
    {h : Handling (Parser × Session (FileConfig Re))}
    (hr : handled (tracerCallbacks lib ndebug) ndebug e stopsig l = .error f h) :
    Justified f h := by
  have hends : Ends (handleStop (tracerCallbacks lib ndebug) ndebug e.child stopsig)
      (.start l e) (fun _ _ => True) Justified := by
    simp only [handleStop, ptraceSyscall, ends_bind, ends_issue, ends_modify]
    refine (dispatchStop_justified _).mono (fun _ h _ => ?_) fun _ _ hf => hf
    exact ⟨fun _ => trivial, fun hdead _ => hdead⟩
  exact hends.of_error hr

/-- While the loop goes on, a tracee that was not resumed is dead. -/
theorem resumed_or_dead {e : Event} {stopsig : Nat}
    {l : Loop (Parser × Session (FileConfig Re))}
    (hnext : (catchTurn (handled (tracerCallbacks lib ndebug) ndebug e stopsig l)).status =
      .running) :
    let h := endState (handled (tracerCallbacks lib ndebug) ndebug e stopsig l)
    h.resumed = none → h.world.dead := by
  intro h hnone
  cases hr : handled (tracerCallbacks lib ndebug) ndebug e stopsig l with
  | ok _ h' =>
    have hsome := handled_ok_resumed hr
    simp only [h, hr, endState] at hnone
    cases hnone.symm.trans hsome
  | error f h' =>
    have hrec : Recovers f := by
      refine catchTurn_status_iff.mp (fun f' hthrew => ?_) f h' hr
      rw [hnext] at hthrew
      cases hthrew
    simp only [h, hr, endState]
    exact handled_justified hr hrec

/-! ## 2. The invariant -/

/-- What is true of every tracee while the loop runs. -/
structure Thread.Awake (th : Thread) : Prop where
  /-- It is left in a stop only if it is dead. -/
  held : th.held = true → th.dead ≠ none
  ended : ∀ st, th.dead = some st → st.isExit
  /-- Before its first stop it is in no call. -/
  fresh : th.started = false → th.held = false ∧ th.next = .enter

/-- While the loop runs, every tracee is awake. -/
def Awake {σ : Type} (s : Sys σ) : Prop :=
  s.status = .running → ∀ t th, s.kern t = some th → th.Awake

theorem Thread.Awake.afterStop {σ : Type} {cause : Cause} {h : Handling σ} (th : Thread)
    (hdead : h.resumed = none → h.world.dead) : (th.afterStop cause h).Awake where
  held hheld := by
    simp only [Thread.afterStop, Option.isNone_iff_eq_none] at hheld ⊢
    rw [if_pos (hdead hheld)]
    exact Option.some_ne_none _
  ended st hst := by
    simp only [Thread.afterStop] at hst
    split at hst
    · cases hst
      rfl
    · cases hst
  fresh := nofun

/-- A step that changes the record of one tid only. -/
theorem awake_update {k : Kernel} {u : Tid} {o : Option Thread}
    (h : ∀ t th, k t = some th → th.Awake) (ho : ∀ th, o = some th → th.Awake) :
    ∀ t th, Function.update k u o t = some th → th.Awake := by
  intro t th hth
  rcases eq_or_ne t u with rfl | ht
  · rw [Function.update_self] at hth
    exact ho th hth
  · rw [Function.update_of_ne ht] at hth
    exact h t th hth

/-- **The step lemma.** -/
theorem step_awake {s s' : TracerSys Re} {m : Move} (h : Awake s)
    (hs : Step (tracerCallbacks lib ndebug) ndebug others s m s') : Awake s' := by
  obtain ⟨hst, hen, rfl⟩ := hs
  have hall := h hst
  intro hst'
  cases m with
  | create c u thread =>
    refine awake_update hall ?_
    rintro th ⟨⟩
    exact ⟨fun h => absurd h Bool.false_ne_true, fun _ h => absurd h.symm (Option.some_ne_none _),
      fun _ => ⟨rfl, rfl⟩⟩
  | die u st =>
    obtain ⟨⟨th, hth, -⟩, hexit⟩ := hen
    have hok := hall u th hth
    refine awake_update hall ?_
    rw [hth]
    rintro th' ⟨⟩
    refine ⟨fun _ => Option.some_ne_none _, ?_, hok.fresh⟩
    rintro st' ⟨⟩
    exact hexit
  | execve u =>
    obtain ⟨th, hth, -, -⟩ := hen
    have hok := hall u th hth
    simp only [Sys.after, hth, Kernel.execve]
    refine awake_update (awake_update hall fun _ h => absurd h.symm (Option.some_ne_none _)) ?_
    rintro th' ⟨⟩
    exact ⟨hok.held, hok.ended, hok.fresh⟩
  | report cause e =>
    rcases e.wstatus.stopped_or_isExit with ⟨stopsig, hw⟩ | hexit
    · obtain ⟨th, hth, -⟩ := Reports.stopped hen hw
      have hnext : (catchTurn (handled (tracerCallbacks lib ndebug) ndebug e stopsig
          s.loop)).status = .running := by
        rw [← body_of_stopped hw, ← hst']
        simp only [Sys.after, hw]
      rw [after_stop_kern hw, hth]
      refine awake_update hall ?_
      rintro th' ⟨⟩
      exact Thread.Awake.afterStop th (resumed_or_dead hnext)
    · rw [after_exit_kern hexit]
      exact awake_update hall fun _ h => absurd h.symm (Option.some_ne_none _)

theorem init_awake (child : Tid) (u : Parser × Session (FileConfig Re)) :
    Awake (Sys.init child u) := by
  intro _
  refine awake_update nofun ?_
  rintro th ⟨⟩
  exact ⟨nofun, nofun, nofun⟩

/-! ## 3. What can be reported -/

/-- A living tracee that is awake can make its next stop. -/
theorem Thread.Awake.reports {k : Kernel} {t : Tid} {th : Thread} (h : th.Awake)
    (hth : k t = some th) (halive : th.dead = none) :
    ∃ cause e, e.child = t ∧ e.wstatus.isExit = false ∧ Reports others k e cause := by
  have hheld : th.held = false := Bool.eq_false_iff.mpr fun hheld => h.held hheld halive
  cases hst : th.started with
  | false =>
    exact ⟨.attach, .plain t (.stopped SIGSTOP) .none 0, rfl, rfl,
      .attach hth halive hst hheld (h.fresh hst).2 rfl⟩
  | true =>
    exact ⟨.syscall, .plain t (.stopped SIGTRAP_SYSGOOD) th.next.op 0, rfl, rfl,
      .syscall hth ⟨halive, hst, hheld⟩ rfl (Or.inr rfl) rfl⟩

/-- Where there is a tracee there is something to report. -/
theorem exists_report {k : Kernel} (h : ∀ t th, k t = some th → th.Awake) {t : Tid}
    (ht : k t ≠ none) : ∃ cause e, k e.child ≠ none ∧ Reports others k e cause := by
  have hdead : ∀ u thu st, k u = some thu → thu.dead = some st →
      (thu.tgid = u → ∀ v, v ≠ u → ∀ thv, k v = some thv → thv.tgid ≠ u) →
      ∃ cause e, k e.child ≠ none ∧ Reports others k e cause := by
    intro u thu st hu hst hlast
    exact ⟨.exit, .plain u st .none 0, by rw [Event.plain, hu]; exact Option.some_ne_none _,
      .exit hu hst ((h u thu hu).ended st hst) hlast⟩
  by_cases hlive : ∃ u thu, k u = some thu ∧ thu.dead = none
  · obtain ⟨u, thu, hu, halive⟩ := hlive
    obtain ⟨cause, e, rfl, -, hrep⟩ := (h u thu hu).reports hu halive
    exact ⟨cause, e, by rw [hu]; exact Option.some_ne_none _, hrep⟩
  · have hall : ∀ u thu, k u = some thu → ∃ st, thu.dead = some st := by
      intro u thu hu
      exact Option.ne_none_iff_exists'.mp fun hnone => hlive ⟨u, thu, hu, hnone⟩
    -- a thread that is no leader goes first, a leader only when there is none
    by_cases hother : ∃ u thu, k u = some thu ∧ thu.tgid ≠ u
    · obtain ⟨u, thu, hu, hne⟩ := hother
      obtain ⟨st, hst⟩ := hall u thu hu
      exact hdead u thu st hu hst fun hlead => absurd hlead hne
    · obtain ⟨th, hth⟩ := Option.ne_none_iff_exists'.mp ht
      obtain ⟨st, hst⟩ := hall t th hth
      refine hdead t th st hth hst fun _ v hv thv hthv hgroup => hother ⟨v, thv, hthv, ?_⟩
      rw [hgroup]
      exact hv.symm

/-! ## 4. A run -/

/-- **No tracee is left waiting, and the tracer does not wait for nothing.**  In every run of the
tracer, while the loop runs: every tracee that lives can make its next stop, and where only the
leaders of thread groups execute programs there is a tracee with something to report. -/
theorem never_stuck {child : Tid} {u : Parser × Session (FileConfig Re)}
    {tr : List (TracerSys Re × Move)} {s : TracerSys Re}
    (hrun : Run (Step (tracerCallbacks lib ndebug) ndebug others) (Sys.init child u) tr s)
    (hst : s.status = .running) :
    (∀ t th, s.kern t = some th → th.dead = none →
      ∃ cause e, e.child = t ∧ e.wstatus.isExit = false ∧ Enabled others s (.report cause e)) ∧
    (Guarded LeaderExec tr →
      ∃ cause e, s.kern e.child ≠ none ∧ Enabled others s (.report cause e)) := by
  have hawake := (hrun.invariant (init_awake child u) fun _ _ _ => step_awake).2 hst
  refine ⟨fun t th hth halive => (hawake t th hth).reports hth halive, fun hlead => ?_⟩
  obtain ⟨t, ht⟩ := (hrun.invariant (init_busy child u) fun _ _ _ => step_busy).2 hst
  obtain ⟨hreg, hvan⟩ := (run_noneVanished hrun hlead).2
  -- the table is not empty, so it knows a tracee
  rcases (hreg t).mp ht with ⟨th, hth, -⟩ | hgone
  · exact exists_report hawake (by rw [hth]; exact Option.some_ne_none _)
  · rw [hvan t] at hgone
    cases hgone

/-- The enter stop of a call by thread 1, which is killed before it can be resumed. -/
def killedCall : Event :=
  { Event.plain 1 (.stopped SIGTRAP_SYSGOOD) .entry 39 with life := some 1 }

/-- The killed thread is left in its stop, and its exit can be reported. -/
theorem killed_can_report :
    ∃ tr s, Run (Step (tracerCallbacks askingLib true) true fun _ => False)
        (Sys.init 1 (bareParser, { inner := askingConfig, user := consenting })) tr s ∧
      s.status = .running ∧ (∃ th, s.kern 1 = some th ∧ th.held = true) ∧
      ∃ cause e, s.kern e.child ≠ none ∧ Enabled (fun _ => False) s (.report cause e) := by
  have h₀ : Run (Step (tracerCallbacks askingLib true) true fun _ => False)
      (Sys.init 1 (bareParser, { inner := askingConfig, user := consenting })) [] _ := .nil
  have h₁ := run_move h₀ (.report .syscall killedCall) rfl
    (.syscall rfl ⟨rfl, rfl, rfl⟩ rfl (Or.inr rfl) rfl)
  have hstuck := never_stuck h₁ rfl
  exact ⟨_, _, h₁, rfl, ⟨_, rfl, rfl⟩, hstuck.2 (guarded_snoc.mpr ⟨guarded_nil, trivial⟩)⟩

end GravelBox
