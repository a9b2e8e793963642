/-
# Which signals reach the program

At a signal-delivery-stop the tracer decides, by the last argument of `PTRACE_SYSCALL`,
whether the signal goes on to the program (`trace/tracer.cpp`, line 160).  `Sys.due` collects the
signals the kernel was delivering and `Sys.got` those it was told to deliver; the attach `SIGSTOP`
and the `SIGTRAP` after `execve` belong to `ptrace` and are in neither.

The loop always passes 0.  So the two agree only as long as the program is sent no signal, or
dies before it is resumed (`transparent_iff`).

What the loop does not do is the whole matter: it looks at the stop signal only to tell an attach
stop and a syscall stop from all others, and for the others it has no case.  So a program under the
tracer cannot be interrupted, gets no `SIGCHLD` when its children end, and is not ended by an
`abort`.  Only `SIGKILL`, for which there is no stop, still ends it.

The exit status is where it shows outside.  The tracer computes 128 and the number of the signal for
a program that is ended by one, as a shell would; but first it takes from the program most of the
signals that could end it.

The statement is about lists: for each thread, what it was sent, in order, is what it got, in order,
in every state of the run.  A step from a state in which they agree leads to another just if it
meets the condition, so that is exact.

Not claimed: anything about signals that are blocked, ignored or merged before they are delivered;
the kernel makes no stop for those.
-/
import GravelBox.Trace.Registry

namespace GravelBox

open Stateful Runs

variable {σ : Type} {cb : Callbacks σ} {ndebug : Bool} {others : Tid → Prop}

/-- Each tracee received, in order, the signals the kernel was delivering to it. -/
def Transparent (s : Sys σ) : Prop := ∀ t, s.got t = s.due t

/-- No signal is being delivered to a tracee that lives to be resumed. -/
def SendsNothing (_ : Sys σ) : Move → Prop
  | .report (.signal _) e => e.life = some 0
  | _ => True

/-! ## 1. One step -/

theorem resumed_of_handled {e : Event} {stopsig : Nat} {l : Loop σ} :
    (endState (handled cb ndebug e stopsig l)).resumed = some 0 ∨
      (endState (handled cb ndebug e stopsig l)).resumed = none := by
  cases hr : handled cb ndebug e stopsig l with
  | ok _ h => exact Or.inl (handled_ok_resumed hr)
  | error f h => exact Or.inr (handled_error_resumed hr)

/-- A signal-delivery-stop is resumed unless the tracee is dead when the loop gets to it. -/
theorem resumed_isSome_iff {e : Event} {stopsig : Nat} {l : Loop σ}
    (hsig : stopsig ≠ SIGTRAP_SYSGOOD) :
    (endState (handled cb ndebug e stopsig l)).resumed.isSome ↔ e.life ≠ some 0 := by
  have hdead : ∀ h₁ : Handling σ, Dispatched e.child stopsig (.start l e) h₁ →
      (h₁.world.dead ↔ e.life = some 0) := by
    intro h₁ hd
    rw [hd.world_eq hsig]
    exact Iff.rfl
  cases hr : handled cb ndebug e stopsig l with
  | ok _ h =>
    obtain ⟨h₁, hd, halive, rfl⟩ := handled_ok hr
    simpa [endState, Handling.resume] using mt (hdead h₁ hd).mpr halive
  | error f h =>
    simp only [endState, handled_error_resumed hr, Option.isSome_none, Bool.false_eq_true,
      false_iff, not_not]
    rcases handled_error hr with hc | ⟨h₁, hd, hdd, -, -⟩
    · exact absurd hc.sysgood hsig
    · exact (hdead h₁ hd).mp hdd

theorem injects_zero (cause : Cause) : cause.injects 0 = [] := by
  cases cause <;> rfl

/-- No step makes the kernel deliver a signal. -/
theorem step_got {s s' : Sys σ} {m : Move} (hs : Step cb ndebug others s m s') :
    s'.got = s.got := by
  obtain ⟨-, -, rfl⟩ := hs
  cases m with
  | create | die => rfl
  | execve t =>
    simp only [Sys.after]
    split <;> rfl
  | report cause e =>
    rcases e.wstatus.stopped_or_isExit with ⟨stopsig, hw⟩ | hexit
    · have hnil : (endState (handled cb ndebug e stopsig s.loop)).resumed.elim []
          cause.injects = [] := by
        have hres : _ = some 0 ∨ (endState (handled cb ndebug e stopsig s.loop)).resumed = none :=
          resumed_of_handled
        rcases hres with hr | hr
        · rw [hr]
          exact injects_zero cause
        · rw [hr]
          rfl
      simp only [Sys.after, hw, hnil, List.append_nil, Function.update_eq_self]
    · rw [after_exit hexit]

/-- **The step lemma.** -/
theorem step_transparent_iff {s s' : Sys σ} {m : Move} (hgot : ∀ t, s.got t = [])
    (h : Transparent s) (hs : Step cb ndebug others s m s') :
    Transparent s' ↔ SendsNothing s m := by
  have hsame : s'.due = s.due → Transparent s' := fun hd t => by rw [step_got hs, hd, h t]
  have hgot' := step_got hs
  obtain ⟨-, hen, rfl⟩ := hs
  cases m with
  | create | die => exact ⟨fun _ => trivial, fun _ => hsame rfl⟩
  | execve t =>
    refine ⟨fun _ => trivial, fun _ => hsame ?_⟩
    simp only [Sys.after]
    split <;> rfl
  | report cause e =>
    rcases e.wstatus.stopped_or_isExit with ⟨stopsig, hw⟩ | hexit
    · by_cases hsignal : ∃ sig, cause = .signal sig
      · -- a genuine signal: it is due if the tracee is resumed
        obtain ⟨sig, rfl⟩ := hsignal
        have hne : stopsig ≠ SIGTRAP_SYSGOOD := by
          intro hsys
          cases (Reports.sysgood_iff hen hw).mp hsys
        have hres : (endState (handled cb ndebug e stopsig s.loop)).resumed.isSome ↔
            e.life ≠ some 0 := resumed_isSome_iff hne
        constructor
        · intro ht
          by_contra hlife
          have hc := ht e.child
          rw [hgot', hgot e.child] at hc
          simp [Sys.after, hw, hres.mpr hlife, Cause.delivers] at hc
        · intro hlife
          refine hsame ?_
          simp only [Sys.after, hw, if_neg (fun hr => hres.mp hr hlife)]
      · have hnil : cause.delivers = [] := by
          cases cause with
          | signal sig => exact absurd ⟨sig, rfl⟩ hsignal
          | _ => rfl
        have hsend : SendsNothing s (.report cause e) := by
          cases cause with
          | signal sig => exact absurd ⟨sig, rfl⟩ hsignal
          | _ => trivial
        refine ⟨fun _ => hsend, fun _ => hsame ?_⟩
        simp only [Sys.after, hw, hnil, List.append_nil, Function.update_eq_self, ite_self]
    · have hsend : SendsNothing s (.report cause e) := by
        rcases Reports.of_isExit hen hexit with rfl | ⟨rfl, -⟩
        · trivial
        · trivial
      exact ⟨fun _ => hsend, fun _ => hsame (by rw [after_exit hexit])⟩

/-! ## 2. A run -/

/-- **Transparency for signals, and exactly when it fails.**  In a run each tracee receives
just the signals the kernel was delivering to it, at every moment, if and only if no signal
is delivered to a tracee that lives to be resumed.  A return that a killed tracee brings
about reports its signal as `128 + n`. -/
theorem transparent_iff (child : Tid) (u : σ) {tr : List (Sys σ × Move)} {s : Sys σ}
    (hrun : Run (Step cb ndebug others) (Sys.init child u) tr s) :
    (Always Transparent tr s ↔ Guarded SendsNothing tr) ∧
      ∀ s₁ cause e n code, (s₁, Move.report cause e) ∈ tr → e.wstatus = .signaled n →
        (s₁.after cb ndebug (.report cause e)).status = .returned code → code = 128 + n := by
  have hgot : ∀ s₁ m s₂, (∀ t, s₁.got t = []) → Step cb ndebug others s₁ m s₂ →
      ∀ t, s₂.got t = [] := by
    intro s₁ m s₂ hnil hs t
    rw [step_got hs, hnil t]
  refine ⟨hrun.guarded_iff (fun _ => rfl) (fun _ => rfl) hgot fun _ _ _ => step_transparent_iff,
    ?_⟩
  intro s₁ cause e n code _ hw hret
  rw [after_exit_status (by rw [hw]; rfl), hw] at hret
  split at hret
  · exact (Status.returned.inj hret).symm
  · cases hret

/-- A target killed while `SIGTERM` is being delivered to it: nothing is lost, and the run
reports 137. -/
theorem killed_in_stop_transparent :
    ∃ tr s, Run (Step allowAll true fun _ => False) (Sys.init 1 ()) tr s ∧
      Always Transparent tr s ∧ s.status = .returned 137 := by
  have h₀ : Run (Step allowAll true fun _ => False) (Sys.init 1 ()) [] (Sys.init 1 ()) := .nil
  have h₁ := run_move h₀
    (.report (.signal 15) { Event.plain 1 (.stopped 15) .none 0 with life := some 0 }) rfl
    (.signal rfl ⟨rfl, rfl, rfl⟩ (by decide) rfl)
  have h₂ := run_move h₁ (.report .exit (.plain 1 (.signaled SIGKILL) .none 0)) rfl
    (.exit rfl rfl rfl fun _ u (hu : u ≠ 1) th hth => by
      rw [run_kern_none h₁ hu (by simp [Move.creates])] at hth
      cases hth)
  refine ⟨_, _, h₂, (transparent_iff 1 () h₂).1.mpr ?_, rfl⟩
  exact guarded_snoc.mpr ⟨guarded_snoc.mpr ⟨guarded_nil, rfl⟩, trivial⟩

/-! ## 3. A run that swallows a signal -/

/-- `SIGTERM` is sent to a target that has no handler for it.  It never arrives: the target
makes its next call, exits when it likes, and the run reports 0. -/
theorem sigterm_swallowed :
    ∃ tr s, Run (Step allowAll true fun _ => False) (Sys.init 1 ()) tr s ∧
      ¬ Transparent s ∧ s.due 1 = [15] ∧ s.got 1 = [] ∧ s.status = .returned 0 := by
  have h₀ : Run (Step allowAll true fun _ => False) (Sys.init 1 ()) [] (Sys.init 1 ()) := .nil
  have h₁ := run_move h₀ (.report (.signal 15) (.plain 1 (.stopped 15) .none 0)) rfl
    (.signal rfl ⟨rfl, rfl, rfl⟩ (by decide) rfl)
  have h₂ := run_move h₁ (.call 1 .enter 231) rfl
    (enabled_call 1 .enter 231 rfl ⟨rfl, rfl, rfl⟩ rfl)
  have h₃ := run_move h₂ (.die 1 (.exited 0)) rfl ⟨⟨_, rfl, rfl⟩, rfl⟩
  have h₄ := run_move h₃ (.gone 1 0) rfl (.exit rfl rfl rfl fun _ u (hu : u ≠ 1) th hth => by
    rw [run_kern_none h₃ hu (by simp [Move.creates])] at hth
    cases hth)
  refine ⟨_, _, h₄, fun h => ?_, rfl, rfl, rfl⟩
  exact absurd (show ([] : List Nat) = [15] from h 1) (by decide)

end GravelBox
