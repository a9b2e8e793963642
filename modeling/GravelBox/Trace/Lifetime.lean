/-
# When the tracer stops

`run_with_callbacks` returns when its table becomes empty (`trace/tracer.cpp`, lines 91 to 98).  It
should return exactly when the traced tree is gone (`EndsRight`): not while a tracee is alive, and
not later than the last exit.  The table follows the tree up to two differences (`Registered`): a
tracee whose first stop has not been reported yet is not in it, and a tid that vanished in an
`execve` stays in it.  `lifetime_iff` says that these are all: the run ends right if and only if at
no exit notification one of the two makes the difference.

That a tracer returns too early is not harmless: with `PTRACE_O_EXITKILL` the kernel kills what is
left of the tree, in the middle of whatever it does.  That it returns too late means that it does
not return: there is nothing left to report, `waitpid` fails with `ECHILD`, and the exception leaves
`run`.

What makes this hard is that both directions are about whole runs, with any number of processes that
come and go while others are reported.  The invariant says who is in the table at every moment, so
that at an exit notification it only has to be asked who else is there; and a step from a state that
is right leads to one that is right just if it meets the condition, which makes it exact.

The condition is about the state before each step: who has started, who has vanished, who lives.

Not claimed: that the two differences arise in a program that does not want them to.  Which order
reports come in is up to the kernel, so a program that forks and exits at once can be caught by it
without meaning to.
-/
import GravelBox.Trace.Registry

namespace GravelBox

open Stateful Runs

variable {σ : Type} {cb : Callbacks σ} {ndebug : Bool} {others : Tid → Prop}

/-- Returned only with no tracee alive; waiting only while a tracee has still to be reaped. -/
def EndsRight (s : Sys σ) : Prop :=
  ((∃ code, s.status = .returned code) → ∀ t th, s.kern t = some th → th.dead ≠ none) ∧
    (s.status = .running → ∃ t, s.kern t ≠ none)

/-- Besides `t` the table knows nobody: no tracee has started, and no tid has vanished. -/
def OnlyKnown (s : Sys σ) (t : Tid) : Prop :=
  ∀ u, u ≠ t → ¬ s.kern.started u ∧ s.vanished u = false

/-- What an exit notification must meet: if its tracee is the only one that has started, and
no tid has vanished, then no tracee waiting for its first stop is alive; and if it is the last
tracee, then no tid has vanished. -/
def EndsTree (s : Sys σ) : Move → Prop
  | .report .exit e =>
    (OnlyKnown s e.child → ∀ u, u ≠ e.child → ∀ th, s.kern u = some th → th.dead ≠ none) ∧
      ((∀ u, u ≠ e.child → s.kern u = none) → ∀ u, u ≠ e.child → s.vanished u = false)
  | _ => True

/-! ## 1. The table is not empty while the loop runs -/

/-- `thread_status.size() == 0`. -/
theorem entries_length_eq_zero {table : ThreadTable} :
    table.entries.length = 0 ↔ ∀ t, table.lookup t = none := by
  rw [List.length_eq_zero_iff]
  constructor
  · intro h t
    obtain rfl : table = ∅ := AList.ext h
    exact AList.lookup_empty t
  · intro h
    refine List.eq_nil_iff_forall_not_mem.mpr fun ⟨t, st⟩ hmem => ?_
    have hl : st ∈ table.lookup t := AList.mem_lookup_iff.mpr hmem
    rw [h t] at hl
    cases hl

/-- While the loop runs, its table is not empty. -/
def Busy (s : Sys σ) : Prop := s.status = .running → ∃ t, s.loop.threadStatus.lookup t ≠ none

/-- The table after the entry of an exited tracee is erased is empty exactly when the table
knew nobody else. -/
theorem erase_empty_iff {s : Sys σ} (h : Registered s) (t : Tid) :
    (s.loop.threadStatus.erase t).entries.length = 0 ↔ OnlyKnown s t := by
  rw [entries_length_eq_zero]
  constructor
  · intro he u hu
    have hno : s.loop.threadStatus.lookup u = none := by
      rw [← AList.lookup_erase_ne hu]
      exact he u
    by_contra hcon
    rw [not_and_or, not_not, Bool.not_eq_false] at hcon
    exact (h u).mpr hcon hno
  · intro hk u
    rcases eq_or_ne u t with rfl | hu
    · exact AList.lookup_erase _ _
    · rw [AList.lookup_erase_ne hu]
      by_contra hne
      rcases (h u).mp hne with hs | hv
      · exact (hk u hu).1 hs
      · simp [(hk u hu).2] at hv

theorem init_busy (child : Tid) (u : σ) : Busy (Sys.init child u) := by
  intro _
  exact ⟨child, by simp [Sys.init, lookup_initialTable]⟩

theorem step_busy {s s' : Sys σ} {m : Move} (h : Busy s)
    (hs : Step cb ndebug others s m s') : Busy s' := by
  obtain ⟨hrun, hen, rfl⟩ := hs
  obtain ⟨t, ht⟩ := h hrun
  intro hrun'
  cases m with
  | create | die => exact ⟨t, ht⟩
  | execve u =>
    obtain ⟨th, hth, -⟩ := hen
    exact ⟨t, by simpa [Sys.after, hth] using ht⟩
  | report cause e =>
    rcases e.wstatus.stopped_or_isExit with ⟨stopsig, hw⟩ | hexit
    · rw [after_stop_table hw]
      rcases eq_or_ne t e.child with rfl | hte
      · exact ⟨_, lookup_ne_none_of_handled ht⟩
      · exact ⟨t, by rwa [endState_frame hte]⟩
    · rw [after_exit_status hexit] at hrun'
      rw [after_exit_loop hexit]
      split at hrun'
      · cases hrun'
      · rename_i hne
        by_contra hcon
        push Not at hcon
        exact hne (entries_length_eq_zero.mpr hcon)

/-- What all runs keep. -/
structure Sound (others : Tid → Prop) (s : Sys σ) : Prop where
  registered : Registered s
  apart : Apart others s
  busy : Busy s

/-! ## 2. One step, and a run -/

/-- The exit notification of another child changes nothing. -/
theorem after_other {s : Sys σ} {e : Event} (h : Sound others s) (hrun : s.status = .running)
    (hen : Enabled others s (.report .other e)) :
    (s.after cb ndebug (.report .other e)).status = .running ∧
      (s.after cb ndebug (.report .other e)).loop = s.loop ∧
        (s.after cb ndebug (.report .other e)).kern = s.kern := by
  obtain ⟨hother, hexit⟩ : others e.child ∧ e.wstatus.isExit := by
    cases hen with
    | other hother hexit => exact ⟨hother, hexit⟩
  obtain ⟨hk, hv⟩ := h.apart _ hother
  have hno : s.loop.threadStatus.lookup e.child = none := by
    by_contra hne
    rcases (h.registered e.child).mp hne with ⟨th, hth, -⟩ | hvan
    · rw [hk] at hth
      cases hth
    · simp [hv] at hvan
  have herase : s.loop.threadStatus.erase e.child = s.loop.threadStatus := by
    refine AList.ext ?_
    exact List.kerase_of_notMem_keys (AList.lookup_eq_none.mp hno)
  obtain ⟨t, ht⟩ := h.busy hrun
  have hne : ¬ s.loop.threadStatus.entries.length = 0 := fun h0 =>
    ht (entries_length_eq_zero.mp h0 t)
  rw [after_exit_status hexit, after_exit_loop hexit, after_exit_kern hexit, herase, if_neg hne]
  exact ⟨rfl, rfl, Function.update_eq_self_iff.mpr hk.symm⟩

/-- An exit notification, in a state where the table knows the started and the vanished. -/
theorem exit_endsRight_iff {s : Sys σ} {e : Event} (hreg : Registered s)
    (hexit : e.wstatus.isExit) :
    EndsRight (s.after cb ndebug (.report .exit e)) ↔ EndsTree s (.report .exit e) := by
  have hlive : (∀ t th, Function.update s.kern e.child none t = some th → th.dead ≠ none) ↔
      ∀ u, u ≠ e.child → ∀ th, s.kern u = some th → th.dead ≠ none := by
    constructor
    · intro h u hu th hth
      exact h u th (by rwa [Function.update_of_ne hu])
    · intro h t th hth
      rcases eq_or_ne t e.child with rfl | ht
      · simp at hth
      · rw [Function.update_of_ne ht] at hth
        exact h t ht th hth
  have hleft : (∃ t, Function.update s.kern e.child none t ≠ none) ↔
      ¬ ∀ u, u ≠ e.child → s.kern u = none := by
    rw [← not_forall_not]
    refine not_congr ⟨fun h u hu => ?_, fun h t => ?_⟩
    · have := h u
      rwa [not_not, Function.update_of_ne hu] at this
    · rcases eq_or_ne t e.child with rfl | ht
      · simp
      · rw [Function.update_of_ne ht, not_not]
        exact h t ht
  have hempty := erase_empty_iff hreg e.child
  simp only [EndsRight, EndsTree, after_exit_kern hexit, after_exit_status hexit, hlive, hleft]
  by_cases hknown : OnlyKnown s e.child
  · -- the table is empty: the loop returns
    have hv : ∀ u, u ≠ e.child → s.vanished u = false := fun u hu => (hknown u hu).2
    rw [if_pos (hempty.mpr hknown)]
    constructor
    · rintro ⟨hdead, -⟩
      exact ⟨fun _ => hdead ⟨_, rfl⟩, fun _ => hv⟩
    · rintro ⟨hdead, -⟩
      exact ⟨fun _ => hdead hknown, fun hrun => nomatch hrun⟩
  · -- it is not: the loop waits for the next event
    rw [if_neg fun h => hknown (hempty.mp h)]
    constructor
    · rintro ⟨-, hwait⟩
      exact ⟨fun h => absurd h hknown, fun hnone => absurd hnone (hwait rfl)⟩
    · rintro ⟨-, hgone⟩
      refine ⟨fun ⟨_, hret⟩ => (nomatch hret), fun _ hnone => hknown fun u hu => ?_⟩
      refine ⟨?_, hgone hnone u hu⟩
      rintro ⟨th, hth, -⟩
      rw [hnone u hu] at hth
      cases hth

/-- **The step lemma.**  A step of a run that is right so far is right exactly when it meets
the condition. -/
theorem step_endsRight_iff {s s' : Sys σ} {m : Move} (hsound : Sound others s) (h : EndsRight s)
    (hs : Step cb ndebug others s m s') : EndsRight s' ↔ EndsTree s m := by
  obtain ⟨hrun, hen, rfl⟩ := hs
  obtain ⟨t₀, ht₀⟩ := h.2 hrun
  cases m with
  | create c u thread =>
    refine ⟨fun _ => trivial, fun _ => ⟨?_, fun _ => ⟨u, by simp [Sys.after]⟩⟩⟩
    rintro ⟨code, hcode⟩
    simp [Sys.after, hrun] at hcode
  | die u st =>
    obtain ⟨⟨th, hth, -⟩, -⟩ := hen
    refine ⟨fun _ => trivial, fun _ => ⟨?_, fun _ => ⟨u, by simp [Sys.after, hth]⟩⟩⟩
    rintro ⟨code, hcode⟩
    simp [Sys.after, hrun] at hcode
  | execve u =>
    obtain ⟨th, hth, -⟩ := hen
    refine ⟨fun _ => trivial, fun _ => ⟨?_, fun _ => ⟨th.tgid, ?_⟩⟩⟩
    · rintro ⟨code, hcode⟩
      simp [Sys.after, hth, hrun] at hcode
    · simp [Sys.after, hth, Kernel.execve]
  | report cause e =>
    rcases e.wstatus.stopped_or_isExit with ⟨stopsig, hw⟩ | hexit
    · obtain ⟨th, hth, -⟩ := Reports.stopped hen hw
      have htree : EndsTree s (.report cause e) := by
        cases hen with
        | exit _ _ hexit => rw [hw] at hexit; simp [WaitStatus.isExit] at hexit
        | _ => trivial
      refine ⟨fun _ => htree, fun _ => ⟨?_, fun _ => ⟨e.child, ?_⟩⟩⟩
      · rintro ⟨code, hcode⟩
        exact absurd hcode (after_stop_status hw code)
      · simp [after_stop_kern hw, hth]
    · rcases Reports.of_isExit hen hexit with rfl | ⟨rfl, -⟩
      · exact exit_endsRight_iff hsound.registered hexit
      · obtain ⟨hst, -, hk⟩ : _ ∧ _ ∧ (s.after cb ndebug (.report .other e)).kern = s.kern :=
          after_other hsound hrun hen
        refine ⟨fun _ => trivial, fun _ => ⟨?_, fun _ => ⟨t₀, hk ▸ ht₀⟩⟩⟩
        rintro ⟨code, hcode⟩
        rw [hst] at hcode
        cases hcode

theorem init_endsRight (child : Tid) (u : σ) : EndsRight (Sys.init child u) := by
  refine ⟨?_, fun _ => ⟨child, by simp [Sys.init]⟩⟩
  rintro ⟨code, hcode⟩
  cases hcode

theorem init_sound {child : Tid} (u : σ) (hchild : ¬ others child) :
    Sound others (Sys.init child u) :=
  ⟨init_registered child u, init_apart u hchild, init_busy child u⟩

theorem step_sound {s s' : Sys σ} {m : Move} (h : Sound others s)
    (hs : Step cb ndebug others s m s') : Sound others s' :=
  ⟨step_registered h.registered hs, step_apart h.apart hs, step_busy h.busy hs⟩

/-- **The tracer stops exactly when the traced tree is gone, and exactly when it does not.**
The exit notifications of other children do nothing in any run. -/
theorem lifetime_iff {child : Tid} (u : σ) (hchild : ¬ others child)
    {tr : List (Sys σ × Move)} {s : Sys σ}
    (hrun : Run (Step cb ndebug others) (Sys.init child u) tr s) :
    (Always EndsRight tr s ↔ Guarded EndsTree tr) ∧
      ∀ s₁ e, (s₁, Move.report .other e) ∈ tr →
        (s₁.after cb ndebug (.report .other e)).status = .running ∧
          (s₁.after cb ndebug (.report .other e)).loop = s₁.loop := by
  have h₀ : Sound others (Sys.init child u) := init_sound u hchild
  have hsound : Always (Sound others) tr s := hrun.invariant h₀ fun _ _ _ => step_sound
  refine ⟨hrun.guarded_iff h₀ (init_endsRight child u) (fun _ _ _ => step_sound)
    fun _ _ _ => step_endsRight_iff, fun s₁ e hmem => ?_⟩
  obtain ⟨s₂, hst, hen, -⟩ := hrun.step_of_mem hmem
  exact (after_other (hsound.1 _ hmem) hst hen).imp_right And.left

/-- Process 1 forks process 2 and exits before it, while pinentry (process 9) exits too. -/
theorem two_processes_end_right :
    ∃ tr s, Run (Step allowAll true (· = 9)) (Sys.init 1 ()) tr s ∧
      Always EndsRight tr s ∧ s.status = .returned 7 := by
  have h₀ : Run (Step allowAll true (· = 9)) (Sys.init 1 ()) [] (Sys.init 1 ()) := .nil
  have h₁ := run_move h₀ (.report .other (.plain 9 (.exited 0) .none 0)) rfl (.other rfl rfl)
  have h₂ := run_move h₁ (.call 1 .enter 57) rfl (enabled_call 1 .enter 57 rfl ⟨rfl, rfl, rfl⟩ rfl)
  have h₃ := run_move h₂ (.create 1 2 false) rfl
    ⟨⟨_, rfl, ⟨rfl, rfl, rfl⟩, rfl, rfl⟩, rfl, by decide⟩
  have h₄ := run_move h₃ (.attach 2) rfl (enabled_attach 2 2 rfl)
  have h₅ := run_move h₄ (.die 1 (.exited 0)) rfl ⟨⟨_, rfl, rfl⟩, rfl⟩
  have h₆ := run_move h₅ (.gone 1 0) rfl (.exit rfl rfl rfl fun _ u (hu : u ≠ 1) th hth => by
    rcases eq_or_ne u 2 with rfl | h2
    · obtain rfl : (⟨2, none, true, .enter, false, false, false, false⟩ : Thread) = th :=
        Option.some.inj hth
      decide
    · rw [run_kern_none h₅ hu (by simp [Move.creates, h2])] at hth
      cases hth)
  have h₇ := run_move h₆ (.die 2 (.exited 7)) rfl ⟨⟨_, rfl, rfl⟩, rfl⟩
  have hnone := fun u (h1 : u ≠ 1) (h2 : u ≠ 2) => run_kern_none h₇ h1 (by simp [Move.creates, h2])
  have h₈ := run_move h₇ (.gone 2 7) rfl (.exit rfl rfl rfl fun _ u (hu : u ≠ 2) th hth => by
    rcases eq_or_ne u 1 with rfl | h1
    · cases (show none = some th from hth)
    · rw [hnone u h1 hu] at hth
      cases hth)
  refine ⟨_, _, h₈, (lifetime_iff () (by decide) h₈).1.mpr ?_, rfl⟩
  simp only [guarded_snoc]
  refine ⟨⟨⟨⟨⟨⟨⟨⟨guarded_nil, trivial⟩, trivial⟩, trivial⟩, trivial⟩, trivial⟩, ?_⟩, trivial⟩, ?_⟩
  · -- process 2 has started, and is still there
    refine ⟨fun hknown => ?_, fun hgone => ?_⟩
    · exact absurd ⟨_, rfl, rfl⟩ (hknown 2 (by decide)).1
    · exact absurd (hgone 2 (by decide)) (Option.some_ne_none _)
  · refine ⟨fun _ u hu th hth => ?_, fun _ u _ => ?_⟩
    · rcases eq_or_ne u 1 with rfl | h1
      · cases (show none = some th from hth)
      · rw [hnone u h1 hu] at hth
        cases hth
    · simp [Sys.after, Event.plain, Sys.init]

/-! ## 3. Two runs that end wrong -/

/-- Thread 1 forks process 2 and exits; its exit is reported before the first stop of
process 2: the tracer returns, and process 2 is killed with it.

Thread 1 creates thread 2, which executes a program and then exits as thread 1: the entry of
thread 2 stays behind, and the tracer waits with no tracee left. -/
theorem lifetime_fails :
    (∃ tr s, Run (Step allowAll true (fun _ => False)) (Sys.init 1 ()) tr s ∧
      s.status = .returned 0 ∧ ∃ th, s.kern 2 = some th ∧ th.dead = none) ∧
    (∃ tr s, Run (Step allowAll true (fun _ => False)) (Sys.init 1 ()) tr s ∧
      s.status = .running ∧ ∀ t, s.kern t = none) := by
  have h₀ : Run (Step allowAll true fun _ => False) (Sys.init 1 ()) [] (Sys.init 1 ()) := .nil
  constructor
  · have h₁ := run_move h₀ (.call 1 .enter 57) rfl
      (enabled_call 1 .enter 57 rfl ⟨rfl, rfl, rfl⟩ rfl)
    have h₂ := run_move h₁ (.create 1 2 false) rfl ⟨⟨_, rfl, ⟨rfl, rfl, rfl⟩, rfl, rfl⟩, rfl, id⟩
    have h₃ := run_move h₂ (.die 1 (.exited 0)) rfl ⟨⟨_, rfl, rfl⟩, rfl⟩
    have h₄ := run_move h₃ (.gone 1 0) rfl (.exit rfl rfl rfl fun _ u (hu : u ≠ 1) th hth => by
      rcases eq_or_ne u 2 with rfl | h2
      · rw [← Option.some.inj (show some (Thread.fresh 2) = some th from hth)]
        decide
      · rw [run_kern_none h₃ hu (by simp [Move.creates, h2])] at hth
        cases hth)
    exact ⟨_, _, h₄, rfl, _, rfl, rfl⟩
  · have h₁ := run_move h₀ (.call 1 .enter 56) rfl
      (enabled_call 1 .enter 56 rfl ⟨rfl, rfl, rfl⟩ rfl)
    have h₂ := run_move h₁ (.create 1 2 true) rfl ⟨⟨_, rfl, ⟨rfl, rfl, rfl⟩, rfl, rfl⟩, rfl, id⟩
    have h₃ := run_move h₂ (.attach 2) rfl (enabled_attach 2 1 rfl)
    have h₄ := run_move h₃ (.call 1 .exit 56) rfl (enabled_call 1 .exit 56 rfl ⟨rfl, rfl, rfl⟩ rfl)
    have h₅ := run_move h₄ (.call 2 .enter 59) rfl
      (enabled_call 2 .enter 59 rfl ⟨rfl, rfl, rfl⟩ rfl)
    have h₆ := run_move h₅ (.execve 2) rfl
      ⟨⟨1, none, true, .exit, false, true, true, false⟩, rfl, ⟨⟨rfl, rfl, rfl⟩, rfl, rfl⟩,
        ⟨_, rfl, rfl⟩, fun u thu hu hl hth => by
          -- there are no other threads in the group
          rw [run_kern_none h₅ hl (by simp [Move.creates, hu])] at hth
          cases hth⟩
    have h₇ := run_move h₆ (.die 1 (.exited 0)) rfl ⟨⟨_, rfl, rfl⟩, rfl⟩
    have h₈ := run_move h₇ (.gone 1 0) rfl (.exit rfl rfl rfl fun _ u (hu : u ≠ 1) th hth => by
      rcases eq_or_ne u 2 with rfl | h2
      · cases (show none = some th from hth)
      · rw [run_kern_none h₇ hu (by simp [Move.creates, h2])] at hth
        cases hth)
    refine ⟨_, _, h₈, rfl, fun t => ?_⟩
    rcases eq_or_ne t 1 with rfl | h1
    · rfl
    · rcases eq_or_ne t 2 with rfl | h2
      · rfl
      · exact run_kern_none h₈ h1 (by simp [Move.creates, h2])

end GravelBox
