/-
# Whose status the tracer returns

`run_with_callbacks` returns a status when its table becomes empty: the one of the
notification that made it so (`trace/tracer.cpp`, lines 93 to 96).  That is the notification of the
last tracee to end, and need not be the one of the spawned process, which is what the caller wants
to know (`trace/tracer.h`, line 24: child process exit code).

The spawned process stays in the table until its exit is reported (`Waited`), so a run that
returns has had that report (`Reaped`).  The status returned is its own if and only if
nobody else was in the table then, or the last tracee happened to end in the same way
(`own_status_iff`).

`Waited` is less obvious than it looks.  If another thread of the spawned process executes a program
it goes on under the tid of that process, so the record behind the tid is another one from then on;
it is a leader again, has started, and its exit is reported under the same tid.  That is why the
status is "its own" by tid, which is what a shell that waits for it would see.

The condition speaks of two moments of the run: who else was in the table when the exit of the
spawned process was reported, and how the last tracee ended.

Not claimed: anything about runs that do not return, and about a `Fault` that leaves the loop, after
which there is no status; `main` then returns `EXIT_FAILURE`.
-/
import GravelBox.Trace.Lifetime

namespace GravelBox

open Stateful Runs

variable {σ : Type} {cb : Callbacks σ} {ndebug : Bool} {others : Tid → Prop}

/-! ## 1. Until the exit of the spawned process is reported -/

/-- The move is an exit notification of the tracee `t`. -/
def Move.reaps : Move → Tid → Prop
  | .report .exit e, t => e.child = t
  | _, _ => False

theorem exit_of_reaps {m : Move} {t : Tid} (h : m.reaps t) :
    ∃ e, m = .report .exit e ∧ e.child = t := by
  cases m with
  | report cause e =>
    cases cause with
    | exit => exact ⟨e, rfl, h⟩
    | _ => cases h
  | _ => cases h

/-- The spawned process is attached and started, and leads its thread group. -/
def Waited (child : Tid) (s : Sys σ) : Prop :=
  ∃ th, s.kern child = some th ∧ th.started = true ∧ th.tgid = child

theorem init_waited (child : Tid) (u : σ) : Waited child (Sys.init child u) :=
  ⟨{ Thread.fresh child with started := true }, by simp [Sys.init], rfl, rfl⟩

/-- **Nothing but its exit notification** takes the spawned process out of the kernel's
books: a thread that completes `execve` goes on in its place. -/
theorem step_waited {child : Tid} {s s' : Sys σ} {m : Move} (hchild : ¬ others child)
    (h : Waited child s) (hm : ¬ m.reaps child) (hs : Step cb ndebug others s m s') :
    Waited child s' := by
  obtain ⟨th, hth, hstarted, htgid⟩ := h
  obtain ⟨-, hen, rfl⟩ := hs
  cases m with
  | create c t thread =>
    obtain ⟨-, hnew, -⟩ := hen
    have hne : child ≠ t := by
      rintro rfl
      rw [hnew] at hth
      cases hth
    exact ⟨th, by simpa [Sys.after, Function.update_of_ne hne] using hth, hstarted, htgid⟩
  | die t st =>
    rcases eq_or_ne child t with rfl | ht
    · exact ⟨{ th with dead := some st }, by simp [Sys.after, hth], hstarted, htgid⟩
    · exact ⟨th, by simpa [Sys.after, Function.update_of_ne ht] using hth, hstarted, htgid⟩
  | execve t =>
    obtain ⟨tht, htht, hcall, -⟩ := hen
    simp only [Waited, Sys.after, htht, Kernel.execve]
    by_cases hleader : child = tht.tgid
    · -- `t` goes on as the spawned process
      subst hleader
      exact ⟨{ tht with trap := true }, Function.update_self _ _ _, hcall.1.2.1, rfl⟩
    · have hne : child ≠ t := by
        rintro rfl
        rw [htht] at hth
        cases hth
        exact hleader htgid.symm
      refine ⟨th, ?_, hstarted, htgid⟩
      rw [Function.update_of_ne hleader, Function.update_of_ne hne]
      exact hth
  | report cause e =>
    rcases e.wstatus.stopped_or_isExit with ⟨stopsig, hw⟩ | hexit
    · rw [Waited, after_stop_kern hw]
      rcases eq_or_ne child e.child with rfl | he
      · refine ⟨th.afterStop cause (endState (handled cb ndebug e stopsig s.loop)), ?_, rfl, htgid⟩
        rw [Function.update_self, hth, Option.map_some]
      · exact ⟨th, by rwa [Function.update_of_ne he], hstarted, htgid⟩
    · rw [Waited, after_exit_kern hexit]
      have he : child ≠ e.child := by
        rintro rfl
        rcases Reports.of_isExit hen hexit with rfl | ⟨-, hother⟩
        · exact hm rfl
        · exact hchild hother
      exact ⟨th, by rwa [Function.update_of_ne he], hstarted, htgid⟩

/-! ## 2. The notification that makes the loop return -/

/-- **The loop returns** on the exit notification of a tracee besides which the table knows
nobody, and with its status. -/
theorem step_returned {s s' : Sys σ} {m : Move} {code : Nat} (hsound : Sound others s)
    (hs : Step cb ndebug others s m s') (hret : s'.status = .returned code) :
    ∃ e, m = .report .exit e ∧ code = e.wstatus.code ∧ OnlyKnown s e.child ∧
      ∀ t, s'.loop.threadStatus.lookup t = none := by
  obtain ⟨hrun, hen, rfl⟩ := hs
  cases m with
  | create c t thread => simp [Sys.after, hrun] at hret
  | die t st => simp [Sys.after, hrun] at hret
  | execve t =>
    obtain ⟨th, hth, -⟩ := hen
    simp [Sys.after, hth, hrun] at hret
  | report cause e =>
    rcases e.wstatus.stopped_or_isExit with ⟨stopsig, hw⟩ | hexit
    · exact absurd hret (after_stop_status hw code)
    · rcases Reports.of_isExit hen hexit with rfl | ⟨rfl, -⟩
      · rw [after_exit_status hexit] at hret
        split at hret
        · rename_i hempty
          refine ⟨e, rfl, (Status.returned.inj hret).symm, ?_, ?_⟩
          · exact (erase_empty_iff hsound.registered e.child).mp hempty
          · rw [after_exit_loop hexit]
            exact entries_length_eq_zero.mp hempty
        · cases hret
      · obtain ⟨hst, -⟩ : (s.after cb ndebug (.report .other e)).status = .running ∧ _ :=
          after_other hsound hrun hen
        rw [hst] at hret
        cases hret

/-! ## 3. A run -/

/-- In this run, `e` in the state `s₁` was the first exit notification of the tracee `child`;
`pre` came before it and `post` after it. -/
structure Reaped (child : Tid) (tr pre : List (Sys σ × Move)) (s₁ : Sys σ) (e : Event)
    (post : List (Sys σ × Move)) : Prop where
  split : tr = pre ++ (s₁, .report .exit e) :: post
  own : e.child = child
  first : ∀ p ∈ pre, ¬ p.2.reaps child

/-- **The run lemma.**  The spawned process is waited for, or its exit was reported; then the
loop went on only if the table knew somebody else. -/
theorem run_waited_or_reaped {child : Tid} (u : σ) (hchild : ¬ others child)
    {tr : List (Sys σ × Move)} {s : Sys σ}
    (hrun : Run (Step cb ndebug others) (Sys.init child u) tr s) :
    (Waited child s ∧ ∀ p ∈ tr, ¬ p.2.reaps child) ∨
      ∃ pre s₁ e post, Reaped child tr pre s₁ e post ∧ Sound others s₁ ∧
        (post = [] → s = s₁.after cb ndebug (.report .exit e) ∧ e.wstatus.isExit) ∧
        (post ≠ [] → ¬ OnlyKnown s₁ child) := by
  induction hrun with
  | nil => exact Or.inl ⟨init_waited child u, List.forall_mem_nil _⟩
  | @snoc tr s s' m hr hs ih =>
    have hsound : Sound others s :=
      (hr.invariant (init_sound u hchild) fun _ _ _ => step_sound).2
    rcases ih with ⟨hwait, hnone⟩ | ⟨pre, s₁, e, post, hreaped, hsound₁, hhere, hlater⟩
    · by_cases hm : m.reaps child
      · -- this is the notification
        obtain ⟨e, rfl, hown⟩ := exit_of_reaps hm
        have hexit : e.wstatus.isExit := by
          cases hs.2.1 with
          | exit _ _ hexit => exact hexit
        exact Or.inr ⟨tr, s, e, [], ⟨rfl, hown, hnone⟩, hsound, fun _ => ⟨hs.2.2, hexit⟩,
          fun hne => absurd rfl hne⟩
      · refine Or.inl ⟨step_waited hchild hwait hm hs, fun p hp => ?_⟩
        rcases List.mem_append.mp hp with hp | hp
        · exact hnone p hp
        · obtain rfl := List.mem_singleton.mp hp
          exact hm
    · refine Or.inr ⟨pre, s₁, e, post ++ [(s, m)], ⟨?_, hreaped.own, hreaped.first⟩, hsound₁,
        ?_, fun _ => ?_⟩
      · rw [hreaped.split, List.append_assoc, List.cons_append]
      · intro hnil
        exact absurd hnil (by simp)
      · by_cases hpost : post = []
        · -- the loop was still running after the notification
          obtain ⟨rfl, hexit⟩ := hhere hpost
          intro hknown
          have hempty := (erase_empty_iff hsound₁.registered e.child).mpr (hreaped.own ▸ hknown)
          have hrunning := hs.1
          rw [after_exit_status hexit, if_pos hempty] at hrunning
          cases hrunning
        · exact hlater hpost

/-- The last of these moves is the exit notification of a tracee that ended with this code. -/
def LastCode (post : List (Sys σ × Move)) (code : Nat) : Prop :=
  ∃ s₂ e₂, post.getLast? = some (s₂, .report .exit e₂) ∧ e₂.wstatus.code = code

/-- **The status returned is that of the spawned process** if and only if the table knew
nobody else when its exit was reported, or the last tracee ended with the same code. -/
theorem own_status_iff {child : Tid} (u : σ) (hchild : ¬ others child)
    {tr : List (Sys σ × Move)} {s : Sys σ} {code : Nat}
    (hrun : Run (Step cb ndebug others) (Sys.init child u) tr s)
    (hret : s.status = .returned code) :
    ∃ pre s₁ e post, Reaped child tr pre s₁ e post ∧
      (code = e.wstatus.code ↔ OnlyKnown s₁ child ∨ LastCode post e.wstatus.code) := by
  have hsound : Always (Sound others) tr s :=
    hrun.invariant (init_sound u hchild) fun _ _ _ => step_sound
  have hphase := run_waited_or_reaped u hchild hrun
  cases hrun with
  | nil => cases hret
  | @snoc tr s' _ m hr hs =>
    obtain ⟨e₂, rfl, hcode, hknown, hempty⟩ :=
      step_returned (hsound.1 (s', m) (by simp)) hs hret
    rcases hphase with ⟨⟨th, hth, hstarted, -⟩, -⟩ | ⟨pre, s₁, e, post, hreaped, -, -, hlater⟩
    · -- the spawned process would still be in the table
      exact absurd (hempty child) ((hsound.2.registered child).mpr (Or.inl ⟨th, hth, hstarted⟩))
    · refine ⟨pre, s₁, e, post, hreaped, ?_⟩
      have hsplit := congrArg List.getLast? hreaped.split
      rcases List.eq_nil_or_concat post with rfl | ⟨post, last, rfl⟩
      · rw [List.getLast?_concat, List.getLast?_concat] at hsplit
        cases hsplit
        exact iff_of_true hcode (Or.inl (hreaped.own ▸ hknown))
      · rw [List.concat_eq_append] at hsplit hlater ⊢
        rw [← List.cons_append, ← List.append_assoc, List.getLast?_concat,
          List.getLast?_concat] at hsplit
        cases hsplit
        rw [or_iff_right (hlater (by simp)), hcode]
        constructor
        · intro h
          exact ⟨s', e₂, List.getLast?_concat, h⟩
        · rintro ⟨s₂, e₃, hlast, h⟩
          rw [List.getLast?_concat] at hlast
          cases hlast
          exact h

/-! ## 4. Two runs -/

/-- Process 1 forks process 2, which exits with code 7 before it; process 1 exits with code 3, and
that is returned, since the table knows nobody else then. -/
theorem own_status_last :
    ∃ tr s, Run (Step allowAll true fun _ => False) (Sys.init 1 ()) tr s ∧
      s.status = .returned 3 ∧ ∃ pre s₁ e post, Reaped 1 tr pre s₁ e post ∧
        OnlyKnown s₁ 1 ∧ 3 = e.wstatus.code := by
  have h₀ : Run (Step allowAll true fun _ => False) (Sys.init 1 ()) [] (Sys.init 1 ()) := .nil
  have h₁ := run_move h₀ (.call 1 .enter 57) rfl (enabled_call 1 .enter 57 rfl ⟨rfl, rfl, rfl⟩ rfl)
  have h₂ := run_move h₁ (.create 1 2 false) rfl ⟨⟨_, rfl, ⟨rfl, rfl, rfl⟩, rfl, rfl⟩, rfl, id⟩
  have h₃ := run_move h₂ (.attach 2) rfl (enabled_attach 2 2 rfl)
  have h₄ := run_move h₃ (.die 2 (.exited 7)) rfl ⟨⟨_, rfl, rfl⟩, rfl⟩
  have h₅ := run_move h₄ (.gone 2 7) rfl (.exit rfl rfl rfl fun _ u (hu : u ≠ 2) th hth => by
    rcases eq_or_ne u 1 with rfl | h1
    · obtain rfl : (⟨1, none, true, .exit, false, true, true, false⟩ : Thread) = th :=
        Option.some.inj hth
      decide
    · rw [run_kern_none h₄ h1 (by simp [Move.creates, hu])] at hth
      cases hth)
  have h₆ := run_move h₅ (.die 1 (.exited 3)) rfl ⟨⟨_, rfl, rfl⟩, rfl⟩
  have hnone := fun u (h1 : u ≠ 1) (h2 : u ≠ 2) => run_kern_none h₆ h1 (by simp [Move.creates, h2])
  have h₇ := run_move h₆ (.gone 1 3) rfl (.exit rfl rfl rfl fun _ u (hu : u ≠ 1) th hth => by
    rcases eq_or_ne u 2 with rfl | h2
    · cases (show none = some th from hth)
    · rw [hnone u hu h2] at hth
      cases hth)
  obtain ⟨pre, s₁, e, post, hreaped, hiff⟩ := own_status_iff () id h₇ rfl
  have hmem : (s₁, Move.report .exit e) ∈ _ :=
    hreaped.split ▸ List.mem_append_right pre List.mem_cons_self
  have hown := hreaped.own
  have hknown : OnlyKnown s₁ 1 := by
    simp only [List.nil_append, List.cons_append, List.mem_cons, List.not_mem_nil, or_false,
      Prod.mk.injEq] at hmem
    rcases hmem with ⟨-, h⟩ | ⟨-, h⟩ | ⟨-, h⟩ | ⟨-, h⟩ | ⟨-, h⟩ | ⟨-, h⟩ | ⟨rfl, -⟩
    · cases h
    · cases h
    · cases h
    · cases h
    · cases h
      cases hown
    · cases h
    · refine fun u hu => ⟨?_, ?_⟩
      · rintro ⟨th, hth, -⟩
        rcases eq_or_ne u 2 with rfl | h2
        · cases (show none = some th from hth)
        · rw [hnone u hu h2] at hth
          cases hth
      · simp [Sys.after, Event.plain, Sys.init]
  exact ⟨_, _, h₇, rfl, pre, s₁, e, post, hreaped, hknown, hiff.mpr (.inl hknown)⟩

/-- **A child that outlives the target gives the status.**  Process 1 forks process 2 and
exits with code 0; process 2 exits later, with code 7, and 7 is returned. -/
theorem own_status_fails :
    ∃ tr s s₁, Run (Step allowAll true fun _ => False) (Sys.init 1 ()) tr s ∧
      s.status = .returned 7 ∧ (s₁, Move.gone 1 0) ∈ tr ∧
        ∀ p ∈ tr, p.2.reaps 1 → p.2 = Move.gone 1 0 := by
  have h₀ : Run (Step allowAll true fun _ => False) (Sys.init 1 ()) [] (Sys.init 1 ()) := .nil
  have h₁ := run_move h₀ (.call 1 .enter 57) rfl (enabled_call 1 .enter 57 rfl ⟨rfl, rfl, rfl⟩ rfl)
  have h₂ := run_move h₁ (.create 1 2 false) rfl ⟨⟨_, rfl, ⟨rfl, rfl, rfl⟩, rfl, rfl⟩, rfl, id⟩
  have h₃ := run_move h₂ (.attach 2) rfl (enabled_attach 2 2 rfl)
  have h₄ := run_move h₃ (.die 1 (.exited 0)) rfl ⟨⟨_, rfl, rfl⟩, rfl⟩
  have h₅ := run_move h₄ (.gone 1 0) rfl (.exit rfl rfl rfl fun _ u (hu : u ≠ 1) th hth => by
    rcases eq_or_ne u 2 with rfl | h2
    · obtain rfl : (⟨2, none, true, .enter, false, false, false, false⟩ : Thread) = th :=
        Option.some.inj hth
      decide
    · rw [run_kern_none h₄ hu (by simp [Move.creates, h2])] at hth
      cases hth)
  have h₆ := run_move h₅ (.die 2 (.exited 7)) rfl ⟨⟨_, rfl, rfl⟩, rfl⟩
  have h₇ := run_move h₆ (.gone 2 7) rfl (.exit rfl rfl rfl fun _ u (hu : u ≠ 2) th hth => by
    rcases eq_or_ne u 1 with rfl | h1
    · cases (show none = some th from hth)
    · rw [run_kern_none h₆ h1 (by simp [Move.creates, hu])] at hth
      cases hth)
  refine ⟨_, _, _, h₇, rfl, List.mem_append_left _ (List.mem_append_left _
    (List.mem_append_right _ (List.mem_singleton_self _))), fun p hp hreaps => ?_⟩
  simp only [List.nil_append, List.cons_append, List.mem_cons, List.not_mem_nil, or_false] at hp
  rcases hp with rfl | rfl | rfl | rfl | rfl | rfl | rfl
  · cases hreaps
  · cases hreaps
  · cases hreaps
  · cases hreaps
  · rfl
  · cases hreaps
  · exact absurd (show (2 : Tid) = 1 from hreaps) (by decide)

end GravelBox
