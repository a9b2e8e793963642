/-
# Whom the table knows

`Registered` is the invariant of all runs of the loop (`trace/tracer.cpp`, lines 85 to 171): the
table has an entry for exactly the tracees whose first stop has been reported and whose exit has
not, and for the tids that vanished in an `execve`.  `Apart` keeps the other children of GravelBox,
such as pinentry, out of both.  Where only the leaders of thread groups execute programs, no tid
vanishes.

The table is written in two places: an entry is added at the first `SIGSTOP` of a tid that is not in
it, and taken out at an exit notification.  That the same entries come of it that one would want
is not obvious, since the first `SIGSTOP` of a new tracee and a `SIGSTOP` that somebody sends to an
old one are the same to the loop, and a handling that is cut short by the death of the tracee may
have added its entry already.

The invariant is what the results about the end of the tracer rest on, which returns when the table
is empty: whether that is right depends on who is in the table, and who is missing.  Vanished tids
are in it for good, and tracees before their first stop are not in it yet; these are the only two
differences, and each has a run in which it matters (`Trace/Lifetime.lean`).

Not claimed here: that the entries say the right thing.  Which status a thread has is the subject
of `Trace/Mediation.lean`.
-/
import GravelBox.Trace.Kernel

namespace GravelBox

open Stateful Runs

variable {σ : Type} {cb : Callbacks σ} {ndebug : Bool} {others : Tid → Prop}

/-- The tracee's first stop has been reported and its exit has not. -/
def Kernel.started (k : Kernel) (t : Tid) : Prop := ∃ th, k t = some th ∧ th.started = true

/-- The table has an entry for the started tracees and the vanished tids, and no other. -/
def Registered (s : Sys σ) : Prop :=
  ∀ t, s.loop.threadStatus.lookup t ≠ none ↔ s.kern.started t ∨ s.vanished t = true

/-- The other children of GravelBox are no tracees. -/
def Apart (others : Tid → Prop) (s : Sys σ) : Prop :=
  ∀ t, others t → s.kern t = none ∧ s.vanished t = false

theorem started_update_self {k : Kernel} {t : Tid} {o : Option Thread} :
    Kernel.started (Function.update k t o) t ↔ ∃ th, o = some th ∧ th.started = true := by
  simp [Kernel.started]

theorem started_update_ne {k : Kernel} {t u : Tid} {o : Option Thread} (h : u ≠ t) :
    Kernel.started (Function.update k t o) u ↔ k.started u := by
  simp [Kernel.started, Function.update_of_ne h]

theorem init_registered (child : Tid) (u : σ) : Registered (Sys.init child u) := by
  intro t
  rcases eq_or_ne t child with rfl | ht
  · simp [Sys.init, lookup_initialTable, Kernel.started]
  · simp [Sys.init, lookup_initialTable, Kernel.started, ht]

theorem init_apart {child : Tid} (u : σ) (h : ¬ others child) :
    Apart others (Sys.init child u) := by
  intro t ht
  have hne : t ≠ child := fun e => h (e ▸ ht)
  simp [Sys.init, hne]

/-! ## 1. The table after a stop -/

/-- The handling of a stop drops no entry. -/
theorem lookup_ne_none_of_handled {e : Event} {stopsig : Nat} {l : Loop σ}
    (h : l.threadStatus.lookup e.child ≠ none) :
    (endState (handled cb ndebug e stopsig l)).threadStatus.lookup e.child ≠ none := by
  have hdis : ∀ h₁ : Handling σ, Dispatched e.child stopsig (.start l e) h₁ →
      h₁.threadStatus.lookup e.child ≠ none := by
    intro h₁ hd
    cases hd with
    | attached | exitAllowed | exitDenied => simp
    | ignored => exact h
    | allowed _ _ ha => simp [ha.table]
    | denied _ _ hd => simp [hd.table]
  cases hr : handled cb ndebug e stopsig l with
  | ok _ h' =>
    obtain ⟨h₁, hd, -, rfl⟩ := handled_ok hr
    exact hdis h₁ hd
  | error f h' =>
    rcases handled_error hr with hc | ⟨h₁, hd, -, rfl, -⟩
    · simp only [endState, hc.frame.1]
      exact h
    · exact hdis h₁ hd

/-- The first stop of a tracee puts it into the table. -/
theorem lookup_ne_none_of_attach {e : Event} {l : Loop σ} :
    (endState (handled cb ndebug e SIGSTOP l)).threadStatus.lookup e.child ≠ none := by
  have hdis : ∀ h₁ : Handling σ, Dispatched e.child SIGSTOP (.start l e) h₁ →
      h₁.threadStatus.lookup e.child ≠ none := by
    intro h₁ hd
    cases hd with
    | attached => simp
    | ignored _ hold => exact hold rfl
    | allowed hsig | denied hsig | exitDenied hsig | exitAllowed hsig =>
      exact absurd hsig sigstop_ne_sysgood
  cases hr : handled cb ndebug e SIGSTOP l with
  | ok _ h' =>
    obtain ⟨h₁, hd, -, rfl⟩ := handled_ok hr
    exact hdis h₁ hd
  | error f h' =>
    rcases handled_error hr with hc | ⟨h₁, hd, -, rfl, -⟩
    · cases hc with
      | unregistered hsig | enter hsig | exit hsig => exact absurd hsig sigstop_ne_sysgood
    · exact hdis h₁ hd

/-! ## 2. The invariants -/

/-- A step that touches one tid only has to be looked at there. -/
theorem Registered.of_frame {s s' : Sys σ} {u : Tid} (h : Registered s)
    (hkern : ∀ t, t ≠ u → s'.kern t = s.kern t)
    (htable : ∀ t, t ≠ u → s'.loop.threadStatus.lookup t = s.loop.threadStatus.lookup t)
    (hvanished : ∀ t, t ≠ u → s'.vanished t = s.vanished t)
    (hu : s'.loop.threadStatus.lookup u ≠ none ↔ s'.kern.started u ∨ s'.vanished u = true) :
    Registered s' := by
  intro t
  by_cases ht : t = u
  · rw [ht]
    exact hu
  · rw [Kernel.started, hkern t ht, htable t ht, hvanished t ht]
    exact h t

/-- The stop of a tracee that is started, or that this is the first stop of. -/
theorem stop_registered {s : Sys σ} {cause : Cause} {e : Event} {stopsig : Nat}
    (h : Registered s) (hr : Reports others s.kern e cause) (hw : e.wstatus = .stopped stopsig) :
    Registered (s.after cb ndebug (.report cause e)) := by
  obtain ⟨th, hth, -, -, hfirst⟩ := Reports.stopped hr hw
  have hin : (endState (handled cb ndebug e stopsig s.loop)).threadStatus.lookup e.child ≠
      none := by
    rcases hfirst with ⟨-, -, hsig⟩ | hst
    · subst hsig
      exact lookup_ne_none_of_attach
    · exact lookup_ne_none_of_handled ((h e.child).mpr (Or.inl ⟨th, hth, hst⟩))
  have hvan : (s.after cb ndebug (.report cause e)).vanished = s.vanished := by
    simp only [Sys.after, hw]
  refine h.of_frame (u := e.child) ?_ ?_ ?_ ?_
  · intro t ht
    rw [after_stop_kern hw, Function.update_of_ne ht]
  · intro t ht
    rw [after_stop_table hw, endState_frame ht]
  · intro t _
    rw [hvan]
  · rw [after_stop_kern hw, after_stop_table hw, started_update_self, hth]
    simp [hin, Thread.afterStop]

/-- The exit of a tracee, or of another child. -/
theorem exit_registered {s : Sys σ} {cause : Cause} {e : Event} (h : Registered s)
    (hexit : e.wstatus.isExit) : Registered (s.after cb ndebug (.report cause e)) := by
  refine h.of_frame (u := e.child) ?_ ?_ ?_ ?_
  · intro t ht
    rw [after_exit_kern hexit, Function.update_of_ne ht]
  · intro t ht
    rw [after_exit_loop hexit, AList.lookup_erase_ne ht]
  · intro t ht
    rw [after_exit_vanished hexit, Function.update_of_ne ht]
  · rw [after_exit_kern hexit, after_exit_loop hexit, after_exit_vanished hexit,
      started_update_self]
    simp

/-- A thread of a group whose leader is started completes `execve`. -/
theorem execve_registered {s : Sys σ} {u : Tid} {th : Thread} (h : Registered s)
    (hexec : s.kern.MayExec u th) : Registered (s.after cb ndebug (.execve u)) := by
  obtain ⟨hth, hcall, ⟨l, hl, hlst⟩, -⟩ := hexec
  intro t
  simp only [Sys.after, hth, Kernel.execve]
  by_cases htl : t = th.tgid
  · -- the leader's record is replaced by one that is started too
    subst htl
    have hst : s.kern.started th.tgid := ⟨l, hl, hlst⟩
    have hne := (h th.tgid).mpr (Or.inl hst)
    simp [started_update_self, hcall.1.2.1, hne]
  · rw [started_update_ne htl]
    rcases eq_or_ne t u with rfl | htu
    · have hst : s.kern.started t := ⟨th, hth, hcall.1.2.1⟩
      simp [htl, (h t).mpr (Or.inl hst)]
    · rw [started_update_ne htu, h t]
      split
      · rfl
      · simp [Function.update_of_ne htu]

/-- **The table knows the started tracees**, after every step. -/
theorem step_registered {s s' : Sys σ} {m : Move} (h : Registered s)
    (hs : Step cb ndebug others s m s') : Registered s' := by
  obtain ⟨-, hen, rfl⟩ := hs
  cases m with
  | create c u thread =>
    obtain ⟨-, hu, -⟩ := hen
    have hno : ¬ s.kern.started u := by simp [Kernel.started, hu]
    refine h.of_frame (u := u) (fun t ht => Function.update_of_ne ht _ _) (fun _ _ => rfl)
      (fun _ _ => rfl) ?_
    simp only [Sys.after, started_update_self]
    rw [h u]
    simp [hno, Thread.fresh]
  | die u st =>
    obtain ⟨⟨th, hth, -⟩, -⟩ := hen
    refine h.of_frame (u := u) (fun t ht => Function.update_of_ne ht _ _) (fun _ _ => rfl)
      (fun _ _ => rfl) ?_
    simp only [Sys.after, started_update_self, hth, Option.map_some, Option.some.injEq]
    rw [h u]
    simp [Kernel.started, hth]
  | execve u =>
    obtain ⟨th, hexec⟩ := hen
    exact execve_registered h hexec
  | report cause e =>
    rcases e.wstatus.stopped_or_isExit with ⟨stopsig, hw⟩ | hexit
    · exact stop_registered h hen hw
    · exact exit_registered h hexit

/-- `m` creates the tracee `t`. -/
def Move.creates : Move → Tid → Prop
  | .create _ u _, t => t = u
  | _, _ => False

/-- Nothing but its creation makes a tracee. -/
theorem step_kern_none {s s' : Sys σ} {m : Move} {t : Tid} (h : s.kern t = none)
    (hm : ¬ m.creates t) (hs : Step cb ndebug others s m s') : s'.kern t = none := by
  obtain ⟨-, hen, rfl⟩ := hs
  cases m with
  | create c u thread => simpa [Sys.after, Function.update_of_ne hm] using h
  | die u st =>
    obtain ⟨⟨th, hth, -⟩, -⟩ := hen
    have hne : t ≠ u := by rintro rfl; rw [h] at hth; cases hth
    simpa [Sys.after, Function.update_of_ne hne] using h
  | execve u =>
    obtain ⟨th, hth, -, ⟨l, hl, -⟩, -⟩ := hen
    have hne : t ≠ u := by rintro rfl; rw [h] at hth; cases hth
    have hnl : t ≠ th.tgid := by rintro rfl; rw [h] at hl; cases hl
    simpa [Sys.after, hth, Kernel.execve, Function.update_of_ne hne, Function.update_of_ne hnl]
      using h
  | report cause e =>
    rcases e.wstatus.stopped_or_isExit with ⟨stopsig, hw⟩ | hexit
    · obtain ⟨th, hth, -⟩ := Reports.stopped hen hw
      have hne : t ≠ e.child := by rintro rfl; rw [h] at hth; cases hth
      rwa [after_stop_kern hw, Function.update_of_ne hne]
    · rw [after_exit_kern hexit]
      by_cases hne : t = e.child
      · simp [hne]
      · rwa [Function.update_of_ne hne]

/-- A tid that no step of a run creates is no tracee after it. -/
theorem run_kern_none {child t : Tid} {u : σ} {tr : List (Sys σ × Move)} {s : Sys σ}
    (hrun : Run (Step cb ndebug others) (Sys.init child u) tr s) (hne : t ≠ child)
    (htr : Guarded (fun _ m => ¬ m.creates t) tr) : s.kern t = none := by
  induction hrun with
  | nil => simp [Sys.init, hne]
  | snoc _ hs ih =>
    obtain ⟨htr, hm⟩ := guarded_snoc.mp htr
    exact step_kern_none (ih htr) hm hs

theorem step_apart {s s' : Sys σ} {m : Move} (h : Apart others s)
    (hs : Step cb ndebug others s m s') : Apart others s' := by
  intro t ht
  obtain ⟨hk, hv⟩ := h t ht
  have hm : ¬ m.creates t := by
    cases m with
    | create c u thread =>
      rintro rfl
      exact hs.2.1.2.2 ht
    | _ => exact id
  refine ⟨step_kern_none hk hm hs, ?_⟩
  obtain ⟨-, hen, rfl⟩ := hs
  cases m with
  | create | die => exact hv
  | execve u =>
    obtain ⟨th, hth, -⟩ := hen
    have hne : t ≠ u := by rintro rfl; rw [hk] at hth; cases hth
    simp only [Sys.after, hth]
    split
    · exact hv
    · rwa [Function.update_of_ne hne]
  | report cause e =>
    rcases e.wstatus.stopped_or_isExit with ⟨stopsig, hw⟩ | hexit
    · simpa only [Sys.after, hw] using hv
    · rw [after_exit_vanished hexit]
      rcases eq_or_ne t e.child with rfl | hne
      · exact Function.update_self _ _ _
      · rwa [Function.update_of_ne hne]

/-! ## 3. Programs that leave `execve` to the leader -/

/-- A thread that completes `execve` is the leader of its group. -/
def LeaderExec (s : Sys σ) : Move → Prop
  | .execve t => ∀ th, s.kern t = some th → th.tgid = t
  | _ => True

/-- The table knows the started tracees and nobody else: no tid has vanished. -/
def NoneVanished (s : Sys σ) : Prop := Registered s ∧ ∀ t, s.vanished t = false

theorem init_noneVanished (child : Tid) (u : σ) : NoneVanished (Sys.init child u) :=
  ⟨init_registered child u, fun _ => rfl⟩

theorem step_noneVanished {s s' : Sys σ} {m : Move} (h : NoneVanished s)
    (hlead : LeaderExec s m) (hs : Step cb ndebug others s m s') : NoneVanished s' := by
  obtain ⟨hreg, hvan⟩ := h
  refine ⟨step_registered hreg hs, fun t => ?_⟩
  obtain ⟨-, hen, rfl⟩ := hs
  cases m with
  | create | die => exact hvan t
  | execve u =>
    obtain ⟨th, hth, -⟩ := hen
    simp only [Sys.after, hth]
    rw [if_pos (hlead th hth).symm]
    exact hvan t
  | report cause e =>
    rcases e.wstatus.stopped_or_isExit with ⟨stopsig, hw⟩ | hexit
    · simp only [Sys.after, hw]
      exact hvan t
    · rw [after_exit_vanished hexit]
      rcases eq_or_ne t e.child with rfl | ht
      · exact Function.update_self ..
      · rw [Function.update_of_ne ht]
        exact hvan t

theorem run_noneVanished {child : Tid} {u : σ} {tr : List (Sys σ × Move)} {s : Sys σ}
    (hrun : Run (Step cb ndebug others) (Sys.init child u) tr s) (hlead : Guarded LeaderExec tr) :
    Always NoneVanished tr s :=
  hrun.invariant_of_guarded (init_noneVanished child u) (fun _ _ _ => step_noneVanished) hlead

end GravelBox
