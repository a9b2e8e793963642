/-
# Complete mediation

The tracer knows whether a syscall stop is an enter or an exit stop only from its own table
(`trace/tracer.cpp`, lines 106 to 158).  `Agree` says that the table has it right for every thread
the kernel may still report a syscall stop of, and `Mediated` what this is for: the kernel carries
out no call the callback did not allow.

Both hold throughout a run exactly when no step of it puts the table out of step
(`mediation_iff`), and there are two ways to do that, both through `execve` in a thread that
is not the leader:

* the thread goes on under the leader's tid, in the middle of a call, while the leader's entry says
  `USERSPACE`;
* its own entry is left behind, and a new tracee that is given its old tid is taken to be in a call.

What makes this hard is that the condition has to be found such that it can be checked before each
step and is exact: a step that meets it keeps both properties, and a step that does not breaks one
of them at once (`step_mediates_iff`).  Neither property alone has such a condition, since a table
that is out of step does no harm as long as nobody makes a call.

A tracee that is killed during its stop and a handling that is cut short are harmless: the thread is
held in its stop, and nothing but its death is reported of it any more.

Not claimed: that the calls which are allowed are harmless, or are carried out with the arguments
the callback saw; memory that other threads share can change under a call.
-/
import GravelBox.Trace.Registry

namespace GravelBox

open Stateful Runs

variable {σ : Type} {cb : Callbacks σ} {ndebug : Bool} {others : Tid → Prop}

/-! ## 1. The two properties -/

/-- The next syscall stop the kernel will report for `t`, if it will report any. -/
def Kernel.nextStop (k : Kernel) (t : Tid) : Option Turn :=
  match k t with
  | some th => if th.dead = none ∧ th.held = false then some th.next else none
  | none => none

/-- A table entry fits the syscall stop that comes next. -/
def Fits (st : Option ThreadStatus) (turn : Turn) : Prop :=
  ∀ st', st = some st' → (st' = .userspace ↔ turn = .enter)

/-- The table has every thread right. -/
def Agree (s : Sys σ) : Prop :=
  ∀ t turn, s.kern.nextStop t = some turn → Fits (s.loop.threadStatus.lookup t) turn

/-- The kernel carries out only calls that the callback allowed. -/
def Mediated (s : Sys σ) : Prop :=
  ∀ t th, s.kern t = some th → th.executing = true → th.approved = true

/-- The two together. -/
def Mediates (s : Sys σ) : Prop := Agree s ∧ Mediated s

/-- What a step must meet: `execve` in a thread other than the leader only while the leader's
entry is not `USERSPACE`, and no new tracee under a tid whose entry says it is in a call. -/
def KeepsTurn (s : Sys σ) : Move → Prop
  | .execve t => ∀ th, s.kern t = some th → th.tgid ≠ t →
      s.loop.threadStatus.lookup th.tgid ≠ some .userspace
  | .create _ t _ => Fits (s.loop.threadStatus.lookup t) .enter
  | _ => True

theorem fits_none {turn : Turn} : Fits none turn := by simp [Fits]

theorem fits_some {st : ThreadStatus} {turn : Turn} :
    Fits (some st) turn ↔ (st = .userspace ↔ turn = .enter) := by simp [Fits]

theorem fits_exit {st : Option ThreadStatus} : Fits st .exit ↔ st ≠ some .userspace := by
  cases st <;> simp [Fits]

/-- The two properties, read at one thread. -/
def ThreadOk (o : Option Thread) (st : Option ThreadStatus) : Prop :=
  ∀ th, o = some th → (th.dead = none → th.held = false → Fits st th.next) ∧
    (th.executing = true → th.approved = true)

theorem mediates_iff {s : Sys σ} :
    Mediates s ↔ ∀ t, ThreadOk (s.kern t) (s.loop.threadStatus.lookup t) := by
  constructor
  · rintro ⟨hag, hmed⟩ t th hth
    refine ⟨fun hd hh => hag t th.next ?_, hmed t th hth⟩
    simp [Kernel.nextStop, hth, hd, hh]
  · intro h
    refine ⟨?_, fun t th hth => (h t th hth).2⟩
    intro t turn hn
    unfold Kernel.nextStop at hn
    split at hn
    · rename_i th hth
      split at hn
      · rename_i hlive
        rw [Option.some.injEq] at hn
        exact hn ▸ (h t th hth).1 hlive.1 hlive.2
      · cases hn
    · cases hn

theorem threadOk_none {st : Option ThreadStatus} : ThreadOk none st := by simp [ThreadOk]

theorem threadOk_some {th : Thread} {st : Option ThreadStatus} :
    ThreadOk (some th) st ↔ (th.dead = none → th.held = false → Fits st th.next) ∧
      (th.executing = true → th.approved = true) := by simp [ThreadOk]

/-- A step that touches one thread only has to be looked at there. -/
theorem forall_threadOk_update {k : Kernel} {u : Tid} {o : Option Thread}
    {table table' : ThreadTable} (h : ∀ t, ThreadOk (k t) (table.lookup t))
    (hframe : ∀ t, t ≠ u → table'.lookup t = table.lookup t) :
    (∀ t, ThreadOk (Function.update k u o t) (table'.lookup t)) ↔
      ThreadOk o (table'.lookup u) := by
  constructor
  · intro hall
    simpa using hall u
  · intro hu t
    rcases eq_or_ne t u with rfl | ht
    · simpa using hu
    · rw [Function.update_of_ne ht, hframe t ht]
      exact h t

/-! ## 2. A reported stop -/

section Stop

variable {th : Thread} {cause : Cause} {e : Event} {stopsig : Nat} {l : Loop σ}

/-- **A handling that ended normally keeps the entry in step.** -/
theorem afterStop_fits {h' : Handling σ} (hr : handled cb ndebug e stopsig l = .ok () h')
    (hcause : stopsig = SIGTRAP_SYSGOOD ↔ cause = .syscall)
    (hnew : l.threadStatus.lookup e.child = none → th.next = .enter)
    (hfits : Fits (l.threadStatus.lookup e.child) th.next) :
    Fits (h'.threadStatus.lookup e.child) (th.afterStop cause h').next := by
  obtain ⟨h₁, hd, -, rfl⟩ := handled_ok hr
  simp only [Handling.resume, Thread.afterStop]
  cases hd with
  | attached hsig hnone =>
    have hns : cause ≠ .syscall := fun hc => sigstop_ne_sysgood (hsig ▸ hcause.mpr hc)
    rw [AList.lookup_insert, if_neg hns, hnew hnone]
    simp [Fits]
  | ignored hsig =>
    rw [if_neg fun hc => hsig (hcause.mpr hc)]
    exact hfits
  | allowed hsig hst ha =>
    have henter : th.next = .enter := (hfits _ hst).mp rfl
    rw [ha.table, AList.lookup_insert, if_pos (hcause.mp hsig), henter]
    simp [Fits, Turn.flip]
  | denied hsig hst hd =>
    have henter : th.next = .enter := (hfits _ hst).mp rfl
    rw [hd.table, AList.lookup_insert, if_pos (hcause.mp hsig), henter]
    simp [Fits, Turn.flip]
  | exitDenied hsig hst | exitAllowed hsig hst =>
    have hexit : th.next = .exit := by
      cases hn : th.next with
      | enter => exact absurd ((hfits _ hst).mpr hn) (by simp)
      | exit => rfl
    rw [AList.lookup_insert, if_pos (hcause.mp hsig), hexit]
    simp [Fits, Turn.flip]

/-- **After a stop the kernel carries out a call only if the callback allowed it.** -/
theorem afterStop_mediated (hcause : stopsig = SIGTRAP_SYSGOOD ↔ cause = .syscall)
    (hfits : Fits (l.threadStatus.lookup e.child) th.next)
    (hmed : th.executing = true → th.approved = true) :
    let th' := th.afterStop cause (endState (handled cb ndebug e stopsig l))
    th'.executing = true → th'.approved = true := by
  intro th' hexec
  by_cases hsys : cause = .syscall
  · -- a call goes on only from an enter stop that was handled to its end
    simp only [th', Thread.afterStop, if_pos hsys, Bool.and_eq_true, decide_eq_true_eq] at hexec ⊢
    obtain ⟨⟨hnext, hrax⟩, hres⟩ := hexec
    refine ⟨hnext, ?_⟩
    cases hr : handled cb ndebug e stopsig l with
    | error f h' =>
      rw [hr] at hres
      simp [endState, handled_error_resumed hr] at hres
    | ok _ h' =>
      rw [hr] at hrax
      obtain ⟨h₁, hd, -, rfl⟩ := handled_ok hr
      simp only [endState, Handling.resume] at hrax ⊢
      cases hd with
      | attached hsig => exact absurd (hsig ▸ hcause.mpr hsys) sigstop_ne_sysgood
      | ignored hsig => exact absurd (hcause.mpr hsys) hsig
      | allowed _ _ ha => simp [Handling.answered, ha.calls, allowedCalls]
      | denied _ _ hd => simp [hd.regs] at hrax
      | exitDenied _ hst | exitAllowed _ hst =>
        exact absurd ((hfits _ hst).mpr hnext) (by simp)
  · simp only [th', Thread.afterStop, if_neg hsys] at hexec ⊢
    exact hmed hexec

end Stop

/-! ## 3. One step, and a run -/

/-- **The step lemma.**  From a state that mediates, a step leads to one exactly when it
meets the condition. -/
theorem step_mediates_iff {s s' : Sys σ} {m : Move} (hreg : Registered s) (h : Mediates s)
    (hs : Step cb ndebug others s m s') : Mediates s' ↔ KeepsTurn s m := by
  obtain ⟨-, hen, rfl⟩ := hs
  rw [mediates_iff] at h ⊢
  cases m with
  | create c u thread =>
    simp only [Sys.after]
    rw [forall_threadOk_update h fun _ _ => rfl, threadOk_some]
    simp [Thread.fresh, KeepsTurn]
  | die u st =>
    obtain ⟨⟨th, hth, -⟩, -⟩ := hen
    simp only [Sys.after]
    rw [forall_threadOk_update h fun _ _ => rfl, hth, Option.map_some, threadOk_some]
    simpa [KeepsTurn] using (h u th hth).2
  | execve u =>
    obtain ⟨th, hth, ⟨⟨hdead, -, hheld⟩, hnext, -⟩, -, -⟩ := hen
    have hu := h u th hth
    have hgone : ∀ t, ThreadOk (Function.update s.kern u none t)
        (s.loop.threadStatus.lookup t) :=
      (forall_threadOk_update h fun _ _ => rfl).mpr threadOk_none
    simp only [Sys.after, hth, Kernel.execve]
    rw [forall_threadOk_update hgone fun _ _ => rfl, threadOk_some]
    simp only [hdead, hheld, hnext, forall_const, fits_exit, KeepsTurn, hth, Option.some.injEq,
      forall_eq']
    constructor
    · rintro ⟨hfit, -⟩ -
      exact hfit
    · intro hkeep
      refine ⟨?_, hu.2⟩
      by_cases hlead : th.tgid = u
      · rw [hlead, ← fits_exit, ← hnext]
        exact hu.1 hdead hheld
      · exact hkeep hlead
  | report cause e =>
    refine ⟨fun _ => trivial, fun _ => ?_⟩
    rcases e.wstatus.stopped_or_isExit with ⟨stopsig, hw⟩ | hexit
    · obtain ⟨th, hth, hdead, hheld, hfirst⟩ := Reports.stopped hen hw
      have hcause := Reports.sysgood_iff hen hw
      have hok := h e.child th hth
      have hfits := hok.1 hdead hheld
      rw [after_stop_kern hw, after_stop_table hw,
        forall_threadOk_update h fun t ht => endState_frame ht, hth, Option.map_some,
        threadOk_some]
      refine ⟨fun _ hheld' => ?_, afterStop_mediated hcause hfits hok.2⟩
      cases hr : handled cb ndebug e stopsig s.loop with
      | error f h' =>
        rw [hr] at hheld'
        simp [Thread.afterStop, endState, handled_error_resumed hr] at hheld'
      | ok _ h' =>
        refine afterStop_fits hr hcause (fun hnone => ?_) hfits
        rcases hfirst with ⟨-, hnext, -⟩ | hst
        · exact hnext
        · exact absurd hnone ((hreg e.child).mpr (Or.inl ⟨th, hth, hst⟩))
    · rw [after_exit_kern hexit, after_exit_loop hexit,
        forall_threadOk_update h fun t ht => AList.lookup_erase_ne ht]
      exact threadOk_none

theorem init_mediates (child : Tid) (u : σ) : Mediates (Sys.init child u) := by
  refine mediates_iff.mpr fun t => ?_
  rcases eq_or_ne t child with rfl | ht
  · simp [Sys.init, lookup_initialTable, threadOk_some, Thread.fresh, fits_some]
  · simp [Sys.init, ht, threadOk_none]

/-- **Complete mediation, and exactly when it fails.**  In every run of the tracer, with any
callback and any interleaving, the table is right and the kernel carries out only allowed
calls in every state, if and only if every step of the run keeps the turn. -/
theorem mediation_iff (child : Tid) (u : σ) {tr : List (Sys σ × Move)} {s : Sys σ}
    (hrun : Run (Step cb ndebug others) (Sys.init child u) tr s) :
    Always Mediates tr s ↔ Guarded KeepsTurn tr :=
  hrun.guarded_iff (init_registered child u) (init_mediates child u)
    (fun _ _ _ => step_registered) fun _ _ _ => step_mediates_iff

/-- A thread that creates another one and returns from the call. -/
theorem clone_mediated :
    ∃ tr s, Run (Step allowAll true fun _ => False) (Sys.init 1 ()) tr s ∧
      Always Mediates tr s ∧ s.kern 2 ≠ none := by
  have h₀ : Run (Step allowAll true fun _ => False) (Sys.init 1 ()) [] (Sys.init 1 ()) := .nil
  have h₁ := run_move h₀ (.call 1 .enter 56) rfl (enabled_call 1 .enter 56 rfl ⟨rfl, rfl, rfl⟩ rfl)
  have h₂ := run_move h₁ (.create 1 2 true) rfl ⟨⟨_, rfl, ⟨rfl, rfl, rfl⟩, rfl, rfl⟩, rfl, id⟩
  have h₃ := run_move h₂ (.attach 2) rfl (enabled_attach 2 1 rfl)
  have h₄ := run_move h₃ (.call 1 .exit 56) rfl (enabled_call 1 .exit 56 rfl ⟨rfl, rfl, rfl⟩ rfl)
  refine ⟨_, _, h₄, (mediation_iff 1 () h₄).mpr ?_, nofun⟩
  have hfits : Fits (((Sys.init 1 ()).after allowAll true
      (.call 1 .enter 56)).loop.threadStatus.lookup 2) .enter := fits_none
  exact guarded_snoc.mpr ⟨guarded_snoc.mpr ⟨guarded_snoc.mpr ⟨guarded_snoc.mpr
    ⟨guarded_nil, trivial⟩, hfits⟩, trivial⟩, trivial⟩

/-! ## 4. A run that goes past the callback

Thread 1 creates thread 2 and returns to user space; thread 2 executes a program.  From then
on the tracer takes the exit stops of thread 1 for enter stops and the other way round, and
`openat`, which the callback refuses, is carried out. -/

theorem secondary_execve_not_mediated :
    ∃ tr s, Run (Step allButOpenat true fun _ => False) (Sys.init 1 ()) tr s ∧
      ¬ Always Mediates tr s ∧
        ∃ th, s.kern 1 = some th ∧ th.executing = true ∧ th.approved = false := by
  have h₀ : Run (Step allButOpenat true fun _ => False) (Sys.init 1 ()) [] (Sys.init 1 ()) := .nil
  have h₁ := run_move h₀ (.call 1 .enter 56) rfl (enabled_call 1 .enter 56 rfl ⟨rfl, rfl, rfl⟩ rfl)
  have h₂ := run_move h₁ (.create 1 2 true) rfl ⟨⟨_, rfl, ⟨rfl, rfl, rfl⟩, rfl, rfl⟩, rfl, id⟩
  have h₃ := run_move h₂ (.attach 2) rfl (enabled_attach 2 1 rfl)
  have h₄ := run_move h₃ (.call 1 .exit 56) rfl (enabled_call 1 .exit 56 rfl ⟨rfl, rfl, rfl⟩ rfl)
  have h₅ := run_move h₄ (.call 2 .enter 59) rfl (enabled_call 2 .enter 59 rfl ⟨rfl, rfl, rfl⟩ rfl)
  have h₆ := run_move h₅ (.execve 2) rfl
    ⟨⟨1, none, true, .exit, false, true, true, false⟩, rfl, ⟨⟨rfl, rfl, rfl⟩, rfl, rfl⟩,
      ⟨_, rfl, rfl⟩, fun u thu hu hl hth => by
        -- there are no other threads in the group
        rw [run_kern_none h₅ hl (by simp [Move.creates, hu])] at hth
        cases hth⟩
  have h₇ := run_move h₆ (.call 1 .exit 59) rfl (enabled_call 1 .exit 59 rfl ⟨rfl, rfl, rfl⟩ rfl)
  have h₈ := run_move h₇ (.call 1 .enter 257) rfl
    (enabled_call 1 .enter 257 rfl ⟨rfl, rfl, rfl⟩ rfl)
  refine ⟨_, _, h₈, ?_, _, rfl, rfl, rfl⟩
  intro halways
  exact absurd (halways.2.2 1 _ rfl rfl) (by decide)

end GravelBox
