/-
# The effect of a decision on the traced thread

A `Watch` runs the loop (`trace/tracer.cpp`, lines 89 to 171) on any sequence of reports in which
each thread alternates enter and exit stops, and keeps for each thread the phase it is in and the
answer the callback gave for the call it is in.  `Effect` says what a reported stop must do to the
registers; it holds of every report of every such sequence (`effect_run`), by way of one invariant:
the entry of a thread in the table is the one its phase calls for (`Tracks`).

An allowed call is left alone, at both of its stops.  A refused one goes on with the number -1,
which no call has, and at its exit stop `rax` is set to `-EPERM`; all other registers are the ones
the kernel reported.  The two writes are made at different stops, with any number of stops of other
threads in between, so the second depends on the table to know that there was a first.

What makes this hard is that each of the four requests may find the thread dead.  A stop whose
handling is cut short is never resumed, and nothing but the death of its thread is reported
afterwards: a refused call whose number could not be written is therefore not carried out either,
though the table may say anything.  A stop that is not cut short ends with the thread resumed.

The order of the reports is free, here with no kernel behind it: what is said of threads that
alternate holds for every kernel in which they do (`Trace/Kernel.lean` is one).

Not claimed: that the call a program sees refused had no effect before its enter stop; a stop comes
before the kernel has done anything for the call.
-/
import GravelBox.Trace.Kernel

namespace GravelBox

open Stateful Runs

variable {σ : Type} {cb : Callbacks σ} {ndebug : Bool}

/-! ## 1. Watching the loop -/

/-- Where a thread is. -/
inductive Phase
  /-- Not registered. -/
  | absent
  | user
  /-- In a call, with the answer the callback gave for it. -/
  | inCall (answer : Bool)
  /-- Its last stop was not resumed. -/
  | held
  deriving DecidableEq, Repr

/-- The entry the table should have for a thread in this phase. -/
def Phase.entry : Phase → Option ThreadStatus
  | .user => some .userspace
  | .inCall true => some .kernelspaceAllow
  | .inCall false => some .kernelspaceDeny
  | _ => none

/-- The loop, and the phases of the threads. -/
structure Watch (σ : Type) where
  loop : Loop σ
  phase : Tid → Phase
  status : Status

/-- The syscall stop of a thread in this phase must be of this kind. -/
def Phase.expects : Phase → SyscallOp → Prop
  | .user, .entry | .inCall _, .exit => True
  | _, _ => False

/-- `e` may be reported: a held thread only dies, and the syscall stops of a registered
thread alternate. -/
def Watch.Admits (w : Watch σ) (e : Event) : Prop :=
  match e.wstatus with
  | .stopped stopsig => w.phase e.child ≠ .held ∧
      (stopsig = SIGTRAP_SYSGOOD → (w.phase e.child).expects e.info.op)
  | _ => True

/-- The phase after a stop that ended in `h`. -/
def Phase.next (p : Phase) (stopsig : Nat) (h : Handling σ) : Phase :=
  if h.resumed = none then .held
  else if stopsig = SIGTRAP_SYSGOOD then
    match p with
    | .user => .inCall (h.answered true)
    | .inCall _ => .user
    | p => p
  else if stopsig = SIGSTOP ∧ p = .absent then .user
  else p

/-- The loop takes the report. -/
def Watch.after (cb : Callbacks σ) (ndebug : Bool) (w : Watch σ) (e : Event) : Watch σ :=
  let o := body cb ndebug e w.loop
  { loop := o.loop
    status := o.status
    phase := Function.update w.phase e.child (match e.wstatus with
      | .stopped stopsig =>
        (w.phase e.child).next stopsig (endState (handled cb ndebug e stopsig w.loop))
      | _ => .absent) }

def WatchStep (cb : Callbacks σ) (ndebug : Bool) (w : Watch σ) (e : Event) (w' : Watch σ) :
    Prop :=
  w.status = .running ∧ w.Admits e ∧ w' = w.after cb ndebug e

/-- The loop as it is entered. -/
def Watch.init (child : Tid) (u : σ) : Watch σ :=
  ⟨⟨initialTable child, u⟩, Function.update (fun _ => .absent) child .user, .running⟩

/-- Every entry is the one the phase calls for. -/
def Tracks (w : Watch σ) : Prop :=
  ∀ t, w.phase t ≠ .held → w.loop.threadStatus.lookup t = (w.phase t).entry

/-! ## 2. What a syscall stop must do -/

/-- No register of any thread was written. -/
def Handling.WritesNothing (h : Handling σ) : Prop := ∀ t r, .setRegs t r ∉ h.calls

/-- Nothing was written but `regs`, to `child`. -/
def Handling.WritesOnly (h : Handling σ) (child : Tid) (regs : UserRegs) : Prop :=
  ∀ t r, .setRegs t r ∈ h.calls → t = child ∧ r = regs

/-- What the handling `h` of an enter stop does to a thread whose registers were `regs`. -/
structure EnterEffect (child : Tid) (regs : UserRegs) (h : Handling σ) : Prop where
  /-- The thread is not resumed before the question has its one answer. -/
  asked : h.resumed.isSome → h.answered true ∨ h.answered false
  once : ¬ (h.answered true ∧ h.answered false)
  allowed : h.answered true → h.WritesNothing ∧ h.regs = regs
  /-- A refused call goes on with the number `-1` or not at all. -/
  denied : h.answered false → h.WritesOnly child { regs with orig_rax := -1 } ∧
    (h.resumed.isSome → h.regs = { regs with orig_rax := -1 })

/-- What it does at the exit stop of a call that got the answer given. -/
structure ExitEffect (child : Tid) (answer : Bool) (regs : UserRegs) (h : Handling σ) : Prop where
  allowed : answer = true → h.WritesNothing ∧ h.regs = regs
  /-- A refused call returns `-EPERM`. -/
  denied : answer = false → h.WritesOnly child { regs with rax := -(BitVec.ofNat 64 EPERM) } ∧
    (h.resumed.isSome → h.regs = { regs with rax := -(BitVec.ofNat 64 EPERM) })
  userspace : h.resumed.isSome → h.threadStatus.lookup child = some .userspace

/-- The effect of a syscall stop, by the phase of its thread. -/
def Effect (child : Tid) (regs : UserRegs) (h : Handling σ) : Phase → Prop
  | .user => EnterEffect child regs h
  | .inCall answer => ExitEffect child answer regs h
  | _ => True

theorem answered_iff {h : Handling σ} {b : Bool} : h.answered b = true ↔ .answer b ∈ h.calls := by
  unfold Handling.answered
  rw [List.any_eq_true]
  constructor
  · rintro ⟨c, hc, hb⟩
    cases c with
    | answer b' =>
      obtain rfl : b' = b := by simpa using hb
      exact hc
    | _ => simp at hb
  · intro hmem
    exact ⟨_, hmem, by simp⟩

/-! ## 3. How the handling of a syscall stop ends, calls and all -/

section Ends

variable {e : Event} {stopsig : Nat} {l : Loop σ}

/-- How a whole handling ends: in a state of `Q` the thread was resumed, or found dead when
it was to be resumed; or the handling ended before that, in a state of `C`. -/
inductive EndsIn (child : Tid) (Q C : Handling σ → Prop) : Handling σ → Prop
  | resumed {h₁ : Handling σ} (hq : Q h₁) : EndsIn child Q C (h₁.resume child)
  | dead {h₁ : Handling σ} (hq : Q h₁) (hres : h₁.resumed = none) :
      EndsIn child Q C (h₁.tryResume child)
  | cut {h' : Handling σ} (hc : C h') (hres : h'.resumed = none) : EndsIn child Q C h'

theorem EndsIn.imp {child : Tid} {Q C Q' C' : Handling σ → Prop} {h' : Handling σ}
    (hq : ∀ h₁, Q h₁ → Q' h₁) (hc : ∀ h₁, C h₁ → C' h₁) (h : EndsIn child Q C h') :
    EndsIn child Q' C' h' := by
  cases h with
  | resumed h₁ => exact .resumed (hq _ h₁)
  | dead h₁ hres => exact .dead (hq _ h₁) hres
  | cut h₁ hres => exact .cut (hc _ h₁) hres

theorem handled_ends : EndsIn e.child (Dispatched e.child stopsig (.start l e))
    (fun h' => ∃ f, DispatchCut e.child stopsig (.start l e) f h')
    (endState (handled cb ndebug e stopsig l)) := by
  cases hr : handled cb ndebug e stopsig l with
  | ok _ h' =>
    obtain ⟨h₁, hd, -, rfl⟩ := handled_ok hr
    exact .resumed hd
  | error f h' =>
    rcases handled_error hr with hc | ⟨h₁, hd, -, rfl, -⟩
    · exact .cut ⟨f, hc⟩ (handled_error_resumed hr)
    · exact .dead hd hd.frame.2

/-- The handling of an enter stop. -/
theorem enter_ends (hst : l.threadStatus.lookup e.child = some .userspace) :
    EndsIn e.child
      (fun h₁ => EnterAllowed e.child (.start l e) h₁ ∨ EnterDenied e.child (.start l e) h₁)
      (EnterCut e.child (.start l e)) (endState (handled cb ndebug e SIGTRAP_SYSGOOD l)) := by
  refine handled_ends.imp ?_ ?_
  · intro h₁ hd
    cases hd with
    | attached hsig => exact absurd hsig.symm sigstop_ne_sysgood
    | ignored hsig => exact absurd rfl hsig
    | allowed _ _ ha => exact Or.inl ha
    | denied _ _ hd => exact Or.inr hd
    | exitDenied _ hst' | exitAllowed _ hst' => cases Option.some.inj (hst.symm.trans hst')
  · rintro h₁ ⟨f, hc⟩
    cases hc with
    | unregistered _ hno => cases hst.symm.trans hno
    | enter _ _ hcut => exact hcut
    | exit _ hst' => cases Option.some.inj (hst.symm.trans hst')

/-- The handling of the exit stop of a refused call. -/
theorem exitDenied_ends (hst : l.threadStatus.lookup e.child = some .kernelspaceDeny) :
    EndsIn e.child
      (fun h₁ => ∃ h₂, ExitDenied e.child (.start l e) h₂ ∧
        h₁ = { h₂ with threadStatus := h₂.threadStatus.insert e.child .userspace })
      (ExitCut e.child (.start l e)) (endState (handled cb ndebug e SIGTRAP_SYSGOOD l)) := by
  refine handled_ends.imp ?_ ?_
  · intro h₁ hd
    cases hd with
    | attached hsig => exact absurd hsig.symm sigstop_ne_sysgood
    | ignored hsig => exact absurd rfl hsig
    | exitDenied _ _ hx => exact ⟨_, hx, rfl⟩
    | allowed _ hst' | denied _ hst' | exitAllowed _ hst' =>
      cases Option.some.inj (hst.symm.trans hst')
  · rintro h₁ ⟨f, hc⟩
    cases hc with
    | unregistered _ hno => cases hst.symm.trans hno
    | enter _ hst' => cases Option.some.inj (hst.symm.trans hst')
    | exit _ _ hcut => exact hcut

/-- The handling of the exit stop of an allowed call. -/
theorem exitAllowed_ends (hst : l.threadStatus.lookup e.child = some .kernelspaceAllow) :
    EndsIn e.child
      (fun h₁ => h₁ = { Handling.start l e with
        threadStatus := l.threadStatus.insert e.child .userspace })
      (fun _ => False) (endState (handled cb ndebug e SIGTRAP_SYSGOOD l)) := by
  refine handled_ends.imp ?_ ?_
  · intro h₁ hd
    cases hd with
    | attached hsig => exact absurd hsig.symm sigstop_ne_sysgood
    | ignored hsig => exact absurd rfl hsig
    | exitAllowed => rfl
    | allowed _ hst' | denied _ hst' | exitDenied _ hst' =>
      cases Option.some.inj (hst.symm.trans hst')
  · rintro h₁ ⟨f, hc⟩
    cases hc with
    | unregistered _ hno => cases hst.symm.trans hno
    | enter _ hst' | exit _ hst' => cases Option.some.inj (hst.symm.trans hst')

/-! ## 4. The effect of one stop -/

/-- **The enter stop.** -/
theorem enter_effect (hst : l.threadStatus.lookup e.child = some .userspace) :
    EnterEffect e.child e.regs (endState (handled cb ndebug e SIGTRAP_SYSGOOD l)) := by
  have hallowed : ∀ h' h₁ : Handling σ, EnterAllowed e.child (.start l e) h₁ →
      h'.calls = h₁.calls ++ [.syscall e.child 0] → h'.regs = h₁.regs →
      EnterEffect e.child e.regs h' := by
    intro h' h₁ ha hcalls hregs
    have hc : h'.calls = allowedCalls e.child e.info ++ [.syscall e.child 0] := by
      rw [hcalls, ha.calls]
      rfl
    refine ⟨fun _ => Or.inl ?_, ?_, fun _ => ⟨fun t r => ?_, hregs.trans ha.regs⟩, ?_⟩
    · simp [answered_iff, hc, allowedCalls]
    · simp [answered_iff, hc, allowedCalls, enterCalls]
    · simp [hc, allowedCalls, enterCalls]
    · simp [answered_iff, hc, allowedCalls, enterCalls]
  have hdenied : ∀ h' : Handling σ, h'.calls <+: deniedCalls e.child e.info e.regs ++
        [.syscall e.child 0] →
      (h'.resumed.isSome → .answer false ∈ h'.calls ∧ h'.regs = { e.regs with orig_rax := -1 }) →
      EnterEffect e.child e.regs h' := by
    intro h' hcalls hres
    have hno : h'.answered true ≠ true := by
      rw [ne_eq, answered_iff]
      exact fun hmem => absurd (hcalls.subset hmem) (by simp [deniedCalls, enterCalls])
    refine ⟨fun hr => Or.inr (answered_iff.mpr (hres hr).1), fun h => hno h.1,
      fun h => absurd h hno, fun _ => ⟨fun t r hmem => ?_, fun hr => (hres hr).2⟩⟩
    simpa [deniedCalls, enterCalls] using hcalls.subset hmem
  have hends : EndsIn _ _ _ (endState (handled cb ndebug e SIGTRAP_SYSGOOD l)) := enter_ends hst
  generalize endState (handled cb ndebug e SIGTRAP_SYSGOOD l) = h' at hends ⊢
  cases hends with
  | @resumed h₁ hq =>
    rcases hq with ha | hd
    · exact hallowed _ h₁ ha rfl rfl
    · refine hdenied _ ⟨[], ?_⟩ fun _ => ⟨?_, hd.regs⟩
      · simp [Handling.resume, hd.calls, Handling.start]
      · simp [Handling.resume, hd.calls, deniedCalls]
  | @dead h₁ hq hres =>
    rcases hq with ha | hd
    · exact hallowed _ h₁ ha rfl rfl
    · refine hdenied _ ⟨[], ?_⟩ fun hr => ?_
      · simp [Handling.tryResume, hd.calls, Handling.start]
      · simp [Handling.tryResume, hres] at hr
  | cut hc hres =>
    refine hdenied _ (hc.calls.trans ⟨[.syscall e.child 0], rfl⟩) fun hr => ?_
    simp [hres] at hr

/-- **The exit stop of a refused call.** -/
theorem exitDenied_effect (hst : l.threadStatus.lookup e.child = some .kernelspaceDeny) :
    ExitEffect e.child false e.regs (endState (handled cb ndebug e SIGTRAP_SYSGOOD l)) := by
  have hends : EndsIn _ _ _ (endState (handled cb ndebug e SIGTRAP_SYSGOOD l)) :=
    exitDenied_ends hst
  have hfalse : ∀ {p : Prop}, false = true → p := fun h => absurd h Bool.false_ne_true
  generalize endState (handled cb ndebug e SIGTRAP_SYSGOOD l) = h' at hends ⊢
  have hwrites : ∀ cs : List Call, cs <+: exitDeniedCalls e.child e.regs ++
      [.syscall e.child 0] → ∀ t r, .setRegs t r ∈ cs →
        t = e.child ∧ r = { e.regs with rax := -(BitVec.ofNat 64 EPERM) } := by
    intro cs hcs t r hmem
    simpa [exitDeniedCalls] using hcs.subset hmem
  cases hends with
  | resumed hq =>
    obtain ⟨h₂, hx, rfl⟩ := hq
    refine ⟨hfalse, fun _ => ⟨hwrites _ ⟨[], ?_⟩, fun _ => hx.regs⟩, fun _ => ?_⟩
    · simp [Handling.resume, hx.calls, Handling.start]
    · exact AList.lookup_insert _
  | dead hq hres =>
    obtain ⟨h₂, hx, rfl⟩ := hq
    have hres' : (Handling.tryResume { h₂ with
        threadStatus := h₂.threadStatus.insert e.child .userspace } e.child).resumed = none := hres
    refine ⟨hfalse, fun _ => ⟨hwrites _ ⟨[], ?_⟩, fun hr => ?_⟩, fun hr => ?_⟩
    · simp [Handling.tryResume, hx.calls, Handling.start]
    · simp [hres'] at hr
    · simp [hres'] at hr
  | cut hc hres =>
    refine ⟨hfalse, fun _ => ⟨hwrites _ (hc.calls.trans ⟨[.syscall e.child 0], rfl⟩),
      fun hr => ?_⟩, fun hr => ?_⟩
    · simp [hres] at hr
    · simp [hres] at hr

/-- **The exit stop of an allowed call.** -/
theorem exitAllowed_effect (hst : l.threadStatus.lookup e.child = some .kernelspaceAllow) :
    ExitEffect e.child true e.regs (endState (handled cb ndebug e SIGTRAP_SYSGOOD l)) := by
  have hends : EndsIn _ _ _ (endState (handled cb ndebug e SIGTRAP_SYSGOOD l)) :=
    exitAllowed_ends hst
  generalize endState (handled cb ndebug e SIGTRAP_SYSGOOD l) = h' at hends ⊢
  cases hends with
  | resumed hq | dead hq =>
    subst hq
    refine ⟨fun _ => ⟨fun t r => ?_, rfl⟩, nofun, fun _ => AList.lookup_insert _⟩
    simp [Handling.resume, Handling.tryResume, Handling.start]
  | cut hc => exact hc.elim

/-- A syscall stop of a thread whose entry is the one its phase calls for. -/
theorem stop_effect {p : Phase} (hst : p ≠ .held → l.threadStatus.lookup e.child = p.entry) :
    Effect e.child e.regs (endState (handled cb ndebug e SIGTRAP_SYSGOOD l)) p := by
  cases p with
  | absent | held => trivial
  | user => exact enter_effect (hst nofun)
  | inCall answer =>
    cases answer with
    | true => exact exitAllowed_effect (hst nofun)
    | false => exact exitDenied_effect (hst nofun)

/-- The entry after an enter stop is the one its answer calls for. -/
theorem enter_entry (hst : l.threadStatus.lookup e.child = some .userspace)
    (hres : (endState (handled cb ndebug e SIGTRAP_SYSGOOD l)).resumed ≠ none) :
    (endState (handled cb ndebug e SIGTRAP_SYSGOOD l)).threadStatus.lookup e.child =
      (Phase.inCall ((endState (handled cb ndebug e SIGTRAP_SYSGOOD l)).answered true)).entry := by
  have hends : EndsIn _ _ _ (endState (handled cb ndebug e SIGTRAP_SYSGOOD l)) := enter_ends hst
  generalize endState (handled cb ndebug e SIGTRAP_SYSGOOD l) = h' at hends hres ⊢
  cases hends with
  | @resumed h₁ hq =>
    rcases hq with ha | hd
    · have htrue : (h₁.resume e.child).answered true = true := by
        simp [answered_iff, Handling.resume, ha.calls, allowedCalls]
      rw [htrue]
      simp [Handling.resume, ha.table, Phase.entry]
    · have hfalse : (h₁.resume e.child).answered true = false := by
        rw [Bool.eq_false_iff, ne_eq, answered_iff]
        simp [Handling.resume, hd.calls, deniedCalls, enterCalls, Handling.start]
      rw [hfalse]
      simp [Handling.resume, hd.table, Phase.entry]
  | dead _ hnone | cut _ hnone => exact absurd hnone hres

/-- Any stop that may be reported keeps the entry of its thread right. -/
theorem stop_entry {p : Phase} (hheld : p ≠ .held)
    (hop : stopsig = SIGTRAP_SYSGOOD → p.expects e.info.op)
    (hst : l.threadStatus.lookup e.child = p.entry)
    (hnext : p.next stopsig (endState (handled cb ndebug e stopsig l)) ≠ .held) :
    (endState (handled cb ndebug e stopsig l)).threadStatus.lookup e.child =
      (p.next stopsig (endState (handled cb ndebug e stopsig l))).entry := by
  by_cases hres : (endState (handled cb ndebug e stopsig l)).resumed = none
  · simp [Phase.next, hres] at hnext
  rcases eq_or_ne stopsig SIGTRAP_SYSGOOD with rfl | hsys
  · have hsome := Option.isSome_iff_ne_none.mpr hres
    simp only [Phase.next, if_neg hres, if_true]
    cases p with
    | absent | held => exact (hop rfl).elim
    | user => exact enter_entry hst hres
    | inCall answer =>
      cases answer with
      | true => exact (exitAllowed_effect hst).userspace hsome
      | false => exact (exitDenied_effect hst).userspace hsome
  · -- any other stop: only the first `SIGSTOP` changes the table
    have hends : EndsIn _ _ _ (endState (handled cb ndebug e stopsig l)) := handled_ends
    simp only [Phase.next, if_neg hres, if_neg hsys]
    generalize endState (handled cb ndebug e stopsig l) = h' at hends hres ⊢
    cases hends with
    | resumed hd =>
      cases hd with
      | attached hsig hnew =>
        have hp : p = .absent := by
          cases p with
          | absent => rfl
          | held => exact absurd rfl hheld
          | user => cases hst.symm.trans hnew
          | inCall answer => cases answer <;> cases hst.symm.trans hnew
        rw [if_pos ⟨hsig, hp⟩]
        exact AList.lookup_insert _
      | ignored _ hold =>
        have hp : ¬ (stopsig = SIGSTOP ∧ p = .absent) := by
          rintro ⟨hsig, rfl⟩
          exact hold hsig hst
        rw [if_neg hp]
        exact hst
      | allowed hsig | denied hsig | exitDenied hsig | exitAllowed hsig => exact absurd hsig hsys
    | dead _ hnone | cut _ hnone => exact absurd hnone hres

end Ends

/-! ## 5. A run -/

theorem step_tracks {w w' : Watch σ} {e : Event} (h : Tracks w)
    (hs : WatchStep cb ndebug w e w') : Tracks w' := by
  obtain ⟨-, hadm, rfl⟩ := hs
  intro t hheld
  cases hw : e.wstatus with
  | stopped stopsig =>
    simp only [Watch.Admits, hw] at hadm
    simp only [Watch.after, hw, body_stop_loop hw, Handling.loop] at hheld ⊢
    rcases eq_or_ne t e.child with rfl | ht
    · rw [Function.update_self] at hheld ⊢
      exact stop_entry hadm.1 hadm.2 (h _ hadm.1) hheld
    · rw [Function.update_of_ne ht] at hheld ⊢
      rw [endState_frame ht]
      exact h t hheld
  | _ =>
    have hexit : e.wstatus.isExit := by simp [hw, WaitStatus.isExit]
    simp only [Watch.after, hw, body_exit_loop hexit] at hheld ⊢
    rcases eq_or_ne t e.child with rfl | ht
    · rw [Function.update_self, AList.lookup_erase]
      rfl
    · rw [Function.update_of_ne ht] at hheld ⊢
      rw [AList.lookup_erase_ne ht]
      exact h t hheld

theorem init_tracks (child : Tid) (u : σ) : Tracks (Watch.init child u) := by
  intro t _
  rcases eq_or_ne t child with rfl | ht
  · simp [Watch.init, lookup_initialTable, Phase.entry]
  · simp [Watch.init, lookup_initialTable, Phase.entry, ht]

/-- **The effect of every decision, in every run.**  Each syscall stop has the effect that
its phase and the answer of the callback call for; between the stops the entries are right;
a handling that comes to its end has resumed its thread, and one that is cut short has not. -/
theorem effect_run (child : Tid) (u : σ) {tr : List (Watch σ × Event)} {w : Watch σ}
    (hrun : Run (WatchStep cb ndebug) (Watch.init child u) tr w) :
    Always Tracks tr w ∧
      ∀ w₁ e, (w₁, e) ∈ tr →
        (e.wstatus = .stopped SIGTRAP_SYSGOOD →
          Effect e.child e.regs (endState (handled cb ndebug e SIGTRAP_SYSGOOD w₁.loop))
            (w₁.phase e.child)) ∧
        (∀ stopsig h, handled cb ndebug e stopsig w₁.loop = .ok () h → h.resumed = some 0) ∧
        ∀ stopsig f h, handled cb ndebug e stopsig w₁.loop = .error f h → h.resumed = none := by
  have htracks : Always Tracks tr w :=
    hrun.invariant (init_tracks child u) fun _ _ _ => step_tracks
  refine ⟨htracks, fun w₁ e hmem =>
    ⟨fun _ => ?_, fun _ _ => handled_ok_resumed, fun _ _ _ => handled_error_resumed⟩⟩
  exact stop_effect (htracks.1 _ hmem e.child)

/-- A thread whose `openat` is refused: it goes on with the number `-1`, returns `-EPERM`, and
is back in user space. -/
theorem refused_openat_effect :
    let enter := Event.plain 1 (.stopped SIGTRAP_SYSGOOD) .entry 257
    let exit := Event.plain 1 (.stopped SIGTRAP_SYSGOOD) .exit 257
    let w₀ := Watch.init 1 ()
    let w₁ := w₀.after allButOpenat true enter
    w₁.phase 1 = .inCall false ∧
      EnterEffect 1 enter.regs
        (endState (handled allButOpenat true enter SIGTRAP_SYSGOOD w₀.loop)) ∧
      ExitEffect 1 false exit.regs
        (endState (handled allButOpenat true exit SIGTRAP_SYSGOOD w₁.loop)) ∧
      (endState (handled allButOpenat true exit SIGTRAP_SYSGOOD w₁.loop)).resumed = some 0 := by
  intro enter exit w₀ w₁
  have h₀ : Run (WatchStep allButOpenat true) w₀ [] w₀ := .nil
  have h₁ : Run (WatchStep allButOpenat true) w₀ ([] ++ [(w₀, enter)]) w₁ :=
    h₀.snoc ⟨rfl, ⟨nofun, fun _ => trivial⟩, rfl⟩
  have h₂ : Run (WatchStep allButOpenat true) w₀ ([] ++ [(w₀, enter)] ++ [(w₁, exit)])
      (w₁.after allButOpenat true exit) :=
    h₁.snoc ⟨rfl, ⟨nofun, fun _ => trivial⟩, rfl⟩
  have hexit : handled allButOpenat true exit SIGTRAP_SYSGOOD w₁.loop =
      .ok () (endState (handled allButOpenat true exit SIGTRAP_SYSGOOD w₁.loop)) := rfl
  obtain ⟨-, heffect⟩ := effect_run 1 () h₂
  exact ⟨rfl, (heffect w₀ enter (by simp)).1 rfl, (heffect w₁ exit (by simp)).1 rfl,
    (heffect w₁ exit (by simp)).2.1 SIGTRAP_SYSGOOD _ hexit⟩

end GravelBox
