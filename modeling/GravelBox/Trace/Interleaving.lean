/-
# The loop over an interleaving, and over the events of one thread

One loop serves all tracees (`trace/tracer.cpp`, lines 89 to 171): they share the table, the
callbacks with their state, and the variables of the loop.  `joint` is a run of the loop over any
interleaving of events; `solo` feeds the loop body with the events of one thread only, given the
answers its own calls of the callbacks got in the joint run.

What the loop does for a thread is the same in both (`joint_solo`): a turn for the thread
sees of the table only the thread's entry (`own`), and a turn for another leaves that entry
alone.

The callbacks are what makes this hard to state.  They have a state that all threads use, so what
one answers to a thread may well depend on the others, and rightly so: the user has one list of
answers.  The solo run is therefore given the answers, and the result is about everything else:
given the same answers, the loop makes the same requests, writes the same registers and leaves the
same entry.

It is proved by a projection (`Lib/Projection.lean`): the handling of a stop by `joint` is mirrored
by the one by `solo`, seen through the thread's own part of the state, program by program.

`run_joint` connects it with the kernel: a run of the whole is a joint run of its events, up to the
exit notification that makes the loop return.

Not claimed here: that the callbacks are asked about the right memory; see
`Trace/Independence.lean`.
-/
import GravelBox.Lib.Projection
import GravelBox.Trace.Kernel

namespace GravelBox

open Stateful Runs

variable {σ : Type}

/-! ## 1. The answers of the callbacks -/

/-- What the callbacks did when they were called for a stop: how each ended, and the world it
left. -/
structure Replies where
  pid : EStateM.Result Fault (Unit × World) Unit
  call : EStateM.Result Fault (Unit × World) Bool

/-- A callback's own state, hidden. -/
def forget (p : σ × World) : Unit × World := ((), p.2)

/-- The answers to `pid_callback(child)` and then `syscall_callback(args)`, the first called
in the state `p`.  If it throws, the second is not called. -/
def answersFrom (cb : Callbacks σ) (child : Tid) (args : SyscallArgs) (p : σ × World) : Replies :=
  let pid := (cb.pidCallback child).run p
  { pid := seen forget pid
    call := match pid with
      | .ok () p' => seen forget ((cb.syscallCallback args).run p')
      | .error f p' => .error f (forget p') }

/-- The answers to the calls made when `e` is handled, after its first request. -/
def answersAt (cb : Callbacks σ) (u : σ) (e : Event) : Replies :=
  answersFrom cb e.child e.info.toArgs (u, World.tick ⟨e.mem, e.child, e.life⟩)

/-- Callbacks that give these answers. -/
def given (a : Replies) : Callbacks Unit :=
  { pidCallback := fun _ _ => a.pid, syscallCallback := fun _ _ => a.call }

/-! ## 2. The two runs -/

/-- The calls made in a turn of the loop. -/
def callsOf (cb : Callbacks σ) (ndebug : Bool) (e : Event) (s : Loop σ) : List Call :=
  match e.wstatus with
  | .stopped stopsig => (endState (handled cb ndebug e stopsig s)).calls
  | _ => []

theorem callsOf_of_stopped {cb : Callbacks σ} {ndebug : Bool} {e : Event} {s : Loop σ}
    {stopsig : Nat} (hs : e.wstatus = .stopped stopsig) :
    callsOf cb ndebug e s = (endState (handled cb ndebug e stopsig s)).calls := by
  simp only [callsOf, hs]

theorem callsOf_of_isExit {cb : Callbacks σ} {ndebug : Bool} {e : Event} {s : Loop σ}
    (hs : e.wstatus.isExit) : callsOf cb ndebug e s = [] := by
  unfold callsOf
  split
  · rename_i hw
    rw [hw] at hs
    cases hs
  · rfl

/-- A turn of the loop: its event, the answers of the callbacks and the calls made. -/
structure Round where
  event : Event
  answers : Replies
  calls : List Call

/-- The turn in which `e` is handled. -/
def roundAt (cb : Callbacks σ) (ndebug : Bool) (e : Event) (s : Loop σ) : Round :=
  { event := e, answers := answersAt cb s.user e, calls := callsOf cb ndebug e s }

/-- The loop over the events that `waitpid` reports, until it returns or throws. -/
def joint (cb : Callbacks σ) (ndebug : Bool) : Loop σ → List Event → List Round × Outcome σ
  | s, [] => ([], .next s)
  | s, e :: es =>
    let round := roundAt cb ndebug e s
    match body cb ndebug e s with
    | .next s' =>
      let rest := joint cb ndebug s' es
      (round :: rest.1, rest.2)
    | o => ([round], o)

/-- The loop body over the events of one thread, the callbacks giving the answers beside
them.  The test whether to return is ignored. -/
def solo (ndebug : Bool) : Loop Unit → List (Event × Replies) → List (List Call) × Loop Unit
  | s, [] => ([], s)
  | s, (e, a) :: turns =>
    let calls := callsOf (given a) ndebug e s
    match body (given a) ndebug e s with
    | .threw _ s' => ([calls], s')
    | o =>
      let rest := solo ndebug o.loop turns
      (calls :: rest.1, rest.2)

/-- The rounds of the thread `t`. -/
def roundsOf (t : Tid) (rounds : List Round) : List Round :=
  rounds.filter fun r => r.event.child = t

/-- The events of `t`, with the answers to its calls. -/
def turnsOf (t : Tid) (rounds : List Round) : List (Event × Replies) :=
  (roundsOf t rounds).map fun r => (r.event, r.answers)

/-- The table with the entry that `t` starts with: the spawned child is in user space, the
others have none. -/
def ownTable (child t : Tid) : ThreadTable := if t = child then initialTable child else ∅

/-! ## 3. What a thread sees of the loop -/

/-- The entry of `t`, alone in a table. -/
def restrict (t : Tid) (table : ThreadTable) : ThreadTable :=
  match table.lookup t with
  | none => ∅
  | some st => (∅ : ThreadTable).insert t st

theorem restrict_congr {t : Tid} {table table' : ThreadTable}
    (h : table.lookup t = table'.lookup t) : restrict t table = restrict t table' := by
  unfold restrict
  rw [h]

@[simp] theorem lookup_restrict (t : Tid) (table : ThreadTable) :
    (restrict t table).lookup t = table.lookup t := by
  unfold restrict
  cases h : table.lookup t with
  | none => exact AList.lookup_empty t
  | some st => exact AList.lookup_insert _

theorem restrict_insert (t : Tid) (st : ThreadStatus) (table : ThreadTable) :
    restrict t (table.insert t st) = (restrict t table).insert t st := by
  have hsome : restrict t (table.insert t st) = (∅ : ThreadTable).insert t st := by
    unfold restrict
    rw [AList.lookup_insert]
  rw [hsome]
  unfold restrict
  cases table.lookup t with
  | none => rfl
  | some st' => exact (AList.insert_insert _).symm

theorem restrict_erase (t : Tid) (table : ThreadTable) :
    restrict t (table.erase t) = (restrict t table).erase t := by
  have hnone : restrict t (table.erase t) = ∅ := by
    unfold restrict
    rw [AList.lookup_erase]
  rw [hnone]
  unfold restrict
  cases table.lookup t with
  | none => rfl
  | some st =>
    refine AList.ext (List.kerase_cons_eq ?_).symm
    rfl

theorem restrict_initialTable (child t : Tid) :
    restrict t (initialTable child) = ownTable child t := by
  unfold restrict ownTable
  rw [lookup_initialTable]
  rcases eq_or_ne t child with rfl | h
  · rw [if_pos rfl, if_pos rfl]
    rfl
  · rw [if_neg h, if_neg h]

/-- What the handling of a stop of `t` shows of itself to `t`: of the table only its entry,
and of the callbacks nothing. -/
def own (t : Tid) (h : Handling σ) : Handling Unit :=
  { threadStatus := restrict t h.threadStatus, user := (), world := h.world, info := h.info,
    regs := h.regs, calls := h.calls, resumed := h.resumed }

/-- What is left of it between two stops. -/
def ownLoop (t : Tid) (s : Loop σ) : Loop Unit := ⟨restrict t s.threadStatus, ()⟩

/-! ## 4. A turn for the thread -/

section Turn

variable {t : Tid} {h : Handling σ}

theorem mirrors_issue (c : Call) : Mirrors (own t) (issue c) (issue c) h := by
  unfold issue
  refine mirrors_bind_of_forall (mirrors_modify rfl) fun _ h' => ?_
  exact mirrors_zoom rfl (fun _ => rfl) (mirrors_id request h'.world)

theorem mirrors_ptraceGetSyscallInfo (child : Tid) :
    Mirrors (own t) (ptraceGetSyscallInfo child) (ptraceGetSyscallInfo child) h := by
  unfold ptraceGetSyscallInfo
  refine mirrors_bind_of_forall (mirrors_issue _) fun _ h' => ?_
  exact mirrors_get_bind (mirrors_pure h'.info)

theorem mirrors_ptraceGetRegs (child : Tid) :
    Mirrors (own t) (ptraceGetRegs child) (ptraceGetRegs child) h := by
  unfold ptraceGetRegs
  refine mirrors_bind_of_forall (mirrors_issue _) fun _ h' => ?_
  exact mirrors_get_bind (mirrors_pure h'.regs)

theorem mirrors_ptraceSetRegs (child : Tid) (regs : UserRegs) :
    Mirrors (own t) (ptraceSetRegs child regs) (ptraceSetRegs child regs) h := by
  unfold ptraceSetRegs
  exact mirrors_bind_of_forall (mirrors_issue _) fun _ _ => mirrors_modify rfl

theorem mirrors_ptraceSyscall (child : Tid) (sig : Nat) :
    Mirrors (own t) (ptraceSyscall child sig) (ptraceSyscall child sig) h := by
  unfold ptraceSyscall
  exact mirrors_bind_of_forall (mirrors_issue _) fun _ _ => mirrors_modify rfl

theorem mirrors_setStatus (st : ThreadStatus) :
    Mirrors (own t) (setStatus t st) (setStatus t st) h := by
  refine mirrors_modify ?_
  simp only [own, restrict_insert]

theorem mirrors_cAssert (ndebug : Bool) (p : Prop) [Decidable p] :
    Mirrors (own t) (cAssert ndebug p) (cAssert ndebug p) h := by
  unfold cAssert
  split
  · exact mirrors_throw _
  · exact mirrors_pure _

/-- A callback that is given the answer. -/
theorem mirrors_callback {α : Type} {x : EStateM Fault (σ × World) α}
    {r : EStateM.Result Fault (Unit × World) α} (hr : r = seen forget (x.run (h.user, h.world))) :
    Mirrors (own t) (callback x) (callback fun _ => r) h :=
  mirrors_zoom rfl (fun _ => rfl) hr

/-- **The enter stop.**  The callbacks that are given the answers stand for the real ones. -/
theorem mirrors_syscallEnterStop (cb : Callbacks σ) (ndebug : Bool) :
    Mirrors (own t) (syscallEnterStop cb ndebug t)
      (syscallEnterStop (given (answersFrom cb t h.info.toArgs (h.user, h.world.tick))) ndebug t)
      h := by
  unfold syscallEnterStop
  refine mirrors_bind (mirrors_ptraceGetSyscallInfo t) ?_
  simp only [ptraceGetSyscallInfo, ends_bind, ends_issue, ends_get, ends_pure]
  refine ⟨fun _ => ?_, fun _ => trivial⟩
  refine mirrors_bind (mirrors_cAssert _ _) (ends_cAssert ?_ trivial)
  refine mirrors_bind (mirrors_cAssert _ _) (ends_cAssert ?_ trivial)
  refine mirrors_bind (mirrors_modify rfl) (ends_modify.mpr ?_)
  refine mirrors_bind (mirrors_callback rfl) ?_
  rw [ends_callback]
  cases hpid : (cb.pidCallback t).run (h.user, h.world.tick) with
  | error f p =>
    unfold Ends
    rw [hpid]
    trivial
  | ok _ p =>
    rw [ends_of_run_ok hpid]
    refine mirrors_bind (mirrors_modify rfl) (ends_modify.mpr ?_)
    refine mirrors_bind_of_forall (mirrors_callback ?_) fun allowed h₁ => ?_
    · simp only [hpid]
    · refine mirrors_bind_of_forall (mirrors_modify rfl) fun _ h₂ => ?_
      cases allowed with
      | true => exact mirrors_setStatus _
      | false =>
        refine mirrors_bind_of_forall (mirrors_ptraceGetRegs t) fun regs h₃ => ?_
        refine mirrors_bind_of_forall (mirrors_ptraceSetRegs t _) fun _ h₄ => ?_
        exact mirrors_setStatus _

theorem mirrors_deniedExitStop : Mirrors (own t) (deniedExitStop t) (deniedExitStop t) h := by
  unfold deniedExitStop
  exact mirrors_bind_of_forall (mirrors_ptraceGetRegs t) fun _ _ => mirrors_ptraceSetRegs t _

/-- **The switch.**  It looks up no entry but the thread's own. -/
theorem mirrors_dispatchStop (cb : Callbacks σ) (ndebug : Bool) (stopsig : Nat) :
    Mirrors (own t) (dispatchStop cb ndebug t stopsig)
      (dispatchStop (given (answersFrom cb t h.info.toArgs (h.user, h.world.tick))) ndebug t
        stopsig) h := by
  unfold dispatchStop
  refine mirrors_get_bind ?_
  have hlookup : (own t h).threadStatus.lookup t = h.threadStatus.lookup t :=
    lookup_restrict t h.threadStatus
  rw [hlookup]
  by_cases hstop : stopsig = SIGSTOP
  · rw [if_pos hstop, if_pos hstop]
    by_cases hnew : h.threadStatus.lookup t = none
    · rw [if_pos hnew, if_pos hnew]
      exact mirrors_setStatus _
    · rw [if_neg hnew, if_neg hnew]
      exact mirrors_pure _
  · rw [if_neg hstop, if_neg hstop]
    by_cases hsys : stopsig = SIGTRAP_SYSGOOD
    · rw [if_pos hsys, if_pos hsys]
      cases h.threadStatus.lookup t with
      | none => exact mirrors_throw _
      | some st =>
        cases st with
        | userspace => exact mirrors_syscallEnterStop cb ndebug
        | kernelspaceDeny =>
          exact mirrors_bind_of_forall mirrors_deniedExitStop fun _ _ => mirrors_setStatus _
        | kernelspaceAllow => exact mirrors_setStatus _
    · rw [if_neg hsys, if_neg hsys]
      exact mirrors_pure _

theorem mirrors_handleStop (cb : Callbacks σ) (ndebug : Bool) (stopsig : Nat) :
    Mirrors (own t) (handleStop cb ndebug t stopsig)
      (handleStop (given (answersFrom cb t h.info.toArgs (h.user, h.world.tick))) ndebug t
        stopsig) h := by
  unfold handleStop
  exact mirrors_bind_of_forall (mirrors_dispatchStop cb ndebug stopsig) fun _ _ =>
    mirrors_ptraceSyscall t 0

end Turn

section Body

variable {cb : Callbacks σ} {ndebug : Bool} {e : Event} {s : Loop σ}

theorem handled_own (stopsig : Nat) :
    handled (given (answersAt cb s.user e)) ndebug e stopsig (ownLoop e.child s) =
      seen (own e.child) (handled cb ndebug e stopsig s) :=
  mirrors_handleStop (h := Handling.start s e) cb ndebug stopsig

theorem endState_seen {t : Tid} (r : EStateM.Result Fault (Handling σ) Unit) :
    endState (seen (own t) r) = own t (endState r) := by
  cases r <;> rfl

/-- The same calls are made. -/
theorem callsOf_own :
    callsOf (given (answersAt cb s.user e)) ndebug e (ownLoop e.child s) =
      callsOf cb ndebug e s := by
  rcases e.wstatus.stopped_or_isExit with ⟨stopsig, hw⟩ | hexit
  · rw [callsOf_of_stopped hw, callsOf_of_stopped hw, handled_own, endState_seen]
    rfl
  · rw [callsOf_of_isExit hexit, callsOf_of_isExit hexit]

/-- The table is left with the same entry. -/
theorem body_own_loop :
    (body (given (answersAt cb s.user e)) ndebug e (ownLoop e.child s)).loop =
      ownLoop e.child (body cb ndebug e s).loop := by
  rcases e.wstatus.stopped_or_isExit with ⟨stopsig, hw⟩ | hexit
  · rw [body_stop_loop hw, body_stop_loop hw, handled_own, endState_seen]
    rfl
  · rw [body_exit_loop hexit, body_exit_loop hexit]
    simp only [ownLoop, restrict_erase]

/-- The same exceptions leave the loop. -/
theorem body_own_threw (f : Fault) :
    (body (given (answersAt cb s.user e)) ndebug e (ownLoop e.child s)).status = .threw f ↔
      (body cb ndebug e s).status = .threw f := by
  rcases e.wstatus.stopped_or_isExit with ⟨stopsig, hw⟩ | hexit
  · rw [body_of_stopped hw, body_of_stopped hw, handled_own]
    generalize handled cb ndebug e stopsig s = r
    cases r with
    | ok _ h => exact Iff.rfl
    | error f' h =>
      cases f' with
      | systemError code =>
        simp only [seen, catchTurn]
        split <;> exact Iff.rfl
      | _ => exact Iff.rfl
  · have hno : ∀ {τ : Type} (l : Loop τ), (exitTurn e l).status ≠ .threw f := by
      intro τ l
      rw [exitTurn_status]
      split <;> exact Status.noConfusion
    rw [body_of_isExit hexit, body_of_isExit hexit]
    exact iff_of_false (hno _) (hno _)

/-- A turn for another thread does not touch the entry. -/
theorem body_other_loop {t : Tid} (ht : e.child ≠ t) :
    ownLoop t (body cb ndebug e s).loop = ownLoop t s := by
  have hlookup : (body cb ndebug e s).loop.threadStatus.lookup t = s.threadStatus.lookup t := by
    rcases e.wstatus.stopped_or_isExit with ⟨stopsig, hw⟩ | hexit
    · rw [body_stop_loop hw]
      exact endState_frame (Ne.symm ht)
    · rw [body_exit_loop hexit]
      exact AList.lookup_erase_ne (Ne.symm ht)
  exact congrArg (Loop.mk · ()) (restrict_congr hlookup)

end Body

/-! ## 5. A whole run -/

section Run

variable {ndebug : Bool} {e : Event}

theorem solo_cons_threw {a : Replies} {s : Loop Unit} {turns : List (Event × Replies)} {f : Fault}
    (h : (body (given a) ndebug e s).status = .threw f) :
    solo ndebug s ((e, a) :: turns) =
      ([callsOf (given a) ndebug e s], (body (given a) ndebug e s).loop) := by
  unfold solo
  cases hb : body (given a) ndebug e s with
  | threw f s' => rfl
  | next s' => rw [hb] at h; cases h
  | returned code s' => rw [hb] at h; cases h

theorem solo_cons {a : Replies} {s : Loop Unit} {turns : List (Event × Replies)}
    (h : ∀ f, (body (given a) ndebug e s).status ≠ .threw f) :
    solo ndebug s ((e, a) :: turns) =
      (callsOf (given a) ndebug e s :: (solo ndebug (body (given a) ndebug e s).loop turns).1,
        (solo ndebug (body (given a) ndebug e s).loop turns).2) := by
  rw [solo]
  cases hb : body (given a) ndebug e s with
  | threw f s' => exact absurd rfl (hb ▸ h f)
  | next s' => rfl
  | returned code s' => rfl

/-- The solo run over the turns of `t` among these rounds makes their calls and goes from the
one state to the other. -/
def Solo (ndebug : Bool) (t : Tid) (s : Loop σ) (rounds : List Round) (s' : Loop σ) : Prop :=
  solo ndebug (ownLoop t s) (turnsOf t rounds) =
    ((roundsOf t rounds).map Round.calls, ownLoop t s')

variable {cb : Callbacks σ} {s s' : Loop σ} {rounds : List Round}

theorem roundsOf_cons_own : roundsOf e.child (roundAt cb ndebug e s :: rounds) =
    roundAt cb ndebug e s :: roundsOf e.child rounds :=
  List.filter_cons_of_pos (decide_eq_true rfl)

/-- A turn of the thread is one of the solo run. -/
theorem Solo.own_turn (hgoes : ∀ f, (body cb ndebug e s).status ≠ .threw f)
    (h : Solo ndebug e.child (body cb ndebug e s).loop rounds s') :
    Solo ndebug e.child s (roundAt cb ndebug e s :: rounds) s' := by
  have hgoes' : ∀ f, (body (given (answersAt cb s.user e)) ndebug e
      (ownLoop e.child s)).status ≠ .threw f :=
    fun f hthrew => hgoes f ((body_own_threw f).mp hthrew)
  unfold Solo turnsOf at h ⊢
  rw [roundsOf_cons_own, List.map_cons, List.map_cons]
  refine (solo_cons hgoes').trans ?_
  rw [body_own_loop, callsOf_own, h]
  rfl

/-- The solo run ends with the turn in which the thread makes the loop throw. -/
theorem Solo.own_throw {f : Fault} (hthrew : (body cb ndebug e s).status = .threw f) :
    Solo ndebug e.child s [roundAt cb ndebug e s] (body cb ndebug e s).loop := by
  unfold Solo turnsOf
  rw [roundsOf_cons_own, List.map_cons, List.map_cons]
  refine (solo_cons_threw ((body_own_threw f).mpr hthrew)).trans ?_
  rw [body_own_loop, callsOf_own]
  rfl

/-- A turn of another thread is none. -/
theorem Solo.other_turn {t : Tid} (ht : e.child ≠ t)
    (h : Solo ndebug t (body cb ndebug e s).loop rounds s') :
    Solo ndebug t s (roundAt cb ndebug e s :: rounds) s' := by
  have hrounds : roundsOf t (roundAt cb ndebug e s :: rounds) = roundsOf t rounds :=
    List.filter_cons_of_neg (by rwa [decide_eq_true_eq])
  unfold Solo turnsOf at h ⊢
  rw [hrounds, ← body_other_loop ht, h]

/-- **The calls for `t` and the entry of `t` do not depend on the other threads.**  The
induction is on the events. -/
theorem joint_solo (cb : Callbacks σ) (ndebug : Bool) (t : Tid) (es : List Event) :
    ∀ s : Loop σ, Solo ndebug t s (joint cb ndebug s es).1 (joint cb ndebug s es).2.loop := by
  induction es with
  | nil => exact fun s => rfl
  | cons e es ih =>
    intro s
    unfold joint
    -- the run goes on, or ends with this turn
    rcases eq_or_ne e.child t with rfl | he
    · cases hb : body cb ndebug e s with
      | next s' =>
        refine Solo.own_turn (fun f hf => ?_) ?_
        · rw [hb] at hf
          cases hf
        · rw [hb]
          exact ih s'
      | returned code s' =>
        refine Solo.own_turn (fun f hf => ?_) ?_
        · rw [hb] at hf
          cases hf
        · rw [hb]
          rfl
      | threw f s' =>
        have hthrew : (body cb ndebug e s).status = .threw f := by rw [hb]; rfl
        have hsolo := Solo.own_throw hthrew
        rwa [hb] at hsolo
    · cases hb : body cb ndebug e s with
      | next s' =>
        refine Solo.other_turn he ?_
        rw [hb]
        exact ih s'
      | returned code s' | threw f s' =>
        refine Solo.other_turn he ?_
        rw [hb]
        rfl

/-- The turns of `t` handle events of `t`, in order and from the first one on. -/
theorem turnsOf_events (cb : Callbacks σ) (ndebug : Bool) (t : Tid) (es : List Event) :
    ∀ s : Loop σ, (turnsOf t (joint cb ndebug s es).1).map Prod.fst <+:
      es.filter fun e => e.child = t := by
  have hmap : ∀ rounds : List Round, (turnsOf t rounds).map Prod.fst =
      (rounds.map Round.event).filter fun e => e.child = t := by
    intro rounds
    rw [List.filter_map]
    exact List.map_map
  induction es with
  | nil => exact fun s => List.prefix_rfl
  | cons e es ih =>
    intro s
    unfold joint
    cases body cb ndebug e s with
    | next s' =>
      have hrest := ih s'
      rw [hmap] at hrest ⊢
      have hcons := List.prefix_append_right_inj ([e].filter fun e => e.child = t) |>.mpr hrest
      rwa [← List.filter_append, ← List.filter_append] at hcons
    | returned code s' | threw f s' =>
      rw [hmap]
      exact (List.prefix_append [e] es).filter _

end Run

/-! ## 6. The loop on the kernel

A run of the whole system is a run of the loop over the events that were reported in it. -/

section System

variable {cb : Callbacks σ} {ndebug : Bool} {others : Tid → Prop}

/-- The events reported in a run of the system. -/
def reported (tr : List (Sys σ × Move)) : List Event :=
  tr.filterMap fun p => match p.2 with
    | .report _ e => some e
    | _ => none

/-- One more event, while the loop runs. -/
theorem joint_snoc (e : Event) (es : List Event) : ∀ s : Loop σ,
    (joint cb ndebug s es).2.status = .running →
      (joint cb ndebug s (es ++ [e])).2 = body cb ndebug e (joint cb ndebug s es).2.loop := by
  induction es with
  | nil =>
    intro s _
    simp only [List.nil_append, joint]
    cases hb : body cb ndebug e s with
    | next s' | returned code s' | threw f s' => exact hb.symm
  | cons e' es ih =>
    intro s hrunning
    rw [List.cons_append]
    unfold joint at hrunning ⊢
    cases hb : body cb ndebug e' s with
    | next s' =>
      rw [hb] at hrunning
      exact ih s' hrunning
    | returned code s' | threw f s' =>
      rw [hb] at hrunning
      cases hrunning

/-- **The system runs the loop.** -/
theorem run_joint {child : Tid} {u : σ} {tr : List (Sys σ × Move)} {s : Sys σ}
    (hrun : Run (Step cb ndebug others) (Sys.init child u) tr s) :
    (joint cb ndebug ⟨initialTable child, u⟩ (reported tr)).2.loop = s.loop ∧
      (joint cb ndebug ⟨initialTable child, u⟩ (reported tr)).2.status = s.status := by
  induction hrun with
  | nil => exact ⟨rfl, rfl⟩
  | @snoc tr s s' m _ hs ih =>
    obtain ⟨hloop, hstatus⟩ := ih
    obtain ⟨hrunning, hen, rfl⟩ := hs
    unfold reported at hloop hstatus ⊢
    rw [List.filterMap_append]
    cases m with
    | report cause e =>
      have hnext := joint_snoc e _ _ (hstatus.trans hrunning)
      rw [hloop] at hnext
      simp only [List.filterMap_cons, List.filterMap_nil, hnext]
      simp only [Sys.after]
      split <;> exact ⟨rfl, rfl⟩
    | execve t =>
      obtain ⟨th, hth, -⟩ := hen
      simp only [List.filterMap_cons, List.filterMap_nil, List.append_nil, Sys.after, hth]
      exact ⟨hloop, hstatus⟩
    | create | die =>
      simp only [List.filterMap_cons, List.filterMap_nil, List.append_nil]
      exact ⟨hloop, hstatus⟩

end System

end GravelBox
