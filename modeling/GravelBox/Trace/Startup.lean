/-
# The start of the target, under the policy

The child that `run_with_callbacks` (`trace/tracer.cpp`, lines 41 to 65) spawns stops itself, and is
traced from there on.  So the calls by which it redirects its descriptors and executes the target
are themselves allowed or denied, under the policy that is meant for the target.

What makes this hard is the unwinding.  A call that is denied fails with `EPERM`, and `check`
throws; but an `Fd` may be in scope then, and its destructor, which must not throw, calls `close`,
which may be denied as well.  Where that happens `std::terminate` is called.  And `execvp`
(`utils.h`, line 78) goes on with the next directory after some failures but not after others, so
an `execve` that is denied ends the search.

`startup_spec`: the target is executed if and only if every call on the way was allowed, every file
could be opened and there is a program to execute; and then with the descriptors that it is meant
to have.

Not claimed: what the child does after a fault.  The exception leaves `spawn` and is reported by
`main`, in the child, with calls that are traced too; and `std::terminate` does not end it, since
the tracer swallows `SIGABRT`.  What `execve` says of each file is a parameter, as is what it says
of the shell, which `execvp` executes on a file that is no program.
-/
import GravelBox.Trace.Redirect

namespace GravelBox

open Stateful Posix

/-! ## 1. The code -/

/-- The calls of the child. -/
inductive ChildCall
  | openat (path : Str)
  | dup2 (old new : Nat)
  | close (fd : Nat)
  | execve (path : Str)
  deriving DecidableEq

/-- What comes instead of the target.  What the child does from there on is traced as well, and not
followed. -/
inductive StartFault
  /-- A `system_error` leaves `spawn`. -/
  | threw (code : Nat)
  /-- `std::terminate` is called.  This does not end the child, as the tracer swallows `SIGABRT`. -/
  | terminate
  deriving DecidableEq

/-- The child, from `SIGSTOP` on. -/
structure Child where
  os : Os Str Byte
  /-- What the tracer makes of the calls to come. -/
  answers : Nat → Bool
  /-- The calls it made, and whether they were allowed; this is not in the source. -/
  log : List (ChildCall × Bool)

/-- A call was made. -/
def Child.asked (s : Child) (c : ChildCall) (os : Os Str Byte) : Child :=
  { os := os, answers := fun n => s.answers (n + 1), log := s.log ++ [(c, s.answers 0)] }

/-- `check(call)`, of a call that is traced. -/
def traced {α : Type} (c : ChildCall) (x : Program Str Byte α) : EStateM StartFault Child α :=
  fun s =>
    if s.answers 0 = false then .error (.threw EPERM) (s.asked c s.os)
    else
      match x.run s.os with
      | .ok a os => .ok a (s.asked c os)
      | .error code os => .error (.threw code) (s.asked c os)

/-- `~Fd`, which is `noexcept`. -/
def destroyFd (fd : Nat) : EStateM StartFault Child Unit :=
  tryCatch (traced (.close fd) (close fd)) fun _ => throw .terminate

/-- The rest of a block in which an `Fd` was declared. -/
def withFd (fd : Nat) (block : EStateM StartFault Child Unit) : EStateM StartFault Child Unit := do
  tryCatch block fun
    | .terminate => throw .terminate
    | .threw code => do
      destroyFd fd
      throw (.threw code)
  destroyFd fd

/-- One of the `if`s of the child. -/
def tracedRedirectIf (path : Str) (flags : Flags) (new : Nat) : EStateM StartFault Child Unit :=
  if path ≠ "-".toList then do
    let fd ← traced (.openat path) (openFile path flags)
    withFd fd (traced (.dup2 fd new) (dup2 fd new))
  else pure ()

/-- What the child does between `SIGSTOP` and `exec`. -/
def tracedChildInit (r : Redirections) : EStateM StartFault Child Unit := do
  tracedRedirectIf r.stdIn inputFlags 0
  tracedRedirectIf r.stdOut (outputFlags r.appendStdout) 1
  tracedRedirectIf r.stdErr (outputFlags r.appendStderr) 2

def ENOEXEC : Nat := 8
def EACCES : Nat := 13
def ENODEV : Nat := 19
def ENOTDIR : Nat := 20
def ETIMEDOUT : Nat := 110
def ESTALE : Nat := 116

/-- The failures after which `execvp` goes on with the next directory. -/
def execSkips : List Nat := [EACCES, ENOENT, ESTALE, ENOTDIR, ENODEV, ETIMEDOUT]

/-- `execve`, of a file that can be executed or fails with a number. -/
def execve (result : Option Nat) : Program Str Byte Unit :=
  match result with
  | none => exec
  | some code => throw code

/-- One file of `execvp`: where `execve` says that it is no program, the shell is executed on it;
`shell` is what comes of that. -/
def tryFile (shell : Option Nat) (path : Str) (result : Option Nat) :
    EStateM StartFault Child Unit :=
  tryCatch (traced (.execve path) (execve result)) fun
    | .threw code =>
      if code = ENOEXEC then traced (.execve "/bin/sh".toList) (execve shell)
      else throw (.threw code)
    | .terminate => throw .terminate

/-- `execvp`, on the files it tries in their order; `code` is the failure so far. -/
def execvp (shell : Option Nat) :
    List (Str × Option Nat) → Nat → EStateM StartFault Child Unit
  | [], code => throw (.threw code)
  | (path, result) :: files, code =>
    tryCatch (tryFile shell path result) fun
      | .threw code' =>
        if code' ∈ execSkips then execvp shell files (if code = EACCES then code else code')
        else throw (.threw code')
      | .terminate => throw .terminate

/-- The child from `SIGSTOP` on.  If it returns, the target runs. -/
def startup (r : Redirections) (shell : Option Nat) (files : List (Str × Option Nat)) :
    EStateM StartFault Child Unit := do
  tracedChildInit r
  execvp shell files ENOENT

/-! ## 2. One call -/

/-- A call was denied. -/
def Refused (log : List (ChildCall × Bool)) : Prop := ∃ c, (c, false) ∈ log

/-- A `close` was denied. -/
def RefusedClose (log : List (ChildCall × Bool)) : Prop := ∃ fd, (.close fd, false) ∈ log

/-- Why the target is not executed: `own` holds if it was not for a denied call. -/
structure Foiled (log : List (ChildCall × Bool)) (e : StartFault) (own : Prop) : Prop where
  terminate : e = .terminate ↔ RefusedClose log
  denied : Refused log → e = .terminate ∨ e = .threw EPERM
  own : ¬ Refused log → own

variable {s : Child}

theorem refused_asked {c : ChildCall} {os : Os Str Byte} :
    Refused (s.asked c os).log ↔ Refused s.log ∨ s.answers 0 = false := by
  simp only [Refused, Child.asked, List.mem_append, List.mem_singleton, Prod.mk.injEq]
  constructor
  · rintro ⟨d, hd | ⟨-, h⟩⟩
    · exact .inl ⟨d, hd⟩
    · exact .inr h.symm
  · rintro (⟨d, hd⟩ | h)
    · exact ⟨d, .inl hd⟩
    · exact ⟨c, .inr ⟨rfl, h.symm⟩⟩

theorem RefusedClose.refused {log : List (ChildCall × Bool)} (h : RefusedClose log) : Refused log :=
  h.elim fun _ hfd => ⟨_, hfd⟩

theorem refusedClose_asked {c : ChildCall} {os : Os Str Byte} :
    RefusedClose (s.asked c os).log ↔
      RefusedClose s.log ∨ s.answers 0 = false ∧ ∃ fd, c = .close fd := by
  simp only [RefusedClose, Child.asked, List.mem_append, List.mem_singleton, Prod.mk.injEq]
  constructor
  · rintro ⟨fd, hfd | ⟨hc, h⟩⟩
    · exact .inl ⟨fd, hfd⟩
    · exact .inr ⟨h.symm, fd, hc.symm⟩
  · rintro (⟨fd, hfd⟩ | ⟨h, fd, hc⟩)
    · exact ⟨fd, .inl hfd⟩
    · exact ⟨fd, .inr ⟨hc.symm, h.symm⟩⟩

variable {log : List (ChildCall × Bool)} {own : Prop}

theorem Foiled.of_refusedClose (h : RefusedClose log) : Foiled log .terminate own :=
  ⟨iff_of_true rfl h, fun _ => .inl rfl, fun hn => absurd h.refused hn⟩

theorem Foiled.of_refused (h : Refused log) (hclose : ¬ RefusedClose log) :
    Foiled log (.threw EPERM) own :=
  ⟨iff_of_false StartFault.noConfusion hclose, fun _ => .inr rfl, fun hn => absurd h hn⟩

theorem Foiled.of_own {code : Nat} (h : ¬ Refused log) (hown : own) :
    Foiled log (.threw code) own :=
  ⟨iff_of_false StartFault.noConfusion fun hc => h hc.refused, fun hr => absurd hr h, fun _ => hown⟩

theorem Foiled.imp {e : StartFault} {own' : Prop} (h : Foiled log e own) (hown : own → own') :
    Foiled log e own' :=
  ⟨h.terminate, h.denied, fun hn => hown (h.own hn)⟩

/-- **One call**: it is allowed, and does what it does untraced, or it is denied. -/
theorem ends_traced {α : Type} {c : ChildCall} {x : Program Str Byte α} {Q : α → Child → Prop}
    {R : StartFault → Child → Prop} :
    Ends (traced c x) s Q R ↔
      (s.answers 0 = true →
        Ends x s.os (fun a os => Q a (s.asked c os))
          fun code os => R (.threw code) (s.asked c os)) ∧
      (s.answers 0 = false → R (.threw EPERM) (s.asked c s.os)) := by
  cases h : s.answers 0 with
  | false =>
    have hrun : (traced c x).run s = .error (.threw EPERM) (s.asked c s.os) := by
      simp [EStateM.run, traced, h]
    simp [Ends, hrun]
  | true =>
    have hrun : (traced c x).run s = match x.run s.os with
        | .ok a os => .ok a (s.asked c os)
        | .error code os => .error (.threw code) (s.asked c os) := by
      simp [EStateM.run, traced, h]
    simp only [Ends, hrun]
    cases x.run s.os with
    | ok a os => simp
    | error code os => simp

/-! ## 3. One redirection -/

theorem openFile_opens (os : Os Str Byte) (path : Str) (flags : Flags) :
    Ends (openFile path flags) os
      (fun fd os' => (os'.at fd).isSome = true ∧ os.openError path flags = none)
      (fun _ _ => os.openError path flags ≠ none) := by
  rw [ends_openFile]
  refine ⟨fun bytes hallowed hopened => ⟨?_, ?_⟩, fun code hcode => ?_⟩
  · simp
  · rw [Os.openError, hallowed, hopened]
  · rw [hcode]
    exact Option.some_ne_none code

/-- A descriptor that is open can be copied, and stays open. -/
theorem dup2_returns {os : Os Str Byte} {old : Nat} (new : Nat) (h : (os.at old).isSome = true) :
    ∃ os', (dup2 old new).run os = .ok () os' ∧ (os'.at old).isSome = true := by
  obtain ⟨e, he⟩ := Option.isSome_iff_exists.mp h
  have hends : Ends (dup2 old new) os (fun _ os' => (os'.at old).isSome = true)
      (fun _ _ => False) := by
    rcases eq_or_ne old new with rfl | hne
    · simp [ends_dup2_self, he]
    · simp [ends_dup2 hne, he, hne]
  cases hrun : (dup2 old new).run os with
  | ok _ os' => exact ⟨os', rfl, hends.of_ok hrun⟩
  | error code os' => exact (hends.of_error hrun).elim

/-- It can be closed, too. -/
theorem close_returns {os : Os Str Byte} {fd : Nat} (h : (os.at fd).isSome = true) :
    ∃ os', (close fd).run os = .ok () os' := by
  obtain ⟨e, he⟩ := Option.isSome_iff_exists.mp h
  have hends : Ends (close fd) os (fun _ _ => True) (fun _ _ => False) := by
    simp [ends_close, he]
  cases hrun : (close fd).run os with
  | ok _ os' => exact ⟨os', rfl⟩
  | error code os' => exact (hends.of_error hrun).elim

/-- The destructor closes the descriptor, or the process is terminated. -/
theorem ends_destroyFd {fd : Nat} {os' : Os Str Byte} (hclose : (close fd).run s.os = .ok () os')
    {Q : Unit → Child → Prop} {R : StartFault → Child → Prop} :
    Ends (destroyFd fd) s Q R ↔
      (s.answers 0 = true → Q () (s.asked (.close fd) os')) ∧
        (s.answers 0 = false → R .terminate (s.asked (.close fd) s.os)) := by
  rw [destroyFd, ends_tryCatch, ends_traced, ends_of_run_ok hclose]
  exact Iff.rfl

/-- The descriptor is copied and closed. -/
theorem withFd_dup2 {fd new : Nat} {os₁ os₂ : Os Str Byte} (hs : ¬ Refused s.log)
    (hfd : (s.os.at fd).isSome = true) (hdup : (dup2 fd new).run s.os = .ok () os₁)
    (hclose : (close fd).run os₁ = .ok () os₂) :
    Ends (withFd fd (traced (.dup2 fd new) (dup2 fd new))) s
      (fun _ s' => ¬ Refused s'.log ∧ s'.os = os₂)
      (fun e s' => Foiled s'.log e False) := by
  have hs' : ¬ RefusedClose s.log := fun h => hs h.refused
  obtain ⟨os', hunwind⟩ := close_returns hfd
  rw [withFd, ends_bind, ends_tryCatch, ends_traced, ends_of_run_ok hdup]
  refine ⟨fun hallowed => ?_, fun hdenied => ?_⟩
  · rw [ends_destroyFd (s := s.asked (.dup2 fd new) os₁) hclose]
    refine ⟨fun h => ⟨?_, rfl⟩, fun h => Foiled.of_refusedClose ?_⟩
    · simp [refused_asked, hs, hallowed, h]
    · simp [refusedClose_asked, h]
  · rw [ends_bind, ends_destroyFd (s := s.asked (.dup2 fd new) s.os) hunwind]
    refine ⟨fun h => Foiled.of_refused ?_ ?_, fun h => Foiled.of_refusedClose ?_⟩
    · simp [refused_asked, hdenied]
    · simp [refusedClose_asked, hs', h]
    · simp [refusedClose_asked, h]

/-- **One redirection** does what it does untraced, if every call is allowed. -/
theorem tracedRedirectIf_spec (path : Str) (flags : Flags) (new : Nat) (hs : ¬ Refused s.log) :
    Ends (tracedRedirectIf path flags new) s
      (fun _ s' => ¬ Refused s'.log ∧ ¬ CannotOpen s.os path flags ∧
        (redirectIf path flags new).run s.os = .ok () s'.os)
      (fun e s' => Foiled s'.log e (CannotOpen s.os path flags)) := by
  unfold tracedRedirectIf redirectIf
  by_cases hpath : path ≠ "-".toList
  · rw [if_pos hpath, if_pos hpath, ends_bind, ends_traced]
    refine ⟨fun hallowed => ?_, fun hdenied => Foiled.of_refused ?_ ?_⟩
    · have hopens := openFile_opens s.os path flags
      refine (ends_run (openFile path flags) s.os).mono (fun fd os₁ hopen => ?_)
        fun code os₁ hopen => Foiled.of_own ?_ ⟨hpath, hopens.of_error hopen⟩
      · obtain ⟨hfd, hnoerror⟩ := hopens.of_ok hopen
        obtain ⟨os₂, hdup, hfd₂⟩ := dup2_returns new hfd
        obtain ⟨os₃, hclose⟩ := close_returns hfd₂
        have hs₁ : ¬ Refused (s.asked (.openat path) os₁).log := by
          simp [refused_asked, hs, hallowed]
        refine (withFd_dup2 (s := s.asked (.openat path) os₁) hs₁ hfd hdup hclose).mono ?_ ?_
        · rintro _ s' ⟨hs', rfl⟩
          refine ⟨hs', fun h => h.2 hnoerror, ?_⟩
          simp only [redirect, EStateM.run_bind, hopen, hdup, hclose]
        · exact fun _ _ h => h.imp False.elim
      · simp [refused_asked, hs, hallowed]
    · simp [refused_asked, hdenied]
    · have hs' : ¬ RefusedClose s.log := fun h => hs h.refused
      simp [refusedClose_asked, hs']
  · rw [if_neg hpath, if_neg hpath, ends_pure]
    exact ⟨hs, fun h => hpath h.1, rfl⟩

/-! ## 4. All of them, and the program -/

theorem tracedChildInit_spec (r : Redirections) (hs : ¬ Refused s.log) :
    Ends (tracedChildInit r) s
      (fun _ s' => ¬ Refused s'.log ∧ ¬ Unopened r s.os ∧
        (childInit r).run s.os = .ok () s'.os)
      (fun e s' => Foiled s'.log e (Unopened r s.os)) := by
  rw [tracedChildInit, ends_bind]
  refine (tracedRedirectIf_spec r.stdIn inputFlags 0 hs).mono ?_ fun _ _ h => h.imp .inl
  rintro _ s₁ ⟨hs₁, hopenIn, hin⟩
  have hkeep₁ := ((redirectIf_spec r.stdIn 0 rfl).of_ok hin).1
  rw [ends_bind]
  refine (tracedRedirectIf_spec r.stdOut (outputFlags r.appendStdout) 1 hs₁).mono ?_ ?_
  · rintro _ s₂ ⟨hs₂, hopenOut, hout⟩
    have hkeep₂ := ((redirectIf_spec r.stdOut 1 rfl).of_ok hout).1
    have herrors := (hkeep₂.cannotOpen r.stdErr r.appendStderr).trans (hkeep₁.cannotOpen _ _)
    refine (tracedRedirectIf_spec r.stdErr (outputFlags r.appendStderr) 2 hs₂).mono ?_ ?_
    · rintro _ s₃ ⟨hs₃, hopenErr, herr⟩
      refine ⟨hs₃, ?_, ?_⟩
      · rintro (h | h | h)
        · exact hopenIn h
        · exact hopenOut ((hkeep₁.cannotOpen _ _).mpr h)
        · exact hopenErr (herrors.mpr h)
      · simp only [childInit, EStateM.run_bind, hin, hout, herr]
    · exact fun _ _ h => h.imp fun herr => .inr (.inr (herrors.mp herr))
  · exact fun _ _ h => h.imp fun hout => .inr (.inl ((hkeep₁.cannotOpen _ _).mp hout))

/-- What comes of one file in the end. -/
def attempt (shell result : Option Nat) : Option Nat :=
  if result = some ENOEXEC then shell else result

/-- `execvp` comes to a file that can be executed. -/
inductive Executes (shell : Option Nat) : List (Str × Option Nat) → Prop
  | here {path : Str} {result : Option Nat} {files : List (Str × Option Nat)}
      (h : attempt shell result = none) : Executes shell ((path, result) :: files)
  | skip {path : Str} {result : Option Nat} {code : Nat} {files : List (Str × Option Nat)}
      (hcode : attempt shell result = some code) (hskip : code ∈ execSkips)
      (h : Executes shell files) : Executes shell ((path, result) :: files)

/-- `execve` does as it is said to, or fails and leaves everything as it was. -/
theorem ends_execve {result : Option Nat} {os : Os Str Byte} {Q : Unit → Os Str Byte → Prop}
    {R : Nat → Os Str Byte → Prop} :
    Ends (execve result) os Q R ↔
      (result = none → Ends exec os Q R) ∧ ∀ code, result = some code → R code os := by
  cases result with
  | none => simp [execve]
  | some code => simp [execve]

/-- **One file** is executed, itself or by the shell, or it fails as it is said to, or a call was
denied. -/
theorem tryFile_spec (shell : Option Nat) (path : Str) (result : Option Nat)
    (hs : ¬ Refused s.log) :
    Ends (tryFile shell path result) s
      (fun _ s' => ¬ Refused s'.log ∧ attempt shell result = none ∧
        exec.run s.os = .ok () s'.os)
      (fun e s' =>
        (¬ Refused s'.log ∧ s'.os = s.os ∧ ∃ code, attempt shell result = some code ∧
          e = .threw code) ∨
        Refused s'.log ∧ ¬ RefusedClose s'.log ∧ e = .threw EPERM) := by
  have hs' : ¬ RefusedClose s.log := fun h => hs h.refused
  rw [tryFile, ends_tryCatch, ends_traced, ends_execve]
  refine ⟨fun hallowed => ⟨fun hnone => ?_, fun code hcode => ?_⟩, fun hdenied => ?_⟩
  · refine ⟨?_, ?_, rfl⟩
    · simp [refused_asked, hs, hallowed]
    · simp [attempt, hnone]
  · have hs₁ : ¬ Refused (s.asked (.execve path) s.os).log := by
      simp [refused_asked, hs, hallowed]
    by_cases hshell : code = ENOEXEC
    · subst hshell
      have hattempt : attempt shell result = shell := if_pos hcode
      simp only [if_true, ends_traced, ends_execve, hattempt]
      refine ⟨fun hallowed' => ⟨fun hnone => ⟨?_, hnone, rfl⟩, fun code' hcode' => .inl ?_⟩,
        fun hdenied => .inr ⟨?_, ?_, trivial⟩⟩
      · simp [refused_asked, hs, hallowed, hallowed']
      · refine ⟨?_, rfl, code', hcode', rfl⟩
        simp [refused_asked, hs, hallowed, hallowed']
      · simp [refused_asked, hdenied]
      · simp [refusedClose_asked, hs']
    · have hattempt : attempt shell result = some code := by
        rw [attempt, hcode, if_neg fun h => hshell (Option.some.inj h)]
      simp only [if_neg hshell, ends_throw]
      exact .inl ⟨hs₁, rfl, code, hattempt, rfl⟩
  · -- `EPERM` is not `ENOEXEC`
    have hEPERM : EPERM ≠ ENOEXEC := by decide
    simp only [if_neg hEPERM, ends_throw]
    refine .inr ⟨?_, ?_, trivial⟩
    · simp [refused_asked, hdenied]
    · simp [refusedClose_asked, hs']

theorem execvp_spec (shell : Option Nat) (files : List (Str × Option Nat)) (code : Nat)
    (hs : ¬ Refused s.log) :
    Ends (execvp shell files code) s
      (fun _ s' => ¬ Refused s'.log ∧ Executes shell files ∧ exec.run s.os = .ok () s'.os)
      (fun e s' => Foiled s'.log e (¬ Executes shell files)) := by
  induction files generalizing s code with
  | nil =>
    refine Foiled.of_own hs ?_
    rintro ⟨⟩
  | cons f files ih =>
    obtain ⟨path, result⟩ := f
    rw [execvp, ends_tryCatch]
    refine (tryFile_spec shell path result hs).mono ?_ ?_
    · rintro _ s₁ ⟨hs₁, hnone, hexec⟩
      exact ⟨hs₁, .here hnone, hexec⟩
    · rintro e s₁ (⟨hs₁, hos, code', hcode, rfl⟩ | ⟨hdenied, hclose, rfl⟩)
      · by_cases hskip : code' ∈ execSkips
        · simp only [if_pos hskip]
          refine (ih _ hs₁).mono ?_ ?_
          · rintro _ s₂ ⟨hs₂, hfile, hexec⟩
            rw [hos] at hexec
            exact ⟨hs₂, .skip hcode hskip hfile, hexec⟩
          · refine fun _ _ h => h.imp fun hno => ?_
            rintro (hnone | ⟨-, -, hfile⟩)
            · rw [hcode] at hnone
              cases hnone
            · exact hno hfile
        · simp only [if_neg hskip, ends_throw]
          refine Foiled.of_own hs₁ ?_
          rintro (hnone | ⟨hcode', hskip', -⟩)
          · rw [hcode] at hnone
            cases hnone
          · rw [hcode, Option.some.injEq] at hcode'
            subst hcode'
            exact hskip hskip'
      · -- the search does not go on after `EPERM`
        have hEPERM : EPERM ∉ execSkips := by decide
        simp only [if_neg hEPERM, ends_throw]
        exact Foiled.of_refused hdenied hclose

/-- **The start under the policy.**  Whatever the tracer allows and denies, the target is executed
only if nothing was denied on the way, and then with the table that it has untraced.  Otherwise
`std::terminate` is called if and only if a `close` was denied, and `EPERM` is thrown if another
call was.  If nothing was denied at all, the target is executed if and only if every file could be
opened and `execvp` comes to one that can be executed. -/
theorem startup_spec (r : Redirections) (shell : Option Nat) (files : List (Str × Option Nat))
    (os : Os Str Byte) (answers : Nat → Bool) :
    Ends (startup r shell files) { os := os, answers := answers, log := [] }
      (fun _ s' => ¬ Refused s'.log ∧ ¬ Unopened r os ∧ Executes shell files ∧
        (do childInit r; exec : Program Str Byte Unit).run os = .ok () s'.os)
      (fun e s' => Foiled s'.log e (Unopened r os ∨ ¬ Executes shell files)) := by
  have hs : ¬ Refused (Child.mk os answers []).log := fun ⟨_, h⟩ => absurd h List.not_mem_nil
  rw [startup, ends_bind]
  refine (tracedChildInit_spec r hs).mono ?_ fun _ _ h => h.imp .inl
  rintro _ s₁ ⟨hs₁, hopen, hinit⟩
  refine (execvp_spec shell files ENOENT hs₁).mono ?_ fun _ _ h => h.imp .inr
  rintro _ s₂ ⟨hs₂, hfile, hexec⟩
  refine ⟨hs₂, hopen, hfile, ?_⟩
  simp only [EStateM.run_bind, hinit, hexec]

/-- Input from the file `i`, which is there, and output to `o`. -/
def startExample : Redirections :=
  { stdIn := ['i'], stdOut := ['o'], appendStdout := false, stdErr := ['-'], appendStderr := false }

/-- How it starts under some answers; the second candidate is a script without `#!`. -/
def startEnd (answers : Nat → Bool) : Option StartFault :=
  match (startup startExample none [(['a'], some ENOENT), (['b'], some ENOEXEC)]).run
      { os := atTerminal fun _ => some [], answers := answers, log := [] } with
  | .ok _ _ => none
  | .error e _ => some e

-- all is allowed; the copy of the input is denied; its `close` is; the shell is
example : startEnd (fun _ => true) = none ∧ startEnd (fun n => n ≠ 1) = some (.threw EPERM) ∧
    startEnd (fun n => n ≠ 2) = some .terminate ∧
    startEnd (fun n => n ≠ 8) = some (.threw EPERM) := by decide +kernel

end GravelBox
