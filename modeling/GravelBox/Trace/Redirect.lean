/-
# The descriptors that the target starts with

`run_with_callbacks` spawns the target (`trace/tracer.cpp`, lines 42 to 64).  Before it executes the
program, the child opens the files that standard input, output and error are redirected to and
copies them to the descriptors 0, 1 and 2.  Output files are created if they do not exist; if they
do they are not truncated.

So what the target writes to a redirected output replaces the start of an older file, as far as it
goes (`redirected_content_iff`), unless it is appended.  A shell would truncate the file, and that
is what somebody who gives the option `--stdout` has in mind; the flag `O_TRUNC` is missing.

What makes this hard is the descriptor that `open` returns.  It is the lowest that is free: 0, 1 or
2 if one of these was closed at the start, and then the copy may be onto itself, and the destructor
of the `Fd` closes the very descriptor that was to be redirected.  So the specification of one
redirection (`redirect_spec`) is by cases on what was open before, and the three of them one after
another say which of the target's descriptors are on which file, whatever the table was
(`childInit_spec`).

Where a file cannot be opened the child throws, and there is no target to speak of (`CannotOpen`).
Which files those are is a parameter: `open` may refuse any path for any reason.

Not claimed: anything about files that are not regular, such as terminals and pipes, and about
others that write to the same file meanwhile.
-/
import GravelBox.Lib.Posix
import GravelBox.Utils

namespace GravelBox

open Stateful Posix

/-- The bytes of a file. -/
abbrev Byte := BitVec 8

/-! ## 1. The child -/

/-- `Utils::spawn`: the table that the program is executed with, if it comes to that. -/
def spawn (childInit : Program Str Byte Unit) : Program Str Byte (Option (Table Str)) := do
  let (r, table) ← fork do
    childInit
    exec
  return match r with
    | .ok () => some table
    | .error _ => none

/-- The redirections that `Tracer::run` is given. -/
structure Redirections where
  stdIn : Str
  stdOut : Str
  appendStdout : Bool
  stdErr : Str
  appendStderr : Bool

/-- Open a file as the descriptor `new`.  The first descriptor belongs to an `Fd`, which
closes it. -/
def redirect (path : Str) (flags : Flags) (new : Nat) : Program Str Byte Unit := do
  let fd ← openFile path flags
  dup2 fd new
  close fd

/-- `O_RDONLY`. -/
def inputFlags : Flags := { create := false, append := false, trunc := false, cloexec := false }

/-- `O_WRONLY | O_CREAT | (append ? O_APPEND : 0)`. -/
def outputFlags (append : Bool) : Flags :=
  { create := true, append := append, trunc := false, cloexec := false }

/-- One of the `if`s of the child. -/
def redirectIf (path : Str) (flags : Flags) (new : Nat) : Program Str Byte Unit :=
  if path ≠ "-".toList then redirect path flags new else pure ()

/-- What the child does between `SIGSTOP` and `exec`. -/
def childInit (r : Redirections) : Program Str Byte Unit := do
  redirectIf r.stdIn inputFlags 0
  redirectIf r.stdOut (outputFlags r.appendStdout) 1
  redirectIf r.stdErr (outputFlags r.appendStderr) 2

/-- A file cannot be opened that a descriptor is to be redirected to. -/
def CannotOpen (os : Os Str Byte) (path : Str) (flags : Flags) : Prop :=
  path ≠ "-".toList ∧ os.openError path flags ≠ none

/-- One of the three files cannot be opened: the input is not there, or one is refused. -/
def Unopened (r : Redirections) (os : Os Str Byte) : Prop :=
  CannotOpen os r.stdIn inputFlags ∨ CannotOpen os r.stdOut (outputFlags r.appendStdout) ∨
    CannotOpen os r.stdErr (outputFlags r.appendStderr)

/-! ## 2. One redirection -/

/-- The descriptor `new` is open on the file, from its start, as the flags say. -/
structure OpenOn (os : Os Str Byte) (path : Str) (flags : Flags) (new : Nat) (e : Entry Str) :
    Prop where
  entry : os.at new = some e
  file : e.file = .path path
  append : e.append = flags.append
  cloexec : e.cloexec = false
  offset : os.offset e.description = 0
  known : e.description < os.descriptions

/-- Nothing but the descriptor `new` has changed; no file has other content than before, or can
be opened otherwise. -/
structure Undisturbed (os os' : Os Str Byte) (new : Nat) : Prop where
  at_ne : ∀ n, n ≠ new → os'.at n = os.at n
  content : ∀ path, os'.content path = os.content path
  offset : ∀ d, d < os.descriptions → os'.offset d = os.offset d
  descriptions : os.descriptions ≤ os'.descriptions
  pipes : os'.pipes = os.pipes
  refuses : os'.refuses = os.refuses

theorem Undisturbed.refl (os : Os Str Byte) (new : Nat) : Undisturbed os os new :=
  ⟨fun _ _ => rfl, fun _ => rfl, fun _ _ => rfl, Nat.le_refl _, rfl, rfl⟩

/-- An output is created where it is not there, so it fails to open only if it is refused. -/
theorem openError_output (os : Os Str Byte) (path : Str) (append : Bool) :
    os.openError path (outputFlags append) = os.refuses path (outputFlags append) := by
  unfold Os.openError
  cases os.refuses path (outputFlags append) with
  | some code => rfl
  | none =>
    cases os.files path with
    | none => rfl
    | some bytes => rfl

/-- Whether an output can be opened is not changed by the redirections before it. -/
theorem Undisturbed.cannotOpen {os os' : Os Str Byte} {new : Nat} (h : Undisturbed os os' new)
    (path : Str) (append : Bool) :
    CannotOpen os' path (outputFlags append) ↔ CannotOpen os path (outputFlags append) := by
  unfold CannotOpen
  rw [openError_output, openError_output, h.refuses]

/-- An open descriptor stays open on its file. -/
theorem OpenOn.undisturbed {os os' : Os Str Byte} {path : Str} {flags : Flags} {n new : Nat}
    {e : Entry Str} (h : OpenOn os path flags n e) (hne : n ≠ new)
    (hos : Undisturbed os os' new) : OpenOn os' path flags n e where
  entry := (hos.at_ne n hne).trans h.entry
  file := h.file
  append := h.append
  cloexec := h.cloexec
  offset := (hos.offset _ h.known).trans h.offset
  known := Nat.lt_of_lt_of_le h.known hos.descriptions

/-- A file that is not truncated has the content it had; one that is created has none. -/
theorem content_of_opened {flags : Flags} {content : Option (List Byte)} {bytes : List Byte}
    (htrunc : flags.trunc = false) (h : flags.opened content = some bytes) :
    bytes = content.getD [] := by
  unfold Flags.opened at h
  cases content with
  | none =>
    simp only at h
    split at h
    · cases h
      rfl
    · cases h
  | some c =>
    simp only [htrunc, Bool.false_eq_true, if_false] at h
    cases h
    rfl

/-- Opening a file disturbs nothing. -/
theorem undisturbed_opened {os : Os Str Byte} {path : Str} {flags : Flags} {bytes : List Byte}
    (htrunc : flags.trunc = false) (h : flags.opened (os.files path) = some bytes) (new : Nat) :
    Undisturbed os (os.opened path bytes) new := by
  refine ⟨fun _ _ => rfl, fun p => ?_, fun d hd => ?_, Nat.le_succ _, rfl, rfl⟩
  · unfold Os.opened Os.content
    rcases eq_or_ne p path with rfl | hne
    · simp [content_of_opened htrunc h]
    · simp [hne]
  · unfold Os.opened
    simp [Nat.ne_of_lt hd]

/-- **One redirection** opens the descriptor on the file, unless the file was opened as that
very descriptor, which is then closed; and nothing else is disturbed. -/
theorem redirect_spec {os : Os Str Byte} (path : Str) {flags : Flags} (new : Nat)
    (htrunc : flags.trunc = false) :
    Ends (redirect path flags new) os
      (fun _ os' => Undisturbed os os' new ∧
        ((∃ e, OpenOn os' path flags new e) ∨ (os.at new = none ∧ os'.at new = none)))
      (fun _ _ => True) := by
  simp only [redirect, ends_bind, ends_openFile]
  refine ⟨fun bytes _ hopened => ?_, fun _ _ => trivial⟩
  have hkeep := undisturbed_opened htrunc hopened new
  have hfree := os.at_free
  generalize os.table.free = fd at hfree ⊢
  rcases eq_or_ne fd new with rfl | hne
  · rw [ends_dup2_self, ends_close]
    refine ⟨fun _ => ⟨fun _ => ⟨⟨fun n hn => ?_, hkeep.content, hkeep.offset, hkeep.descriptions,
      rfl, rfl⟩, .inr ⟨hfree, ?_⟩⟩, fun _ => trivial⟩, fun _ => trivial⟩
    · simp only [Os.at_set, if_neg hn]
      rfl
    · simp
  · rw [ends_dup2 hne]
    refine ⟨fun e he => ?_, fun _ => trivial⟩
    rw [ends_close]
    refine ⟨fun _ => ⟨⟨fun n hn => ?_, hkeep.content, hkeep.offset, hkeep.descriptions, rfl, rfl⟩,
      .inl ⟨{ e with cloexec := false }, ?_⟩⟩, fun _ => trivial⟩
    · simp only [Os.at_set, if_neg hn]
      split
      · rename_i hfd
        rw [hfd, hfree]
      · rfl
    · rw [Os.at_set, if_pos rfl, Option.some.injEq] at he
      subst he
      refine ⟨?_, rfl, rfl, rfl, ?_, Nat.lt_succ_self _⟩
      · simp [hne.symm]
      · simp [Os.opened]

/-- What became of a descriptor: it is as before if it is not redirected; if it is, it is open
on the file, or closed if it was before. -/
def Redirected (os os' : Os Str Byte) (path : Str) (flags : Flags) (new : Nat) : Prop :=
  (path = "-".toList ∧ os'.at new = os.at new) ∨
    (path ≠ "-".toList ∧ ((∃ e, OpenOn os' path flags new e) ∨
      (os.at new = none ∧ os'.at new = none)))

theorem redirectIf_spec {os : Os Str Byte} (path : Str) {flags : Flags} (new : Nat)
    (htrunc : flags.trunc = false) :
    Ends (redirectIf path flags new) os
      (fun _ os' => Undisturbed os os' new ∧ Redirected os os' path flags new)
      (fun _ _ => True) := by
  unfold redirectIf
  by_cases hpath : path ≠ "-".toList
  · rw [if_pos hpath]
    refine (redirect_spec path new htrunc).mono ?_ fun _ _ h => h
    rintro _ os' ⟨hkeep, hnew⟩
    exact ⟨hkeep, .inr ⟨hpath, hnew⟩⟩
  · rw [if_neg hpath, ends_pure]
    exact ⟨.refl os new, .inl ⟨not_not.mp hpath, rfl⟩⟩

/-- A later redirection does not matter. -/
theorem Redirected.later {os os' os'' : Os Str Byte} {path : Str} {flags : Flags} {n new : Nat}
    (h : Redirected os os' path flags n) (hne : n ≠ new) (hos : Undisturbed os' os'' new) :
    Redirected os os'' path flags n := by
  have hat := hos.at_ne n hne
  rcases h with ⟨hpath, heq⟩ | ⟨hpath, ⟨e, he⟩ | ⟨hnone, hnone'⟩⟩
  · exact .inl ⟨hpath, hat.trans heq⟩
  · exact .inr ⟨hpath, .inl ⟨e, he.undisturbed hne hos⟩⟩
  · exact .inr ⟨hpath, .inr ⟨hnone, hat.trans hnone'⟩⟩

/-- An earlier redirection does not matter. -/
theorem Redirected.earlier {os os' os'' : Os Str Byte} {path : Str} {flags : Flags} {n new : Nat}
    (hos : Undisturbed os os' new) (hne : n ≠ new) (h : Redirected os' os'' path flags n) :
    Redirected os os'' path flags n := by
  have hat := hos.at_ne n hne
  rcases h with ⟨hpath, heq⟩ | ⟨hpath, hopen | ⟨hnone, hnone'⟩⟩
  · exact .inl ⟨hpath, heq.trans hat⟩
  · exact .inr ⟨hpath, .inl hopen⟩
  · exact .inr ⟨hpath, .inr ⟨hat.symm.trans hnone, hnone'⟩⟩

/-! ## 3. All of them -/

/-- What the three redirections come to. -/
structure Prepared (r : Redirections) (os os' : Os Str Byte) : Prop where
  stdIn : Redirected os os' r.stdIn inputFlags 0
  stdOut : Redirected os os' r.stdOut (outputFlags r.appendStdout) 1
  stdErr : Redirected os os' r.stdErr (outputFlags r.appendStderr) 2
  at_ge : ∀ n, 3 ≤ n → os'.at n = os.at n
  content : ∀ path, os'.content path = os.content path
  pipes : os'.pipes = os.pipes

/-- **The child** gets each redirection right, and disturbs nothing else. -/
theorem childInit_spec (r : Redirections) (os : Os Str Byte) :
    Ends (childInit r) os (fun _ os' => Prepared r os os') (fun _ _ => True) := by
  rw [childInit, ends_bind]
  refine (redirectIf_spec r.stdIn 0 rfl).mono ?_ fun _ _ h => h
  rintro _ os₁ ⟨hkeep₁, hin⟩
  rw [ends_bind]
  refine (redirectIf_spec r.stdOut 1 rfl).mono ?_ fun _ _ h => h
  rintro _ os₂ ⟨hkeep₂, hout⟩
  refine (redirectIf_spec r.stdErr 2 rfl).mono ?_ fun _ _ h => h
  rintro _ os₃ ⟨hkeep₃, herr⟩
  refine ⟨(hin.later (by decide) hkeep₂).later (by decide) hkeep₃,
    .earlier hkeep₁ (by decide) (hout.later (by decide) hkeep₃),
    .earlier hkeep₁ (by decide) (.earlier hkeep₂ (by decide) herr), ?_, ?_, ?_⟩
  · intro n hn
    rw [hkeep₃.at_ne n (by omega), hkeep₂.at_ne n (by omega), hkeep₁.at_ne n (by omega)]
  · intro path
    rw [hkeep₃.content, hkeep₂.content, hkeep₁.content]
  · rw [hkeep₃.pipes, hkeep₂.pipes, hkeep₁.pipes]

/-! ## 4. What the target writes -/

/-- The file that an output is redirected to, and whether it is appended to. -/
def Redirections.output (r : Redirections) : Nat → Option (Str × Bool)
  | 1 => if r.stdOut ≠ "-".toList then some (r.stdOut, r.appendStdout) else none
  | 2 => if r.stdErr ≠ "-".toList then some (r.stdErr, r.appendStderr) else none
  | _ => none

/-- The target is executed and writes to a descriptor. -/
def targetWrites (r : Redirections) (fd : Nat) (data : List (List Byte)) :
    Program Str Byte Unit := do
  childInit r
  exec
  writes fd data

theorem Prepared.output {r : Redirections} {os os' : Os Str Byte} (h : Prepared r os os') {fd : Nat}
    {path : Str} {append : Bool} (hfd : r.output fd = some (path, append)) :
    (∃ e, OpenOn os' path (outputFlags append) fd e) ∨ os'.at fd = none := by
  have hcase : ∀ {path' : Str} {append' : Bool}, path' ≠ "-".toList →
      Redirected os os' path' (outputFlags append') fd →
      (∃ e, OpenOn os' path' (outputFlags append') fd e) ∨ os'.at fd = none := by
    rintro path' append' hne (⟨heq, -⟩ | ⟨-, hopen | ⟨-, hnone⟩⟩)
    · exact absurd heq hne
    · exact .inl hopen
    · exact .inr hnone
  unfold Redirections.output at hfd
  split at hfd
  · split at hfd
    · cases hfd
      exact hcase ‹_› h.stdOut
    · cases hfd
  · split at hfd
    · cases hfd
      exact hcase ‹_› h.stdErr
    · cases hfd
  · cases hfd

/-- The entry of a redirected output survives `exec`. -/
theorem OpenOn.exec {os : Os Str Byte} {path : Str} {flags : Flags} {fd : Nat} {e : Entry Str}
    (h : OpenOn os path flags fd e) : Os.at { os with table := os.table.exec } fd = some e := by
  rw [Os.at_exec, h.entry, Option.filter_some_pos]
  rw [h.cloexec]
  rfl

/-- Writes to a descriptor that is not open: there are none, or the first one fails. -/
theorem writes_closed {os : Os Str Byte} {fd : Nat} (data : List (List Byte))
    (hfd : os.at fd = none) :
    Ends (writes fd data) os (fun _ os' => data = [] ∧ os' = os) (fun _ _ => True) := by
  cases data with
  | nil => exact ⟨rfl, rfl⟩
  | cons bytes data =>
    rw [writes, ends_bind]
    simp only [Ends, write, EStateM.run, hfd]

/-- What the file has in the end. -/
def finalContent (append : Bool) (prior : List Byte) (data : List (List Byte)) : List Byte :=
  if append then prior ++ data.flatten
  else data.flatten ++ prior.drop data.flatten.length

/-- What the target writes goes behind the prior content in append mode, and over it
otherwise. -/
theorem targetWrites_spec {r : Redirections} {os : Os Str Byte} {fd : Nat} {path : Str}
    {append : Bool} (data : List (List Byte)) (hfd : r.output fd = some (path, append)) :
    Ends (targetWrites r fd data) os
      (fun _ os' => os'.content path = finalContent append (os.content path) data)
      (fun _ _ => True) := by
  rw [targetWrites, ends_bind]
  refine (childInit_spec r os).mono (fun _ os₁ hprep => ?_) fun _ _ h => h
  rw [ends_bind, ends_exec]
  rcases hprep.output hfd with ⟨e, he⟩ | hnone
  · cases append with
    | true =>
      refine (writes_append data he.exec he.file he.append).mono (fun _ os' h => ?_)
        fun _ _ h => h.elim
      rw [h, finalContent, if_pos rfl]
      exact congrArg (· ++ data.flatten) (hprep.content path)
    | false =>
      have hcontent : Os.content { os₁ with table := os₁.table.exec } path =
          [] ++ os.content path := hprep.content path
      refine (writes_over data he.exec he.file he.append hcontent he.offset).mono
        (fun _ os' h => ?_) fun _ _ h => h.elim
      rw [h, finalContent, if_neg Bool.false_ne_true, List.nil_append]
  · have hclosed : Os.at { os₁ with table := os₁.table.exec } fd = none := by
      rw [Os.at_exec, hnone, Option.filter_none]
    refine (writes_closed data hclosed).mono ?_ fun _ _ h => h
    rintro _ os' ⟨rfl, rfl⟩
    refine (hprep.content path).trans ?_
    cases append with
    | true => exact (List.append_nil _).symm
    | false => rfl

/-- The final content is what the mode asks for unless the prior one shows behind it. -/
theorem finalContent_eq_iff {append : Bool} {prior : List Byte} {data : List (List Byte)} :
    finalContent append prior data = (if append then prior ++ data.flatten else data.flatten) ↔
      append = true ∨ prior.length ≤ data.flatten.length := by
  unfold finalContent
  cases append with
  | true => simp
  | false => simp

/-- **Output redirection**: in append mode the data comes behind the prior content; without it
the file has the data alone if and only if the prior content was no longer. -/
theorem redirected_content_iff {r : Redirections} {os os' : Os Str Byte} {fd : Nat} {path : Str}
    {append : Bool} {data : List (List Byte)} (hfd : r.output fd = some (path, append))
    (hrun : (targetWrites r fd data).run os = .ok () os') :
    os'.content path = (if append then os.content path ++ data.flatten else data.flatten) ↔
      append = true ∨ (os.content path).length ≤ data.flatten.length := by
  rw [(targetWrites_spec data hfd).of_ok hrun]
  exact finalContent_eq_iff

/-- Started from a terminal, which is open as 0, 1 and 2, by a user who may open every file. -/
def atTerminal (files : Str → Option (List Byte)) : Os Str Byte :=
  { table := { slots := List.replicate 3 (some
      { file := .other 0, append := false, description := 0, cloexec := false }) }
    offset := fun _ => 0, descriptions := 1, pipes := 0, files := files
    refuses := fun _ _ => none }

/-- Standard output goes to the file `o`. -/
def toFile (append : Bool) : Redirections :=
  { stdIn := ['-'], stdOut := ['o'], appendStdout := append, stdErr := ['-']
    appendStderr := false }

/-- Three bytes are there, and one is appended. -/
theorem appended_content :
    ∃ os', (targetWrites (toFile true) 1 [[9]]).run (atTerminal fun _ => some [1, 2, 3]) =
        .ok () os' ∧ os'.content ['o'] = [1, 2, 3, 9] := by
  have hfd : (toFile true).output 1 = some (['o'], true) := rfl
  obtain ⟨os', hrun⟩ : ∃ os', (targetWrites (toFile true) 1 [[9]]).run
      (atTerminal fun _ => some [1, 2, 3]) = .ok () os' := ⟨_, rfl⟩
  exact ⟨os', hrun, (redirected_content_iff hfd hrun).mpr (.inl rfl)⟩

/-- **The end of the old output stays.**  Three bytes are there, and the target writes one. -/
theorem stale_tail :
    ∃ os', (targetWrites (toFile false) 1 [[9]]).run (atTerminal fun _ => some [1, 2, 3]) =
        .ok () os' ∧ os'.content ['o'] = [9, 2, 3] ∧
      [9, 2, 3] ≠ ([[9]] : List (List Byte)).flatten :=
  ⟨_, rfl, rfl, by decide⟩

end GravelBox
