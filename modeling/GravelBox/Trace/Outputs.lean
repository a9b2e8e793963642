/-
# What the target writes, in any order

Standard output and standard error may be redirected both (`trace/tracer.cpp`, lines 50 to 63), to
different files or to the same one, and the target writes to them as it likes.  Each redirection
opens its file anew, so each has an offset of its own: the files are what a `Store` of two streams
makes of the writes (`writeAll_backed`).

`outputs_interleaved` says what the files are in the end, whatever the order of the writes was: a
file that both outputs are appended to has everything, in order; a file that one output replaces has
the bytes of that output and what it had behind them; and where both replace one file they overwrite
each other.

The last case is the one that surprises.  `--stdout log --stderr log` looks like `>log 2>&1`, but
there the two descriptors share one offset, and here they have one each, both of which start at 0.

What makes this hard is the distance between the descriptors and the streams.  A descriptor is an
index into a table, which refers to an open file description, which has the offset; `Backed` says
that the descriptors 1 and 2 are on descriptions of their own, with the offsets that the store has,
and every write keeps it.  The start is where it comes from: each redirection makes a description
that nobody else has (`childInit_backed`).

The clause at the end says what can stand in the way: a file that could not be opened (`Unopened`),
and a descriptor that was closed at the start.

Not claimed: writes of processes that the target creates, which share its descriptions.
-/
import GravelBox.Lib.Sinks
import GravelBox.Trace.Startup

namespace GravelBox

open Stateful Posix Sinks

/-! ## 1. The target -/

/-- The target writes to some descriptors, in order. -/
def writeAll : List (Nat × List Byte) → Program Str Byte Unit
  | [] => pure ()
  | (fd, bytes) :: ws => do
    write fd bytes
    writeAll ws

/-- The target is executed, and writes. -/
def targetRuns (r : Redirections) (ws : List (Nat × List Byte)) : Program Str Byte Unit := do
  childInit r
  exec
  writeAll ws

/-! ## 2. The descriptors and the store -/

/-- The descriptors are at work on the files of the store; those in `closed` are closed. -/
structure Backed (r : Redirections) (closed : Nat → Prop) (os : Os Str Byte)
    (s : Store Nat Str Byte) : Prop where
  content : ∀ path, os.content path = s.content path
  sink : ∀ fd path append, r.output fd = some (path, append) → closed fd ∧ os.at fd = none ∨
    ∃ e, os.at fd = some e ∧ e.file = .path path ∧ e.append = append ∧
      os.offset e.description = s.position fd
  apart : ∀ fd fd' e e', r.output fd ≠ none → r.output fd' ≠ none → os.at fd = some e →
    os.at fd' = some e' → fd ≠ fd' → e.description ≠ e'.description

variable {r : Redirections} {closed : Nat → Prop} {os : Os Str Byte} {s : Store Nat Str Byte}

/-- **The step lemma**: a write through a descriptor is one to the store. -/
theorem Backed.write (h : Backed r closed os s) {fd : Nat} (hfd : r.output fd ≠ none)
    (bytes : List Byte) :
    Ends (Posix.write fd bytes) os
      (fun _ os' => Backed r closed os' (s.write r.output (fd, bytes))) (fun _ _ => closed fd) := by
  obtain ⟨⟨path, append⟩, hout⟩ := Option.ne_none_iff_exists'.mp hfd
  rcases h.sink fd path append hout with ⟨hclosed, hnone⟩ | ⟨e, he, hfile, happend, hoffset⟩
  · simp only [Ends, Posix.write, EStateM.run, hnone]
    exact hclosed
  · rw [ends_write he hfile]
    have hstart : os.position e path = s.start fd path append := by
      rw [Os.position, Store.start, happend, h.content, hoffset]
    refine ⟨fun path' => ?_, fun fd' path' append' hout' => ?_, h.apart⟩
    · rcases eq_or_ne path' path with rfl | hne
      · rw [Os.content_written, hstart, h.content, content_write hout]
      · have hother : goesTo r.output path' fd = false := by simp [goesTo, hout, hne.symm]
        rw [content_write_other hother, ← h.content]
        simp [Os.content, Os.written, hne]
    · refine (h.sink fd' path' append' hout').imp id ?_
      rintro ⟨e', he', hfile', happend', hoffset'⟩
      refine ⟨e', he', hfile', happend', ?_⟩
      rcases eq_or_ne fd' fd with rfl | hne
      · obtain rfl : e' = e := Option.some.inj (he'.symm.trans he)
        rw [Os.offset_written, hstart, position_write hout]
      · -- the other stream has an offset of its own
        have hdesc := h.apart fd' fd e' e (Option.ne_none_iff_exists'.mpr ⟨_, hout'⟩) hfd he' he hne
        rw [position_write_other hne, ← hoffset']
        exact Function.update_of_ne hdesc _ _

/-- **The run lemma.** -/
theorem writeAll_backed {ws : List (Nat × List Byte)} (hws : ∀ w ∈ ws, r.output w.1 ≠ none)
    (h : Backed r closed os s) :
    Ends (writeAll ws) os (fun _ os' => Backed r closed os' (s.run r.output ws))
      (fun _ _ => ∃ fd, r.output fd ≠ none ∧ closed fd) := by
  induction ws generalizing os s with
  | nil => exact h
  | cons w ws ih =>
    obtain ⟨hw, hws'⟩ := List.forall_mem_cons.mp hws
    obtain ⟨fd, bytes⟩ := w
    rw [writeAll, ends_bind]
    refine (h.write hw bytes).mono (fun _ os' h' => ?_) fun _ _ hclosed => ⟨fd, hw, hclosed⟩
    exact ih hws' h'

/-! ## 3. The start -/

/-- A descriptor that is opened anew has a description of its own. -/
theorem redirectIf_fresh (path : Str) (flags : Flags) (new : Nat) :
    Ends (redirectIf path flags new) os
      (fun _ os' => path ≠ "-".toList → ∀ e, os'.at new = some e → os.descriptions ≤ e.description)
      (fun _ _ => CannotOpen os path flags) := by
  unfold redirectIf
  by_cases hpath : path ≠ "-".toList
  · rw [if_pos hpath, redirect, ends_bind, ends_openFile]
    refine ⟨fun bytes _ _ => ?_, fun code hcode => ⟨hpath, ?_⟩⟩
    swap
    · rw [hcode]
      exact Option.some_ne_none code
    have hfree := os.at_free
    generalize os.table.free = fd at hfree ⊢
    rcases eq_or_ne fd new with rfl | hne
    · simp [ends_dup2_self, ends_close]
    · simp [ends_dup2 hne, ends_close, hne, hne.symm]
  · rw [if_neg hpath, ends_pure]
    exact fun h => absurd h hpath

/-- The two outputs have descriptions of their own. -/
def OwnDescriptions (r : Redirections) (os : Os Str Byte) : Prop :=
  r.output 1 ≠ none → r.output 2 ≠ none → ∀ e e', os.at 1 = some e → os.at 2 = some e' →
    e.description < e'.description

theorem stdOut_of_output (h : r.output 1 ≠ none) : r.stdOut ≠ "-".toList := by
  intro hdash
  simp [Redirections.output, hdash] at h

theorem stdErr_of_output (h : r.output 2 ≠ none) : r.stdErr ≠ "-".toList := by
  intro hdash
  simp [Redirections.output, hdash] at h

theorem childInit_described (r : Redirections) (os : Os Str Byte) :
    Ends (childInit r) os (fun _ os' => OwnDescriptions r os') (fun _ _ => Unopened r os) := by
  rw [childInit, ends_bind]
  refine ((redirectIf_fresh r.stdIn inputFlags 0).and (redirectIf_spec r.stdIn 0 rfl)).mono ?_
    fun _ _ h => .inl h.1
  rintro _ os₁ ⟨-, hkeep₁, -⟩
  rw [ends_bind]
  refine ((redirectIf_fresh r.stdOut _ 1).and (redirectIf_spec r.stdOut 1 rfl)).mono ?_
    fun _ _ h => .inr (.inl ((hkeep₁.cannotOpen _ _).mp h.1))
  rintro _ os₂ ⟨-, hkeep₂, hout⟩
  have herrors := (hkeep₂.cannotOpen r.stdErr r.appendStderr).trans (hkeep₁.cannotOpen _ _)
  refine ((redirectIf_fresh r.stdErr _ 2).and (redirectIf_spec r.stdErr 2 rfl)).mono ?_
    fun _ _ h => .inr (.inr (herrors.mp h.1))
  rintro _ os₃ ⟨hfresh, hkeep, -⟩ h₁ h₂ e e' he he'
  rw [hkeep.at_ne 1 (by decide)] at he
  refine Nat.lt_of_lt_of_le ?_ (hfresh (stdErr_of_output h₂) e' he')
  rcases hout with ⟨hdash, -⟩ | ⟨-, ⟨e'', hopen⟩ | ⟨-, hnone⟩⟩
  · exact absurd hdash (stdOut_of_output h₁)
  · obtain rfl : e = e'' := Option.some.inj (he.symm.trans hopen.entry)
    exact hopen.known
  · rw [he] at hnone
    cases hnone

theorem eq_one_or_two {fd : Nat} (h : r.output fd ≠ none) : fd = 1 ∨ fd = 2 := by
  unfold Redirections.output at h
  split at h
  · exact .inl rfl
  · exact .inr rfl
  · exact absurd rfl h

/-- What became of a redirected output. -/
theorem Prepared.redirected {os' : Os Str Byte} (h : Prepared r os os') {fd : Nat} {path : Str}
    {append : Bool} (hfd : r.output fd = some (path, append)) :
    path ≠ "-".toList ∧ Redirected os os' path (outputFlags append) fd := by
  unfold Redirections.output at hfd
  split at hfd
  · split at hfd
    · cases hfd
      exact ⟨‹_›, h.stdOut⟩
    · cases hfd
  · split at hfd
    · cases hfd
      exact ⟨‹_›, h.stdErr⟩
    · cases hfd
  · cases hfd

/-- The store at the start. -/
def startStore (os : Os Str Byte) : Store Nat Str Byte :=
  { content := os.content, position := fun _ => 0 }

/-- **The target starts** with its outputs on the files as they are, each at the start. -/
theorem childInit_backed (r : Redirections) (os : Os Str Byte) :
    Ends (childInit r) os
      (fun _ os' => Backed r (fun fd => os.at fd = none)
        { os' with table := os'.table.exec } (startStore os))
      (fun _ _ => Unopened r os) := by
  refine ((childInit_spec r os).and (childInit_described r os)).mono ?_ fun _ _ h => h.2
  rintro _ os' ⟨hprep, hown⟩
  -- an entry that is there after `exec` was there before
  have hat : ∀ fd e, Os.at { os' with table := os'.table.exec } fd = some e →
      os'.at fd = some e := by
    intro fd e he
    rw [Os.at_exec, Option.filter_eq_some_iff] at he
    exact he.1
  refine ⟨hprep.content, fun fd path append hfd => ?_, ?_⟩
  · obtain ⟨hpath, hredirected⟩ := hprep.redirected hfd
    rcases hredirected with ⟨hdash, -⟩ | ⟨-, ⟨e, he⟩ | ⟨hnone, hnone'⟩⟩
    · exact absurd hdash hpath
    · exact .inr ⟨e, he.exec, he.file, he.append, he.offset⟩
    · refine .inl ⟨hnone, ?_⟩
      rw [Os.at_exec, hnone', Option.filter_none]
  · intro fd fd' e e' hfd hfd' he he' hne
    have he₁ := hat fd e he
    have he₂ := hat fd' e' he'
    rcases eq_one_or_two hfd with rfl | rfl
    · rcases eq_one_or_two hfd' with rfl | rfl
      · exact absurd rfl hne
      · exact Nat.ne_of_lt (hown hfd hfd' e e' he₁ he₂)
    · rcases eq_one_or_two hfd' with rfl | rfl
      · exact Nat.ne_of_gt (hown hfd' hfd e' e he₂ he₁)
      · exact absurd rfl hne

/-! ## 4. The files in the end -/

/-- Two outputs that replace one file. -/
theorem length_startStore {path : Str} (h₁ : r.output 1 = some (path, false))
    (h₂ : r.output 2 = some (path, false)) (os : Os Str Byte) (ws : List (Nat × List Byte)) :
    (((startStore os).run r.output ws).content path).length = max (os.content path).length
      (max (data (· = 1) ws).length (data (· = 2) ws).length) := by
  have hover : Over r.output path (startStore os) := by
    refine ⟨fun fd append hfd => ?_, fun _ _ => Nat.zero_le _⟩
    rcases eq_one_or_two (Option.ne_none_iff_exists'.mpr ⟨_, hfd⟩) with rfl | rfl
    · rw [h₁] at hfd
      cases hfd
      rfl
    · rw [h₂] at hfd
      cases hfd
      rfl
  have hreach : ∀ fd, (startStore os).reach ws fd = (data (· = fd) ws).length :=
    fun fd => Nat.zero_add _
  obtain ⟨hle, hfar, hlen⟩ := length_run hover ws
  have hfar₁ := hfar 1 (goesTo_iff.mpr ⟨false, h₁⟩)
  have hfar₂ := hfar 2 (goesTo_iff.mpr ⟨false, h₂⟩)
  rw [hreach] at hfar₁ hfar₂
  have hcontent : (startStore os).content path = os.content path := rfl
  rw [hcontent] at hle hlen
  rcases hlen with hlen | ⟨fd, hfd, hlen⟩
  · omega
  · rw [hreach] at hlen
    obtain ⟨append, hsink⟩ := goesTo_iff.mp hfd
    rcases eq_one_or_two (Option.ne_none_iff_exists'.mpr ⟨_, hsink⟩) with rfl | rfl
    · omega
    · omega

/-- **The simulation**: the files are what the store makes of the writes. -/
theorem targetRuns_content {ws : List (Nat × List Byte)} (hws : ∀ w ∈ ws, r.output w.1 ≠ none)
    (os : Os Str Byte) :
    Ends (targetRuns r ws) os
      (fun _ os' => ∀ path, os'.content path =
        ((startStore os).run r.output ws).content path)
      (fun _ _ => Unopened r os ∨ ∃ fd, r.output fd ≠ none ∧ os.at fd = none) := by
  rw [targetRuns, ends_bind]
  refine (childInit_backed r os).mono (fun _ os₁ hbacked => ?_) fun _ _ h => .inl h
  rw [ends_bind, ends_exec]
  exact (writeAll_backed hws hbacked).mono (fun _ _ h => h.content) fun _ _ h => .inr h

/-- **Outputs, in any order of the writes.**  The target writes to its redirected outputs until it
ends.  A file to which every output is appended has its old content and all that was written to
it, in order.  A file that one output replaces has the bytes of that output, and what it had
behind them, whatever was written elsewhere in between.  And where both outputs replace one file,
they overwrite each other: it is as long as the longer one, or as it was.  Only a file
that cannot be opened or an output descriptor that was closed at the start prevents this. -/
theorem outputs_interleaved {ws : List (Nat × List Byte)} (hws : ∀ w ∈ ws, r.output w.1 ≠ none)
    (os : Os Str Byte) :
    Ends (targetRuns r ws) os
      (fun _ os' => ∀ path,
        ((∀ fd append, r.output fd = some (path, append) → append = true) →
          os'.content path = os.content path ++ data (goesTo r.output path) ws) ∧
        (∀ fd, r.output fd = some (path, false) →
          (∀ fd' append, r.output fd' = some (path, append) → fd' = fd) →
            os'.content path = data (· = fd) ws ++
              (os.content path).drop (data (· = fd) ws).length) ∧
        (r.output 1 = some (path, false) → r.output 2 = some (path, false) →
          (os'.content path).length = max (os.content path).length
            (max (data (· = 1) ws).length (data (· = 2) ws).length)))
      (fun _ _ => Unopened r os ∨ ∃ fd, r.output fd ≠ none ∧ os.at fd = none) := by
  refine (targetRuns_content hws os).mono (fun _ os' h path => ?_) fun _ _ h => h
  rw [h path]
  refine ⟨run_append, fun fd hfd halone => ?_, fun h₁ h₂ => length_startStore h₁ h₂ os ws⟩
  exact run_alone (s := startStore os) hfd halone (List.nil_append (os.content path)).symm rfl

/-- Both outputs go to the file `o`. -/
def bothToFile (append : Bool) : Redirections :=
  { stdIn := ['-'], stdOut := ['o'], appendStdout := append, stdErr := ['o']
    appendStderr := append }

/-- Writes that take turns. -/
def inTurns : List (Nat × List Byte) := [(1, [1]), (2, [2]), (1, [3])]

/-- Appended, they are all in the file. -/
theorem inTurns_appended :
    ∃ os', (targetRuns (bothToFile true) inTurns).run (atTerminal fun _ => some [9]) = .ok () os' ∧
      os'.content ['o'] = [9, 1, 2, 3] := by
  have hws : ∀ w ∈ inTurns, (bothToFile true).output w.1 ≠ none := by decide
  have hall : (atTerminal fun _ => some [9]).content ['o'] ++
      data (goesTo (bothToFile true).output ['o']) inTurns = [9, 1, 2, 3] := by decide +kernel
  generalize hos : (atTerminal fun _ => some [9]) = os at hall ⊢
  have hends := outputs_interleaved hws os
  cases hrun : (targetRuns (bothToFile true) inTurns).run os with
  | ok _ os' =>
    refine ⟨os', rfl, ((hends.of_ok hrun ['o']).1 fun fd append hfd => ?_).trans hall⟩
    rcases eq_one_or_two (Option.ne_none_iff_exists'.mpr ⟨_, hfd⟩) with rfl | rfl
    · cases hfd
      rfl
    · cases hfd
      rfl
  | error code os' =>
    rcases hends.of_error hrun with hunopened | ⟨fd, hfd, hclosed⟩
    · rw [← hos] at hunopened
      rcases hunopened with ⟨hdash, -⟩ | ⟨-, hrefused⟩ | ⟨-, hrefused⟩
      · exact absurd rfl hdash
      · exact absurd rfl hrefused
      · exact absurd rfl hrefused
    · rw [← hos] at hclosed
      rcases eq_one_or_two hfd with rfl | rfl
      · cases hclosed
      · cases hclosed

-- without append mode the first byte of the one output is lost
example : (match (targetRuns (bothToFile false) inTurns).run (atTerminal fun _ => some [9]) with
    | .ok _ os' => os'.content ['o']
    | .error _ _ => []) = [2, 3] := by decide +kernel

end GravelBox
