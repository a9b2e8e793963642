/-
# Descriptors and files

The calls of POSIX that open, copy, close and write, as programs on the state of one process
and of the files.  A descriptor is an index into the table of the process.  Its entry says which
file it is open on, whether writes go to the end, which open file description it belongs to (two
entries of one description share the file offset), and whether it is closed by `exec`.

Paths are of any type `P`, the bytes of a file of any type `B`, whose default value is what a
hole in a file reads as.  What a program sees of the table is `Os.at`; the `ends_` rules say what
each call does, in terms of that.

What makes descriptors hard is that their numbers are given out again.  `open` returns the lowest
that is free, so what a number means depends on all that was opened and closed before it, and a
program that keeps a number may find another file behind it.  So no rule speaks of "the descriptor
that was opened" but through the table, and every rule says what it leaves alone.

`open` can fail.  Which paths can be opened, and for what, is a function in the state (`refuses`),
as permissions, limits and missing directories are not modelled; a file that is missing is one that
is not created.  `dup2` and `close` fail on a descriptor that is not open, and not otherwise.

Nothing is claimed of files that are not regular, of reads, or of writes that are cut short: a write
puts all of its bytes where the offset is, or at the end of the file.  Other processes come in only
by what the state is at the start.
-/
import GravelBox.Lib.Stateful
import Mathlib.Logic.Function.Basic
import Mathlib.Data.List.Basic

namespace Posix

open Stateful

/-! ## 1. Tables -/

/-- What a descriptor can be open on. -/
inductive File (P : Type)
  | path (p : P)
  | readEnd (pipe : Nat)
  | writeEnd (pipe : Nat)
  /-- A terminal, a socket and the like. -/
  | other (id : Nat)
  deriving DecidableEq

/-- The entry of a descriptor. -/
structure Entry (P : Type) where
  file : File P
  append : Bool
  /-- The open file description. -/
  description : Nat
  cloexec : Bool
  deriving DecidableEq

/-- The table of a process. -/
structure Table (P : Type) where
  slots : List (Option (Entry P))
  deriving DecidableEq

variable {P B : Type}

/-- The entry of a descriptor, if it is open. -/
def Table.get (t : Table P) (fd : Nat) : Option (Entry P) := t.slots[fd]?.join

/-- Set the entry of a descriptor. -/
def Table.put (t : Table P) (fd : Nat) (e : Option (Entry P)) : Table P :=
  { slots := (t.slots ++ List.replicate (fd + 1 - t.slots.length) none).set fd e }

/-- The lowest descriptor that is not open. -/
def Table.free (t : Table P) : Nat := t.slots.findIdx Option.isNone

/-- The table after `exec`. -/
def Table.exec (t : Table P) : Table P :=
  { slots := t.slots.map fun slot => slot.filter fun e => !e.cloexec }

theorem Table.get_put (t : Table P) (fd n : Nat) (e : Option (Entry P)) :
    (t.put fd e).get n = if n = fd then e else t.get n := by
  unfold Table.put Table.get
  rw [List.getElem?_set]
  by_cases h : n = fd
  · rw [if_pos h.symm, if_pos h, if_pos]
    · rfl
    · rw [List.length_append, List.length_replicate]
      omega
  · rw [if_neg fun h' => h h'.symm, if_neg h, List.getElem?_append]
    split
    · rfl
    · rename_i hlen
      rw [List.getElem?_eq_none (l := t.slots) (by omega), List.getElem?_replicate]
      split
      · rfl
      · rfl

theorem Table.get_free (t : Table P) : t.get t.free = none := by
  unfold Table.get Table.free
  rcases Nat.lt_or_ge (t.slots.findIdx Option.isNone) t.slots.length with h | h
  · have hnone := @List.findIdx_getElem _ Option.isNone t.slots h
    rw [List.getElem?_eq_getElem h, Option.join_some]
    exact Option.isNone_iff_eq_none.mp hnone
  · rw [List.getElem?_eq_none h]
    rfl

/-- Every lower one is open. -/
theorem Table.free_le (t : Table P) {n : Nat} (h : t.get n = none) : t.free ≤ n := by
  unfold Table.get at h
  unfold Table.free
  by_contra hlt
  rw [Nat.not_le] at hlt
  have hlen : n < t.slots.length := Nat.lt_of_lt_of_le hlt List.findIdx_le_length
  rw [List.getElem?_eq_getElem hlen, Option.join_some] at h
  have hopen := List.not_of_lt_findIdx hlt
  rw [h] at hopen
  cases hopen

theorem Table.get_exec (t : Table P) (n : Nat) :
    t.exec.get n = (t.get n).filter fun e => !e.cloexec := by
  unfold Table.get Table.exec
  rw [List.getElem?_map]
  rcases t.slots[n]? with _ | slot
  · rfl
  · rfl

/-! ## 2. The state, and the calls -/

def ENOENT : Nat := 2
def EBADF : Nat := 9

/-- The flags of `open` that matter here. -/
structure Flags where
  create : Bool
  append : Bool
  trunc : Bool
  cloexec : Bool
  deriving DecidableEq

/-- What `open` makes of the file, or `none` if there is none. -/
def Flags.opened (flags : Flags) (content : Option (List B)) : Option (List B) :=
  match content with
  | none => if flags.create then some [] else none
  | some bytes => some (if flags.trunc then [] else bytes)

/-- The state that the calls of one process work on.  All but the table is shared with the
other processes. -/
structure Os (P B : Type) where
  table : Table P
  /-- The offset of each open file description. -/
  offset : Nat → Nat
  /-- The open file descriptions made so far. -/
  descriptions : Nat
  /-- The pipes made so far. -/
  pipes : Nat
  files : P → Option (List B)
  /-- The files that cannot be opened with such flags for another reason than that they are not
  there (a directory, or a permission, is missing), and the error number. -/
  refuses : P → Flags → Option Nat

/-- A call that fails does so with an error number. -/
abbrev Program (P B α : Type) := EStateM Nat (Os P B) α

/-- The entry of a descriptor. -/
def Os.at (os : Os P B) (fd : Nat) : Option (Entry P) := os.table.get fd

/-- Open the lowest descriptor there is. -/
def alloc (e : Entry P) : Program P B Nat := fun os =>
  .ok os.table.free { os with table := os.table.put os.table.free (some e) }

/-- `pipe2`: the end to read from and the one to write to. -/
def pipe2 (cloexec : Bool) : Program P B (Nat × Nat) := do
  let os ← get
  modify fun os => { os with pipes := os.pipes + 1, descriptions := os.descriptions + 2 }
  let r ← alloc { file := .readEnd os.pipes, append := false, description := os.descriptions
                  cloexec := cloexec }
  let w ← alloc { file := .writeEnd os.pipes, append := false
                  description := os.descriptions + 1, cloexec := cloexec }
  return (r, w)

/-- Why a file cannot be opened, if it cannot. -/
def Os.openError (os : Os P B) (path : P) (flags : Flags) : Option Nat :=
  match os.refuses path flags, flags.opened (os.files path) with
  | some code, _ => some code
  | none, none => some ENOENT
  | none, some _ => none

/-- `open`. -/
def openFile [DecidableEq P] (path : P) (flags : Flags) : Program P B Nat := do
  let os ← get
  match os.refuses path flags, flags.opened (os.files path) with
  | some code, _ => throw code
  | none, none => throw ENOENT
  | none, some bytes => do
    modify fun os =>
      { os with files := Function.update os.files path (some bytes)
                offset := Function.update os.offset os.descriptions 0
                descriptions := os.descriptions + 1 }
    alloc { file := .path path, append := flags.append, description := os.descriptions
            cloexec := flags.cloexec }

/-- `close`. -/
def close (fd : Nat) : Program P B Unit := fun os =>
  match os.at fd with
  | none => .error EBADF os
  | some _ => .ok () { os with table := os.table.put fd none }

/-- `dup2`. -/
def dup2 (old new : Nat) : Program P B Unit := fun os =>
  match os.at old with
  | none => .error EBADF os
  | some e =>
    if old = new then .ok () os
    else .ok () { os with table := os.table.put new (some { e with cloexec := false }) }

/-- `exec`, as far as the table goes. -/
def exec : Program P B Unit := modify fun os => { os with table := os.table.exec }

/-- `fork`: the child runs on a copy of the table.  This is how it ends, and its table. -/
def fork {α : Type} (child : Program P B α) : Program P B (Except Nat α × Table P) := fun os =>
  match child.run os with
  | .ok a os' => .ok (.ok a, os'.table) { os' with table := os.table }
  | .error e os' => .ok (.error e, os'.table) { os' with table := os.table }

/-- The content of a file after some bytes were written at an offset. -/
def overwrite [Inhabited B] (content : List B) (offset : Nat) (bytes : List B) : List B :=
  (content ++ List.replicate (offset - content.length) default).take offset ++ bytes ++
    content.drop (offset + bytes.length)

/-- `write`, to a file; what goes into a pipe or to a terminal is not kept. -/
def write [DecidableEq P] [Inhabited B] (fd : Nat) (bytes : List B) : Program P B Unit := fun os =>
  match os.at fd with
  | none => .error EBADF os
  | some e =>
    match e.file with
    | .path path =>
      let content := (os.files path).getD []
      let offset := if e.append then content.length else os.offset e.description
      .ok () { os with
        files := Function.update os.files path (some (overwrite content offset bytes))
        offset := Function.update os.offset e.description (offset + bytes.length) }
    | _ => .ok () os

/-! ## 3. What the calls do -/

variable {os : Os P B}

/-- The lowest free descriptor is free. -/
theorem Os.at_free (os : Os P B) : os.at os.table.free = none := os.table.get_free

/-- Nothing but the table changed, and that at one descriptor. -/
def Os.set (os : Os P B) (fd : Nat) (e : Option (Entry P)) : Os P B :=
  { os with table := os.table.put fd e }

@[simp] theorem Os.at_set (fd n : Nat) (e : Option (Entry P)) :
    (os.set fd e).at n = if n = fd then e else os.at n := os.table.get_put fd n e

@[simp] theorem Os.set_pipes (fd : Nat) (e : Option (Entry P)) :
    (os.set fd e).pipes = os.pipes := rfl

@[simp] theorem Os.set_offset (fd : Nat) (e : Option (Entry P)) :
    (os.set fd e).offset = os.offset := rfl

theorem ends_alloc {e : Entry P} {Q : Nat → Os P B → Prop} {R : Nat → Os P B → Prop} :
    Ends (alloc e) os Q R ↔ Q os.table.free (os.set os.table.free (some e)) := Iff.rfl

theorem ends_close {fd : Nat} {Q : Unit → Os P B → Prop} {R : Nat → Os P B → Prop} :
    Ends (close fd) os Q R ↔
      ((os.at fd).isSome = true → Q () (os.set fd none)) ∧ (os.at fd = none → R EBADF os) := by
  simp only [Ends, close, EStateM.run]
  cases os.at fd with
  | none => simp
  | some e => simp [Os.set]

theorem ends_dup2 {old new : Nat} (hne : old ≠ new) {Q : Unit → Os P B → Prop}
    {R : Nat → Os P B → Prop} :
    Ends (dup2 old new) os Q R ↔
      (∀ e, os.at old = some e → Q () (os.set new (some { e with cloexec := false }))) ∧
        (os.at old = none → R EBADF os) := by
  simp only [Ends, dup2, EStateM.run, if_neg hne]
  cases os.at old with
  | none => simp
  | some e => simp [Os.set]

/-- The state after a file was opened, as far as the table does not say. -/
def Os.opened [DecidableEq P] (os : Os P B) (path : P) (bytes : List B) : Os P B :=
  { os with files := Function.update os.files path (some bytes)
            offset := Function.update os.offset os.descriptions 0
            descriptions := os.descriptions + 1 }

theorem ends_openFile [DecidableEq P] {path : P} {flags : Flags} {Q : Nat → Os P B → Prop}
    {R : Nat → Os P B → Prop} :
    Ends (openFile path flags) os Q R ↔
      (∀ bytes, os.refuses path flags = none → flags.opened (os.files path) = some bytes →
        Q os.table.free ((os.opened path bytes).set os.table.free
          (some { file := .path path, append := flags.append, description := os.descriptions
                  cloexec := flags.cloexec }))) ∧
      ∀ code, os.openError path flags = some code → R code os := by
  simp only [openFile, Os.openError, ends_bind, ends_get]
  rcases os.refuses path flags with _ | code
  · rcases flags.opened (os.files path) with _ | bytes
    · simp
    · simp only [ends_bind, ends_modify, ends_alloc, Option.some.injEq, forall_eq', reduceCtorEq,
        false_implies, implies_true, and_true, forall_const]
      exact Iff.rfl
  · simp

theorem ends_dup2_self {fd : Nat} {Q : Unit → Os P B → Prop} {R : Nat → Os P B → Prop} :
    Ends (dup2 fd fd) os Q R ↔
      ((os.at fd).isSome = true → Q () os) ∧ (os.at fd = none → R EBADF os) := by
  simp only [Ends, dup2, EStateM.run]
  cases os.at fd with
  | none => simp
  | some e => simp

theorem ends_fork {α : Type} {child : Program P B α} {Q : Except Nat α × Table P → Os P B → Prop}
    {R : Nat → Os P B → Prop} :
    Ends (fork child) os Q R ↔
      Ends child os (fun a os' => Q (.ok a, os'.table) { os' with table := os.table })
        (fun e os' => Q (.error e, os'.table) { os' with table := os.table }) := by
  simp only [Ends, fork, EStateM.run]
  cases child os with
  | ok a os' => rfl
  | error e os' => rfl

theorem ends_exec {Q : Unit → Os P B → Prop} {R : Nat → Os P B → Prop} :
    Ends exec os Q R ↔ Q () { os with table := os.table.exec } := Iff.rfl

/-- What `exec` leaves open. -/
theorem Os.at_exec (os : Os P B) (n : Nat) :
    Os.at { os with table := os.table.exec } n = (os.at n).filter fun e => !e.cloexec :=
  os.table.get_exec n

/-- A new pipe, and nothing else. -/
structure Piped (os os' : Os P B) (cloexec : Bool) (r w : Nat) : Prop where
  free_r : os.at r = none
  free_w : os.at w = none
  ne : r ≠ w
  at_r : os'.at r = some { file := .readEnd os.pipes, append := false
                           description := os.descriptions, cloexec := cloexec }
  at_w : os'.at w = some { file := .writeEnd os.pipes, append := false
                           description := os.descriptions + 1, cloexec := cloexec }
  at_ne : ∀ n, n ≠ r → n ≠ w → os'.at n = os.at n
  pipes : os'.pipes = os.pipes + 1

/-- One more descriptor. -/
theorem alloc_spec (os : Os P B) (e : Entry P) :
    Ends (alloc e) os (fun fd os' => os.at fd = none ∧
      (∀ n, os'.at n = if n = fd then some e else os.at n) ∧ os'.pipes = os.pipes)
      (fun _ _ => False) :=
  ⟨os.at_free, fun n => os.at_set os.table.free n (some e), rfl⟩

theorem pipe2_spec (os : Os P B) (cloexec : Bool) :
    Ends (pipe2 cloexec) os (fun fds os' => Piped os os' cloexec fds.1 fds.2)
      (fun _ _ => False) := by
  simp only [pipe2, ends_bind, ends_get, ends_modify, ends_pure]
  refine (alloc_spec _ _).mono ?_ fun _ _ h => h
  rintro r os₁ ⟨hr, hat₁, hpipes₁⟩
  refine (alloc_spec _ _).mono ?_ fun _ _ h => h
  rintro w os₂ ⟨hw, hat₂, hpipes₂⟩
  have hne : r ≠ w := by
    rintro rfl
    rw [hat₁, if_pos rfl] at hw
    cases hw
  rw [hat₁, if_neg hne.symm] at hw
  refine ⟨hr, hw, hne, ?_, ?_, fun n hnr hnw => ?_, hpipes₂.trans hpipes₁⟩
  · rw [hat₂, if_neg hne, hat₁, if_pos rfl]
  · rw [hat₂, if_pos rfl]
  · rw [hat₂, if_neg hnw, hat₁, if_neg hnr]
    rfl

/-- `dup2` only changes the table. -/
theorem dup2_pipes (os : Os P B) (old new : Nat) :
    Ends (dup2 old new) os (fun _ os' => os'.pipes = os.pipes)
      (fun _ os' => os'.pipes = os.pipes) := by
  rcases eq_or_ne old new with rfl | hne
  · rw [ends_dup2_self]
    exact ⟨fun _ => rfl, fun _ => rfl⟩
  · rw [ends_dup2 hne]
    exact ⟨fun _ _ => rfl, fun _ => rfl⟩

/-- Close some descriptors, in order. -/
def closeAll : List Nat → Program P B Unit
  | [] => pure ()
  | fd :: fds => do
    close fd
    closeAll fds

/-- So does `close`. -/
theorem closeAll_pipes (os : Os P B) (fds : List Nat) :
    Ends (closeAll fds) os (fun _ os' => os'.pipes = os.pipes)
      (fun _ os' => os'.pipes = os.pipes) := by
  induction fds generalizing os with
  | nil => exact rfl
  | cons fd fds ih =>
    rw [closeAll, ends_bind, ends_close]
    exact ⟨fun _ => ih (os.set fd none), fun _ => rfl⟩

/-- **Descriptors that are open and differ** can be closed in any order. -/
theorem closeAll_spec (os : Os P B) {fds : List Nat} (hnodup : fds.Nodup)
    (hopen : ∀ fd ∈ fds, os.at fd ≠ none) :
    Ends (closeAll fds) os
      (fun _ os' => (∀ n, os'.at n = if n ∈ fds then none else os.at n) ∧ os'.pipes = os.pipes)
      (fun _ _ => False) := by
  induction fds generalizing os with
  | nil => exact ⟨fun _ => rfl, rfl⟩
  | cons fd fds ih =>
    obtain ⟨hfd, hnodup⟩ := List.nodup_cons.mp hnodup
    rw [closeAll, ends_bind, ends_close]
    refine ⟨fun _ => ?_, fun hnone => hopen fd List.mem_cons_self hnone⟩
    have hrest : ∀ fd' ∈ fds, (os.set fd none).at fd' ≠ none := by
      intro fd' hfd'
      have hne : fd' ≠ fd := by
        rintro rfl
        exact hfd hfd'
      rw [Os.at_set, if_neg hne]
      exact hopen fd' (List.mem_cons_of_mem fd hfd')
    refine (ih (os.set fd none) hnodup hrest).mono ?_ fun _ _ h => h
    rintro _ os' ⟨hat, hpipes⟩
    refine ⟨fun n => ?_, hpipes⟩
    rw [hat, Os.at_set]
    by_cases hmem : n ∈ fds
    · rw [if_pos hmem, if_pos (List.mem_cons_of_mem fd hmem)]
    · rw [if_neg hmem]
      by_cases heq : n = fd
      · rw [if_pos heq, if_pos (List.mem_cons.mpr (.inl heq))]
      · rw [if_neg heq, if_neg fun h => (List.mem_cons.mp h).elim heq hmem]

/-- The end to read from is the lowest descriptor that was free. -/
theorem pipe2_lowest (os : Os P B) (cloexec : Bool) :
    Ends (pipe2 cloexec) os (fun fds _ => ∀ n, os.at n = none → fds.1 ≤ n)
      (fun _ _ => False) := by
  simp only [pipe2, ends_bind, ends_get, ends_modify, ends_pure, ends_alloc]
  exact fun n hn => os.table.free_le hn

/-! ## 4. What writing makes of a file -/

/-- The content of a file, if it is there. -/
def Os.content (os : Os P B) (path : P) : List B := (os.files path).getD []

variable [DecidableEq P] [Inhabited B]

/-- Writing where the file ends. -/
theorem overwrite_end (content bytes : List B) :
    overwrite content content.length bytes = content ++ bytes := by
  unfold overwrite
  rw [Nat.sub_self, List.replicate_zero, List.append_nil, List.take_length,
    List.drop_eq_nil_of_le (Nat.le_add_right _ _), List.append_nil]

/-- Writing behind some bytes. -/
theorem overwrite_append (done rest bytes : List B) :
    overwrite (done ++ rest) done.length bytes = done ++ bytes ++ rest.drop bytes.length := by
  unfold overwrite
  rw [Nat.sub_eq_zero_of_le (by simp), List.replicate_zero, List.append_nil,
    List.take_left, List.drop_append, List.drop_eq_nil_of_le (Nat.le_add_right _ _),
    List.nil_append, Nat.add_sub_cancel_left]

/-- Where a write through the entry `e` starts. -/
def Os.position (os : Os P B) (e : Entry P) (path : P) : Nat :=
  if e.append then (os.content path).length else os.offset e.description

/-- The state after some bytes were written to a file through the entry `e`. -/
def Os.written (os : Os P B) (e : Entry P) (path : P) (bytes : List B) : Os P B :=
  { os with
    files := Function.update os.files path
      (some (overwrite (os.content path) (os.position e path) bytes))
    offset := Function.update os.offset e.description (os.position e path + bytes.length) }

theorem Os.content_written (e : Entry P) (path : P) (bytes : List B) :
    (os.written e path bytes).content path =
      overwrite (os.content path) (os.position e path) bytes := by
  simp [Os.written, Os.content]

theorem Os.offset_written (e : Entry P) (path : P) (bytes : List B) :
    (os.written e path bytes).offset e.description = os.position e path + bytes.length := by
  simp [Os.written]

theorem ends_write {fd : Nat} {e : Entry P} {path : P} {bytes : List B} (hfd : os.at fd = some e)
    (hfile : e.file = .path path) {Q : Unit → Os P B → Prop} {R : Nat → Os P B → Prop} :
    Ends (write fd bytes) os Q R ↔ Q () (os.written e path bytes) := by
  simp only [Ends, write, EStateM.run, hfd, hfile]
  exact Iff.rfl

/-- Several writes to one descriptor. -/
def writes (fd : Nat) : List (List B) → Program P B Unit
  | [] => pure ()
  | bytes :: rest => do
    write fd bytes
    writes fd rest

/-- **Writes in append mode**: the bytes come after what was there. -/
theorem writes_append (data : List (List B)) {fd : Nat} {e : Entry P} {path : P}
    (hfd : os.at fd = some e) (hfile : e.file = .path path) (happend : e.append = true) :
    Ends (writes fd data) os (fun _ os' => os'.content path = os.content path ++ data.flatten)
      (fun _ _ => False) := by
  induction data generalizing os with
  | nil =>
    rw [writes, ends_pure, List.flatten_nil, List.append_nil]
  | cons bytes data ih =>
    rw [writes, ends_bind, ends_write hfd hfile]
    have hcontent : (os.written e path bytes).content path = os.content path ++ bytes := by
      rw [Os.content_written, Os.position, if_pos happend, overwrite_end]
    refine (@ih (os.written e path bytes) hfd).mono (fun _ os' h => ?_) fun _ _ h => h
    rw [h, hcontent, List.flatten_cons, List.append_assoc]

/-- **Writes without append mode**, from an offset on: the bytes replace what was there, as far
as they go. -/
theorem writes_over (data : List (List B)) {fd : Nat} {e : Entry P} {path : P}
    (hfd : os.at fd = some e) (hfile : e.file = .path path) (happend : e.append = false)
    {done rest : List B} (hcontent : os.content path = done ++ rest)
    (hoffset : os.offset e.description = done.length) :
    Ends (writes fd data) os
      (fun _ os' => os'.content path = done ++ data.flatten ++ rest.drop data.flatten.length)
      (fun _ _ => False) := by
  induction data generalizing os done rest with
  | nil =>
    rw [writes, ends_pure, List.flatten_nil, List.append_nil, List.length_nil, List.drop_zero]
    exact hcontent
  | cons bytes data ih =>
    rw [writes, ends_bind, ends_write hfd hfile]
    have hposition : os.position e path = done.length := by
      rw [Os.position, happend, if_neg Bool.false_ne_true, hoffset]
    have hcontent' : (os.written e path bytes).content path =
        done ++ bytes ++ rest.drop bytes.length := by
      rw [Os.content_written, hposition, hcontent, overwrite_append]
    have hoffset' : (os.written e path bytes).offset e.description = (done ++ bytes).length := by
      rw [Os.offset_written, hposition, List.length_append]
    refine (@ih (os.written e path bytes) hfd _ _ hcontent' hoffset').mono (fun _ os' h => ?_)
      fun _ _ h => h
    rw [h, List.flatten_cons, List.length_append, List.drop_drop]
    simp only [List.append_assoc]

end Posix
