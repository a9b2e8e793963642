/-
# Which descriptors pinentry is executed with

The constructor of `PinentryUI` (`ui/pinentry_ui.cpp`, lines 14 to 35) makes two pipes and a child,
which moves one end of each to its descriptors 0 and 1, closes the rest and executes pinentry.
`run` (`modules.cpp`) constructs one object or two, the second before the first is destroyed.

What makes this hard is that the child closes four descriptors by their numbers, after it has
copied two of them to 0 and 1.  If descriptor 1 was not open at the start then it is one of the
four, and the child closes its own output again.  And an earlier object is still there, so its
descriptors are copied to the child as well.

So the n-th pinentry program reads what GravelBox writes to it and nothing else, and GravelBox
reads what it writes, if descriptor 1 was open at the start; if it was not, pinentry has no
descriptor 1 at all.  Of an earlier object it has one end of a pipe, the one that GravelBox reads
the answers of the earlier program from (`pinentry_wired`).

Not claimed: anything about a program that does not start, but for what becomes of the run.  The
constructor itself holds the end that such a program would write to, so it does not come to the
end of the pipe: unless the program answers an error, GravelBox waits for ever.
-/
import GravelBox.Descriptors

namespace GravelBox

open Stateful Posix

/-! ## 1. The two halves of the constructor -/

/-- The descriptors of the two pipes of a constructor. -/
structure PipeFds where
  toR : Nat
  toW : Nat
  fromR : Nat
  fromW : Nat
  deriving DecidableEq

/-- All of them, as the child closes them. -/
def PipeFds.all (fds : PipeFds) : List Nat := [fds.toR, fds.toW, fds.fromR, fds.fromW]

/-- The constructor up to `Utils::spawn`: its pipes, and the table that pinentry is executed
with. -/
def pinentrySpawn (env : Surroundings) :
    EStateM Fault (Os Str Byte) (PipeFds × Option (Table Str)) := do
  let (toR, toW) ← checked (pipe2 true)
  let (fromR, fromW) ← checked (pipe2 false)
  if env.ttyname (← get) = false then
    checked (closeAll [fromW, fromR, toW, toR])
    throw (.systemError ENOTTY)
  let table ← checked (spawn (pinentryInit toR toW fromR fromW))
  return ({ toR := toR, toW := toW, fromR := fromR, fromW := fromW }, table)

/-- The rest of the constructor. -/
def pinentryOpen (env : Surroundings) (program : Str) (fds : PipeFds) :
    EStateM Fault (Os Str Byte) UiFds := do
  if env.starts program = false then
    match env.refusal program with
    | none => throw .blocked
    | some msg =>
      checked (closeAll [fds.fromW, fds.toR, fds.fromR, fds.toW])
      throw (.pinentryException msg)
  checked (closeAll [fds.fromW, fds.toR])
  return { fromPinentry := fds.fromR, toPinentry := fds.toW }

/-- What `run` does up to the child of one more pinentry, and the table of that. -/
def pinentryTable (env : Surroundings) (earlier : List Str) :
    EStateM Fault (Os Str Byte) (PipeFds × Option (Table Str)) := do
  let _ ← earlier.foldlM (assignUi env) none
  pinentrySpawn env

variable {env : Surroundings}

/-- The constructor is the two halves. -/
theorem construct_eq (program : Str) :
    PinentryUI.construct env program =
      (pinentrySpawn env >>= fun r => pinentryOpen env program r.1) := by
  simp only [PinentryUI.construct, pinentrySpawn, bind_assoc]
  refine bind_congr fun w => bind_congr fun r => bind_congr fun os => ?_
  split
  · simp only [bind_assoc]
    exact bind_congr fun _ => rfl
  · simp only [bind_assoc, pure_bind]
    exact bind_congr fun _ => rfl

/-! ## 2. The pipes -/

/-- Two new pipes, and nothing else. -/
structure TwoPipes (os os' : Os Str Byte) (fds : PipeFds) : Prop where
  free : ∀ fd ∈ fds.all, os.at fd = none
  nodup : fds.all.Nodup
  lowest : ∀ n, os.at n = none → fds.toR ≤ n
  at_toR : ∃ d, os'.at fds.toR =
    some { file := .readEnd os.pipes, append := false, description := d, cloexec := true }
  at_toW : ∃ d, os'.at fds.toW =
    some { file := .writeEnd os.pipes, append := false, description := d, cloexec := true }
  at_fromR : ∃ d, os'.at fds.fromR =
    some { file := .readEnd (os.pipes + 1), append := false, description := d, cloexec := false }
  at_fromW : ∃ d, os'.at fds.fromW =
    some { file := .writeEnd (os.pipes + 1), append := false, description := d, cloexec := false }
  at_not_mem : ∀ n, n ∉ fds.all → os'.at n = os.at n
  pipes : os'.pipes = os.pipes + 2

theorem mem_all {fds : PipeFds} {n : Nat} :
    n ∈ fds.all ↔ n = fds.toR ∨ n = fds.toW ∨ n = fds.fromR ∨ n = fds.fromW := by
  simp [PipeFds.all]

theorem twoPipes_of_piped {os os₁ os₂ : Os Str Byte} {toR toW fromR fromW : Nat}
    (hto : Piped os os₁ true toR toW) (hfrom : Piped os₁ os₂ false fromR fromW)
    (hlowest : ∀ n, os.at n = none → toR ≤ n) :
    TwoPipes os os₂ { toR := toR, toW := toW, fromR := fromR, fromW := fromW } := by
  -- an end of the first pipe was open when the second was made
  have hopen : ∀ {fd e fd'}, os₁.at fd = some e → os₁.at fd' = none → fd ≠ fd' := by
    rintro fd e _ hfd hfd' rfl
    rw [hfd] at hfd'
    cases hfd'
  have hrr := hopen hto.at_r hfrom.free_r
  have hrw := hopen hto.at_r hfrom.free_w
  have hwr := hopen hto.at_w hfrom.free_r
  have hww := hopen hto.at_w hfrom.free_w
  refine ⟨fun fd hfd => ?_, ?_, hlowest, ?_, ?_, ?_, ?_, fun n hn => ?_, ?_⟩
  · rcases mem_all.mp hfd with rfl | rfl | rfl | rfl
    · exact hto.free_r
    · exact hto.free_w
    · rw [← hto.at_ne fd hrr.symm hwr.symm]
      exact hfrom.free_r
    · rw [← hto.at_ne fd hrw.symm hww.symm]
      exact hfrom.free_w
  · simp [PipeFds.all, hto.ne, hrr, hrw, hwr, hww, hfrom.ne]
  · exact ⟨_, (hfrom.at_ne toR hrr hrw).trans hto.at_r⟩
  · exact ⟨_, (hfrom.at_ne toW hwr hww).trans hto.at_w⟩
  · rw [← hto.pipes]
    exact ⟨_, hfrom.at_r⟩
  · rw [← hto.pipes]
    exact ⟨_, hfrom.at_w⟩
  · simp only [mem_all, not_or] at hn
    obtain ⟨h₁, h₂, h₃, h₄⟩ := hn
    rw [hfrom.at_ne n h₃ h₄, hto.at_ne n h₁ h₂]
  · rw [hfrom.pipes, hto.pipes]

/-- The descriptors are open on ends of pipes. -/
theorem TwoPipes.at_mem {os os' : Os Str Byte} {fds : PipeFds} (h : TwoPipes os os' fds) {fd : Nat}
    (hfd : fd ∈ fds.all) :
    ∃ e k, os'.at fd = some e ∧ (e.file = .readEnd k ∨ e.file = .writeEnd k) := by
  rcases mem_all.mp hfd with rfl | rfl | rfl | rfl
  · obtain ⟨d, hat⟩ := h.at_toR
    exact ⟨_, _, hat, .inl rfl⟩
  · obtain ⟨d, hat⟩ := h.at_toW
    exact ⟨_, _, hat, .inr rfl⟩
  · obtain ⟨d, hat⟩ := h.at_fromR
    exact ⟨_, _, hat, .inl rfl⟩
  · obtain ⟨d, hat⟩ := h.at_fromW
    exact ⟨_, _, hat, .inr rfl⟩

theorem TwoPipes.is_open {os os' : Os Str Byte} {fds : PipeFds} (h : TwoPipes os os' fds) {fd : Nat}
    (hfd : fd ∈ fds.all) : os'.at fd ≠ none := by
  obtain ⟨e, k, he, -⟩ := h.at_mem hfd
  rw [he]
  exact Option.some_ne_none e

/-- What was open stays as it is. -/
theorem TwoPipes.at_open {os os' : Os Str Byte} {fds : PipeFds} (h : TwoPipes os os' fds) {n : Nat}
    (hn : os.at n ≠ none) : n ∉ fds.all ∧ os'.at n = os.at n := by
  have hmem : n ∉ fds.all := fun hmem => hn (h.free n hmem)
  exact ⟨hmem, h.at_not_mem n hmem⟩

/-- A pipe is no terminal. -/
def PipesNoTerminals (env : Surroundings) : Prop :=
  ∀ k, env.isTerminal (.readEnd k) = false ∧ env.isTerminal (.writeEnd k) = false

/-- The pipes do not change whether descriptor 0 is a terminal. -/
theorem TwoPipes.ttyname (hpipes : PipesNoTerminals env) {os os' : Os Str Byte} {fds : PipeFds}
    (h : TwoPipes os os' fds) : env.ttyname os' = env.ttyname os := by
  unfold Surroundings.ttyname
  by_cases hmem : 0 ∈ fds.all
  · obtain ⟨e, k, hat, hfile⟩ := h.at_mem hmem
    rw [h.free 0 hmem, hat, Option.any_some, Option.any_none]
    rcases hfile with hfile | hfile
    · rw [hfile]
      exact (hpipes k).1
    · rw [hfile]
      exact (hpipes k).2
  · rw [h.at_not_mem 0 hmem]

theorem open_of_ttyname {os : Os Str Byte} (h : env.ttyname os = true) : os.at 0 ≠ none := by
  intro hnone
  rw [Surroundings.ttyname, hnone] at h
  cases h

/-- With descriptor 0 open, the ends are at 1, which is the one the child reads, or above. -/
theorem TwoPipes.one {os os' : Os Str Byte} {fds : PipeFds} (h : TwoPipes os os' fds)
    (hopen : os.at 0 ≠ none) : (∀ fd ∈ fds.all, fd ≠ 0) ∧ (os.at 1 = none ↔ fds.toR = 1) := by
  have hzero : ∀ fd ∈ fds.all, fd ≠ 0 := by
    rintro fd hfd rfl
    exact hopen (h.free 0 hfd)
  have htoR : fds.toR ∈ fds.all := mem_all.mpr (.inl rfl)
  refine ⟨hzero, fun hnone => ?_, fun heq => ?_⟩
  · have hle := h.lowest 1 hnone
    have hne := hzero _ htoR
    omega
  · rw [← heq]
    exact h.free _ htoR

/-! ## 3. The child -/

/-- The table that the child executes pinentry with. -/
structure ChildTable (os : Os Str Byte) (t : Table Str) (k : Nat) : Prop where
  stdIn : (t.get 0).map Entry.file = some (.readEnd k)
  stdOut : (t.get 1).map Entry.file = if os.at 1 = none then none else some (.writeEnd (k + 1))
  other : ∀ n, 2 ≤ n → Inherited os t n

/-- **What the child does**: its descriptors 0 and 1 are ends of the pipes, but if an end was at
1 it closes that again. -/
theorem pinentryInit_spec {os os₂ : Os Str Byte} {fds : PipeFds} (h : TwoPipes os os₂ fds)
    (hopen : os.at 0 ≠ none) :
    Ends (pinentryInit fds.toR fds.toW fds.fromR fds.fromW) os₂
      (fun _ os' => ChildTable os os'.table.exec os.pipes ∧ os'.pipes = os₂.pipes)
      (fun _ _ => False) := by
  obtain ⟨hzero, hone⟩ := h.one hopen
  obtain ⟨dr, hr⟩ := h.at_toR
  obtain ⟨dw, hw⟩ := h.at_fromW
  have hne_zero : fds.fromW ≠ 0 := hzero _ (mem_all.mpr (.inr (.inr (.inr rfl))))
  -- if descriptor 1 was free then it is the end to read from, and not this one
  have hne_one : fds.fromW ≠ 1 := by
    intro heq
    have hfree := h.free _ (mem_all.mpr (.inr (.inr (.inr rfl))))
    rw [heq] at hfree
    have hnodup := h.nodup
    simp [PipeFds.all, hone.mp hfree, heq] at hnodup
  rw [pinentryInit, ends_bind, ends_dup2 (hzero _ (mem_all.mpr (.inl rfl))), hr]
  refine ⟨?_, fun hnone => Option.some_ne_none _ hnone⟩
  rintro _ ⟨⟩
  rw [ends_bind, ends_dup2 hne_one, Os.at_set, if_neg hne_zero, hw]
  refine ⟨?_, fun hnone => Option.some_ne_none _ hnone⟩
  rintro _ ⟨⟩
  generalize hos₄ : (os₂.set 0 _).set 1 _ = os₄
  have hat₀ : os₄.at 0 = some { file := .readEnd os.pipes, append := false, description := dr
                                cloexec := false } := by
    rw [← hos₄, Os.at_set, if_neg Nat.zero_ne_one, Os.at_set, if_pos rfl]
  have hat₁ : os₄.at 1 = some { file := .writeEnd (os.pipes + 1), append := false
                                description := dw, cloexec := false } := by
    rw [← hos₄, Os.at_set, if_pos rfl]
  have hat : ∀ n, 2 ≤ n → os₄.at n = os₂.at n := by
    intro n hn
    rw [← hos₄, Os.at_set, if_neg (by omega), Os.at_set, if_neg (by omega)]
  have hopen₄ : ∀ fd ∈ fds.all, os₄.at fd ≠ none := by
    intro fd hfd hnone
    have hfd₀ := hzero fd hfd
    rcases eq_or_ne fd 1 with rfl | hfd₁
    · rw [hat₁] at hnone
      cases hnone
    · rw [hat fd (by omega)] at hnone
      exact h.is_open hfd hnone
  have hpipes₄ : os₄.pipes = os₂.pipes := by
    rw [← hos₄, Os.set_pipes, Os.set_pipes]
  refine (closeAll_spec os₄ h.nodup hopen₄).mono ?_ fun _ _ h => h
  rintro _ os₅ ⟨hclosed, hpipes₅⟩
  have hget : ∀ n, os₅.table.exec.get n =
      (if n ∈ fds.all then none else os₄.at n).filter fun e => !e.cloexec := by
    intro n
    rw [← hclosed]
    exact os₅.table.get_exec n
  refine ⟨⟨?_, ?_, fun n hn => ?_⟩, hpipes₅.trans hpipes₄⟩
  · rw [hget, if_neg fun hmem => hzero 0 hmem rfl, hat₀]
    rfl
  · rw [hget, hat₁]
    by_cases hnone : os.at 1 = none
    · rw [if_pos hnone, if_pos (mem_all.mpr (.inl (hone.mp hnone).symm))]
      rfl
    · rw [if_neg hnone, if_neg (h.at_open hnone).1]
      rfl
  · rw [Inherited, hget]
    by_cases hmem : n ∈ fds.all
    · rw [if_pos hmem, h.free n hmem]
    · rw [if_neg hmem, hat n hn, h.at_not_mem n hmem]

/-! ## 4. The constructor -/

/-- The ends can be closed in any order, and then the table is what it was. -/
theorem TwoPipes.closeAll {os os' : Os Str Byte} {fds : PipeFds} (h : TwoPipes os os' fds)
    {order : List Nat} (hperm : order.Perm fds.all) :
    Ends (closeAll order) os' (fun _ os'' => ∀ n, os''.at n = os.at n) (fun _ _ => False) := by
  have hopen : ∀ fd ∈ order, os'.at fd ≠ none := fun fd hfd => h.is_open (hperm.mem_iff.mp hfd)
  refine (closeAll_spec os' (hperm.nodup_iff.mpr h.nodup) hopen).mono ?_ fun _ _ h => h
  rintro _ os'' ⟨hat, -⟩ n
  rw [hat]
  by_cases hmem : n ∈ fds.all
  · rw [if_pos (hperm.mem_iff.mpr hmem), h.free n hmem]
  · rw [if_neg fun h' => hmem (hperm.mem_iff.mp h'), h.at_not_mem n hmem]

/-- **The first half**: pinentry is executed if descriptor 0 is a terminal. -/
theorem pinentrySpawn_spec (hpipes : PipesNoTerminals env) (os : Os Str Byte) :
    Ends (pinentrySpawn env) os
      (fun r os' => env.ttyname os = true ∧ TwoPipes os os' r.1 ∧
        ∃ t, r.2 = some t ∧ ChildTable os t os.pipes)
      (fun e os' => e = .systemError ENOTTY ∧ env.ttyname os = false ∧
        ∀ n, os'.at n = os.at n) := by
  rw [pinentrySpawn, ends_bind, ends_checked]
  refine ((pipe2_spec os true).and (pipe2_lowest os true)).mono ?_ fun _ _ h => h.1.elim
  rintro ⟨toR, toW⟩ os₁ ⟨hto, hlowest⟩
  rw [ends_bind, ends_checked]
  refine (pipe2_spec os₁ false).mono ?_ fun _ _ h => h.elim
  rintro ⟨fromR, fromW⟩ os₂ hfrom
  simp only at hto hlowest hfrom ⊢
  have htwo := twoPipes_of_piped hto hfrom hlowest
  rw [ends_bind, ends_get]
  by_cases htty : env.ttyname os₂ = false
  · rw [if_pos htty, ends_bind, ends_checked]
    refine (htwo.closeAll (List.reverse_perm _)).mono (fun _ os' hat => ?_) fun _ _ h => h.elim
    exact ⟨rfl, (htwo.ttyname hpipes).symm.trans htty, hat⟩
  · rw [if_neg htty]
    have htrue : env.ttyname os = true := by
      rw [← htwo.ttyname hpipes]
      exact Bool.eq_true_of_not_eq_false htty
    simp only [spawn, ends_checked, ends_bind, ends_fork, ends_exec]
    refine (pinentryInit_spec htwo (open_of_ttyname htrue)).mono ?_ fun _ _ h => h.elim
    rintro _ os₃ ⟨htable, hpipes₃⟩
    refine ⟨htrue, ⟨htwo.free, htwo.nodup, htwo.lowest, htwo.at_toR, htwo.at_toW, htwo.at_fromR,
      htwo.at_fromW, htwo.at_not_mem, hpipes₃.trans htwo.pipes⟩, _, rfl, htable⟩

/-- What the object reads from, beside what it holds. -/
structure Constructed (os os' : Os Str Byte) (ui : UiFds) : Prop where
  answers : (os'.at ui.fromPinentry).map Entry.file = some (.readEnd (os.pipes + 1))
  one : os.at 1 = none → os'.at 1 = none
  pipes : os'.pipes = os.pipes + 2

/-- What becomes of the constructor for a program that does not start. -/
def Surroundings.startFault (env : Surroundings) (program : Str) : Fault :=
  match env.refusal program with
  | none => .blocked
  | some msg => .pinentryException msg

/-- **The second half**: the object is constructed if the program starts; otherwise an exception
leaves the table as it was, or there is no end. -/
theorem pinentryOpen_spec {os os₂ : Os Str Byte} {fds : PipeFds} (h : TwoPipes os os₂ fds)
    (hopen : os.at 0 ≠ none) (program : Str) :
    Ends (pinentryOpen env program fds) os₂
      (fun ui os' => env.starts program = true ∧ Constructed os os' ui)
      (fun e os' => e = env.startFault program ∧ env.starts program = false ∧
        (e ≠ .blocked → ∀ n, os'.at n = os.at n)) := by
  obtain ⟨toR, toW, fromR, fromW⟩ := fds
  unfold pinentryOpen Surroundings.startFault
  by_cases hstarts : env.starts program = false
  · rw [if_pos hstarts]
    cases env.refusal program with
    | none => exact ⟨rfl, hstarts, fun hne => absurd rfl hne⟩
    | some msg =>
      have hperm : [fromW, toR, fromR, toW].Perm [toR, toW, fromR, fromW] := by
        simp only [List.perm_iff_count, List.count_cons]
        intro n
        ac_rfl
      simp only [ends_bind, ends_checked]
      refine (h.closeAll hperm).mono (fun _ os' hat => ?_) fun _ _ h => h.elim
      exact ⟨rfl, hstarts, fun _ => hat⟩
  · rw [if_neg hstarts, ends_bind, ends_checked]
    have hnodup := h.nodup
    simp only [PipeFds.all, List.nodup_cons, List.mem_cons, List.not_mem_nil, or_false,
      not_or] at hnodup
    obtain ⟨⟨-, hrr, hrw⟩, -, hff, -⟩ := hnodup
    have hclose : ∀ fd ∈ [fromW, toR], os₂.at fd ≠ none := by
      intro fd hfd
      rcases List.mem_pair.mp hfd with rfl | rfl
      · exact h.is_open (mem_all.mpr (.inr (.inr (.inr rfl))))
      · exact h.is_open (mem_all.mpr (.inl rfl))
    refine (closeAll_spec os₂ (List.pairwise_pair.mpr (Ne.symm hrw)) hclose).mono ?_
      fun _ _ h => h.elim
    rintro _ os₃ ⟨hat, hpipes⟩
    simp only [List.mem_pair] at hat
    refine ⟨Bool.eq_true_of_not_eq_false hstarts, ?_, fun hnone => ?_, hpipes.trans h.pipes⟩
    · obtain ⟨d, hfrom⟩ := h.at_fromR
      rw [hat, if_neg (not_or.mpr ⟨hff, Ne.symm hrr⟩), hfrom]
      rfl
    · have heq : toR = 1 := (h.one hopen).2.mp hnone
      rw [hat, if_pos (.inr heq.symm)]

/-- How a run does not come to the child of the next pinentry: there is no terminal, or a program
before it does not start.  Then it answered an error, or GravelBox waits for ever. -/
def WiringFails (env : Surroundings) (os : Os Str Byte) (programs : List Str) (e : Fault) : Prop :=
  e = .systemError ENOTTY ∧ env.ttyname os = false ∨
    ∃ program ∈ programs, env.starts program = false ∧ e = env.startFault program

/-- **The constructor** returns, or throws and leaves the table as it was, or has no end. -/
theorem construct_spec (hpipes : PipesNoTerminals env) (os : Os Str Byte) (program : Str) :
    Ends (PinentryUI.construct env program) os
      (fun ui os' => (env.ttyname os = true ∧ env.starts program = true ∧ Constructed os os' ui) ∧
        Holding os os' ui)
      (fun e os' => WiringFails env os [program] e ∧
        (e ≠ .blocked → ∀ n, os'.at n = os.at n)) := by
  have hspec : Ends (PinentryUI.construct env program) os
      (fun ui os' => env.ttyname os = true ∧ env.starts program = true ∧ Constructed os os' ui)
      (fun e os' => WiringFails env os [program] e ∧
        (e ≠ .blocked → ∀ n, os'.at n = os.at n)) := by
    rw [construct_eq, ends_bind]
    refine (pinentrySpawn_spec hpipes os).mono ?_ fun e os' ⟨he, htty, hat⟩ => ?_
    · rintro r os₁ ⟨htty, htwo, -⟩
      refine (pinentryOpen_spec htwo (open_of_ttyname htty) program).mono
        (fun ui os' ⟨hstarts, hui⟩ => ⟨htty, hstarts, hui⟩) fun e os' ⟨he, hstarts, hat⟩ => ?_
      exact ⟨.inr ⟨program, List.mem_singleton_self program, hstarts, he⟩, hat⟩
    · exact ⟨.inl ⟨he, htty⟩, fun _ => hat⟩
  exact (hspec.and (construct_holding os program)).mono (fun _ _ h => h) fun _ _ h => h.1

/-! ## 5. One object after another -/

/-- `n` objects were constructed, and the last is there. -/
structure Latest (os₀ os : Os Str Byte) (n : Nat) (ui : UiFds) : Prop where
  holding : Holding os₀ os ui
  answers : (os.at ui.fromPinentry).map Entry.file = some (.readEnd (os₀.pipes + 2 * n - 1))
  one : os₀.at 1 = none → os.at 1 = none
  pipes : os.pipes = os₀.pipes + 2 * n

/-- What the pointer `ui` owns after `n` assignments. -/
def Assigned (env : Surroundings) (os₀ os : Os Str Byte) (n : Nat) : Option UiFds → Prop
  | none => n = 0 ∧ os = os₀
  | some ui => 0 < n ∧ env.ttyname os₀ = true ∧ Latest os₀ os n ui

/-- What was open at the start stays as it is. -/
theorem Holding.at_open {os₀ os : Os Str Byte} {ui : UiFds} (h : Holding os₀ os ui) {n : Nat}
    (hn : os₀.at n ≠ none) : os.at n = os₀.at n := by
  refine h.at_ne n ?_ ?_
  · rintro rfl
    exact hn h.free_from
  · rintro rfl
    exact hn h.free_to

theorem Holding.ttyname {os₀ os : Os Str Byte} {ui : UiFds} (h : Holding os₀ os ui)
    (htty : env.ttyname os₀ = true) : env.ttyname os = true := by
  unfold Surroundings.ttyname at htty ⊢
  rw [h.at_open (open_of_ttyname htty)]
  exact htty

/-- What an object holds is open. -/
theorem Holding.is_open {os₀ os : Os Str Byte} {ui : UiFds} (h : Holding os₀ os ui) {n : Nat}
    (hn : n ∈ [ui.fromPinentry, ui.toPinentry]) : os.at n ≠ none := by
  rcases List.mem_pair.mp hn with rfl | rfl
  · obtain ⟨k, d, -, hfrom⟩ := h.at_from
    rw [hfrom]
    exact Option.some_ne_none _
  · obtain ⟨e, hto, -⟩ := h.at_to
    rw [hto]
    exact Option.some_ne_none e

/-- The new object is constructed, and then the old one is destroyed. -/
theorem destruct_latest {os₀ os os' : Os Str Byte} {n : Nat} {old new : UiFds}
    (hold : Latest os₀ os n old) (hui : Constructed os os' new) (hnew : Holding os os' new) :
    Ends (PinentryUI.destruct old) os' (fun _ os'' => Latest os₀ os'' (n + 1) new)
      (fun _ _ => False) := by
  -- what the old object holds was not free when the new one was constructed
  have hne : ∀ {fd fd'}, fd ∈ [old.fromPinentry, old.toPinentry] → os.at fd' = none → fd ≠ fd' := by
    rintro fd _ hfd hfd' rfl
    exact hold.holding.is_open hfd hfd'
  have hopen : ∀ fd ∈ [old.fromPinentry, old.toPinentry], os'.at fd ≠ none := by
    intro fd hfd
    rw [hnew.at_ne fd (hne hfd hnew.free_from) (hne hfd hnew.free_to)]
    exact hold.holding.is_open hfd
  rw [PinentryUI.destruct, ends_checked]
  refine (closeAll_spec os' (List.pairwise_pair.mpr hold.holding.ne) hopen).mono ?_
    fun _ _ h => h.elim
  rintro _ os'' ⟨hat, hpipes⟩
  refine ⟨hold.holding.destruct hnew (fun m => ?_) hpipes, ?_, fun hone => ?_, ?_⟩
  · simp only [hat, List.mem_pair]
  · rw [hat, if_neg fun hmem => hne hmem hnew.free_from rfl, hui.answers, hold.pipes]
    rfl
  · rw [hat, hui.one (hold.one hone)]
    exact ite_self none
  · rw [hpipes, hui.pipes, hold.pipes]
    rfl

/-- **One assignment** to `ui`: its pipes are the next two. -/
theorem assignUi_assigned (hpipes : PipesNoTerminals env) {os₀ os : Os Str Byte} {n : Nat}
    {ui : Option UiFds} (h : Assigned env os₀ os n ui) (program : Str) :
    Ends (assignUi env ui program) os
      (fun ui' os' => env.starts program = true ∧ ∃ new, ui' = some new ∧
        Assigned env os₀ os' (n + 1) (some new))
      (fun e _ => WiringFails env os₀ [program] e) := by
  rw [assignUi, ends_bind]
  cases ui with
  | none =>
    obtain ⟨rfl, rfl⟩ := h
    refine (construct_spec hpipes os program).mono ?_ fun _ _ h => h.1
    rintro new os₁ ⟨⟨htty, hstarts, hui⟩, hnew⟩
    exact ⟨hstarts, new, rfl, Nat.one_pos, htty, hnew, hui.answers, hui.one, hui.pipes⟩
  | some old =>
    obtain ⟨-, htty, hold⟩ := h
    refine (construct_spec hpipes os program).mono ?_ fun e _ h => ?_
    · rintro new os₁ ⟨⟨-, hstarts, hui⟩, hnew⟩
      rw [ends_bind]
      refine (destruct_latest hold hui hnew).mono (fun _ os₂ hlatest => ?_) fun _ _ h => h.elim
      exact ⟨hstarts, new, rfl, Nat.succ_pos n, htty, hlatest⟩
    · rcases h.1 with ⟨-, hfalse⟩ | hprogram
      · rw [hold.holding.ttyname htty] at hfalse
        cases hfalse
      · exact .inr hprogram

/-- **The whole sequence.** -/
theorem assignments_assigned (hpipes : PipesNoTerminals env) (programs : List Str)
    {os₀ os : Os Str Byte} {n : Nat} {ui : Option UiFds} (h : Assigned env os₀ os n ui) :
    Ends (programs.foldlM (assignUi env) ui) os
      (fun ui' os' => (∀ program ∈ programs, env.starts program = true) ∧
        Assigned env os₀ os' (n + programs.length) ui')
      (fun e _ => WiringFails env os₀ programs e) := by
  induction programs generalizing os n ui with
  | nil => exact ⟨List.forall_mem_nil _, h⟩
  | cons program programs ih =>
    rw [List.foldlM_cons, ends_bind]
    refine (assignUi_assigned hpipes h program).mono ?_ fun e _ h => ?_
    · rintro _ os₁ ⟨hstarts, new, rfl, hnew⟩
      refine (ih hnew).mono (fun ui' os' ⟨hall, hassigned⟩ => ⟨?_, ?_⟩) fun e _ h => ?_
      · exact List.forall_mem_cons.mpr ⟨hstarts, hall⟩
      · rw [List.length_cons, Nat.add_comm programs.length, ← Nat.add_assoc]
        exact hassigned
      · exact h.imp_right fun ⟨other, hmem, hother⟩ =>
          ⟨other, List.mem_cons_of_mem program hmem, hother⟩
    · exact h.imp_right fun ⟨other, hmem, hother⟩ =>
        ⟨other, List.mem_cons.mpr (.inl (List.mem_singleton.mp hmem)), hother⟩

/-! ## 6. The n-th pinentry -/

/-- GravelBox and pinentry are connected by two pipes, if descriptor 1 was open at the start. -/
structure Wired (os os' : Os Str Byte) (fds : PipeFds) (t : Table Str) (k : Nat) : Prop where
  requests_out : (os'.at fds.toW).map Entry.file = some (.writeEnd k)
  requests_in : (t.get 0).map Entry.file = some (.readEnd k)
  answers_out : (t.get 1).map Entry.file =
    if os.at 1 = none then none else some (.writeEnd (k + 1))
  answers_in : (os'.at fds.fromR).map Entry.file = some (.readEnd (k + 1))

/-- The rest of the table is inherited from the start, but for the end that GravelBox reads the
answers of the program before from. -/
def RestInherited (os : Os Str Byte) (t : Table Str) : Nat → Prop
  | 0 => ∀ n, 2 ≤ n → Inherited os t n
  | m + 1 => ∃ fd, 2 ≤ fd ∧ os.at fd = none ∧
      (t.get fd).map Entry.file = some (.readEnd (os.pipes + 2 * m + 1)) ∧
      ∀ n, 2 ≤ n → n ≠ fd → Inherited os t n

/-- Descriptor 1 is open if it was at the start. -/
theorem Assigned.one {os₀ os : Os Str Byte} {n : Nat} {ui : Option UiFds}
    (h : Assigned env os₀ os n ui) : os.at 1 = none ↔ os₀.at 1 = none := by
  cases ui with
  | none => rw [h.2]
  | some ui =>
    refine ⟨fun hnone => ?_, h.2.2.one⟩
    by_contra hopen
    rw [h.2.2.holding.at_open hopen] at hnone
    exact hopen hnone

theorem Assigned.pipes {os₀ os : Os Str Byte} {n : Nat} {ui : Option UiFds}
    (h : Assigned env os₀ os n ui) : os.pipes = os₀.pipes + 2 * n := by
  cases ui with
  | none =>
    obtain ⟨rfl, rfl⟩ := h
    rfl
  | some ui => exact h.2.2.pipes

/-- What a child inherits from GravelBox, as seen from the start. -/
theorem Assigned.rest_inherited {os₀ os : Os Str Byte} {n : Nat} {ui : Option UiFds}
    {t : Table Str} (h : Assigned env os₀ os n ui) (ht : ∀ m, 2 ≤ m → Inherited os t m) :
    RestInherited os₀ t n := by
  cases ui with
  | none =>
    obtain ⟨rfl, rfl⟩ := h
    exact ht
  | some ui =>
    have hone := h.one
    obtain ⟨hpos, htty, hlatest⟩ := h
    obtain ⟨m, rfl⟩ := Nat.exists_eq_add_of_lt hpos
    obtain ⟨k, d, -, hfrom⟩ := hlatest.holding.at_from
    obtain ⟨w, hto, hcloexec⟩ := hlatest.holding.at_to
    have htwo : 2 ≤ ui.fromPinentry := by
      have hzero : ui.fromPinentry ≠ 0 := by
        intro heq
        have hfree := hlatest.holding.free_from
        rw [heq] at hfree
        exact open_of_ttyname htty hfree
      have hne : ui.fromPinentry ≠ 1 := by
        intro heq
        have hfree := hlatest.holding.free_from
        rw [heq] at hfree hfrom
        rw [hone.mpr hfree] at hfrom
        cases hfrom
      omega
    refine ⟨ui.fromPinentry, htwo, hlatest.holding.free_from, ?_, fun fd hfd hne => ?_⟩
    · have hanswers := hlatest.answers
      rw [hfrom] at hanswers
      rw [ht ui.fromPinentry htwo, hfrom, Option.filter_some_pos rfl, hanswers]
      rfl
    · rw [Inherited, ht fd hfd]
      rcases eq_or_ne fd ui.toPinentry with rfl | hnt
      · rw [hto, hlatest.holding.free_to, Option.filter_none, Option.filter_some_neg]
        rw [hcloexec]
        rfl
      · rw [hlatest.holding.at_ne fd hne hnt]

/-- **The wiring of pinentry.**  Whatever is open at the start and however many objects were
constructed before: if there is a terminal and the earlier programs start, the next program is
executed with the right ends of two pipes of its own as 0 and 1, and with one end too many; if not,
then `main` reports it, or GravelBox waits for ever for a program that does not answer. -/
theorem pinentry_wired (hpipes : PipesNoTerminals env) (earlier : List Str) (os : Os Str Byte) :
    Ends (pinentryTable env earlier) os
      (fun r os' => env.ttyname os = true ∧ (∀ program ∈ earlier, env.starts program = true) ∧
        ∃ t, r.2 = some t ∧ Wired os os' r.1 t (os.pipes + 2 * earlier.length) ∧
          RestInherited os t earlier.length)
      (fun e _ => WiringFails env os earlier e) := by
  rw [pinentryTable, ends_bind]
  have hstart : Assigned env os os 0 none := ⟨rfl, rfl⟩
  refine (assignments_assigned hpipes earlier hstart).mono ?_ fun _ _ h => h
  rintro ui os₁ ⟨hstarts, hassigned⟩
  rw [Nat.zero_add] at hassigned
  have htty : env.ttyname os₁ = env.ttyname os := by
    cases ui with
    | none => rw [hassigned.2]
    | some ui => exact (hassigned.2.2.holding.ttyname hassigned.2.1).trans hassigned.2.1.symm
  refine (pinentrySpawn_spec hpipes os₁).mono ?_ fun e _ ⟨he, hfalse, _⟩ => ?_
  · rintro r os₂ ⟨htrue, htwo, t, ht, htable⟩
    obtain ⟨_, hto⟩ := htwo.at_toW
    obtain ⟨_, hfrom⟩ := htwo.at_fromR
    refine ⟨htty.symm.trans htrue, hstarts, t, ht, ⟨?_, ?_, ?_, ?_⟩,
      hassigned.rest_inherited htable.other⟩
    · rw [hto, ← hassigned.pipes]
      rfl
    · rw [htable.stdIn, hassigned.pipes]
    · rw [htable.stdOut, hassigned.pipes]
      simp only [hassigned.one]
    · rw [hfrom, ← hassigned.pipes]
      rfl
  · exact .inl ⟨he, htty.symm.trans hfalse⟩

/-- Terminals are what is no file and no pipe, and every program starts. -/
def terminalOnly : Surroundings where
  isTerminal
    | .other _ => true
    | _ => false
  starts _ := true
  refusal _ := none

/-- The table of the second pinentry of two, started from a terminal. -/
def secondTable : Table Str :=
  { slots := [some { file := .readEnd 2, append := false, description := 5, cloexec := false },
      some { file := .writeEnd 3, append := false, description := 8, cloexec := false },
      some { file := .other 0, append := false, description := 0, cloexec := false }, none, none,
      some { file := .readEnd 1, append := false, description := 3, cloexec := false },
      none, none, none] }

theorem secondTable_reached :
    ∃ os', (pinentryTable terminalOnly ["pinentry".toList]).run (atTerminal fun _ => none) =
      .ok ({ toR := 3, toW := 6, fromR := 7, fromW := 8 }, some secondTable) os' :=
  exists_of_run'_eq_some (by decide +kernel)

/-- The second program has the end that the answers of the first are read from as its
descriptor 5. -/
theorem second_wired :
    ∃ os', (pinentryTable terminalOnly ["pinentry".toList]).run (atTerminal fun _ => none) =
        .ok ({ toR := 3, toW := 6, fromR := 7, fromW := 8 }, some secondTable) os' ∧
      Wired (atTerminal fun _ => none) os' { toR := 3, toW := 6, fromR := 7, fromW := 8 }
        secondTable 2 ∧
      RestInherited (atTerminal fun _ => none) secondTable 1 := by
  obtain ⟨os', hrun⟩ := secondTable_reached
  refine ⟨os', hrun, ?_⟩
  have hpipes : PipesNoTerminals terminalOnly := fun _ => ⟨rfl, rfl⟩
  have hstart : (atTerminal fun _ => none).pipes = 0 := rfl
  generalize (atTerminal fun _ => none) = os at hrun hstart ⊢
  obtain ⟨-, -, t, ht, hwired, hrest⟩ := (pinentry_wired hpipes ["pinentry".toList] os).of_ok hrun
  cases ht
  rw [hstart] at hwired
  exact ⟨hwired, hrest⟩

end GravelBox
