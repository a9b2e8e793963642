/-
# Which descriptors the target is executed with

`run` (`modules.cpp`, lines 19 to 48) constructs one `PinentryUI` or two, the second before the
first is destroyed, and then the target is spawned.  The files that were read are closed by then,
but a `PinentryUI` keeps two ends of its two pipes.  The one it writes to is closed by `exec`, the
one it reads from is not: so the target gets the end that GravelBox reads the answers of pinentry
from (`target_table`).

The slip is one letter long: the constructor (`ui/pinentry_ui.cpp`, lines 14 to 36) makes the pipe
to pinentry with `pipe2` and `O_CLOEXEC`, and the pipe from pinentry with `pipe`.  In the child for
pinentry all four ends are closed by hand; in the child for the target nobody closes anything.

What has to be followed is a table of descriptors through a sequence of constructions and
destructions, by their numbers: a pipe gets the lowest two that are free, the child's ends are
closed when the constructor returns, and the second object gets the numbers that the first has left
free.  `Holding` says which two ends an object has, `assignments_owned` that all ends in the table
are held by the object that is left, and that object has a readable end for the target to inherit
(`answers_readable`).

Not claimed: what a target can do with it.  It can read what pinentry answers before GravelBox
does; whether it gets to is a matter of scheduling.  A constructor that is not answered does not
return (`blocked`), and then there is no target.
-/
import GravelBox.Authorisation
import GravelBox.Trace.Redirect
import Mathlib.Tactic.IntervalCases

namespace GravelBox

open Stateful Posix

/-! ## 1. The constructor and the destructor -/

/-- The descriptors that the streams of a `PinentryUI` own. -/
structure UiFds where
  fromPinentry : Nat
  toPinentry : Nat
  deriving DecidableEq

def ENOTTY : Nat := 25

/-- `check(call)`: a call that fails throws a `system_error`. -/
def checked {α : Type} (call : Program Str Byte α) : EStateM Fault (Os Str Byte) α :=
  mapError .systemError call

/-- What the child does before it executes pinentry. -/
def pinentryInit (toR toW fromR fromW : Nat) : Program Str Byte Unit := do
  dup2 toR 0
  dup2 fromW 1
  closeAll [toR, toW, fromR, fromW]

/-- What else decides how a `PinentryUI` is constructed: which files are terminals, the programs
that accept the title, and the errors that some of the others answer. -/
structure Surroundings where
  isTerminal : File Str → Bool
  starts : Str → Bool
  refusal : Str → Option Str

/-- `ttyname(0)` is not null. -/
def Surroundings.ttyname (env : Surroundings) (os : Os Str Byte) : Bool :=
  (os.at 0).any fun e => env.isTerminal e.file

/-- `PinentryUI::PinentryUI`.  An exception closes the descriptors that were opened. -/
def PinentryUI.construct (env : Surroundings) (program : Str) :
    EStateM Fault (Os Str Byte) UiFds := do
  let (toR, toW) ← checked (pipe2 true)
  let (fromR, fromW) ← checked (pipe2 false)
  if env.ttyname (← get) = false then
    checked (closeAll [fromW, fromR, toW, toR])
    throw (.systemError ENOTTY)
  let _ ← checked (spawn (pinentryInit toR toW fromR fromW))
  if env.starts program = false then
    match env.refusal program with
    -- `fromW` is still open here, so that `getline` does not come to the end of the pipe
    | none => throw .blocked
    | some msg =>
      checked (closeAll [fromW, toR, fromR, toW])
      throw (.pinentryException msg)
  -- the guards of the two ends that were not moved
  checked (closeAll [fromW, toR])
  return { fromPinentry := fromR, toPinentry := toW }

/-- `PinentryUI::~PinentryUI`, as far as descriptors go. -/
def PinentryUI.destruct (ui : UiFds) : EStateM Fault (Os Str Byte) Unit :=
  checked (closeAll [ui.fromPinentry, ui.toPinentry])

/-- `ui = std::make_unique<PinentryUI>(program)`. -/
def assignUi (env : Surroundings) (ui : Option UiFds) (program : Str) :
    EStateM Fault (Os Str Byte) (Option UiFds) := do
  let new ← PinentryUI.construct env program
  match ui with
  | none => pure ()
  | some old => PinentryUI.destruct old
  return some new

/-- The programs that `run` constructed a `PinentryUI` of, in order. -/
def pinentries (log : List Use) : List Str :=
  log.filterMap fun
    | .pinentry program => some program
    | _ => none

/-- From the start to the target: the table that it is executed with. -/
def targetTable (env : Surroundings) (programs : List Str) (r : Redirections) :
    EStateM Fault (Os Str Byte) (Option (Table Str)) := do
  let _ ← programs.foldlM (assignUi env) none
  checked (spawn (childInit r))

/-! ## 2. What a `PinentryUI` holds -/

/-- Since `os₀` the table has grown by what a `PinentryUI` holds, and by nothing else. -/
structure Holding (os₀ os : Os Str Byte) (ui : UiFds) : Prop where
  free_from : os₀.at ui.fromPinentry = none
  free_to : os₀.at ui.toPinentry = none
  ne : ui.fromPinentry ≠ ui.toPinentry
  at_from : ∃ k d, os₀.pipes ≤ k ∧ os.at ui.fromPinentry =
    some { file := .readEnd k, append := false, description := d, cloexec := false }
  at_to : ∃ e, os.at ui.toPinentry = some e ∧ e.cloexec = true
  at_ne : ∀ n, n ≠ ui.fromPinentry → n ≠ ui.toPinentry → os.at n = os₀.at n
  pipes : os₀.pipes ≤ os.pipes

variable {env : Surroundings}

theorem ends_checked {α : Type} {call : Program Str Byte α} {os : Os Str Byte}
    {Q : α → Os Str Byte → Prop} {R : Fault → Os Str Byte → Prop} :
    Ends (checked call) os Q R ↔ Ends call os Q fun code os' => R (.systemError code) os' :=
  ends_mapError

/-- Two descriptors that are open are closed, and nothing else changes. -/
theorem closeAll_two {os : Os Str Byte} {a b : Nat} :
    Ends (closeAll [a, b]) os
      (fun _ os' => (∀ n, os'.at n = if n = a ∨ n = b then none else os.at n) ∧
        os'.pipes = os.pipes) (fun _ _ => True) := by
  simp only [closeAll, ends_bind, ends_close, ends_pure, Os.set_pipes]
  refine ⟨fun _ => ⟨fun _ => ⟨fun n => ?_, trivial⟩, fun _ => trivial⟩, fun _ => trivial⟩
  rw [Os.at_set, Os.at_set]
  by_cases hb : n = b
  · rw [if_pos hb, if_pos (.inr hb)]
  · by_cases ha : n = a
    · rw [if_neg hb, if_pos ha, if_pos (.inl ha)]
    · rw [if_neg hb, if_neg ha, if_neg (not_or.mpr ⟨ha, hb⟩)]

/-- A child does not change the table of its parent. -/
theorem spawn_pinentry (os : Os Str Byte) (toR toW fromR fromW : Nat) :
    Ends (spawn (pinentryInit toR toW fromR fromW)) os
      (fun _ os' => (∀ n, os'.at n = os.at n) ∧ os'.pipes = os.pipes) (fun _ _ => True) := by
  have hchild : Ends (pinentryInit toR toW fromR fromW) os (fun _ os' => os'.pipes = os.pipes)
      (fun _ os' => os'.pipes = os.pipes) := by
    rw [pinentryInit, ends_bind]
    refine (dup2_pipes os toR 0).mono (fun _ os₁ h₁ => ?_) fun _ _ h => h
    rw [ends_bind]
    refine (dup2_pipes os₁ fromW 1).mono (fun _ os₂ h₂ => ?_) fun _ _ h => h.trans h₁
    refine (closeAll_pipes os₂ _).mono (fun _ _ h => ?_) fun _ _ h => ?_
    · exact h.trans (h₂.trans h₁)
    · exact h.trans (h₂.trans h₁)
  simp only [spawn, ends_bind, ends_fork, ends_exec]
  exact hchild.mono (fun _ _ h => ⟨fun _ => rfl, h⟩) fun _ _ h => ⟨fun _ => rfl, h⟩

/-- Two pipes, of which one end each was closed again. -/
theorem holding_of_piped {os os₁ os₂ os' : Os Str Byte} {toR toW fromR fromW : Nat}
    (hto : Piped os os₁ true toR toW) (hfrom : Piped os₁ os₂ false fromR fromW)
    (hat : ∀ n, os'.at n = if n = fromW ∨ n = toR then none else os₂.at n)
    (hpipes : os'.pipes = os₂.pipes) :
    Holding os os' { fromPinentry := fromR, toPinentry := toW } := by
  -- an end of the first pipe was open when the second was made
  have hopen : ∀ {fd e fd'}, os₁.at fd = some e → os₁.at fd' = none → fd ≠ fd' := by
    rintro fd e _ hfd hfd' rfl
    rw [hfd] at hfd'
    cases hfd'
  have hrr := hopen hto.at_r hfrom.free_r
  have hrw := hopen hto.at_r hfrom.free_w
  have hwr := hopen hto.at_w hfrom.free_r
  have hww := hopen hto.at_w hfrom.free_w
  refine ⟨?_, hto.free_w, hwr.symm, ?_, ?_, fun n hnr hnw => ?_, ?_⟩
  · rw [← hto.at_ne fromR hrr.symm hwr.symm]
    exact hfrom.free_r
  · refine ⟨os₁.pipes, os₁.descriptions, ?_, ?_⟩
    · rw [hto.pipes]
      exact Nat.le_succ _
    · rw [hat, if_neg (not_or.mpr ⟨hfrom.ne, hrr.symm⟩)]
      exact hfrom.at_r
  · have hkept := (hat toW).trans (if_neg (not_or.mpr ⟨hww, hto.ne.symm⟩))
    exact ⟨_, hkept.trans ((hfrom.at_ne toW hwr hww).trans hto.at_w), rfl⟩
  · rw [hat]
    split
    · rename_i hn
      rcases hn with rfl | rfl
      · rw [← hto.at_ne n hrw.symm hnw]
        exact hfrom.free_w.symm
      · exact hto.free_r.symm
    · rename_i hn
      obtain ⟨hn, hn'⟩ := not_or.mp hn
      rw [hfrom.at_ne n hnr hn, hto.at_ne n hn' hnw]
  · rw [hpipes, hfrom.pipes, hto.pipes]
    omega

/-- **The constructor** adds what the object holds. -/
theorem construct_holding (os : Os Str Byte) (program : Str) :
    Ends (PinentryUI.construct env program) os (fun ui os' => Holding os os' ui)
      (fun _ _ => True) := by
  rw [PinentryUI.construct, ends_bind, ends_checked]
  refine (pipe2_spec os true).mono ?_ fun _ _ h => h.elim
  rintro ⟨toR, toW⟩ os₁ hto
  rw [ends_bind, ends_checked]
  refine (pipe2_spec os₁ false).mono ?_ fun _ _ h => h.elim
  rintro ⟨fromR, fromW⟩ os₂ hfrom
  simp only at hto hfrom ⊢
  rw [ends_bind, ends_get]
  by_cases htty : env.ttyname os₂ = false
  · rw [if_pos htty]
    exact ends_bind_throw
  rw [if_neg htty, ends_bind, ends_checked]
  refine (spawn_pinentry os₂ toR toW fromR fromW).mono ?_ fun _ _ h => h
  rintro _ os₃ ⟨hat₃, hpipes₃⟩
  by_cases hstarts : env.starts program = false
  · rw [if_pos hstarts]
    cases env.refusal program with
    | none => exact trivial
    | some msg => exact ends_bind_throw
  rw [if_neg hstarts, ends_bind, ends_checked]
  refine closeAll_two.mono ?_ fun _ _ h => h
  rintro _ os₄ ⟨hat₄, hpipes₄⟩
  refine holding_of_piped hto hfrom (fun n => ?_) (hpipes₄.trans hpipes₃)
  rw [hat₄, hat₃]

/-- What is held is closed by the destructor; what a later object holds is not. -/
theorem Holding.destruct {os₀ os os' os'' : Os Str Byte} {old new : UiFds}
    (hold : Holding os₀ os old) (hnew : Holding os os' new)
    (hat : ∀ n, os''.at n = if n = old.fromPinentry ∨ n = old.toPinentry then none else os'.at n)
    (hpipes : os''.pipes = os'.pipes) : Holding os₀ os'' new := by
  obtain ⟨k, d, hk, hfrom⟩ := hnew.at_from
  obtain ⟨e, hto, hcloexec⟩ := hnew.at_to
  obtain ⟨k', d', -, hfrom'⟩ := hold.at_from
  obtain ⟨e', hto', -⟩ := hold.at_to
  -- what the old object held was not free when the new one was constructed
  have hfree : ∀ n, os.at n = none → n ≠ old.fromPinentry ∧ n ≠ old.toPinentry := by
    intro n hn
    constructor
    · rintro rfl
      rw [hfrom'] at hn
      cases hn
    · rintro rfl
      rw [hto'] at hn
      cases hn
  obtain ⟨hff, hft⟩ := hfree _ hnew.free_from
  obtain ⟨htf, htt⟩ := hfree _ hnew.free_to
  refine ⟨?_, ?_, hnew.ne, ⟨k, d, Nat.le_trans hold.pipes hk, ?_⟩, ⟨e, ?_, hcloexec⟩,
    fun n hnf hnt => ?_, ?_⟩
  · rw [← hold.at_ne _ hff hft]
    exact hnew.free_from
  · rw [← hold.at_ne _ htf htt]
    exact hnew.free_to
  · rw [hat, if_neg (not_or.mpr ⟨hff, hft⟩)]
    exact hfrom
  · rw [hat, if_neg (not_or.mpr ⟨htf, htt⟩)]
    exact hto
  · rw [hat]
    split
    · rename_i hn
      rcases hn with rfl | rfl
      · exact hold.free_from.symm
      · exact hold.free_to.symm
    · rename_i hn
      obtain ⟨hn, hn'⟩ := not_or.mp hn
      rw [hnew.at_ne n hnf hnt, hold.at_ne n hn hn']
  · rw [hpipes]
    exact Nat.le_trans hold.pipes hnew.pipes

/-! ## 3. The sequence that `run` makes -/

/-- What the pointer `ui` owns. -/
def Owned (os₀ os : Os Str Byte) : Option UiFds → Prop
  | none => os = os₀
  | some ui => Holding os₀ os ui

/-- **One assignment** to `ui`. -/
theorem assignUi_owned {os₀ os : Os Str Byte} {ui : Option UiFds} (h : Owned os₀ os ui)
    (program : Str) :
    Ends (assignUi env ui program) os (fun ui' os' => ∃ new, ui' = some new ∧ Holding os₀ os' new)
      (fun _ _ => True) := by
  rw [assignUi, ends_bind]
  refine (construct_holding os program).mono (fun new os₁ hnew => ?_) fun _ _ h => h
  cases ui with
  | none =>
    obtain rfl : os = os₀ := h
    exact ⟨new, rfl, hnew⟩
  | some old =>
    rw [ends_bind, PinentryUI.destruct, ends_checked]
    refine closeAll_two.mono ?_ fun _ _ h => h
    rintro _ os₂ ⟨hat, hpipes⟩
    exact ⟨new, rfl, Holding.destruct h hnew hat hpipes⟩

/-- **The whole sequence**: in the end there is one object, unless there never was one. -/
theorem assignments_owned (programs : List Str) {os₀ os : Os Str Byte} {ui : Option UiFds}
    (h : Owned os₀ os ui) :
    Ends (programs.foldlM (assignUi env) ui) os
      (fun ui' os' => Owned os₀ os' ui' ∧ (ui' = none → programs = [] ∧ ui = none))
      (fun _ _ => True) := by
  induction programs generalizing os ui with
  | nil => exact ⟨h, fun hnone => ⟨rfl, hnone⟩⟩
  | cons program programs ih =>
    rw [List.foldlM_cons, ends_bind]
    refine (assignUi_owned h program).mono ?_ fun _ _ h => h
    rintro _ os₁ ⟨new, rfl, hnew⟩
    refine (@ih os₁ (some new) hnew).mono ?_ fun _ _ h => h
    rintro ui' os₂ ⟨howned, hnone⟩
    exact ⟨howned, fun h' => absurd (hnone h').2 (Option.some_ne_none new)⟩

/-! ## 4. The table of the target -/

/-- 0, 1 and 2 are open. -/
def StandardOpen (os : Os Str Byte) : Prop := ∀ n < 3, os.at n ≠ none

/-- What `exec` leaves of a descriptor. -/
def Inherited (os : Os Str Byte) (t : Table Str) (n : Nat) : Prop :=
  t.get n = (os.at n).filter fun e => !e.cloexec

/-- A descriptor is the inherited one, or the file it is redirected to. -/
def RedirectedOr (os : Os Str Byte) (t : Table Str) (path : Str) (n : Nat) : Prop :=
  if path = "-".toList then Inherited os t n else ∃ e, t.get n = some e ∧ e.file = .path path

/-- 0, 1 and 2 are the inherited or the redirected files. -/
structure StandardRight (r : Redirections) (os : Os Str Byte) (t : Table Str) : Prop where
  stdIn : RedirectedOr os t r.stdIn 0
  stdOut : RedirectedOr os t r.stdOut 1
  stdErr : RedirectedOr os t r.stdErr 2

/-- There is no end of a pipe in the table that was made since `os`. -/
def NoPinentryEnd (os : Os Str Byte) (t : Table Str) : Prop :=
  ∀ fd e k, t.get fd = some e → os.pipes ≤ k → e.file ≠ .readEnd k ∧ e.file ≠ .writeEnd k

/-- What a redirection came to is still there after `exec`. -/
theorem Redirected.exec {os₀ os os' : Os Str Byte} {path : Str} {flags : Flags} {n : Nat}
    (h : Redirected os os' path flags n) (hsame : os.at n = os₀.at n) (hopen : os₀.at n ≠ none) :
    RedirectedOr os₀ os'.table.exec path n := by
  unfold RedirectedOr
  rcases h with ⟨hpath, heq⟩ | ⟨hpath, ⟨e, he⟩ | ⟨hnone, -⟩⟩
  · rw [if_pos hpath, Inherited, ← hsame, ← heq]
    exact os'.table.get_exec n
  · rw [if_neg hpath]
    exact ⟨e, he.exec, he.file⟩
  · exact absurd (hsame.symm.trans hnone) hopen

/-- **The table that the target is executed with**: 0, 1 and 2 are right, and so is everything
that was open before; but there is one end of a pipe more. -/
theorem target_table {programs : List Str} (hne : programs ≠ []) (r : Redirections)
    {os : Os Str Byte} (hopen : StandardOpen os) :
    Ends (targetTable env programs r) os
      (fun table _ => ∀ t, table = some t → StandardRight r os t ∧
        ∃ fd e k, 3 ≤ fd ∧ os.at fd = none ∧ t.get fd = some e ∧ os.pipes ≤ k ∧
          e.file = .readEnd k ∧
          ∀ n, 3 ≤ n → n ≠ fd → Inherited os t n)
      (fun _ _ => True) := by
  rw [targetTable, ends_bind]
  refine (@assignments_owned env programs os os none rfl).mono ?_ fun _ _ h => h
  rintro ui os₁ ⟨howned, hnone⟩
  cases ui with
  | none => exact absurd (hnone rfl).1 hne
  | some ui =>
    have hhold : Holding os os₁ ui := howned
    obtain ⟨k, d, hk, hfrom⟩ := hhold.at_from
    obtain ⟨w, hw, hwcloexec⟩ := hhold.at_to
    have hge : ∀ fd, os.at fd = none → 3 ≤ fd := by
      intro fd hfd
      by_contra hlt
      exact hopen fd (by omega) hfd
    have hsame : ∀ n < 3, os₁.at n = os.at n := by
      intro n hn
      have hf := hge _ hhold.free_from
      have ht := hge _ hhold.free_to
      exact hhold.at_ne n (by omega) (by omega)
    simp only [spawn, ends_checked, ends_bind, ends_fork, ends_exec]
    refine (childInit_spec r os₁).mono (fun _ os₂ hprep => ?_) fun _ _ _ t ht => by cases ht
    rintro t ⟨⟩
    have hget : ∀ n, 3 ≤ n → os₂.table.exec.get n = (os₁.at n).filter fun e => !e.cloexec := by
      intro n hn
      rw [← hprep.at_ge n hn]
      exact os₂.table.get_exec n
    refine ⟨⟨hprep.stdIn.exec (hsame 0 (by decide)) (hopen 0 (by decide)),
      hprep.stdOut.exec (hsame 1 (by decide)) (hopen 1 (by decide)),
      hprep.stdErr.exec (hsame 2 (by decide)) (hopen 2 (by decide))⟩,
      ui.fromPinentry, { file := .readEnd k, append := false, description := d, cloexec := false },
      k, hge _ hhold.free_from, hhold.free_from, ?_, hk, rfl, ?_⟩
    · rw [hget _ (hge _ hhold.free_from), hfrom, Option.filter_some_pos]
      rfl
    · intro n hn hne
      rw [Inherited, hget n hn]
      rcases eq_or_ne n ui.toPinentry with rfl | hnt
      · rw [hw, hhold.free_to, Option.filter_some_neg, Option.filter_none]
        rw [hwcloexec]
        rfl
      · rw [hhold.at_ne n hne hnt]

/-! ## 5. The target that `run` starts -/

section Launch

variable {Re : Type} {lib : Libraries Re} {env : Environment}

/-- The programs that a `PinentryUI` is constructed of up to the question for the key. -/
def asking (opts : Options) : List Str :=
  match opts.pinentry with
  | some program => [program]
  | none => if opts.noSignature = true then [] else ["pinentry".toList]

/-- All that one is constructed of. -/
def constructed (opts : Options) (configured : Str) : List Str :=
  asking opts ++ if opts.pinentry = none then [configured] else []

theorem constructed_ne_nil (opts : Options) (configured : Str) :
    constructed opts configured ≠ [] := by
  unfold constructed
  by_cases hp : opts.pinentry = none
  · rw [if_pos hp]
    exact List.append_ne_nil_of_right_ne_nil _ (List.cons_ne_nil _ _)
  · obtain ⟨program, hprogram⟩ := Option.ne_none_iff_exists'.mp hp
    rw [asking, hprogram]
    exact List.append_ne_nil_of_left_ne_nil (List.cons_ne_nil _ _) _

theorem pinentries_record (l : Launch Re) (use : Use) :
    pinentries (l.record use).log = pinentries l.log ++ pinentries [use] :=
  List.filterMap_append

/-- Verifying a key constructs nothing. -/
theorem verifyKey_pinentries {key : Str} {programs : List Str} {l : Launch Re}
    (h : pinentries l.log = programs) :
    Ends (verifyKey lib env key) l
      (fun b l' => if b = true then pinentries l'.log = programs else pinentries l'.log = programs)
      (fun _ l' => pinentries l'.log = programs) := by
  simp only [verifyKey, ends_bind, ends_zoom]
  refine ends_of_forall (fun b c => ?_) fun _ _ => h
  cases b with
  | false => exact h
  | true => exact (pinentries_record _ _).trans ((List.append_nil _).trans h)

theorem authorise_pinentries {opts : Options} {s : Session (Launch Re)}
    (h : pinentries s.inner.log = opts.pinentry.toList) :
    Ends (authorise lib env opts) s (fun _ s' => pinentries s'.inner.log = asking opts)
      (fun _ _ => True) := by
  have hask : ∀ {message prompt again : Str} {s : Session (Launch Re)},
      pinentries s.inner.log = asking opts →
      Ends (askUntil message prompt again (verifyKey lib env)) s
        (fun _ s' => pinentries s'.inner.log = asking opts) (fun _ _ => True) := by
    intro message prompt again s h
    refine (askUntil_ends (I := fun l : Launch Re => pinentries l.log = asking opts)
      (J := fun l : Launch Re => pinentries l.log = asking opts)
      (fun key l hl => verifyKey_pinentries hl) h).mono (fun b s' hs' => ?_) fun _ _ _ => trivial
    cases b with
    | false => exact hs'
    | true => exact hs'
  unfold authorise
  unfold asking at hask ⊢
  cases hp : opts.pinentry with
  | some program =>
    rw [hp] at h hask
    by_cases hsig : opts.noSignature = true
    · rw [if_pos hsig]
      exact h
    · rw [if_neg hsig, if_neg (Option.some_ne_none program)]
      exact hask h
  | none =>
    rw [hp] at h hask
    by_cases hsig : opts.noSignature = true
    · rw [if_pos hsig]
      simp only [if_pos hsig]
      exact h
    · simp only [if_neg hsig] at hask ⊢
      rw [if_pos trivial, ends_bind, withoutUser, ends_zoom]
      refine (startPinentry_makes (P := fun l => pinentries l.log = ["pinentry".toList]) ?_).mono
        (fun _ l hl => hask hl) fun _ _ _ => trivial
      rw [pinentries_record, h]
      rfl

/-- The last construction, if there is one. -/
theorem makeTracer_pinentries {opts : Options} {l : Launch Re}
    (h : pinentries l.log = asking opts) :
    Ends (makeTracer lib env opts) l
      (fun r l' => pinentries l'.log = constructed opts r.2.pinentry) (fun _ _ => True) := by
  have hparser : ∀ {l' : Launch Re}, pinentries l'.log = constructed opts l.config.pinentry →
      Ends (makeParser lib env l.config.syscalldef >>= fun parser => pure (parser, l.config)) l'
        (fun r l' => pinentries l'.log = constructed opts r.2.pinentry) (fun _ _ => True) := by
    intro l' hl'
    rw [ends_bind]
    refine (makeParser_makes
      (P := fun l' => pinentries l'.log = constructed opts l.config.pinentry) ?_).mono
      (fun _ _ hl => hl) fun _ _ _ => trivial
    exact (pinentries_record _ _).trans ((List.append_nil _).trans hl')
  simp only [makeTracer, ends_bind, ends_get]
  unfold constructed at hparser ⊢
  by_cases hp : opts.pinentry = none
  · simp only [if_pos hp] at hparser ⊢
    rw [ends_bind]
    refine (startPinentry_makes
      (P := fun l' => pinentries l'.log = asking opts ++ [l.config.pinentry]) ?_).mono
      (fun _ l' hl' => hparser hl') fun _ _ _ => trivial
    rw [pinentries_record, h]
    rfl
  · simp only [if_neg hp, List.append_nil] at hparser ⊢
    exact hparser h

/-- **What `run` constructs**, once it gets to the tracer. -/
theorem launch_pinentries {opts : Options} {s : Session (Launch Re)} (h : s.inner.log = []) :
    Ends (launch lib env opts) s
      (fun r s' => ∀ p c', r = some (p, c') →
        pinentries s'.inner.log = constructed opts c'.pinentry) (fun _ _ => True) := by
  have hopen : Ends (openPinentry env opts) s
      (fun _ s' => pinentries s'.inner.log = opts.pinentry.toList) (fun _ _ => True) := by
    unfold openPinentry
    cases hp : opts.pinentry with
    | none =>
      rw [ends_pure, h]
      rfl
    | some program =>
      simp only [withoutUser, ends_zoom]
      refine (startPinentry_makes (P := fun l => pinentries l.log = [program]) ?_).mono
        (fun _ _ hl => hl) fun _ _ _ => trivial
      rw [pinentries_record, h]
      rfl
  rw [launch, ends_bind]
  refine hopen.mono ?_ fun _ _ h => h
  intro _ s₁ h₁
  rw [ends_bind]
  refine (authorise_pinentries h₁).mono ?_ fun _ _ h => h
  intro authorised s₂ h₂
  cases authorised with
  | false => exact fun p c' hr => by cases hr
  | true =>
    rw [if_neg Bool.noConfusion, ends_bind, withoutUser, ends_zoom]
    refine (makeTracer_pinentries h₂).mono ?_ fun _ _ _ => trivial
    rintro r l' hl' p c' ⟨⟩
    exact hl'

/-- **The target gets a pinentry descriptor.**  However `run` gets to the tracer, and whatever
is open when it starts and redirected: the table that the target is executed with has an end of
a pipe to or from pinentry, or 0, 1 and 2 are not right. -/
theorem pinentry_inherited {opts : Options} {user : User} {p : Parser} {c' : FileConfig Re}
    {s : Session (Launch Re)} (hrun : run lib env opts user = .ok (.ok (some (p, c')) s))
    (isTerminal : File Str → Bool) (refusal : Str → Option Str) (r : Redirections)
    {os os' : Os Str Byte} {t : Table Str} (hopen : StandardOpen os)
    (hexec : (targetTable { isTerminal := isTerminal, starts := env.starts, refusal := refusal }
      (pinentries s.inner.log) r).run os = .ok (some t) os') :
    ¬ (NoPinentryEnd os t ∧ StandardRight r os t) := by
  rintro ⟨hno, -⟩
  have hprograms : pinentries s.inner.log ≠ [] := by
    unfold run at hrun
    cases hread : FileConfig.read lib env.files opts.config with
    | error f =>
      rw [hread] at hrun
      cases hrun
    | ok c =>
      rw [hread] at hrun
      have hlaunch : Ends (launch lib env opts)
          { inner := { config := c, log := [] }, user := user } _ _ := launch_pinentries rfl
      rw [hlaunch.of_ok (Except.ok.inj hrun) p c' rfl]
      exact constructed_ne_nil opts c'.pinentry
  obtain ⟨-, fd, e, k, -, -, hget, hk, hfile, -⟩ :=
    (target_table hprograms r hopen).of_ok hexec t rfl
  exact (hno fd e k hget hk).1 hfile

end Launch

/-- The user names no pinentry program: one is started to ask for the key, and then the
configured one. -/
def twoPinentries : Options := { launchOptions with pinentry := none }

theorem twoPinentries_ready : Ready launchLib launchEnv twoPinentries launchConfig
    { target := 0, syscallMap := ∅ } where
  chosen _ h := nomatch h
  asking _ _ := rfl
  configured _ := rfl
  definitions := rfl

theorem twoPinentries_reaches :
    ∃ p c' s, run launchLib launchEnv twoPinentries launchUser = .ok (.ok (some (p, c')) s) ∧
      pinentries s.inner.log = ["pinentry".toList, "pinentry-gtk".toList] := by
  have hread : FileConfig.read launchLib launchEnv.files twoPinentries.config =
      .ok launchConfig := launchConfig_read
  have hauth : Authorised launchLib launchEnv twoPinentries launchConfig launchUser :=
    .inr ⟨"key".toList, List.mem_cons_of_mem _ (List.mem_singleton_self _), launchMac_signs⟩
  obtain ⟨c', hreaches⟩ := reaches_of_ready hread hauth twoPinentries_ready
  have hsame : c'.pinentry = "pinentry-gtk".toList := (hreaches.granted hread).1.same.1
  obtain ⟨s, hrun⟩ := hreaches
  refine ⟨_, c', s, hrun, ?_⟩
  rw [run_of_read hread] at hrun
  have hlaunch : Ends (launch launchLib launchEnv twoPinentries)
      { inner := { config := launchConfig, log := [] }, user := launchUser } _ _ :=
    launch_pinentries rfl
  rw [hlaunch.of_ok (Except.ok.inj hrun) _ c' rfl, hsame]
  rfl

/-- Nothing is redirected. -/
def inheritAll : Redirections :=
  { stdIn := ['-'], stdOut := ['-'], appendStdout := false, stdErr := ['-']
    appendStderr := false }

/-- Everything is a terminal, and every program starts. -/
def anyTerminal : Surroundings :=
  { isTerminal := fun _ => true, starts := fun _ => true, refusal := fun _ => none }

/-- The table of the target, started from a terminal. -/
def leakedTable : Table Str :=
  { slots := List.replicate 3 (some { file := .other 0, append := false, description := 0
                                      cloexec := false }) ++
      [none, none, none, none, some { file := .readEnd 3, append := false, description := 7
                                      cloexec := false }, none] }

theorem leakedTable_reached :
    ∃ os', (targetTable anyTerminal ["pinentry".toList, "pinentry-gtk".toList] inheritAll).run
      (atTerminal fun _ => none) = .ok (some leakedTable) os' :=
  exists_of_run'_eq_some (by decide +kernel)

/-- The start, the launch and the target of this example. -/
theorem leakedTable_launched :
    ∃ p c' s os', run launchLib launchEnv twoPinentries launchUser = .ok (.ok (some (p, c')) s) ∧
      (targetTable anyTerminal (pinentries s.inner.log) inheritAll).run (atTerminal fun _ => none) =
        .ok (some leakedTable) os' := by
  obtain ⟨p, c', s, hrun, hprograms⟩ := twoPinentries_reaches
  obtain ⟨os', hexec⟩ := leakedTable_reached
  rw [← hprograms] at hexec
  exact ⟨p, c', s, os', hrun, hexec⟩

theorem atTerminal_open : StandardOpen (atTerminal fun _ => none) := by
  intro n hn
  interval_cases n
  · exact Option.some_ne_none _
  · exact Option.some_ne_none _
  · exact Option.some_ne_none _

/-- Two pinentry programs are started before the target. -/
theorem two_pinentries_inherited :
    StandardOpen (atTerminal fun _ => none) ∧
      ¬ (NoPinentryEnd (atTerminal fun _ => none) leakedTable ∧
        StandardRight inheritAll (atTerminal fun _ => none) leakedTable) := by
  obtain ⟨p, c', s, os', hrun, hexec⟩ := leakedTable_launched
  exact ⟨atTerminal_open,
    pinentry_inherited hrun (fun _ => true) (fun _ => none) inheritAll atTerminal_open hexec⟩

/-- **The target can read the answers of pinentry**: the end of the pipe that GravelBox reads
them from is its descriptor 7. -/
theorem answers_readable :
    ∃ p c' s os', run launchLib launchEnv twoPinentries launchUser = .ok (.ok (some (p, c')) s) ∧
      StandardOpen (atTerminal fun _ => none) ∧
      (targetTable anyTerminal (pinentries s.inner.log) inheritAll).run (atTerminal fun _ => none) =
        .ok (some leakedTable) os' ∧
      (leakedTable.get 7).map Entry.file = some (.readEnd 3) ∧
      ¬ NoPinentryEnd (atTerminal fun _ => none) leakedTable := by
  obtain ⟨p, c', s, os', hrun, hexec⟩ := leakedTable_launched
  refine ⟨p, c', s, os', hrun, atTerminal_open, hexec, rfl, fun hno => ?_⟩
  exact (hno 7 _ 3 rfl (Nat.zero_le 3)).1 rfl

end GravelBox
