/-
# The console

The program around `Pwd` (`ui/test.cpp`, lines 13 to 36) has a password set, and then reads queries
up to the end of the input.  The query `LOCK` locks the console until the password is entered.

On lines it is an automaton with three states, `ConsoleState.next`.  `console_iff` says that the
program ends if and only if the automaton does not end in the state in which the password is
still to be set or the console is locked, and that it shows what the automaton shows.
`password_hidden` says that this does not depend on the characters of the passwords.

The program reads in two ways, by characters for a password and by lines for a query, and only the
second notices the end of the input.  So whether it ends is decided by which of the two is under way
when the input is over; a last line without a line feed counts as input for the first, and as the
end for the second, whatever stands in it.

What makes this hard is the refinement: three loops in one another, each of which may not end,
against one function on a list of lines.  It is taken line by line, one pass of whichever loop is
under way for each (`runs_line`), and the end of the input is a case of its own (`runs_end`).

What is hidden is said with two runs: the same console, with the characters of all password lines
replaced by others, shows the same.  The line feed and DEL are not among the characters that can be
replaced, as they are not hidden: how often the user erases can be seen.

Not modelled: the message of `Usage` that goes to the error stream, and what the terminal echoes.
-/
import GravelBox.Ui.Pwd
import Mathlib.Data.List.TakeWhile
import Mathlib.Logic.Equiv.Basic

namespace GravelBox

open Loops

/-! ## 1. The source -/

def EXIT_SUCCESS : Int := 0

/-- The query that locks. -/
def LOCK : List UChar := [76, 79, 67, 75]

/-- `std::getline(std::cin, input)`: the line, and `std::cin.eof()` after it. -/
def Console.getline (c : Console) : List UChar × Bool × Console :=
  match c.input.dropWhile (· ≠ RETURN) with
  | [] => (c.input, true, { c with input := [] })
  | _ :: rest => (c.input.takeWhile (· ≠ RETURN), false, { c with input := rest })

/-- `Pwd::lock`. -/
def Pwd.lock (this : Pwd) : Bool × Pwd := (true, { this with locked := true })

/-- What is done for `LOCK`. -/
def lockQuery (fuel : Nat) : Pwd × Console → Option (Pwd × Console)
  | (user, c) =>
    let (locked, user) := user.lock
    if locked then
      (user.unlock fuel (c.print "***SUCCESSFULLY LOCKED***\n".toList)).map
        fun (unlocked, user, c) =>
          (user, if unlocked then c.print "***SUCCESSFULLY UNLOCKED***\n".toList else c)
    else some (user, c)

/-- One pass of the loop of `main`. -/
def queryPass (fuel : Nat) : Pwd × Console → Option (Pass (Pwd × Console) Console)
  | (user, c) =>
    let (input, eof, c) := (c.print "Enter query:\n".toList).getline
    if eof then some (.done (c.print "Shutting Down...\n".toList))
    else if input = LOCK then (lockQuery fuel (user, c)).map .again
    else some (.again (user, c))

/-- What `Usage` prints to the standard output. -/
def usage : Str :=
  "1. You must set a password at first.\n".toList ++
  "2. To lock the console: enter \"LOCK\"\n".toList ++
  "3. To shut down the console: enter <ctr-D>\n".toList

/-- `main`. -/
def consoleMain (fuel : Nat) (c : Console) : Option (Int × Console) := do
  let (user, c) ← Pwd.construct fuel (c.print usage)
  let c ← iterate queryPass fuel (user, c)
  return (EXIT_SUCCESS, c)

/-! ## 2. The automaton -/

/-- What the next line is taken for. -/
inductive ConsoleState
  | setting
  | query (pwd : List UChar)
  | locked (pwd : List UChar)
  deriving DecidableEq

/-- What is shown before a line is read. -/
def ConsoleState.prompt : ConsoleState → Str
  | .setting => "Set a password <= 100 characters:\n".toList
  | .query _ => "Enter query:\n".toList
  | .locked _ => "Enter your password to unlock:\n".toList

@[simp] theorem prompt_setting :
    ConsoleState.setting.prompt = "Set a password <= 100 characters:\n".toList := rfl

@[simp] theorem prompt_query (pwd : List UChar) :
    (ConsoleState.query pwd).prompt = "Enter query:\n".toList := rfl

@[simp] theorem prompt_locked (pwd : List UChar) :
    (ConsoleState.locked pwd).prompt = "Enter your password to unlock:\n".toList := rfl

/-- What a line does, and what is shown for it. -/
def ConsoleState.next (line : List UChar) : ConsoleState → ConsoleState × Str
  | .setting => (.query (edited line), echoes [] line ++ ['\n'])
  | .query pwd =>
    if line = LOCK then (.locked pwd, "***SUCCESSFULLY LOCKED***\n".toList) else (.query pwd, [])
  | .locked pwd =>
    if pwd = edited line then
      (.query pwd, echoes [] line ++ '\n' :: "***SUCCESSFULLY UNLOCKED***\n".toList)
    else (.locked pwd, echoes [] line ++ ['\n'])

/-- The state after some lines. -/
def ConsoleState.after (s : ConsoleState) (lines : List (List UChar)) : ConsoleState :=
  lines.foldl (fun s line => (s.next line).1) s

/-- What is shown up to the end of the lines. -/
def ConsoleState.shown : ConsoleState → List (List UChar) → Str
  | _, [] => []
  | s, line :: lines => s.prompt ++ (s.next line).2 ++ (s.next line).1.shown lines

/-- No password is to be entered. -/
def ConsoleState.Ready (s : ConsoleState) : Prop := ∃ pwd, s = .query pwd

/-! ## 3. One pass -/

theorem getline_line {line rest : List UChar} (hline : RETURN ∉ line) (output : Str) :
    Console.getline { input := line ++ RETURN :: rest, output := output } =
      (line, false, { input := rest, output := output }) := by
  have hkept : ∀ ch ∈ line, decide (ch ≠ RETURN) = true := by
    intro ch hch
    exact decide_eq_true fun heq => hline (heq ▸ hch)
  unfold Console.getline
  simp only [List.dropWhile_append_of_pos hkept, List.takeWhile_append_of_pos hkept]
  simp

theorem getline_end {input : List UChar} (h : RETURN ∉ input) (output : Str) :
    Console.getline { input := input, output := output } =
      (input, true, { input := [], output := output }) := by
  have hkept : input.dropWhile (· ≠ RETURN) = [] := by
    rw [List.dropWhile_eq_nil_iff]
    intro ch hch
    exact decide_eq_true fun heq => h (heq ▸ hch)
  unfold Console.getline
  rw [hkept]

/-- What `LOCK` does is the loop of `unlock`, with something shown before and after it. -/
theorem lockQuery_eq (fuel : Nat) (user : Pwd) (c : Console) :
    lockQuery fuel (user, c) =
      (iterate (unlockPass { user with locked := true }) fuel
        (c.print "***SUCCESSFULLY LOCKED***\n".toList)).map
          fun c' => ({ user with locked := false },
            c'.print "***SUCCESSFULLY UNLOCKED***\n".toList) := by
  simp only [lockQuery, Pwd.lock, Pwd.unlock, Option.map_map, if_true]
  rfl

theorem steady_lockQuery : Steady lockQuery := by
  rintro ⟨user, c⟩ r m n hle hrun
  rw [lockQuery_eq] at hrun ⊢
  obtain ⟨c', hloop, rfl⟩ := Option.map_eq_some_iff.mp hrun
  exact Option.map_eq_some_iff.mpr
    ⟨c', (steady_unlockPass _).iterate _ c' m n hle hloop, rfl⟩

/-- A pass, by what was read. -/
def queryRead (fuel : Nat) (user : Pwd) (read : List UChar × Bool × Console) :
    Option (Pass (Pwd × Console) Console) :=
  if read.2.1 = true then some (.done (read.2.2.print "Shutting Down...\n".toList))
  else if read.1 = LOCK then (lockQuery fuel (user, read.2.2)).map .again
  else some (.again (user, read.2.2))

theorem queryPass_eq (fuel : Nat) (user : Pwd) (c : Console) :
    queryPass fuel (user, c) = queryRead fuel user (c.print "Enter query:\n".toList).getline := rfl

theorem steady_queryPass : Steady queryPass := by
  rintro ⟨user, c⟩ pass m n hle hrun
  rw [queryPass_eq] at hrun ⊢
  generalize (c.print "Enter query:\n".toList).getline = read at hrun ⊢
  unfold queryRead at hrun ⊢
  by_cases heof : read.2.1 = true
  · rw [if_pos heof] at hrun ⊢
    exact hrun
  · rw [if_neg heof] at hrun ⊢
    by_cases hlock : read.1 = LOCK
    · rw [if_pos hlock] at hrun ⊢
      obtain ⟨r, hr, rfl⟩ := Option.map_eq_some_iff.mp hrun
      exact Option.map_eq_some_iff.mpr ⟨r, steady_lockQuery _ r m n hle hr, rfl⟩
    · rw [if_neg hlock] at hrun ⊢
      exact hrun

variable {user : Pwd} {line rest input : List UChar} {output : Str}

/-- A query at the end of the input. -/
theorem queryPass_end (h : RETURN ∉ input) :
    Returns queryPass (user, { input := input, output := output })
      (.done { input := [],
               output := output ++ "Enter query:\n".toList ++ "Shutting Down...\n".toList }) := by
  refine ⟨0, ?_⟩
  simp only [queryPass, Console.print, getline_end h]
  rfl

/-- A query that is not `LOCK`. -/
theorem queryPass_other (hline : RETURN ∉ line) (hlock : line ≠ LOCK) :
    Returns queryPass (user, { input := line ++ RETURN :: rest, output := output })
      (.again (user, { input := rest, output := output ++ "Enter query:\n".toList })) := by
  refine ⟨0, ?_⟩
  simp only [queryPass, Console.print, getline_line hline, if_neg hlock]
  rfl

/-- The query `LOCK`. -/
theorem queryPass_lock {pass : Pass (Pwd × Console) Console} :
    Returns queryPass (user, { input := LOCK ++ RETURN :: rest, output := output }) pass ↔
      ∃ c', Returns (iterate (unlockPass { user with locked := true }))
          { input := rest, output := output ++ "Enter query:\n".toList ++
              "***SUCCESSFULLY LOCKED***\n".toList } c' ∧
        .again ({ user with locked := false },
          c'.print "***SUCCESSFULLY UNLOCKED***\n".toList) = pass := by
  have hpass : ∀ fuel,
      queryPass fuel (user, { input := LOCK ++ RETURN :: rest, output := output }) =
        (lockQuery fuel (user, { input := rest
                                 output := output ++ "Enter query:\n".toList })).map .again := by
    intro fuel
    have hline : RETURN ∉ LOCK := by decide
    simp only [queryPass, Console.print, getline_line hline]
    rfl
  unfold Returns
  simp only [hpass, lockQuery_eq, Option.map_map, Option.map_eq_some_iff, Console.print]
  constructor
  · rintro ⟨fuel, c', hloop, heq⟩
    exact ⟨c', ⟨fuel, hloop⟩, heq⟩
  · rintro ⟨c', ⟨fuel, hloop⟩, heq⟩
    exact ⟨fuel, c', hloop, heq⟩

/-! ## 4. Line by line -/

theorem not_mem_of_completeLines_eq_nil (h : completeLines input = []) : RETURN ∉ input := by
  intro hmem
  obtain ⟨line, rest, rfl, hnot⟩ := List.eq_append_cons_of_mem hmem
  rw [completeLines_append hnot] at h
  cases h

theorem exists_of_completeLines_eq_cons {lines : List (List UChar)}
    (h : completeLines input = line :: lines) :
    ∃ rest, input = line ++ RETURN :: rest ∧ RETURN ∉ line ∧ completeLines rest = lines := by
  have hmem : RETURN ∈ input := by
    refine Decidable.byContradiction fun hnot => ?_
    rw [completeLines_of_not_mem hnot] at h
    cases h
  obtain ⟨line', rest, rfl, hnot⟩ := List.eq_append_cons_of_mem hmem
  rw [completeLines_append hnot] at h
  cases h
  exact ⟨rest, rfl, hnot, rfl⟩

/-- From the state `s` on, the program ends with `c'`: what is left of the loop of `unlock`, if it
is in there, and then the loop of `main`. -/
def ConsoleState.Runs (c c' : Console) : ConsoleState → Prop
  | .setting => ∃ r, Returns Pwd.construct c r ∧ Returns (iterate queryPass) r c'
  | .query pwd => Returns (iterate queryPass) ({ pwd := pwd, locked := false }, c) c'
  | .locked pwd => ∃ c₁, Returns (iterate (unlockPass { pwd := pwd, locked := true })) c c₁ ∧
      Returns (iterate queryPass) ({ pwd := pwd, locked := false },
        c₁.print "***SUCCESSFULLY UNLOCKED***\n".toList) c'

theorem steady_construct : Steady Pwd.construct :=
  steady_myGetpwd.map (fun c : Console => c.print "Set a password <= 100 characters:\n".toList) _

/-- The constructor reads one line. -/
theorem construct_line (hline : RETURN ∉ line) :
    Returns Pwd.construct { input := line ++ RETURN :: rest, output := output }
      ({ pwd := edited line, locked := false },
        { input := rest, output := output ++ "Set a password <= 100 characters:\n".toList ++
            echoes [] line ++ ['\n'] }) := by
  have hread := (@myGetpwd_returns_iff
    { input := line ++ RETURN :: rest
      output := output ++ "Set a password <= 100 characters:\n".toList } _).mpr
    ⟨line, rest, rfl, hline, rfl⟩
  exact (returns_map_iff (g := fun c : Console =>
    c.print "Set a password <= 100 characters:\n".toList)).mpr ⟨_, hread, rfl⟩

/-- A pass of `unlock` reads one line. -/
theorem unlockPass_line (hline : RETURN ∉ line) :
    Returns (unlockPass user) { input := line ++ RETURN :: rest, output := output }
      (unlockTry user (edited line,
        { input := rest, output := output ++ "Enter your password to unlock:\n".toList ++
            echoes [] line ++ ['\n'] })) :=
  unlockPass_returns_iff.mpr ⟨line, rest, rfl, hline, rfl⟩

/-- **One line** is one step of the automaton. -/
theorem runs_line (s : ConsoleState) (hline : RETURN ∉ line) {c' : Console} :
    s.Runs { input := line ++ RETURN :: rest, output := output } c' ↔
      (s.next line).1.Runs
        { input := rest, output := output ++ s.prompt ++ (s.next line).2 } c' := by
  cases s with
  | setting =>
    simp only [ConsoleState.Runs, ConsoleState.next, prompt_setting, ← List.append_assoc]
    constructor
    · rintro ⟨r, hr, hloop⟩
      rw [steady_construct.unique hr (construct_line hline)] at hloop
      exact hloop
    · intro hloop
      exact ⟨_, construct_line hline, hloop⟩
  | query pwd =>
    simp only [ConsoleState.Runs, ConsoleState.next, prompt_query]
    by_cases hlock : line = LOCK
    · subst hlock
      simp only [if_pos]
      rw [returns_iterate_iff steady_queryPass]
      simp only [queryPass_lock]
      constructor
      · rintro (⟨c₁, -, hpass⟩ | ⟨s', ⟨c₁, hloop, hpass⟩, hrest⟩)
        · cases hpass
        · cases hpass
          exact ⟨c₁, hloop, hrest⟩
      · rintro ⟨c₁, hloop, hrest⟩
        exact .inr ⟨_, ⟨c₁, hloop, rfl⟩, hrest⟩
    · simp only [if_neg hlock, List.append_nil]
      exact returns_iterate_again steady_queryPass (queryPass_other hline hlock)
  | locked pwd =>
    simp only [ConsoleState.Runs, ConsoleState.next, prompt_locked]
    have hpass : Returns (unlockPass { pwd := pwd, locked := true })
        { input := line ++ RETURN :: rest, output := output } _ := unlockPass_line hline
    rw [unlockTry] at hpass
    by_cases hpwd : pwd = edited line
    · rw [if_neg (not_not.mpr hpwd)] at hpass
      simp only [if_pos hpwd, returns_iterate_done (steady_unlockPass _) hpass, exists_eq_left,
        Console.print, List.append_assoc, List.singleton_append]
    · rw [if_pos hpwd] at hpass
      simp only [if_neg hpwd, ← List.append_assoc]
      exact exists_congr fun c₁ => and_congr_left fun _ =>
        returns_iterate_again (steady_unlockPass _) hpass

/-- **At the end of the input** the program ends if the automaton is ready for a query. -/
theorem runs_end (s : ConsoleState) (hinput : RETURN ∉ input) {c' : Console} :
    s.Runs { input := input, output := output } c' ↔ s.Ready ∧
      c' = { input := [], output := output ++ s.prompt ++ "Shutting Down...\n".toList } := by
  cases s with
  | setting =>
    refine iff_of_false ?_ ?_
    · rintro ⟨r, hr, -⟩
      exact hinput (construct_ends_iff.mp ⟨r, hr⟩)
    · rintro ⟨⟨pwd, hpwd⟩, -⟩
      cases hpwd
  | query pwd =>
    rw [and_iff_right ⟨pwd, rfl⟩]
    exact returns_iterate_done steady_queryPass (queryPass_end hinput)
  | locked pwd =>
    refine iff_of_false ?_ ?_
    · rintro ⟨c₁, hloop, -⟩
      have hmem := (unlockLoop_ends_iff rfl).mp ⟨c₁, hloop⟩
      rw [completeLines_of_not_mem hinput] at hmem
      exact List.not_mem_nil hmem
    · rintro ⟨⟨pwd', hpwd⟩, -⟩
      cases hpwd

/-- **All lines.** -/
theorem runs_iff {lines : List (List UChar)} (s : ConsoleState) {c c' : Console}
    (hlines : completeLines c.input = lines) :
    s.Runs c c' ↔ (s.after lines).Ready ∧
      c' = { input := [], output := c.output ++ s.shown lines ++ "Enter query:\n".toList ++
        "Shutting Down...\n".toList } := by
  obtain ⟨input, output⟩ := c
  induction lines generalizing s input output with
  | nil =>
    rw [runs_end s (not_mem_of_completeLines_eq_nil hlines)]
    refine and_congr_right ?_
    rintro ⟨pwd, rfl⟩
    simp only [prompt_query, ConsoleState.shown, List.append_nil]
  | cons line lines ih =>
    obtain ⟨rest, rfl, hnot, hrest⟩ := exists_of_completeLines_eq_cons hlines
    rw [runs_line s hnot, ih _ _ _ hrest]
    simp only [ConsoleState.after, ConsoleState.shown, List.foldl_cons, List.append_assoc]

/-- `main` is the constructor and then the loop. -/
theorem consoleMain_eq (fuel : Nat) (c : Console) :
    consoleMain fuel c = (Pwd.construct fuel (c.print usage)).bind fun s =>
      (iterate queryPass fuel s).map fun c => (EXIT_SUCCESS, c) := by
  unfold consoleMain
  refine bind_congr fun s => ?_
  obtain ⟨user, c'⟩ := s
  exact bind_pure_comp _ _

/-- It ends as the program does that sets the password first. -/
theorem consoleMain_returns_iff {c : Console} {r : Int × Console} :
    Returns consoleMain c r ↔
      ∃ c', ConsoleState.setting.Runs (c.print usage) c' ∧ (EXIT_SUCCESS, c') = r := by
  have hsteady : Steady fun fuel s =>
      (iterate queryPass fuel s).map fun c : Console => (EXIT_SUCCESS, c) :=
    steady_queryPass.iterate.map id _
  have hmap : ∀ s, Returns (fun fuel s =>
      (iterate queryPass fuel s).map fun c : Console => (EXIT_SUCCESS, c)) s r ↔
        ∃ c', Returns (iterate queryPass) s c' ∧ (EXIT_SUCCESS, c') = r :=
    fun s => returns_map_iff (g := id)
  have hmain : Returns consoleMain c r ↔ ∃ s, Returns Pwd.construct (c.print usage) s ∧
      Returns (fun fuel s =>
        (iterate queryPass fuel s).map fun c : Console => (EXIT_SUCCESS, c)) s r := by
    rw [← returns_bind_iff steady_construct hsteady]
    simp only [Returns, consoleMain_eq]
  rw [hmain]
  simp only [hmap, ConsoleState.Runs]
  constructor
  · rintro ⟨s, hs, c', hloop, rfl⟩
    exact ⟨c', ⟨s, hs, hloop⟩, rfl⟩
  · rintro ⟨c', ⟨s, hs, hloop⟩, rfl⟩
    exact ⟨s, hs, c', hloop, rfl⟩

/-- **The console.**  Whatever is on the standard input: the program ends if and only if the
automaton is ready for a query after the last complete line, and it shows what the automaton
shows; otherwise it waits for ever. -/
theorem console_iff (c : Console) (r : Int × Console) :
    Returns consoleMain c r ↔
      (ConsoleState.setting.after (completeLines c.input)).Ready ∧
        r = (EXIT_SUCCESS,
          { input := [], output := c.output ++ usage ++
              ConsoleState.setting.shown (completeLines c.input) ++ "Enter query:\n".toList ++
              "Shutting Down...\n".toList }) := by
  rw [consoleMain_returns_iff]
  simp only [runs_iff ConsoleState.setting rfl]
  constructor
  · rintro ⟨c', ⟨hready, rfl⟩, rfl⟩
    exact ⟨hready, rfl⟩
  · rintro ⟨hready, rfl⟩
    exact ⟨_, ⟨hready, rfl⟩, rfl⟩

/-! ## 5. What is not shown -/

section Hidden

variable (f : UChar → UChar)

/-- Other characters, but no two that are the same; a DEL and a line feed stay what they are. -/
structure Renaming : Prop where
  injective : Function.Injective f
  backspace : f BACKSPACE = BACKSPACE
  newline : f RETURN = RETURN

/-- Other characters in the password. -/
def ConsoleState.rename : ConsoleState → ConsoleState
  | .setting => .setting
  | .query pwd => .query (pwd.map f)
  | .locked pwd => .locked (pwd.map f)

/-- Other characters in a line that is taken for a password. -/
def ConsoleState.hideLine (line : List UChar) : ConsoleState → List UChar
  | .query _ => line
  | _ => line.map f

/-- Other characters wherever a password is entered. -/
def ConsoleState.hide : ConsoleState → List (List UChar) → List (List UChar)
  | _, [] => []
  | s, line :: lines => s.hideLine f line :: (s.next line).1.hide lines

/-- The complete lines of the input, with other characters in the passwords. -/
def Console.hide (c : Console) : Console :=
  { input := (ConsoleState.setting.hide f (completeLines c.input)).flatMap
      (fun line => line ++ [RETURN])
    output := c.output }

variable {f}

theorem Renaming.eq_backspace_iff (hf : Renaming f) {ch : UChar} :
    f ch = BACKSPACE ↔ ch = BACKSPACE := by
  constructor
  · intro h
    exact hf.injective (h.trans hf.backspace.symm)
  · rintro rfl
    exact hf.backspace

theorem Renaming.edit_map (hf : Renaming f) (password : List UChar) (ch : UChar) :
    edit (password.map f) (f ch) = (edit password ch).map f := by
  unfold edit
  by_cases h : ch = BACKSPACE
  · rw [if_pos h, if_pos (hf.eq_backspace_iff.mpr h), List.map_dropLast]
  · rw [if_neg h, if_neg (mt hf.eq_backspace_iff.mp h), List.map_append]
    rfl

theorem Renaming.foldl_edit_map (hf : Renaming f) (password line : List UChar) :
    (line.map f).foldl edit (password.map f) =
      (line.foldl edit password).map f := by
  induction line generalizing password with
  | nil => rfl
  | cons ch line ih => rw [List.map_cons, List.foldl_cons, hf.edit_map, ih, List.foldl_cons]

theorem Renaming.edited_map (hf : Renaming f) (line : List UChar) :
    edited (line.map f) = (edited line).map f := hf.foldl_edit_map [] line

theorem Renaming.echoes_map (hf : Renaming f) (password line : List UChar) :
    echoes (password.map f) (line.map f) = echoes password line := by
  induction line generalizing password with
  | nil => rfl
  | cons ch line ih =>
    rw [List.map_cons, echoes, echoes, hf.edit_map, ih]
    simp only [echo, hf.eq_backspace_iff, List.map_eq_nil_iff]

/-- **One line** with other characters. -/
theorem Renaming.next_rename (hf : Renaming f) (s : ConsoleState) (line : List UChar) :
    (s.rename f).next (s.hideLine f line) = ((s.next line).1.rename f, (s.next line).2) := by
  have hechoes : echoes [] (line.map f) = echoes [] line := hf.echoes_map [] line
  cases s with
  | setting =>
    simp only [ConsoleState.rename, ConsoleState.hideLine, ConsoleState.next, hf.edited_map,
      hechoes]
  | query pwd =>
    change (ConsoleState.query (pwd.map f)).next line = _
    by_cases hlock : line = LOCK
    · simp only [ConsoleState.next, if_pos hlock, ConsoleState.rename]
    · simp only [ConsoleState.next, if_neg hlock, ConsoleState.rename]
  | locked pwd =>
    simp only [ConsoleState.rename, ConsoleState.hideLine, ConsoleState.next, hf.edited_map,
      hechoes]
    have hinj : ∀ x y, f x = f y → x = y := fun _ _ h => hf.injective h
    by_cases hpwd : pwd = edited line
    · rw [if_pos hpwd, if_pos (congrArg (List.map f) hpwd)]
    · rw [if_neg hpwd, if_neg fun h => hpwd ((List.map_inj_right hinj).mp h)]

/-- **All lines** with other characters. -/
theorem Renaming.hide_spec (hf : Renaming f) (s : ConsoleState) (lines : List (List UChar)) :
    (s.rename f).after (s.hide f lines) = (s.after lines).rename f ∧
      (s.rename f).shown (s.hide f lines) = s.shown lines := by
  induction lines generalizing s with
  | nil => exact ⟨rfl, rfl⟩
  | cons line lines ih =>
    obtain ⟨hafter, hshown⟩ := ih (s.next line).1
    have hprompt : (s.rename f).prompt = s.prompt := by
      cases s with
      | setting => rfl
      | query pwd => rfl
      | locked pwd => rfl
    simp only [ConsoleState.after, ConsoleState.shown, ConsoleState.hide, List.foldl_cons,
      hf.next_rename, hprompt] at hafter hshown ⊢
    exact ⟨hafter, congrArg (s.prompt ++ (s.next line).2 ++ ·) hshown⟩

theorem Renaming.hideLine_mem_iff (hf : Renaming f) (s : ConsoleState) :
    RETURN ∈ s.hideLine f line ↔ RETURN ∈ line := by
  have hmap : RETURN ∈ line.map f ↔ RETURN ∈ line := by
    rw [List.mem_map]
    constructor
    · rintro ⟨ch, hch, heq⟩
      rw [← hf.injective (heq.trans hf.newline.symm)]
      exact hch
    · intro hmem
      exact ⟨RETURN, hmem, hf.newline⟩
  cases s with
  | setting => exact hmap
  | query pwd => exact Iff.rfl
  | locked pwd => exact hmap

/-- The lines of the input with other characters are the lines with other characters. -/
theorem Renaming.completeLines_hide (hf : Renaming f) (s : ConsoleState)
    {lines : List (List UChar)} (hlines : completeLines input = lines) :
    completeLines ((s.hide f lines).flatMap fun line => line ++ [RETURN]) = s.hide f lines := by
  induction lines generalizing s input with
  | nil => exact completeLines_of_not_mem List.not_mem_nil
  | cons line lines ih =>
    obtain ⟨rest, rfl, hnot, hrest⟩ := exists_of_completeLines_eq_cons hlines
    rw [ConsoleState.hide, List.flatMap_cons, List.append_assoc, List.singleton_append,
      completeLines_append (mt (hf.hideLine_mem_iff s).mp hnot), ih _ hrest]

theorem ready_rename_iff {s : ConsoleState} : (s.rename f).Ready ↔ s.Ready := by
  cases s with
  | setting => exact iff_of_false (by rintro ⟨_, ⟨⟩⟩) (by rintro ⟨_, ⟨⟩⟩)
  | query pwd => exact iff_of_true ⟨_, rfl⟩ ⟨_, rfl⟩
  | locked pwd => exact iff_of_false (by rintro ⟨_, ⟨⟩⟩) (by rintro ⟨_, ⟨⟩⟩)

/-- **Nothing of a password is shown** but where it is edited, and whether it is right: with
other characters in all the passwords that are entered the program ends just the same. -/
theorem password_hidden (hf : Renaming f) (c : Console) (r : Int × Console) :
    Returns consoleMain (c.hide f) r ↔ Returns consoleMain c r := by
  rw [consoleMain_returns_iff, consoleMain_returns_iff]
  have hlines : completeLines ((c.hide f).print usage).input =
      ConsoleState.setting.hide f (completeLines c.input) := hf.completeLines_hide _ rfl
  have hlines' : completeLines (c.print usage).input = completeLines c.input := rfl
  obtain ⟨hafter, hshown⟩ := hf.hide_spec .setting (completeLines c.input)
  change ConsoleState.setting.after _ = _ at hafter
  change ConsoleState.setting.shown _ = _ at hshown
  refine exists_congr fun c' => and_congr_left fun _ => ?_
  rw [runs_iff .setting hlines, runs_iff .setting hlines', hafter, ready_rename_iff, hshown]
  exact Iff.rfl

end Hidden

theorem swap_renaming : Renaming (Equiv.swap 97 98) :=
  ⟨(Equiv.swap 97 98).injective, by decide, by decide⟩

/-- The password is `ab` or `ba`, and the console is locked once. -/
theorem ab_hidden :
    Renaming (Equiv.swap 97 98) ∧ ∀ r,
      Returns consoleMain { input := [98, 97, 10, 76, 79, 67, 75, 10, 98, 97, 10]
                            output := [] } r ↔
        Returns consoleMain { input := [97, 98, 10, 76, 79, 67, 75, 10, 97, 98, 10]
                              output := [] } r := by
  refine ⟨swap_renaming, fun r => ?_⟩
  exact password_hidden swap_renaming
    { input := [97, 98, 10, 76, 79, 67, 75, 10, 97, 98, 10], output := [] } r

end GravelBox
