/-
# The password at the console

`my_getpwd` (`ui/pwd.cpp`, lines 27 to 46) reads characters up to a line feed; a DEL takes the last
one back.  At the end of the input `getchar` returns -1, which is narrowed to the character 255:
that is no line feed, and the loop goes on with it for ever.  So `my_getpwd` and `Pwd::Pwd` return
if and only if there is a line feed, and `Pwd::unlock` if and only if one of the complete lines is
the password (`line_editing_iff`).

A string can be as long as the memory has room for; here there is always more.  A real process would
end in the loop by running out of it, after it has written as many stars.

There are two loops, one in the other, and neither has a bound: the characters of a line, and the
lines until one is right.  A program is run on fuel (`Lib/Loops.lean`), "returns" says that some
amount is enough, and "does not return" is proved by an invariant of all passes: the input is at its
end, and stays there.

What a line comes to is a function of its characters (`edited`), from left to right with a stack: a
DEL on an empty password does nothing, and shows nothing.  The text that is shown has a star for
each character and an erasure for each that was taken back, so it is a function of the kinds of the
characters only.

Not modelled: the mode of the terminal, which is changed and restored around every character, the
echo that depends on it, and a terminal that has its own idea of what ends the input.
-/
import GravelBox.Lib.Loops
import GravelBox.Utils

namespace GravelBox

open Loops

/-! ## 1. The source -/

/-- `unsigned char`. -/
abbrev UChar := BitVec 8

def BACKSPACE : UChar := 127
def RETURN : UChar := 10

/-- What is left of the standard input, and the standard output. -/
structure Console where
  input : List UChar
  output : Str

/-- `getch`. -/
def Console.getch (c : Console) : Int × Console :=
  match c.input with
  | [] => (-1, c)
  | ch :: input => (ch.toNat, { c with input := input })

/-- `cout << text`. -/
def Console.print (c : Console) (text : Str) : Console := { c with output := c.output ++ text }

/-- One pass of the loop of `my_getpwd`. -/
def getpwdPass : List UChar × Console → Pass (List UChar × Console) (List UChar × Console)
  | (password, c) =>
    let (r, c) := c.getch
    let ch : UChar := BitVec.ofInt 8 r
    if ch = RETURN then .done (password, c.print ['\n'])
    else if ch = BACKSPACE then
      if password.length ≠ 0 then
        .again (password.take (password.length - 1), c.print ['\x08', ' ', '\x08'])
      else .again (password, c)
    else .again (password ++ [ch], c.print ['*'])

/-- `my_getpwd`. -/
def myGetpwd (fuel : Nat) (c : Console) : Option (List UChar × Console) :=
  iterate (fun _ s => some (getpwdPass s)) fuel ([], c)

/-- `Pwd`. -/
structure Pwd where
  pwd : List UChar
  locked : Bool

/-- `Pwd::Pwd`. -/
def Pwd.construct (fuel : Nat) (c : Console) : Option (Pwd × Console) :=
  (myGetpwd fuel (c.print "Set a password <= 100 characters:\n".toList)).map fun (password, c) =>
    ({ pwd := password, locked := false }, c)

/-- `pwd_.compare(cur_pwd) != 0`, at the end of a pass. -/
def unlockTry (this : Pwd) : List UChar × Console → Pass Console Console
  | (cur, c) => if this.pwd ≠ cur then .again c else .done c

/-- One pass of the loop of `Pwd::unlock`. -/
def unlockPass (this : Pwd) (fuel : Nat) (c : Console) : Option (Pass Console Console) :=
  (myGetpwd fuel (c.print "Enter your password to unlock:\n".toList)).map (unlockTry this)

/-- `Pwd::unlock`. -/
def Pwd.unlock (this : Pwd) (fuel : Nat) (c : Console) : Option (Bool × Pwd × Console) :=
  (iterate (unlockPass this) fuel c).map fun c => (true, { this with locked := false }, c)

/-! ## 2. Editing a line -/

/-- A character is kept, or takes the last one back. -/
def edit (password : List UChar) (ch : UChar) : List UChar :=
  if ch = BACKSPACE then password.dropLast else password ++ [ch]

/-- What is kept of a line. -/
def edited (line : List UChar) : List UChar := line.foldl edit []

/-- What is shown for a character. -/
def echo (password : List UChar) (ch : UChar) : Str :=
  if ch = BACKSPACE then if password = [] then [] else ['\x08', ' ', '\x08'] else ['*']

/-- What is shown for a line. -/
def echoes (password : List UChar) : List UChar → Str
  | [] => []
  | ch :: line => echo password ch ++ echoes (edit password ch) line

theorem ofInt_toNat (ch : UChar) : BitVec.ofInt 8 (ch.toNat : Int) = ch := by
  rw [BitVec.ofInt_natCast, BitVec.ofNat_toNat, BitVec.setWidth_eq]

/-- A pass over a character that is no line feed. -/
theorem getpwdPass_edit {ch : UChar} (hch : ch ≠ RETURN) (password input : List UChar)
    (output : Str) :
    getpwdPass (password, { input := ch :: input, output := output }) =
      .again (edit password ch, { input := input, output := output ++ echo password ch }) := by
  simp only [getpwdPass, Console.getch, ofInt_toNat, if_neg hch, edit, echo]
  by_cases hdel : ch = BACKSPACE
  · simp only [if_pos hdel]
    by_cases hnil : password = []
    · subst hnil
      simp
    · rw [if_pos (mt List.length_eq_zero_iff.mp hnil), if_neg hnil, List.dropLast_eq_take]
      rfl
  · simp only [if_neg hdel]
    rfl

theorem getpwdPass_return (password input : List UChar) (output : Str) :
    getpwdPass (password, { input := RETURN :: input, output := output }) =
      .done (password, { input := input, output := output ++ ['\n'] }) := by
  simp only [getpwdPass, Console.getch, ofInt_toNat, if_pos]
  rfl

/-- A pass at the end of the input: -1 is narrowed to 255, which is kept. -/
theorem getpwdPass_end (password : List UChar) (output : Str) :
    getpwdPass (password, { input := [], output := output }) =
      .again (password ++ [255], { input := [], output := output ++ ['*'] }) := rfl

/-! ## 3. `my_getpwd` -/

theorem steady_getpwdPass : Steady fun _ s => some (getpwdPass s) := steady_const _

theorem steady_myGetpwd : Steady myGetpwd := fun c => steady_getpwdPass.iterate ([], c)

/-- **Up to the line feed** the loop edits the line. -/
theorem getpwd_line (line : List UChar) (hline : RETURN ∉ line) (password rest : List UChar)
    (output : Str) :
    Returns (iterate fun _ s => some (getpwdPass s))
      (password, { input := line ++ RETURN :: rest, output := output })
      (line.foldl edit password,
        { input := rest, output := output ++ echoes password line ++ ['\n'] }) := by
  induction line generalizing password output with
  | nil =>
    have hpass := congrArg some (getpwdPass_return password rest output)
    refine (returns_iterate_done steady_getpwdPass (returns_const_iff.mpr hpass)).mpr ?_
    rw [List.foldl_nil, echoes, List.append_nil]
  | cons ch line ih =>
    rw [List.mem_cons, not_or] at hline
    obtain ⟨hch, hline⟩ := hline
    have hpass := congrArg some
      (getpwdPass_edit (Ne.symm hch) password (line ++ RETURN :: rest) output)
    refine (returns_iterate_again steady_getpwdPass (returns_const_iff.mpr hpass)).mpr ?_
    have hrest := ih hline (edit password ch) (output ++ echo password ch)
    rw [List.append_assoc output] at hrest
    exact hrest

/-- **Without a line feed** the loop does not end. -/
theorem getpwd_endless {password : List UChar} {c : Console} (h : RETURN ∉ c.input)
    (r : List UChar × Console) :
    ¬ Returns (iterate fun _ s => some (getpwdPass s)) (password, c) r := by
  refine not_returns_of_invariant (I := fun s => RETURN ∉ s.2.input) ?_ h r
  rintro ⟨password, input, output⟩ pass hI hpass
  rw [returns_const_iff, Option.some.injEq] at hpass
  subst hpass
  cases input with
  | nil => exact ⟨_, getpwdPass_end password output, hI⟩
  | cons ch input =>
    obtain ⟨hch, hinput⟩ := not_or.mp (mt List.mem_cons.mpr hI)
    exact ⟨_, getpwdPass_edit (Ne.symm hch) password input output, hinput⟩

/-- The console after a line was read. -/
def Console.afterLine (c : Console) (line rest : List UChar) : Console :=
  { input := rest, output := c.output ++ echoes [] line ++ ['\n'] }

/-- **`my_getpwd`** returns the edited first line, if there is one. -/
theorem myGetpwd_returns_iff {c : Console} {r : List UChar × Console} :
    Returns myGetpwd c r ↔ ∃ line rest, c.input = line ++ RETURN :: rest ∧ RETURN ∉ line ∧
      r = (edited line, c.afterLine line rest) := by
  have hline : ∀ {line rest}, c.input = line ++ RETURN :: rest → RETURN ∉ line →
      Returns myGetpwd c (edited line, c.afterLine line rest) := by
    intro line rest hinput hline
    have hrun := getpwd_line line hline [] rest c.output
    rw [← hinput] at hrun
    exact hrun
  constructor
  · intro hreturns
    by_cases hmem : RETURN ∈ c.input
    · obtain ⟨line, rest, hinput, hnot⟩ := List.eq_append_cons_of_mem hmem
      exact ⟨line, rest, hinput, hnot, steady_myGetpwd.unique hreturns (hline hinput hnot)⟩
    · exact absurd hreturns (getpwd_endless hmem r)
  · rintro ⟨line, rest, hinput, hnot, rfl⟩
    exact hline hinput hnot

/-- It returns if and only if there is a line feed. -/
theorem myGetpwd_ends_iff {c : Console} : (∃ r, Returns myGetpwd c r) ↔ RETURN ∈ c.input := by
  constructor
  · rintro ⟨r, hreturns⟩
    obtain ⟨line, rest, hinput, -⟩ := myGetpwd_returns_iff.mp hreturns
    rw [hinput]
    exact List.mem_append_right line List.mem_cons_self
  · intro hmem
    obtain ⟨line, rest, hinput, hnot⟩ := List.eq_append_cons_of_mem hmem
    exact ⟨_, myGetpwd_returns_iff.mpr ⟨line, rest, hinput, hnot, rfl⟩⟩

/-! ## 4. `Pwd` -/

/-- The lines of the input that are complete. -/
def completeLines (input : List UChar) : List (List UChar) := (input.splitOn RETURN).dropLast

theorem completeLines_of_not_mem {input : List UChar} (h : RETURN ∉ input) :
    completeLines input = [] := by
  rw [completeLines, List.splitOn_eq_singleton h]
  rfl

theorem completeLines_append {line : List UChar} (h : RETURN ∉ line) (rest : List UChar) :
    completeLines (line ++ RETURN :: rest) = line :: completeLines rest := by
  rw [completeLines, List.splitOn_append_cons_self_of_not_mem h,
    List.dropLast_cons_of_ne_nil (List.splitOn_ne_nil _ _)]
  rfl

theorem steady_unlockPass (this : Pwd) : Steady (unlockPass this) :=
  steady_myGetpwd.map (fun c : Console => c.print "Enter your password to unlock:\n".toList) _

/-- What a pass of `unlock` comes to. -/
theorem unlockPass_returns_iff {this : Pwd} {c : Console} {pass : Pass Console Console} :
    Returns (unlockPass this) c pass ↔ ∃ line rest, c.input = line ++ RETURN :: rest ∧
      RETURN ∉ line ∧ pass = unlockTry this
        (edited line, (c.print "Enter your password to unlock:\n".toList).afterLine line rest) := by
  have hmap : Returns (unlockPass this) c pass ↔ ∃ r,
      Returns myGetpwd (c.print "Enter your password to unlock:\n".toList) r ∧
        unlockTry this r = pass :=
    returns_map_iff (g := fun c : Console => c.print "Enter your password to unlock:\n".toList)
  rw [hmap]
  constructor
  · rintro ⟨r, hreturns, rfl⟩
    obtain ⟨line, rest, hinput, hnot, rfl⟩ := myGetpwd_returns_iff.mp hreturns
    exact ⟨line, rest, hinput, hnot, rfl⟩
  · rintro ⟨line, rest, hinput, hnot, rfl⟩
    exact ⟨_, myGetpwd_returns_iff.mpr ⟨line, rest, hinput, hnot, rfl⟩, rfl⟩

/-- The loop of `unlock` ends if and only if one of the lines is the password. -/
theorem unlockLoop_ends_iff {this : Pwd} {lines : List (List UChar)} {c : Console}
    (hlines : completeLines c.input = lines) :
    (∃ c', Returns (iterate (unlockPass this)) c c') ↔ this.pwd ∈ lines.map edited := by
  induction lines generalizing c with
  | nil =>
    refine iff_of_false ?_ List.not_mem_nil
    have hend : ∀ pass, ¬ Returns (unlockPass this) c pass := by
      intro pass hpass
      obtain ⟨line, rest, hinput, hnot, -⟩ := unlockPass_returns_iff.mp hpass
      rw [hinput, completeLines_append hnot] at hlines
      cases hlines
    rintro ⟨c', hreturns⟩
    rcases (returns_iterate_iff (steady_unlockPass this)).mp hreturns with h | ⟨s', h, -⟩
    · exact hend _ h
    · exact hend _ h
  | cons line lines ih =>
    have hmem : RETURN ∈ c.input := by
      refine Decidable.byContradiction fun hnot => ?_
      rw [completeLines_of_not_mem hnot] at hlines
      cases hlines
    obtain ⟨line', rest, hinput, hnot⟩ := List.eq_append_cons_of_mem hmem
    rw [hinput, completeLines_append hnot] at hlines
    obtain ⟨rfl, hrest⟩ := List.cons.inj hlines
    have hpass : Returns (unlockPass this) c _ :=
      unlockPass_returns_iff.mpr ⟨line', rest, hinput, hnot, rfl⟩
    rw [unlockTry] at hpass
    rw [List.map_cons, List.mem_cons]
    by_cases hpwd : this.pwd = edited line'
    · rw [if_neg (not_not.mpr hpwd)] at hpass
      exact iff_of_true ⟨_, (returns_iterate_done (steady_unlockPass this) hpass).mpr rfl⟩
        (.inl hpwd)
    · rw [if_pos hpwd] at hpass
      have hlater := @ih ((c.print "Enter your password to unlock:\n".toList).afterLine line' rest)
        hrest
      rw [or_iff_right hpwd, ← hlater]
      exact exists_congr fun _ => returns_iterate_again (steady_unlockPass this) hpass

/-- `Pwd::unlock` ends if and only if one of the complete lines is the password. -/
theorem unlock_ends_iff {this : Pwd} {c : Console} :
    (∃ r, Returns this.unlock c r) ↔ this.pwd ∈ (completeLines c.input).map edited := by
  rw [← unlockLoop_ends_iff rfl]
  constructor
  · rintro ⟨r, hreturns⟩
    obtain ⟨c', hloop, -⟩ := (returns_map_iff (g := id)).mp hreturns
    exact ⟨c', hloop⟩
  · rintro ⟨c', hloop⟩
    exact ⟨_, (returns_map_iff (g := id)).mpr ⟨c', hloop, rfl⟩⟩

/-- `Pwd::Pwd` ends if and only if there is a line feed. -/
theorem construct_ends_iff {c : Console} :
    (∃ r, Returns Pwd.construct c r) ↔ RETURN ∈ c.input := by
  have hmap : ∀ r, Returns Pwd.construct c r ↔ ∃ r',
      Returns myGetpwd (c.print "Set a password <= 100 characters:\n".toList) r' ∧
        ({ pwd := r'.1, locked := false }, r'.2) = r := fun r =>
    returns_map_iff (g := fun c : Console => c.print "Set a password <= 100 characters:\n".toList)
  have hends := myGetpwd_ends_iff (c := c.print "Set a password <= 100 characters:\n".toList)
  refine Iff.trans ?_ hends
  constructor
  · rintro ⟨r, hreturns⟩
    obtain ⟨r', hr', -⟩ := (hmap r).mp hreturns
    exact ⟨r', hr'⟩
  · rintro ⟨r', hr'⟩
    exact ⟨_, (hmap _).mpr ⟨r', hr', rfl⟩⟩

/-- `my_getpwd` is as it should be: it returns, and if there is a line feed what it returns is
the edited first line. -/
def LineEdited (c : Console) : Prop :=
  (∃ r, Returns myGetpwd c r) ∧ ∀ line rest, c.input = line ++ RETURN :: rest → RETURN ∉ line →
    ∃ c', Returns myGetpwd c (edited line, c')

/-- **Line editing.**  `my_getpwd` returns the edited first line, and `Pwd::Pwd` ends, if and
only if there is a line feed; `Pwd::unlock` ends if and only if a complete line is the password
once it is edited. -/
theorem line_editing_iff (c : Console) (this : Pwd) :
    (LineEdited c ↔ RETURN ∈ c.input) ∧
      ((∃ r, Returns Pwd.construct c r) ↔ RETURN ∈ c.input) ∧
      ((∃ r, Returns this.unlock c r) ↔ this.pwd ∈ (completeLines c.input).map edited) := by
  refine ⟨?_, construct_ends_iff, unlock_ends_iff⟩
  rw [← myGetpwd_ends_iff]
  constructor
  · intro hedited
    exact hedited.1
  · intro hends
    refine ⟨hends, fun line rest hinput hnot => ⟨c.afterLine line rest, ?_⟩⟩
    exact myGetpwd_returns_iff.mpr ⟨line, rest, hinput, hnot, rfl⟩

/-- **Without a line feed they loop for ever**: nothing is on the standard input. -/
theorem empty_input_endless :
    (∀ r, ¬ Returns myGetpwd { input := [], output := [] } r) ∧
      (∀ r, ¬ Returns Pwd.construct { input := [], output := [] } r) ∧
      ∀ this r, ¬ Returns (Pwd.unlock this) { input := [], output := [] } r := by
  refine ⟨fun r h => ?_, fun r h => ?_, fun this r h => ?_⟩
  · exact List.not_mem_nil (myGetpwd_ends_iff.mp ⟨r, h⟩)
  · exact List.not_mem_nil (construct_ends_iff.mp ⟨r, h⟩)
  · exact List.not_mem_nil (unlock_ends_iff.mp ⟨r, h⟩)

end GravelBox
