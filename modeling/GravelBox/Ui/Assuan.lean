/-
# What pinentry displays

A line of the Assuan protocol ends at a line feed, and in its argument a `%` with two hexadecimal
digits stands for a byte.  `PinentryUI::ask` (`ui/pinentry_ui.cpp`, lines 49 to 53) knows that: it
writes the two line feeds of its question as `%0a%0a`.  But it appends the text of the call as it
is, with every `%` a target has put into a path name.

So pinentry displays the text on which the configuration decided (`Displayed`) if and only
if the text has neither such an escape nor a line feed (`ask_displayed_iff`).

This is where the target gets to speak to the user.  It chooses the bytes of its path names; the
parser escapes what does not print, but a `%` prints.  With `%0a` it starts a new line in the
dialog, and with `%` and other digits it can write any byte at all, so that what is displayed is a
text of its choice with the real one around it (`ask_forged`).

What makes the "only if" hard is that a text with an escape could be displayed as itself by chance.
It cannot: undoing an escape makes a text shorter and nothing makes it longer
(`length_decode_eq_iff`), so the texts differ in length.  A line feed in the text ends the command
before its time, and what is displayed is what came before it, with the rest of the text sent as
commands of their own.

Not claimed: how a dialog is laid out, in which direction its letters run, or what a user makes of
it.
-/
import GravelBox.Ui.FailClosed
import GravelBox.Parser.Escapes
import GravelBox.Parser.Parser
import Mathlib.Data.List.TakeWhile

namespace GravelBox

open Stateful Decoding

/-! ## 1. Percent escapes -/

/-- What a character of an argument stands for. -/
def percentAt : Reader Char Char
  | '%', d :: d' :: _ =>
    match hexPair d d' with
    | some n => (Char.ofNat n, 2)
    | none => ('%', 0)
  | c, _ => (c, 0)

/-- Somewhere in the text there is a `%` with two hexadecimal digits. -/
def HasEscape (s : Str) : Prop :=
  ∃ pre d d' post, s = pre ++ '%' :: d :: d' :: post ∧ (hexPair d d').isSome = true

theorem percentAt_within : Within percentAt := by
  intro c s
  unfold percentAt
  split
  · rename_i d d' post
    split
    · simp
    · exact Nat.zero_le _
  · exact Nat.zero_le _

/-- A character that takes nothing with it stands for itself. -/
theorem percentAt_self (c : Char) (s : Str) (h : (percentAt c s).2 = 0) :
    (percentAt c s).1 = c := by
  unfold percentAt at h ⊢
  split at h
  · split at h
    · cases h
    · rename_i hnone
      rfl
  · rfl

/-- An escape starts here. -/
theorem percentAt_snd_ne_zero_iff {c : Char} {s : Str} :
    (percentAt c s).2 ≠ 0 ↔
      ∃ d d' post, c :: s = '%' :: d :: d' :: post ∧ (hexPair d d').isSome = true := by
  unfold percentAt
  split
  · rename_i d d' post
    cases hpair : hexPair d d' with
    | none =>
      refine iff_of_false (fun h => h rfl) ?_
      rintro ⟨e, e', post', heq, hsome⟩
      cases heq
      rw [hpair] at hsome
      cases hsome
    | some n => exact iff_of_true (by simp) ⟨d, d', post, rfl, by rw [hpair]; rfl⟩
  · rename_i hno
    refine iff_of_false (fun h => h rfl) ?_
    rintro ⟨d, d', post, heq, -⟩
    cases heq
    exact hno d d' post rfl rfl

/-- A text is plain if there is no escape in it. -/
theorem escapeFree_percentAt_iff (s : Str) : escapeFree percentAt s = true ↔ ¬ HasEscape s := by
  induction s with
  | nil =>
    refine iff_of_true rfl ?_
    rintro ⟨pre, d, d', post, h, -⟩
    cases pre <;> cases h
  | cons c s ih =>
    rw [escapeFree, Bool.and_eq_true, beq_iff_eq, ih]
    constructor
    · rintro ⟨hzero, hrest⟩ ⟨pre, d, d', post, h, hsome⟩
      cases pre with
      | nil => exact percentAt_snd_ne_zero_iff.mpr ⟨d, d', post, h, hsome⟩ hzero
      | cons e pre =>
        rw [List.cons_append, List.cons.injEq] at h
        exact hrest ⟨pre, d, d', post, h.2, hsome⟩
    · intro h
      constructor
      · by_contra hne
        obtain ⟨d, d', post, heq, hsome⟩ := percentAt_snd_ne_zero_iff.mp hne
        exact h ⟨[], d, d', post, heq, hsome⟩
      · rintro ⟨pre, d, d', post, heq, hsome⟩
        exact h ⟨c :: pre, d, d', post, congrArg (c :: ·) heq, hsome⟩

/-- **A text is its own decoding** if and only if there is no escape in it. -/
theorem decode_percent_eq_iff (s : Str) : decode percentAt s = s ↔ ¬ HasEscape s := by
  rw [← escapeFree_percentAt_iff]
  constructor
  · intro h
    exact (length_decode_eq_iff percentAt_within s).mp (congrArg List.length h)
  · intro h
    rw [decode_of_escapeFree percentAt_self h, List.map_id']

/-! ## 2. The line that is sent -/

/-- The argument of a `SETDESC` line. -/
def setdescArgument (line : Str) : Option Str :=
  if line.take 8 = "SETDESC ".toList then some (line.drop 8) else none

/-- What pinentry should display. -/
def question (syscall : Str) : Str :=
  "Do you allow the following system call?\n\n".toList ++ syscall

/-- What `PinentryUI::ask` sends, up to the end of the line. -/
def sentLine (syscall : Str) : Str :=
  "SETDESC Do you allow the following system call?%0a%0a".toList ++ syscall.takeWhile (· ≠ '\n')

/-- Pinentry displays the question, with just the text of the call. -/
def Displayed (line syscall : Str) : Prop :=
  ∃ arg, setdescArgument line = some arg ∧ decode percentAt arg = question syscall

theorem decode_sentLine (syscall : Str) :
    ∃ arg, setdescArgument (sentLine syscall) = some arg ∧
      decode percentAt arg = question (decode percentAt (syscall.takeWhile (· ≠ '\n'))) :=
  ⟨_, rfl, rfl⟩

/-- **The line says what is meant** if and only if the text has no escape and no line feed. -/
theorem displayed_iff (syscall : Str) :
    Displayed (sentLine syscall) syscall ↔ ¬ HasEscape syscall ∧ '\n' ∉ syscall := by
  obtain ⟨arg, harg, hdecode⟩ := decode_sentLine syscall
  have hline : Displayed (sentLine syscall) syscall ↔
      decode percentAt (syscall.takeWhile (· ≠ '\n')) = syscall := by
    unfold Displayed
    rw [harg]
    constructor
    · rintro ⟨arg', h, heq⟩
      obtain rfl : arg = arg' := Option.some.inj h
      rw [hdecode] at heq
      exact List.append_cancel_left heq
    · intro h
      exact ⟨arg, rfl, by rw [hdecode, h]⟩
  rw [hline]
  constructor
  · intro h
    -- neither the cut at the line feed nor the decoding makes a text longer
    have hcut := (List.takeWhile_prefix (· ≠ '\n') (l := syscall)).length_le
    have hlen := length_decode_le percentAt (syscall.takeWhile (· ≠ '\n'))
    have hwhole : syscall.takeWhile (· ≠ '\n') = syscall := by
      refine (List.takeWhile_prefix _).eq_of_length_le ?_
      rw [h] at hlen
      exact hlen
    rw [hwhole] at h
    refine ⟨(decode_percent_eq_iff syscall).mp h, fun hmem => ?_⟩
    rw [List.takeWhile_eq_self_iff] at hwhole
    simpa using hwhole '\n' hmem
  · rintro ⟨hescape, hlf⟩
    have hwhole : syscall.takeWhile (· ≠ '\n') = syscall := by
      rw [List.takeWhile_eq_self_iff]
      intro c hc
      rw [decide_eq_true_eq]
      rintro rfl
      exact hlf hc
    rw [hwhole]
    exact (decode_percent_eq_iff syscall).mpr hescape

/-! ## 3. What a run sends -/

variable {ρ : Type} (respond : ρ → Str → ρ × List Str)

/-- What the program writes and reads comes after what is in the log already. -/
def KeepsLog {α : Type} (x : EStateM Fault (PinentryConn ρ) α) : Prop :=
  ∀ c, Ends x c (fun _ c' => c.log <+: c'.log) (fun _ c' => c.log <+: c'.log)

theorem KeepsLog.bind {α β : Type} {x : EStateM Fault (PinentryConn ρ) α}
    {f : α → EStateM Fault (PinentryConn ρ) β} (hx : KeepsLog x) (hf : ∀ a, KeepsLog (f a)) :
    KeepsLog (x >>= f) := by
  intro c
  rw [ends_bind]
  refine (hx c).mono (fun a c' hc' => ?_) (fun f c' hc' => hc')
  exact ((hf a) c').mono (fun b c'' hc'' => hc'.trans hc'') (fun f c'' hc'' => hc'.trans hc'')

theorem keepsLog_recv : KeepsLog (PinentryConn.recv (ρ := ρ)) := by
  intro c
  simp only [Ends, EStateM.run, PinentryConn.recv]
  cases (recvFrom (c.junk 0) [] c.unread).1 with
  | ok r => exact List.prefix_append _ _
  | error f => exact List.prefix_append _ _

theorem keepsLog_say (text : Str) : KeepsLog (PinentryConn.say respond text) := by
  intro c
  simp only [Ends, EStateM.run, PinentryConn.say]
  cases c.pinentry with
  | none => exact List.prefix_rfl
  | some q => exact List.prefix_append _ _

theorem keepsLog_conclude {α : Type} (yes : Response → α) (no : α) (r : Response) :
    KeepsLog (ρ := ρ) (conclude yes no r) := by
  intro c
  unfold conclude
  split
  · exact List.prefix_rfl
  · split
    · exact List.prefix_rfl
    · exact List.prefix_rfl

theorem keepsLog_ok : KeepsLog (PinentryConn.ok (ρ := ρ)) := by
  refine keepsLog_recv.bind fun r c => ?_
  split
  · exact List.prefix_rfl
  · exact List.prefix_rfl

theorem keepsLog_inquire (cmds : List Str) (q : Str) : KeepsLog (inquire respond cmds q) := by
  induction cmds with
  | nil => exact (keepsLog_say respond q).bind fun _ => keepsLog_recv
  | cons cmd cmds ih =>
    exact ((keepsLog_say respond cmd).bind fun _ => keepsLog_ok).bind fun _ => ih

/-- The first line that a program has written. -/
def FirstLine (c c' : PinentryConn ρ) (line : Str) : Prop :=
  ∃ lines replies more, c'.log = c.log ++ .wrote (line :: lines) replies :: more

/-- The first of the lines that a text is split into. -/
theorem head_splitOn (s : Str) :
    ∃ lines, s.splitOn '\n' = s.takeWhile (· ≠ '\n') :: lines := by
  induction s with
  | nil => exact ⟨[], rfl⟩
  | cons c s ih =>
    obtain ⟨lines, hlines⟩ := ih
    unfold List.splitOn at hlines ⊢
    rw [List.splitOnP_cons_eq_if_modifyHead]
    by_cases hc : c = '\n'
    · rw [if_pos (by simpa using hc), List.takeWhile_cons_of_neg (by simpa using hc)]
      exact ⟨_, rfl⟩
    · rw [if_neg (by simpa using hc), List.takeWhile_cons_of_pos (by simpa using hc), hlines]
      exact ⟨_, rfl⟩

/-- **`PinentryUI::ask` first sends the question.** -/
theorem ask_firstLine {c : PinentryConn ρ} {q : ρ} (h : c.pinentry = some q) (syscall : Str) :
    Ends (PinentryUI.ask respond syscall) c
      (fun _ c' => FirstLine c c' (sentLine syscall))
      (fun _ c' => FirstLine c c' (sentLine syscall)) := by
  generalize hmsg : "Do you allow the following system call?%0a%0a".toList ++ syscall = message
  obtain ⟨lines, hlines⟩ := head_splitOn ("SETDESC ".toList ++ message)
  have hline : ("SETDESC ".toList ++ message).takeWhile (· ≠ '\n') = sentLine syscall := by
    subst hmsg
    rfl
  rw [hline] at hlines
  have hrest : KeepsLog (PinentryConn.ok (ρ := ρ) >>= fun _ =>
      inquire respond ["SETOK Allow".toList, "SETCANCEL Deny".toList] "CONFIRM".toList >>=
        conclude (fun _ => true) false) :=
    keepsLog_ok.bind fun _ => (keepsLog_inquire respond _ _).bind (keepsLog_conclude _ _)
  unfold PinentryUI.ask
  rw [hmsg, confirm_eq, confirmSetup, inquire, order, bind_assoc, bind_assoc, ends_bind]
  have hsay : ∃ q' replies, (PinentryConn.say respond ("SETDESC ".toList ++ message)).run c =
      .ok () { c with pinentry := some q', unread := c.unread ++ replies
                      log := c.log ++ [.wrote (sentLine syscall :: lines) replies] } := by
    simp only [EStateM.run, PinentryConn.say, h, hlines]
    exact ⟨_, _, rfl⟩
  obtain ⟨q', replies, hsay⟩ := hsay
  have hfirst : ∀ {c' : PinentryConn ρ},
      c.log ++ [.wrote (sentLine syscall :: lines) replies] <+: c'.log →
        FirstLine c c' (sentLine syscall) := by
    rintro c' ⟨more, hmore⟩
    refine ⟨lines, replies, more, ?_⟩
    rw [← hmore, List.append_assoc, List.singleton_append]
  rw [ends_of_run_ok hsay]
  exact (hrest _).mono (fun _ _ hlog => hfirst hlog) (fun _ _ hlog => hfirst hlog)

/-- **Pinentry is asked about the text on which the configuration decided** if and only if
the text has no line feed and no `%` with two hexadecimal digits. -/
theorem ask_displayed_iff {c : PinentryConn ρ} {q : ρ} (h : c.pinentry = some q)
    (syscall : Str) :
    Ends (PinentryUI.ask respond syscall) c
      (fun _ c' => ∃ line, FirstLine c c' line ∧
        (Displayed line syscall ↔ ¬ HasEscape syscall ∧ '\n' ∉ syscall))
      (fun _ c' => ∃ line, FirstLine c c' line ∧
        (Displayed line syscall ↔ ¬ HasEscape syscall ∧ '\n' ∉ syscall)) := by
  refine (ask_firstLine respond h syscall).mono ?_ ?_
  · exact fun _ c' hline => ⟨_, hline, displayed_iff syscall⟩
  · exact fun _ c' hline => ⟨_, hline, displayed_iff syscall⟩

/-- Four answers of a user who allows the call. -/
def agreeing : PinentryConn Unit := fed (List.replicate 4 "OK".toList) fun _ => 0

/-- A call without arguments is displayed as it is. -/
theorem ask_displayed_getpid :
    Ends (PinentryUI.ask silent "getpid()".toList) agreeing
      (fun _ c' => ∃ line, FirstLine agreeing c' line ∧ Displayed line "getpid()".toList)
      (fun _ c' => ∃ line, FirstLine agreeing c' line ∧ Displayed line "getpid()".toList) := by
  have hplain : ¬ HasEscape "getpid()".toList ∧ '\n' ∉ "getpid()".toList :=
    ⟨(escapeFree_percentAt_iff _).mp rfl, by decide⟩
  have hopen : agreeing.pinentry = some () := rfl
  refine (ask_displayed_iff silent hopen "getpid()".toList).mono ?_ ?_
  · rintro _ c' ⟨line, hline, hiff⟩
    exact ⟨line, hline, hiff.mpr hplain⟩
  · rintro _ c' ⟨line, hline, hiff⟩
    exact ⟨line, hline, hiff.mpr hplain⟩

/-- The parser, for a target that deletes a file. -/
def unlinkParser : Parser :=
  (Parser.single 87 { fname := "unlink".toList, argtypes := [.str] }).setpid 1

def unlinkArgs : SyscallArgs := { number := 87, args := fun _ => 0x1000, int80 := false }

theorem unlinkParser_fits : unlinkParser.Fits unlinkArgs := by
  intro d hd
  have hdef : unlinkParser.defOf unlinkArgs =
      some { fname := "unlink".toList, argtypes := [.str] } := rfl
  rw [hdef] at hd
  cases hd
  decide

/-- The text of the call that deletes the file. -/
theorem unlinkParser_call {m : Memory} {text : Str} (h : unlinkParser.text m unlinkArgs = text) :
    ∃ w', (unlinkParser.call false unlinkArgs).run (withMemory m) = .ok text w' := by
  have hspec := unlinkParser.call_spec false unlinkArgs (withMemory m)
  cases hrun : (unlinkParser.call false unlinkArgs).run (withMemory m) with
  | ok s w' =>
    obtain ⟨rfl, -⟩ := hspec.of_ok hrun
    exact ⟨w', congrArg (fun s => EStateM.Result.ok s w') h⟩
  | error f w' =>
    obtain ⟨-, hkilled⟩ := hspec.of_error hrun
    exact absurd (withMemory_serves m _) (hkilled unlinkParser_fits).2

set_option maxRecDepth 4000 in
/-- **A target forges a line of the dialog.**  It deletes the file `%0a`, and pinentry displays
a line feed in the place of its name. -/
theorem ask_forged :
    (∃ w', (unlinkParser.call false unlinkArgs).run (withMemory (stringAt [0x25, 0x30, 0x61])) =
        .ok "unlink(\"%0a\")".toList w') ∧
      ∃ c' line, (PinentryUI.ask silent "unlink(\"%0a\")".toList).run agreeing = .ok true c' ∧
        FirstLine agreeing c' line ∧ ¬ Displayed line "unlink(\"%0a\")".toList := by
  have htext : unlinkParser.text (stringAt [0x25, 0x30, 0x61]) unlinkArgs =
      "unlink(\"%0a\")".toList := by decide +kernel
  have hescape : HasEscape "unlink(\"%0a\")".toList :=
    ⟨"unlink(\"".toList, '0', 'a', "\")".toList, rfl, rfl⟩
  refine ⟨unlinkParser_call htext, _, sentLine "unlink(\"%0a\")".toList, rfl, ⟨_, _, _, rfl⟩, ?_⟩
  exact fun h => ((displayed_iff _).mp h).1 hescape

end GravelBox
