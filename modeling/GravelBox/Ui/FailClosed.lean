/-
# What is needed for a success

The lines pinentry sends are whatever they are; here all of them are there from the start,
which is no loss, as a `recv` waits for the line it needs (`ui/pinentry_conn.cpp`, lines 23 to 45).
Every `recv` takes one answer from them.

A success should need an `OK` line.  It does not: the error code of an `ERR` line is read
with a stream extraction, which gives 0 for a text without digits and nothing at all for no
text, and 0 is what a success looks like.  `fail_closed_iff` says of each of the four
operations that it succeeds only on an `OK` line if and only if the deciding answer is not
an `ERR` line whose code vanishes like that.

That is about lines, for any sequence of them, and about any value that the variable of the code may
have held before.  What makes it more than a look at one line is finding the deciding answer: an
operation reads as many answers as it gives commands, with any number of data and status lines
before each, and stops early at the first that is no success.  `Reached` says that an answer is got
to, and `inquire_success_iff` that the last one decides, by induction over the commands.

The slip matters because of what it does to a refusal.  A pinentry that says `ERR 0` or `ERR` and a
text is one that has not confirmed; the call is allowed then, or the password is taken to be what
the last data line said.

Not claimed: that pinentry sends such lines; an error code of 0 is not one that the protocol
provides for.  But the program at the other end is whatever the configuration or the user names.
-/
import GravelBox.Ui.Dialogue

namespace GravelBox

open Stateful

/-! ## 1. The answers among the lines -/

/-- The lines that are not notes. -/
def answers (lines : List Str) : List Str := lines.filter fun line => !isNote line

/-- The answers before number `n` pass, and answer number `n` is `line`. -/
structure Reached (junk : Nat → BitVec 32) (lines : List Str) (n : Nat) (line : Str) : Prop where
  before : ∀ i < n, ∀ l, (answers lines)[i]? = some l → Passes (junk i) l
  here : (answers lines)[n]? = some line

theorem Decides.answers_eq {lines notes rest : List Str} {line : Str}
    (h : Decides lines notes line rest) : answers lines = line :: answers rest := by
  have hnotes : answers notes = [] := by
    unfold answers
    rw [List.filter_eq_nil_iff]
    intro l hl
    rw [h.notes l hl]
    decide
  unfold answers at hnotes ⊢
  rw [h.split, List.filter_append, hnotes, List.nil_append,
    List.filter_cons_of_pos (by rw [h.answer]; rfl)]

theorem answers_of_notes {lines : List Str} (h : ∀ line ∈ lines, isNote line = true) :
    answers lines = [] := by
  unfold answers
  rw [List.filter_eq_nil_iff]
  intro line hline
  rw [h line hline]
  decide

/-- The lines that decide are the answers. -/
theorem decides_of_answer {lines : List Str} {line : Str} (h : (answers lines)[0]? = some line) :
    ∃ notes rest, Decides lines notes line rest := by
  rcases decides_or_notes lines with ⟨notes, l, rest, hd⟩ | hall
  · rw [hd.answers_eq, List.getElem?_cons_zero, Option.some.injEq] at h
    exact ⟨notes, rest, h ▸ hd⟩
  · rw [answers_of_notes hall] at h
    cases h

theorem reached_zero_iff {junk : Nat → BitVec 32} {lines : List Str} {line : Str} :
    Reached junk lines 0 line ↔ (answers lines)[0]? = some line :=
  ⟨fun h => h.here, fun h => ⟨fun _ hi => absurd hi (Nat.not_lt_zero _), h⟩⟩

/-- One answer is taken. -/
theorem reached_succ_iff {junk : Nat → BitVec 32} {lines notes rest : List Str} {a line : Str}
    {n : Nat} (h : Decides lines notes a rest) :
    Reached junk lines (n + 1) line ↔
      Passes (junk 0) a ∧ Reached (fun i => junk (i + 1)) rest n line := by
  constructor
  · rintro ⟨hbefore, hhere⟩
    rw [h.answers_eq] at hbefore hhere
    refine ⟨hbefore 0 (Nat.succ_pos n) a rfl, ?_, hhere⟩
    intro i hi l hl
    exact hbefore (i + 1) (Nat.succ_lt_succ hi) l hl
  · rintro ⟨hpass, hbefore, hhere⟩
    refine ⟨?_, ?_⟩
    · intro i hi l hl
      rw [h.answers_eq] at hl
      cases i with
      | zero =>
        rw [List.getElem?_cons_zero, Option.some.injEq] at hl
        exact hl ▸ hpass
      | succ i => exact hbefore i (Nat.lt_of_succ_lt_succ hi) l hl
    · rw [h.answers_eq]
      exact hhere

/-! ## 2. A dialogue with lines that are there already -/

/-- A pinentry that has nothing more to say. -/
def silent (q : Unit) (_ : Str) : Unit × List Str := (q, [])

/-- The connection on which `lines` will come, whatever is written. -/
def fed (lines : List Str) (junk : Nat → BitVec 32) : PinentryConn Unit :=
  { pinentry := some (), unread := lines, junk := junk, log := [] }

theorem hear_silent (lines : List Str) : hear silent () lines = ((), []) := by
  induction lines with
  | nil => rfl
  | cons line lines ih => simp only [hear, silent, ih, List.append_nil]

theorem say_silent {c : PinentryConn Unit} (h : c.pinentry = some ()) (text : Str) :
    (PinentryConn.say silent text).run c =
      .ok () { c with log := c.log ++ [.wrote (text.splitOn '\n') []] } := by
  simp only [EStateM.run, PinentryConn.say, h, hear_silent, List.append_nil]

/-- One `recv` succeeds if and only if the first answer passes. -/
theorem recv_success_iff {c : PinentryConn Unit} :
    (∃ r c', (PinentryConn.recv (ρ := Unit)).run c = .ok r c' ∧ r.success = true) ↔
      ∃ line, Reached c.junk c.unread 0 line ∧ Passes (c.junk 0) line := by
  constructor
  · rintro ⟨r, c', hrecv, hr⟩
    obtain ⟨notes, line, rest, hd, hjudge, -⟩ := recv_ok_iff.mp hrecv
    refine ⟨line, reached_zero_iff.mpr ?_, judge_success_iff.mp ⟨r, hjudge, hr⟩⟩
    rw [hd.answers_eq]
    rfl
  · rintro ⟨line, hreached, hpass⟩
    obtain ⟨notes, rest, hd⟩ := decides_of_answer (reached_zero_iff.mp hreached)
    obtain ⟨r, hjudge, hr⟩ := judge_success_iff.mpr hpass
    exact ⟨r, _, recv_ok_iff.mpr ⟨notes, line, rest, hd, hjudge, rfl⟩, hr⟩

/-- A question with no orders before it: the response to the first answer. -/
theorem inquire_nil_ok_iff {c c' : PinentryConn Unit} {r : Response} (h : c.pinentry = some ())
    (question : Str) :
    (inquire silent [] question).run c = .ok r c' ↔
      (PinentryConn.recv (ρ := Unit)).run
        { c with log := c.log ++ [.wrote (question.splitOn '\n') []] } = .ok r c' := by
  unfold inquire
  rw [run_bind_eq_ok]
  constructor
  · rintro ⟨⟨⟩, s, hsay, hrecv⟩
    rw [say_silent h] at hsay
    cases hsay
    exact hrecv
  · intro hrecv
    exact ⟨(), _, say_silent h question, hrecv⟩

/-- What an order that is accepted leaves. -/
theorem order_silent {c : PinentryConn Unit} (h : c.pinentry = some ()) (cmd : Str)
    {notes rest : List Str} {line : Str} (hd : Decides c.unread notes line rest)
    (hpass : Passes (c.junk 0) line) :
    ∃ s, (order silent cmd).run c = .ok () s ∧ s.pinentry = some () ∧ s.unread = rest ∧
      s.junk = fun i => c.junk (i + 1) := by
  obtain ⟨r, hjudge, hr⟩ := judge_success_iff.mpr hpass
  have hrecv := (inquire_nil_ok_iff h cmd).mpr
    (recv_ok_iff.mpr ⟨notes, line, rest, hd, hjudge, rfl⟩)
  exact ⟨_, (order_ok_iff silent).mpr ⟨r, hrecv, hr⟩, h, rfl, rfl⟩

/-- An order that is accepted took an answer that passes. -/
theorem decides_of_order {c s : PinentryConn Unit} (h : c.pinentry = some ()) {cmd : Str}
    (horder : (order silent cmd).run c = .ok () s) :
    ∃ notes line rest, Decides c.unread notes line rest ∧ Passes (c.junk 0) line := by
  obtain ⟨r, hask, hr⟩ := (order_ok_iff silent).mp horder
  obtain ⟨notes, line, rest, hd, hjudge, -⟩ := recv_ok_iff.mp ((inquire_nil_ok_iff h cmd).mp hask)
  exact ⟨notes, line, rest, hd, (success_iff_passes hjudge).mp hr⟩

/-- **A dialogue succeeds** if and only if an answer comes for each order and the question,
and they all pass.  By induction on the orders; each takes one answer. -/
theorem inquire_success_iff (setup : List Str) (question : Str) {c : PinentryConn Unit}
    (h : c.pinentry = some ()) :
    (∃ r c', (inquire silent setup question).run c = .ok r c' ∧ r.success = true) ↔
      ∃ line, Reached c.junk c.unread setup.length line ∧
        Passes (c.junk setup.length) line := by
  induction setup generalizing c with
  | nil =>
    simp only [inquire_nil_ok_iff h, List.length_nil]
    exact recv_success_iff
  | cons cmd setup ih =>
    constructor
    · rintro ⟨r, c', hrun, hr⟩
      obtain ⟨⟨⟩, s, horder, hrest⟩ := run_bind_eq_ok.mp hrun
      obtain ⟨notes, a, rest, hd, hpass⟩ := decides_of_order h horder
      obtain ⟨s', horder', hpin, hunread, hjunk⟩ := order_silent h cmd hd hpass
      obtain rfl : s = s' := by
        rw [horder] at horder'
        cases horder'
        rfl
      obtain ⟨line, hreached, hline⟩ := (ih hpin).mp ⟨r, c', hrest, hr⟩
      rw [hunread, hjunk] at hreached
      rw [hjunk] at hline
      exact ⟨line, (reached_succ_iff hd).mpr ⟨hpass, hreached⟩, hline⟩
    · rintro ⟨line, hreached, hline⟩
      have hlen : 0 < (answers c.unread).length := by
        have hlt := (List.getElem?_eq_some_iff.mp hreached.here).1
        omega
      obtain ⟨notes, rest, hd⟩ := decides_of_answer (List.getElem?_eq_getElem hlen)
      obtain ⟨hpass, hreached'⟩ := (reached_succ_iff hd).mp hreached
      obtain ⟨s, horder, hpin, hunread, hjunk⟩ := order_silent h cmd hd hpass
      rw [← hunread, ← hjunk] at hreached'
      have hline' : Passes (s.junk setup.length) line := by
        rw [hjunk]
        exact hline
      obtain ⟨r, c', hrest, hr⟩ := (ih hpin).mpr ⟨line, hreached', hline'⟩
      exact ⟨r, c', run_bind_eq_ok.mpr ⟨(), s, horder, hrest⟩, hr⟩

/-! ## 3. Failing closed -/

/-- Answer number `n` is an `ERR` line that is taken for a success. -/
def FalseSuccess (junk : Nat → BitVec 32) (lines : List Str) (n : Nat) : Prop :=
  ∃ line, Reached junk lines n line ∧ vanishes (junk n) line = true

/-- Answer number `n` is an `OK` line. -/
def OkAt (lines : List Str) (n : Nat) : Prop :=
  ∃ line, (answers lines)[n]? = some line ∧ isOk line = true

/-- Whatever `x` returns, it is granted only if answer number `n` is an `OK` line. -/
def OnlyOnOk {α : Type} (junk : Nat → BitVec 32) (lines : List Str) (n : Nat)
    (x : EStateM Fault (PinentryConn Unit) α) (granted : α → Prop) : Prop :=
  ∀ a c', x.run (fed lines junk) = .ok a c' → granted a → OkAt lines n

/-- `recv` reports a success only on an `OK` line, and a failure on every `ERR` line. -/
def RecvFailClosed (junk : Nat → BitVec 32) (lines : List Str) : Prop :=
  OnlyOnOk junk lines 0 PinentryConn.recv (fun r => r.success = true) ∧
    ∀ line, (answers lines)[0]? = some line → isErr line = true →
      ∃ r c', (PinentryConn.recv (ρ := Unit)).run (fed lines junk) = .ok r c' ∧
        r.success = false

/-- Something that is granted for a success and for nothing else. -/
theorem onlyOnOk_iff {α : Type} {junk : Nat → BitVec 32} {lines : List Str} {n : Nat}
    {x : EStateM Fault (PinentryConn Unit) α} {granted : α → Prop}
    (h : (∃ a c', x.run (fed lines junk) = .ok a c' ∧ granted a) ↔
      ∃ line, Reached junk lines n line ∧ Passes (junk n) line) :
    OnlyOnOk junk lines n x granted ↔ ¬ FalseSuccess junk lines n := by
  constructor
  · rintro honly ⟨line, hreached, hvanish⟩
    obtain ⟨a, c', hrun, hgranted⟩ := h.mpr ⟨line, hreached, .inr hvanish⟩
    obtain ⟨l, hl, hok⟩ := honly a c' hrun hgranted
    obtain rfl : l = line := Option.some.inj (hl.symm.trans hreached.here)
    rw [not_vanishes_of_isOk hok] at hvanish
    cases hvanish
  · intro hno a c' hrun hgranted
    obtain ⟨line, hreached, hpass⟩ := h.mp ⟨a, c', hrun, hgranted⟩
    rcases hpass with hok | hvanish
    · exact ⟨line, hreached.here, hok⟩
    · exact absurd ⟨line, hreached, hvanish⟩ hno

theorem recv_failClosed_iff (junk : Nat → BitVec 32) (lines : List Str) :
    RecvFailClosed junk lines ↔ ¬ FalseSuccess junk lines 0 := by
  have honly := onlyOnOk_iff (recv_success_iff (c := fed lines junk))
  constructor
  · intro h
    exact honly.mp h.1
  · intro hno
    refine ⟨honly.mpr hno, ?_⟩
    intro line hline herr
    obtain ⟨notes, rest, hd⟩ := decides_of_answer hline
    have hnok : ¬ isOk line = true := by
      intro hok
      rw [not_isErr_of_isOk hok] at herr
      cases herr
    have hjudge : judge (junk 0) (lastData [] notes) line =
        .ok (errResponse (junk 0) (lastData [] notes) line) := by
      unfold judge
      rw [if_neg hnok, if_pos herr]
    refine ⟨_, _, recv_ok_iff.mpr ⟨notes, line, rest, hd, hjudge, rfl⟩, ?_⟩
    rw [Bool.eq_false_iff]
    intro hsuccess
    rcases judge_success_iff.mp ⟨_, hjudge, hsuccess⟩ with hok | hvanish
    · exact hnok hok
    · exact hno ⟨line, reached_zero_iff.mpr hline, hvanish⟩

theorem confirm_onlyOnOk_iff (junk : Nat → BitVec 32) (lines : List Str) (message : Str) :
    OnlyOnOk junk lines 3 (PinentryConn.confirm silent message) (· = true) ↔
      ¬ FalseSuccess junk lines 3 := by
  refine onlyOnOk_iff ?_
  rw [confirm_eq, granted_iff silent (· = true) (fun _ => rfl) Bool.false_ne_true]
  exact inquire_success_iff (confirmSetup message) _ rfl

/-- The number of orders that `getpin` gives. -/
theorem length_getpinSetup (message prompt error : Str) :
    (getpinSetup message prompt error).length = if error = [] then 4 else 5 := by
  unfold getpinSetup
  by_cases herror : error = []
  · rw [if_pos herror, if_neg (not_not.mpr herror)]
    rfl
  · rw [if_neg herror, if_pos herror]
    rfl

theorem getpin_onlyOnOk_iff (junk : Nat → BitVec 32) (lines : List Str)
    (message prompt error : Str) :
    OnlyOnOk junk lines (if error = [] then 4 else 5)
        (PinentryConn.getpin silent message prompt error) (fun p => p.cancelled = false) ↔
      ¬ FalseSuccess junk lines (if error = [] then 4 else 5) := by
  refine onlyOnOk_iff ?_
  rw [getpin_eq, granted_iff silent (fun p : Password => p.cancelled = false) (fun _ => rfl)
    (by decide), ← length_getpinSetup message prompt]
  exact inquire_success_iff (getpinSetup message prompt error) _ rfl

/-- **Failing closed.**  Each of the four operations succeeds only on an `OK` line in answer
to its last command, and `recv` reports every `ERR` line as a failure, if and only if that
answer is not an `ERR` line whose text has no digit but 0. -/
theorem fail_closed_iff (junk : Nat → BitVec 32) (lines : List Str)
    (message prompt error syscall : Str) :
    (RecvFailClosed junk lines ↔ ¬ FalseSuccess junk lines 0) ∧
    (OnlyOnOk junk lines 3 (PinentryConn.confirm silent message) (· = true) ↔
      ¬ FalseSuccess junk lines 3) ∧
    (OnlyOnOk junk lines 3 (PinentryUI.ask silent syscall) (· = true) ↔
      ¬ FalseSuccess junk lines 3) ∧
    (OnlyOnOk junk lines (if error = [] then 4 else 5)
        (PinentryUI.askPassword silent message prompt error) (fun p => p.cancelled = false) ↔
      ¬ FalseSuccess junk lines (if error = [] then 4 else 5)) :=
  ⟨recv_failClosed_iff junk lines, confirm_onlyOnOk_iff junk lines message,
    confirm_onlyOnOk_iff junk lines _, getpin_onlyOnOk_iff junk lines message prompt error⟩

/-- An `ERR` line with code 0, in answer to the question itself, is taken for a yes. -/
theorem error_zero_is_yes :
    ¬ OnlyOnOk (fun _ => 0)
        ["OK".toList, "OK".toList, "OK".toList, "ERR 0 Not confirmed".toList] 3
        (PinentryUI.ask silent "unlink(\"/\")".toList) (· = true) := by
  intro h
  obtain ⟨line, hline, hok⟩ := h true _ rfl rfl
  obtain rfl : "ERR 0 Not confirmed".toList = line := Option.some.inj hline
  exact absurd hok (by decide)

end GravelBox
