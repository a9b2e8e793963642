/-
# Reading a password

pinentry sends a password as data: the characters `%`, CR and LF escaped, the rest as it is,
split over as many `D` lines as it likes.  `PinentryConn::recv` undoes neither
(`ui/pinentry_conn.cpp`, lines 37 and 38).  It keeps the last `D` line, as it came, for the password
(`lastData_eq`).

So the password that was entered comes back if and only if none of its characters is escaped
and all of it is on the last of the `D` lines (`getpin_faithful_iff`).  The proof looks at the
text from its end: what an escape ends with is not the character it stands for.

What makes this hard is the "only if".  A password that comes back distorted is another string, but
a part of an escaped text could by chance be the password again: the text is longer than the
password where something is escaped, and the last line is shorter than the text where it was split,
so the lengths can agree.  They do for some passwords, and the strings still differ; that is shown
by comparing the two from the end, character by character, up to the last escape.

How pinentry splits the data is up to it, and the theorem is about every way to split it, with any
status lines in between.  An empty password needs no data line at all, and comes back.

The consequence is not only a password that is refused.  The key of the signature is read in the
same way, so a key with a `%` in it signs and verifies as another one, the same in both programs.

Not claimed: that pinentry escapes nothing else.  It may; the result is about the escapes that the
protocol asks for.
-/
import GravelBox.Ui.Dialogue
import Mathlib.Data.List.Induction

namespace GravelBox

open Stateful

/-! ## 1. How a password is sent -/

/-- A character of a password in a `D` line. -/
def assuanChar (c : Char) : Str :=
  if c = '%' then "%25".toList
  else if c = '\r' then "%0D".toList
  else if c = '\n' then "%0A".toList
  else [c]

/-- A password as it is sent. -/
def assuanData (p : Str) : Str := p.flatMap assuanChar

/-- A character that is not escaped. -/
def Bare (c : Char) : Prop := c ≠ '%' ∧ c ≠ '\r' ∧ c ≠ '\n'

instance (c : Char) : Decidable (Bare c) := inferInstanceAs (Decidable (_ ∧ _))

/-- What the `D` lines among some notes carry. -/
def dataLines (notes : List Str) : List Str := (notes.filter isData).map (·.drop 2)

/-- The notes are `D` and `S` lines, and the `D` lines together carry the password. -/
structure Carries (p : Str) (notes : List Str) : Prop where
  all_notes : ∀ line ∈ notes, isNote line = true
  data : (dataLines notes).flatten = assuanData p

/-- No character of the password is escaped, and no `D` line but the last carries any. -/
def SentPlainly (p : Str) (notes : List Str) : Prop :=
  (∀ c ∈ p, Bare c) ∧ (dataLines notes).dropLast.flatten = []

theorem assuanChar_bare {c : Char} (h : Bare c) : assuanChar c = [c] := by
  obtain ⟨hpercent, hcr, hlf⟩ := h
  rw [assuanChar, if_neg hpercent, if_neg hcr, if_neg hlf]

theorem assuanData_bare {p : Str} (h : ∀ c ∈ p, Bare c) : assuanData p = p := by
  induction p with
  | nil => rfl
  | cons c p ih =>
    have hrest := ih fun d hd => h d (List.mem_cons_of_mem c hd)
    unfold assuanData at hrest ⊢
    rw [List.flatMap_cons, assuanChar_bare (h c List.mem_cons_self), hrest, List.singleton_append]

/-- **The escape of a character does not end with it**, if it has one. -/
theorem bare_of_append {c : Char} {s t : Str} (h : s ++ assuanChar c = t ++ [c]) :
    Bare c ∧ s = t := by
  have hlast := congrArg List.getLast? h
  rcases eq_or_ne c '%' with rfl | hpercent
  · simp [assuanChar] at hlast
  · rcases eq_or_ne c '\r' with rfl | hcr
    · simp [assuanChar] at hlast
    · rcases eq_or_ne c '\n' with rfl | hlf
      · simp [assuanChar] at hlast
      · have hbare : Bare c := ⟨hpercent, hcr, hlf⟩
        rw [assuanChar_bare hbare] at h
        exact ⟨hbare, List.append_cancel_right h⟩

/-- A password that ends what is sent for it is all there is.  By induction from its end. -/
theorem bare_of_suffix {p pre : Str} (h : assuanData p = pre ++ p) :
    (∀ c ∈ p, Bare c) ∧ pre = [] := by
  induction p using List.reverseRecOn with
  | nil =>
    rw [List.append_nil] at h
    exact ⟨List.forall_mem_nil _, h.symm⟩
  | append_singleton p c ih =>
    have hsnoc : assuanData p ++ assuanChar c = (pre ++ p) ++ [c] := by
      have hsplit : assuanData (p ++ [c]) = assuanData p ++ assuanChar c := by simp [assuanData]
      rw [← hsplit, h, List.append_assoc]
    obtain ⟨hc, hrest⟩ := bare_of_append hsnoc
    obtain ⟨hp, hpre⟩ := ih hrest
    refine ⟨fun d hd => ?_, hpre⟩
    rcases List.mem_append.mp hd with hd | hd
    · exact hp d hd
    · obtain rfl := List.mem_singleton.mp hd
      exact hc

/-! ## 2. What is kept of it -/

/-- `recv` keeps the last `D` line. -/
theorem lastData_eq (notes : List Str) (data : Str) :
    lastData data notes = (dataLines notes).getLast?.getD data := by
  induction notes generalizing data with
  | nil => rfl
  | cons line notes ih =>
    have hstep : lastData data (line :: notes) =
        lastData (if isData line then line.drop 2 else data) notes := rfl
    rw [hstep, ih]
    unfold dataLines
    by_cases hdata : isData line = true
    · rw [if_pos hdata, List.filter_cons_of_pos hdata, List.map_cons, List.getLast?_cons,
        Option.getD_some]
    · rw [if_neg hdata, List.filter_cons_of_neg hdata]

/-- **The last `D` line is the password** if and only if it was sent plainly. -/
theorem lastData_eq_iff {p : Str} {notes : List Str} (h : Carries p notes) :
    lastData [] notes = p ↔ SentPlainly p notes := by
  rw [lastData_eq, SentPlainly]
  have hdata := h.data
  generalize dataLines notes = chunks at hdata
  rcases List.eq_nil_or_concat chunks with rfl | ⟨pre, last, rfl⟩
  · -- no data at all: the password is empty
    rw [List.getLast?_nil, Option.getD_none]
    constructor
    · rintro rfl
      exact ⟨List.forall_mem_nil _, rfl⟩
    · rintro ⟨hbare, -⟩
      rw [assuanData_bare hbare] at hdata
      exact hdata
  · rw [List.concat_eq_append, List.flatten_append, List.flatten_singleton] at hdata
    rw [List.concat_eq_append, List.getLast?_concat, Option.getD_some, List.dropLast_concat]
    constructor
    · rintro rfl
      exact bare_of_suffix hdata.symm
    · rintro ⟨hbare, hpre⟩
      rw [hpre, List.nil_append, assuanData_bare hbare] at hdata
      exact hdata

/-! ## 3. The whole dialogue -/

variable {ρ : Type} (respond : ρ → Str → ρ × List Str)

/-- Written `cmd`, a pinentry in state `q` answers with notes and an `OK` line and is in
state `q'` then. -/
def Accepts (q : ρ) (cmd : Str) (q' : ρ) : Prop :=
  ∃ notes line, hear respond q (cmd.splitOn '\n') = (q', notes ++ [line]) ∧
    (∀ l ∈ notes, isNote l = true) ∧ isOk line = true

/-- A pinentry that accepts some commands, one after the other. -/
inductive AcceptsAll : ρ → List Str → ρ → Prop
  | nil (q : ρ) : AcceptsAll q [] q
  | cons {q q' q'' : ρ} {cmd : Str} {cmds : List Str} :
      Accepts respond q cmd q' → AcceptsAll q' cmds q'' → AcceptsAll q (cmd :: cmds) q''

/-- Everything the pinentry in state `q` has written was read. -/
def Idle (c : PinentryConn ρ) (q : ρ) : Prop := c.pinentry = some q ∧ c.unread = []

/-- Some notes and an `OK` line decide by the `OK` line. -/
theorem decides_ok {notes : List Str} {line : Str} (hnotes : ∀ l ∈ notes, isNote l = true)
    (hline : isOk line = true) : Decides (notes ++ [line]) notes line [] := by
  refine ⟨rfl, hnotes, Bool.eq_false_iff.mpr fun hnote => ?_⟩
  exact (not_answer_of_isNote hnote).1 hline

theorem judge_ok {junk : BitVec 32} {data line : Str} (h : isOk line = true) :
    judge junk data line = .ok { code := 0, data := data } := by
  rw [judge, if_pos h]

/-- One question to an idle pinentry, answered by notes and an `OK` line. -/
theorem ask_idle {c : PinentryConn ρ} {q q' : ρ} {cmd line : Str} {notes : List Str}
    (hc : Idle c q) (hhear : hear respond q (cmd.splitOn '\n') = (q', notes ++ [line]))
    (hnotes : ∀ l ∈ notes, isNote l = true) (hline : isOk line = true) :
    ∃ c', (inquire respond [] cmd).run c = .ok { code := 0, data := lastData [] notes } c' ∧
      Idle c' q' := by
  obtain ⟨hpin, hunread⟩ := hc
  let said : PinentryConn ρ :=
    { c with pinentry := some q', unread := notes ++ [line]
             log := c.log ++ [.wrote (cmd.splitOn '\n') (notes ++ [line])] }
  have hsay : (PinentryConn.say respond cmd).run c = .ok () said := by
    simp only [EStateM.run, PinentryConn.say, hpin, hhear, hunread, List.nil_append]
    rfl
  have hrecv : (PinentryConn.recv (ρ := ρ)).run said =
      .ok { code := 0, data := lastData [] notes } (said.received (notes ++ [line]) []) :=
    recv_ok_iff.mpr ⟨notes, line, [], decides_ok hnotes hline, judge_ok hline, rfl⟩
  exact ⟨_, run_bind_eq_ok.mpr ⟨(), said, hsay, hrecv⟩, rfl, rfl⟩

/-- An order that is accepted leaves the pinentry idle. -/
theorem order_idle {c : PinentryConn ρ} {q q' : ρ} {cmd : Str} (hc : Idle c q)
    (h : Accepts respond q cmd q') : ∃ c', (order respond cmd).run c = .ok () c' ∧ Idle c' q' := by
  obtain ⟨notes, line, hhear, hnotes, hline⟩ := h
  obtain ⟨c', hrun, hidle⟩ := ask_idle respond hc hhear hnotes hline
  exact ⟨c', (order_ok_iff respond).mpr ⟨_, hrun, rfl⟩, hidle⟩

/-- **A dialogue** whose orders are accepted gives the answer to its question. -/
theorem inquire_idle {cmds : List Str} {question line : Str} {notes : List Str} {q q' q'' : ρ}
    (h : AcceptsAll respond q cmds q')
    (hhear : hear respond q' (question.splitOn '\n') = (q'', notes ++ [line]))
    (hnotes : ∀ l ∈ notes, isNote l = true) (hline : isOk line = true)
    {c : PinentryConn ρ} (hc : Idle c q) :
    ∃ c', (inquire respond cmds question).run c =
      .ok { code := 0, data := lastData [] notes } c' := by
  induction h generalizing c with
  | nil q =>
    obtain ⟨c', hrun, -⟩ := ask_idle respond hc hhear hnotes hline
    exact ⟨c', hrun⟩
  | cons hfirst _ ih =>
    obtain ⟨s, horder, hs⟩ := order_idle respond hc hfirst
    obtain ⟨c', hrun⟩ := ih hhear hs
    exact ⟨c', run_bind_eq_ok.mpr ⟨(), s, horder, hrun⟩⟩

/-- What `getpin` returns, if all its orders are accepted and a password is sent. -/
theorem run_getpin {c : PinentryConn ρ} {q q' : ρ} {message prompt error line : Str}
    {notes : List Str} (hc : Idle c q)
    (hset : AcceptsAll respond q (getpinSetup message prompt error) q')
    (hget : (respond q' "GETPIN".toList).2 = notes ++ [line])
    (hnotes : ∀ l ∈ notes, isNote l = true) (hline : isOk line = true) :
    ∃ c', (PinentryConn.getpin respond message prompt error).run c =
      .ok { cancelled := false, password := lastData [] notes } c' := by
  have hhear : hear respond q' ("GETPIN".toList.splitOn '\n') =
      ((respond q' "GETPIN".toList).1, notes ++ [line]) := by
    rw [List.splitOn_eq_singleton (by decide), ← hget]
    simp only [hear, List.append_nil]
  obtain ⟨c', hrun⟩ := inquire_idle respond hset hhear hnotes hline hc
  rw [getpin_eq]
  exact ⟨c', run_bind_eq_ok.mpr ⟨_, c', hrun, conclude_ok_iff.mpr ⟨rfl, .inl ⟨rfl, rfl⟩⟩⟩⟩

/-- **The password that was entered comes back** if and only if it has no `%`, CR or LF and
is all on the last `D` line. -/
theorem getpin_faithful_iff {c : PinentryConn ρ} {q q' : ρ} {message prompt error line p : Str}
    {notes : List Str} (hc : Idle c q)
    (hset : AcceptsAll respond q (getpinSetup message prompt error) q')
    (hget : (respond q' "GETPIN".toList).2 = notes ++ [line]) (hp : Carries p notes)
    (hline : isOk line = true) :
    (∃ c', (PinentryConn.getpin respond message prompt error).run c =
      .ok { cancelled := false, password := p } c') ↔ SentPlainly p notes := by
  obtain ⟨c', hrun⟩ := run_getpin respond hc hset hget hp.all_notes hline
  rw [← lastData_eq_iff hp, hrun]
  constructor
  · rintro ⟨c'', h⟩
    cases h
    rfl
  · intro h
    rw [h]
    exact ⟨c', rfl⟩

/-! ## 4. Passwords that do and do not come back -/

/-- A pinentry whose user enters the password that is sent in these lines. -/
def entering (notes : List Str) (_ : Unit) (cmd : Str) : Unit × List Str :=
  ((), (if cmd = "GETPIN".toList then notes else []) ++ ["OK".toList])

/-- The connection to it, with nothing to read. -/
def connected : PinentryConn Unit :=
  { pinentry := some (), unread := [], junk := fun _ => 0, log := [] }

/-- It accepts the setup of a dialogue without a message. -/
theorem entering_accepts (notes : List Str) :
    AcceptsAll (entering notes) () (getpinSetup [] [] []) () := by
  have hone : ∀ {cmd : Str}, cmd.splitOn '\n' = [cmd] → cmd ≠ "GETPIN".toList →
      Accepts (entering notes) () cmd () := by
    intro cmd hsplit hne
    refine ⟨[], "OK".toList, ?_, List.forall_mem_nil _, rfl⟩
    rw [hsplit]
    simp only [hear, entering, if_neg hne, List.append_nil]
  exact .cons (hone rfl (by decide)) (.cons (hone rfl (by decide))
    (.cons (hone rfl (by decide)) (.cons (hone rfl (by decide)) (.nil ()))))

/-- A plain password comes back. -/
theorem getpin_faithful_secret :
    ∃ c', (PinentryConn.getpin (entering ["D secret".toList]) [] [] []).run connected =
      .ok { cancelled := false, password := "secret".toList } c' := by
  have hidle : Idle connected () := ⟨rfl, rfl⟩
  have hcarries : Carries "secret".toList ["D secret".toList] := by
    refine ⟨fun line hline => ?_, rfl⟩
    obtain rfl := List.mem_singleton.mp hline
    rfl
  have hbare : "secret".toList.all (fun c => decide (Bare c)) = true := rfl
  refine (getpin_faithful_iff (entering ["D secret".toList]) hidle (entering_accepts _)
    rfl hcarries rfl).mpr ⟨fun c hc => ?_, rfl⟩
  exact of_decide_eq_true (List.all_eq_true.mp hbare c hc)

/-- What comes back from a pinentry that sends these lines. -/
theorem run_entering {notes : List Str} (h : ∀ line ∈ notes, isNote line = true) :
    ∃ c', (PinentryConn.getpin (entering notes) [] [] []).run connected =
      .ok { cancelled := false, password := lastData [] notes } c' := by
  have hidle : Idle connected () := ⟨rfl, rfl⟩
  have hget : (entering notes () "GETPIN".toList).2 = notes ++ ["OK".toList] := by
    rw [entering, if_pos rfl]
  exact run_getpin (entering notes) hidle (entering_accepts notes) hget h rfl

/-- The password does not come back. -/
theorem run_entering_ne {p : Str} {notes : List Str} (h : Carries p notes)
    (hne : lastData [] notes ≠ p) :
    ¬ ∃ c', (PinentryConn.getpin (entering notes) [] [] []).run connected =
      .ok { cancelled := false, password := p } c' := by
  obtain ⟨c', hrun⟩ := run_entering h.all_notes
  rintro ⟨c'', hrun'⟩
  rw [hrun] at hrun'
  cases hrun'
  exact hne rfl

/-- **A password with a percent sign does not come back**, and neither does one that is sent
in two lines. -/
theorem getpin_distorts :
    (Carries "100%".toList ["D 100%25".toList] ∧
      ¬ ∃ c', (PinentryConn.getpin (entering ["D 100%25".toList]) [] [] []).run connected =
        .ok { cancelled := false, password := "100%".toList } c') ∧
    (Carries "secret".toList ["D sec".toList, "D ret".toList] ∧
      ¬ ∃ c', (PinentryConn.getpin (entering ["D sec".toList, "D ret".toList]) [] [] []).run
        connected = .ok { cancelled := false, password := "secret".toList } c') := by
  have hone : Carries "100%".toList ["D 100%25".toList] := by
    refine ⟨fun line hline => ?_, rfl⟩
    obtain rfl := List.mem_singleton.mp hline
    rfl
  have htwo : Carries "secret".toList ["D sec".toList, "D ret".toList] := by
    refine ⟨fun line hline => ?_, rfl⟩
    rcases List.mem_cons.mp hline with rfl | hline
    · rfl
    · obtain rfl := List.mem_singleton.mp hline
      rfl
  exact ⟨⟨hone, run_entering_ne hone (by decide)⟩, htwo, run_entering_ne htwo (by decide)⟩

end GravelBox
