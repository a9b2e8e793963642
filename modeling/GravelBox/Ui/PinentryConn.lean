/-
# The connection to pinentry

pinentry is a process at the other end of two pipes.  `PinentryConn` (`ui/pinentry_conn.h`, lines 46
to 134, and `ui/pinentry_conn.cpp`) writes it commands, a line each, and reads its answers: any
number of data and status lines, then an `OK` or an `ERR` line.  What the process does is a
parameter: `respond` says with which lines it answers one line in one of its states.

The log is not in the source.  It records what went over the pipes, in order, so that the
theorems can say which answer belongs to which command.

`recv` is the part that reads.  It goes by the first characters of a line, and the tests are not
quite what they look like: `line.substr(0, 3) == "OK"` holds of the line `OK` only, `"OK "` of those
with something behind it, a line `D` without a blank is an unknown response, and of several data
lines the last counts (`recv_ok_iff`).  The error code is read as `Ui/IStream.lean` describes, so an
`ERR` line can have the code 0, and that is what counts as a success (`judge_success_iff`).

All lines that pinentry sends are there when they are read, or never will be.  That is no
restriction: a `recv` that waits for a line is one that has not returned yet, and a line that came
later is in the list.  What is read too early or too late is a matter of the order of lines, which
the model keeps.

What becomes of a pinentry that is gone is said by `PinentryConn.pinentry` being `none`: writing to
it fails, and reading is possible up to the end of what it sent.

Not modelled: output that is held back in a buffer (every command ends in `std::endl`), and a read
that is interrupted.
-/
import GravelBox.Ui.IStream
import GravelBox.Lib.Codes

namespace GravelBox

open Stateful

def kCancel : BitVec 32 := 83886179

/-- What went over the pipes. -/
inductive Traffic
  /-- A new pinentry wrote these lines unasked. -/
  | greeted (lines : List Str)
  /-- We wrote some lines, and these are its answers to them. -/
  | wrote (lines replies : List Str)
  /-- One `recv` read these lines. -/
  | read (lines : List Str)
  deriving DecidableEq

/-- `PinentryConn`, with the process it talks to. -/
structure PinentryConn (ρ : Type) where
  /-- The process, once the connection was opened. -/
  pinentry : Option ρ
  /-- The lines it wrote that were not yet read. -/
  unread : List Str
  /-- What the variable `code` of the `n`th `recv` from now on holds before anything is
  stored in it. -/
  junk : Nat → BitVec 32
  log : List Traffic

/-! ## 1. Reading a response -/

/-- `Response`. -/
structure Response where
  code : BitVec 32
  data : Str
  deriving DecidableEq

/-- `Response::operator bool`. -/
def Response.success (r : Response) : Bool := r.code = 0

variable {ρ : Type} (respond : ρ → Str → ρ × List Str)

/-- `Response::throw_error`.  Its `assert` holds where it is called: there the response is
not a success. -/
def Response.throwError {α : Type} (r : Response) : EStateM Fault (PinentryConn ρ) α :=
  throw (.pinentryException (Nat.toDigits 10 r.code.toNat ++ [' '] ++ r.data))

def isOk (line : Str) : Bool := line.take 3 = "OK".toList || line.take 3 = "OK ".toList
def isErr (line : Str) : Bool := line.take 4 = "ERR ".toList
def isData (line : Str) : Bool := line.take 2 = "D ".toList
def isStatus (line : Str) : Bool := line.take 2 = "S ".toList

/-- What is made of an `ERR` line. -/
def errResponse (junk : BitVec 32) (data line : Str) : Response :=
  let e := extract junk (line.drop 4)
  { code := e.value, data := if e.good then e.rest.drop 1 else data }

/-- The loop of `recv` over the lines that come, and the lines it leaves. -/
def recvFrom (junk : BitVec 32) : Str → List Str → Except Fault Response × List Str
  | _, [] => (.error .iosFailure, [])
  | data, line :: lines =>
    if isOk line then (.ok { code := 0, data := data }, lines)
    else if isErr line then (.ok (errResponse junk data line), lines)
    else if isData line then recvFrom junk (line.drop 2) lines
    else if isStatus line then recvFrom junk data lines
    else (.error (.pinentryException ("Unknown response: \"".toList ++ line ++ ['"'])), lines)

/-- The connection after a `recv` that read `lines` and left `rest`. -/
def PinentryConn.received (c : PinentryConn ρ) (lines rest : List Str) : PinentryConn ρ :=
  { c with unread := rest, junk := fun n => c.junk (n + 1), log := c.log ++ [.read lines] }

/-- `PinentryConn::recv`. -/
def PinentryConn.recv : EStateM Fault (PinentryConn ρ) Response := fun c =>
  let (r, rest) := recvFrom (c.junk 0) [] c.unread
  let c' := c.received (c.unread.take (c.unread.length - rest.length)) rest
  match r with
  | .ok r => .ok r c'
  | .error f => .error f c'

/-- `PinentryConn::ok`. -/
def PinentryConn.ok : EStateM Fault (PinentryConn ρ) Unit := do
  let r ← recv
  if r.success = false then r.throwError

/-! ## 2. Writing commands -/

/-- pinentry reads some lines and answers each. -/
def hear : ρ → List Str → ρ × List Str
  | q, [] => (q, [])
  | q, line :: lines =>
    let (q, reply) := respond q line
    let (q, replies) := hear q lines
    (q, reply ++ replies)

/-- `os_ << text << std::endl`. -/
def PinentryConn.say (text : Str) : EStateM Fault (PinentryConn ρ) Unit := fun c =>
  match c.pinentry with
  | none => .error .iosFailure c
  | some q =>
    let lines := text.splitOn '\n'
    let (q, replies) := hear respond q lines
    .ok () { c with pinentry := some q, unread := c.unread ++ replies
                    log := c.log ++ [.wrote lines replies] }

/-- What becomes of a fault while GravelBox holds the other ends of the pipes itself, as the
constructor of `PinentryUI` does: a pipe is not at its end then, and a read waits for ever. -/
def Fault.whileHeld (f : Fault) : Fault := if f = .iosFailure then .blocked else f

/-- `PinentryConn::open`, on the pipes of a new pinentry in state `q` that has written
`greeting`.  Lines of an earlier one that the stream has in its buffer stay there. -/
def PinentryConn.open (q : ρ) (greeting : List Str) : EStateM Fault (PinentryConn ρ) Unit := do
  modify fun c => { c with pinentry := some q, unread := c.unread ++ greeting
                           log := c.log ++ [.greeted greeting] }
  mapError Fault.whileHeld ok
  say respond "SETTITLE GravelBox".toList
  mapError Fault.whileHeld ok

/-- `PinentryConn::close`. -/
def PinentryConn.close : EStateM Fault (PinentryConn ρ) Unit := do
  say respond "BYE".toList
  ok

/-- `PinentryConn::confirm`. -/
def PinentryConn.confirm (message : Str) : EStateM Fault (PinentryConn ρ) Bool := do
  say respond ("SETDESC ".toList ++ message)
  ok
  say respond "SETOK Allow".toList
  ok
  say respond "SETCANCEL Deny".toList
  ok
  say respond "CONFIRM".toList
  let r ← recv
  if r.success then return true
  if r.code = kCancel then return false
  r.throwError

/-- `Password`. -/
structure Password where
  cancelled : Bool
  password : Str
  deriving DecidableEq

/-- `PinentryConn::getpin`. -/
def PinentryConn.getpin (message prompt error : Str) :
    EStateM Fault (PinentryConn ρ) Password := do
  say respond ("SETDESC ".toList ++ message)
  ok
  say respond ("SETPROMPT ".toList ++ prompt)
  ok
  say respond "SETOK OK".toList
  ok
  say respond "SETCANCEL Cancel".toList
  ok
  if error ≠ [] then do
    say respond ("SETERROR ".toList ++ error)
    ok
  say respond "GETPIN".toList
  let r ← recv
  if r.success then return { cancelled := false, password := r.data }
  if r.code = kCancel then return { cancelled := true, password := [] }
  r.throwError

/-- `PinentryUI::ask`.  A `PinentryUI` is its connection. -/
def PinentryUI.ask (syscall : Str) : EStateM Fault (PinentryConn ρ) Bool :=
  PinentryConn.confirm respond
    ("Do you allow the following system call?%0a%0a".toList ++ syscall)

/-- `PinentryUI::ask_password`. -/
def PinentryUI.askPassword (message prompt error : Str) :
    EStateM Fault (PinentryConn ρ) Password :=
  PinentryConn.getpin respond message prompt error

/-! ## 3. What a `recv` makes of the lines

Data and status lines are notes; the first line that is not decides. -/

/-- A line that comes before the answer. -/
def isNote (line : Str) : Bool := isData line || isStatus line

/-- What a `recv` makes of the line that decides, `data` being the last data line's. -/
def judge (junk : BitVec 32) (data line : Str) : Except Fault Response :=
  if isOk line then .ok { code := 0, data := data }
  else if isErr line then .ok (errResponse junk data line)
  else .error (.pinentryException ("Unknown response: \"".toList ++ line ++ ['"']))

/-- What `data` holds after some notes. -/
def lastData (data : Str) (notes : List Str) : Str :=
  notes.foldl (fun data line => if isData line then line.drop 2 else data) data

/-- The first character of a line that starts as given. -/
theorem head_of_take {line s : Str} {c : Char} {n : Nat} (h : line.take (n + 1) = c :: s) :
    line.head? = some c := by
  cases line with
  | nil => cases h
  | cons d line =>
    rw [List.take_succ_cons, List.cons.injEq] at h
    rw [List.head?_cons, h.1]

theorem head_of_isOk {line : Str} (h : isOk line = true) : line.head? = some 'O' := by
  unfold isOk at h
  rw [Bool.or_eq_true, decide_eq_true_eq, decide_eq_true_eq] at h
  rcases h with h | h
  · exact head_of_take h
  · exact head_of_take h

theorem head_of_isErr {line : Str} (h : isErr line = true) : line.head? = some 'E' :=
  head_of_take (of_decide_eq_true h)

theorem head_of_isNote {line : Str} (h : isNote line = true) :
    line.head? = some 'D' ∨ line.head? = some 'S' := by
  unfold isNote isData isStatus at h
  rw [Bool.or_eq_true, decide_eq_true_eq, decide_eq_true_eq] at h
  rcases h with h | h
  · exact .inl (head_of_take h)
  · exact .inr (head_of_take h)

/-- A note is neither `OK` nor `ERR`. -/
theorem not_answer_of_isNote {line : Str} (h : isNote line = true) :
    ¬ isOk line = true ∧ ¬ isErr line = true := by
  have hhead := head_of_isNote h
  constructor
  · intro hok
    rw [head_of_isOk hok] at hhead
    revert hhead
    decide
  · intro herr
    rw [head_of_isErr herr] at hhead
    revert hhead
    decide

theorem not_isErr_of_isOk {line : Str} (h : isOk line = true) : isErr line = false := by
  rw [Bool.eq_false_iff]
  intro herr
  have hhead := (head_of_isOk h).symm.trans (head_of_isErr herr)
  revert hhead
  decide

/-- Notes are passed over. -/
theorem recvFrom_notes (junk : BitVec 32) {notes : List Str}
    (h : ∀ line ∈ notes, isNote line = true) (data : Str) (lines : List Str) :
    recvFrom junk data (notes ++ lines) = recvFrom junk (lastData data notes) lines := by
  induction notes generalizing data with
  | nil => rfl
  | cons line notes ih =>
    have hnote := h line List.mem_cons_self
    obtain ⟨hok, herr⟩ := not_answer_of_isNote hnote
    have hrest := ih fun l hl => h l (List.mem_cons_of_mem line hl)
    rw [List.cons_append, recvFrom, if_neg hok, if_neg herr]
    by_cases hdata : isData line = true
    · rw [if_pos hdata, hrest, lastData, lastData, List.foldl_cons, if_pos hdata]
    · have hstatus : isStatus line = true := by
        unfold isNote at hnote
        rw [Bool.or_eq_true] at hnote
        exact hnote.resolve_left hdata
      rw [if_neg hdata, if_pos hstatus, hrest, lastData, lastData, List.foldl_cons, if_neg hdata]

/-- The first line that is no note decides. -/
theorem recvFrom_answer (junk : BitVec 32) {line : Str} (h : isNote line = false) (data : Str)
    (lines : List Str) :
    recvFrom junk data (line :: lines) = (judge junk data line, lines) := by
  unfold isNote at h
  rw [Bool.or_eq_false_iff] at h
  rw [recvFrom, judge]
  split
  · rfl
  · split
    · rfl
    · rw [if_neg (by simp [h.1]), if_neg (by simp [h.2])]

/-- Nothing but notes: the pipe is at its end before an answer came. -/
theorem recvFrom_end (junk : BitVec 32) {notes : List Str}
    (h : ∀ line ∈ notes, isNote line = true) (data : Str) :
    recvFrom junk data notes = (.error .iosFailure, []) := by
  have hend := recvFrom_notes junk h data []
  rw [List.append_nil] at hend
  exact hend

/-- A `recv` of `lines` passes over `notes`, decides by `line` and leaves `rest`. -/
structure Decides (lines notes : List Str) (line : Str) (rest : List Str) : Prop where
  split : lines = notes ++ line :: rest
  notes : ∀ l ∈ notes, isNote l = true
  answer : isNote line = false

/-- Some line decides, unless there are only notes. -/
theorem decides_or_notes (lines : List Str) :
    (∃ notes line rest, Decides lines notes line rest) ∨ ∀ line ∈ lines, isNote line = true := by
  induction lines with
  | nil => exact .inr nofun
  | cons line lines ih =>
    by_cases hnote : isNote line = true
    · rcases ih with ⟨notes, l, rest, hsplit, hnotes, hans⟩ | hall
      · refine .inl ⟨line :: notes, l, rest, ?_, ?_, hans⟩
        · rw [hsplit, List.cons_append]
        · exact List.forall_mem_cons.mpr ⟨hnote, hnotes⟩
      · exact .inr (List.forall_mem_cons.mpr ⟨hnote, hall⟩)
    · exact .inl ⟨[], line, lines, rfl, nofun, Bool.eq_false_iff.mpr hnote⟩

/-- `recv`, when some line decides. -/
theorem recv_of_decides {c : PinentryConn ρ} {notes rest : List Str} {line : Str}
    (h : Decides c.unread notes line rest) :
    (PinentryConn.recv (ρ := ρ)).run c =
      match judge (c.junk 0) (lastData [] notes) line with
      | .ok r => .ok r (c.received (notes ++ [line]) rest)
      | .error f => .error f (c.received (notes ++ [line]) rest) := by
  have hfrom : recvFrom (c.junk 0) [] c.unread =
      (judge (c.junk 0) (lastData [] notes) line, rest) := by
    rw [h.split, recvFrom_notes _ h.notes, recvFrom_answer _ h.answer]
  have hread : c.unread.take (c.unread.length - rest.length) = notes ++ [line] := by
    have hlines : c.unread = (notes ++ [line]) ++ rest := by
      rw [h.split, List.append_assoc, List.singleton_append]
    rw [hlines, List.length_append, Nat.add_sub_cancel, List.take_left]
  simp only [EStateM.run, PinentryConn.recv, hfrom, hread]

/-- **`recv`** returns just what it makes of the line that decides. -/
theorem recv_ok_iff {c c' : PinentryConn ρ} {r : Response} :
    (PinentryConn.recv (ρ := ρ)).run c = .ok r c' ↔
      ∃ notes line rest, Decides c.unread notes line rest ∧
        judge (c.junk 0) (lastData [] notes) line = .ok r ∧
          c' = c.received (notes ++ [line]) rest := by
  constructor
  · intro hrun
    rcases decides_or_notes c.unread with ⟨notes, line, rest, h⟩ | hall
    · rw [recv_of_decides h] at hrun
      refine ⟨notes, line, rest, h, ?_⟩
      cases hjudge : judge (c.junk 0) (lastData [] notes) line with
      | error f =>
        rw [hjudge] at hrun
        cases hrun
      | ok r' =>
        rw [hjudge] at hrun
        cases hrun
        exact ⟨rfl, rfl⟩
    · simp only [EStateM.run, PinentryConn.recv, recvFrom_end (c.junk 0) hall []] at hrun
      cases hrun
  · rintro ⟨notes, line, rest, h, hjudge, rfl⟩
    rw [recv_of_decides h, hjudge]

/-! ## 4. Which lines count as a success -/

/-- An `ERR` line that is taken for a success: its text has no digit but 0. -/
def vanishes (junk : BitVec 32) (line : Str) : Bool :=
  isErr line && zeroText junk (line.drop 4)

/-- A line that passes for a success. -/
def Passes (junk : BitVec 32) (line : Str) : Prop :=
  isOk line = true ∨ vanishes junk line = true

theorem not_vanishes_of_isOk {junk : BitVec 32} {line : Str} (h : isOk line = true) :
    vanishes junk line = false := by
  unfold vanishes
  rw [not_isErr_of_isOk h, Bool.false_and]

/-- **A line is taken for a success** if and only if it is an `OK` line or an `ERR` line
without a digit other than 0. -/
theorem judge_success_iff {junk : BitVec 32} {data line : Str} :
    (∃ r, judge junk data line = .ok r ∧ r.success = true) ↔ Passes junk line := by
  unfold judge Passes
  by_cases hok : isOk line = true
  · rw [if_pos hok]
    exact ⟨fun _ => .inl hok, fun _ => ⟨_, rfl, rfl⟩⟩
  · rw [if_neg hok]
    by_cases herr : isErr line = true
    · rw [if_pos herr]
      have hcode : (errResponse junk data line).success = true ↔
          zeroText junk (line.drop 4) = true := by
        rw [← extract_eq_zero_iff, Response.success, decide_eq_true_eq]
        rfl
      unfold vanishes
      rw [Bool.and_eq_true, ← hcode]
      constructor
      · rintro ⟨r, hr, hsuccess⟩
        cases hr
        exact .inr ⟨herr, hsuccess⟩
      · rintro (h | ⟨-, hsuccess⟩)
        · exact absurd h hok
        · exact ⟨_, rfl, hsuccess⟩
    · rw [if_neg herr]
      unfold vanishes
      rw [Bool.and_eq_true]
      constructor
      · rintro ⟨r, hr, -⟩
        cases hr
      · rintro (h | ⟨h, -⟩)
        · exact absurd h hok
        · exact absurd h herr

/-- The same, of a response that was made. -/
theorem success_iff_passes {junk : BitVec 32} {data line : Str} {r : Response}
    (h : judge junk data line = .ok r) : r.success = true ↔ Passes junk line := by
  constructor
  · intro hr
    exact judge_success_iff.mp ⟨r, h, hr⟩
  · intro hpass
    obtain ⟨r', hr', hsuccess⟩ := judge_success_iff.mpr hpass
    obtain rfl : r = r' := Except.ok.inj (h.symm.trans hr')
    exact hsuccess

end GravelBox
