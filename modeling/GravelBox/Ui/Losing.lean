/-
# Losing pinentry

pinentry is a process of its own: it may close its end of the pipe, exit, or answer what it
likes.  `PinentryConn` (`ui/pinentry_conn.h`) then throws, and `main` has a handler for what it
throws.  But there are two ways not to get to it.

The exception leaves the scope of a `PinentryUI`, whose destructor (`ui/pinentry_ui.cpp`, lines 38
to 47) talks to pinentry once more and waits for it.  A destructor is `noexcept`: if pinentry is
not there to say goodbye, the process is terminated before the handler is reached.

And there is no exception at all while the constructor (lines 17 to 35) opens the connection.  It
still holds the ends of the two pipes that are meant for pinentry, so that writing does not fail
and a read does not come to the end of the pipe: a pinentry that is gone by then is waited for
without end.

What makes this hard is that every point of a conversation has to be followed through what comes
after it.  Writing to a pipe that nobody reads fails with EPIPE, which the stream keeps as its
`badbit`; a read at the end of the pipe sets its `eofbit`.  Both make every later operation throw
again, so the state of the streams decides what the destructor does.

`losing_reported_iff` says exactly when a run is reported as it should be.  Not claimed: anything
of a pinentry that neither answers nor goes; here a pinentry that does not answer has closed its
end, and one that is waited for ends.  The tracer passes the exceptions on: its own handler is for
ESRCH only.
-/
import GravelBox.Lib.Runs
import GravelBox.Ui.Dialogue
import Mathlib.Data.List.TakeWhile

namespace GravelBox

open Stateful Runs

/-! ## 1. The streams of a `PinentryUI` -/

/-- The process. -/
structure Peer (ρ : Type) where
  /-- The lines with which it answers a line. -/
  respond : ρ → Str → ρ × List Str
  /-- Its end of the pipe that we write to is open. -/
  listens : ρ → Bool
  /-- It has exited. -/
  exited : ρ → Bool
  /-- It exits by itself in the end, and not by a signal. -/
  exitsWell : ρ → Bool

/-- A `PinentryUI` that was constructed. -/
structure LiveUi (ρ : Type) where
  conn : PinentryConn ρ
  /-- The `badbit` of `os_`. -/
  outBad : Bool
  /-- The `eofbit` of `is_`. -/
  inEnd : Bool
  /-- The tracer's `waitpid(-1)` has returned for this process. -/
  collected : Bool

variable {ρ : Type} (peer : Peer ρ)

def ECHILD : Nat := 10

/-- What does not depend on the streams. -/
def LiveUi.onConn {α : Type} (x : EStateM Fault (PinentryConn ρ) α) :
    EStateM Fault (LiveUi ρ) α :=
  zoom LiveUi.conn (fun u c => { u with conn := c }) x

/-- Somebody reads what we write. -/
def LiveUi.listens (u : LiveUi ρ) : Bool := u.conn.pinentry.any peer.listens

/-- `os_ << text << std::endl`. -/
def LiveUi.say (text : Str) : EStateM Fault (LiveUi ρ) Unit := do
  let u ← get
  if u.outBad = true ∨ u.listens peer = false then
    modify fun u => { u with outBad := true }
    throw .iosFailure
  onConn (PinentryConn.say peer.respond text)

/-- A `recv` that threw: at the end of the pipe, the stream stays there. -/
def LiveUi.recvFailed {α : Type} (f : Fault) : EStateM Fault (LiveUi ρ) α := fun u =>
  .error f { u with inEnd := u.inEnd || f = .iosFailure }

/-- `PinentryConn::recv`. -/
def LiveUi.recv : EStateM Fault (LiveUi ρ) Response := do
  let u ← get
  if u.inEnd = true then throw .iosFailure
  tryCatch (onConn PinentryConn.recv) recvFailed

/-- `PinentryConn::ok`. -/
def LiveUi.ok : EStateM Fault (LiveUi ρ) Unit := do
  let r ← recv
  if r.success = false then onConn r.throwError

/-- One command that has to be accepted. -/
def LiveUi.order (cmd : Str) : EStateM Fault (LiveUi ρ) Unit := do
  say peer cmd
  ok

/-- Some commands that have to be accepted, then one whose answer is wanted. -/
def LiveUi.inquire : List Str → Str → EStateM Fault (LiveUi ρ) Response
  | [], question => do
    say peer question
    recv
  | cmd :: cmds, question => do
    order peer cmd
    inquire cmds question

/-- `PinentryUI::ask`. -/
def LiveUi.ask (syscall : Str) : EStateM Fault (LiveUi ρ) Bool := do
  let r ← inquire peer
    (confirmSetup ("Do you allow the following system call?%0a%0a".toList ++ syscall))
    "CONFIRM".toList
  onConn (conclude (fun _ => true) false r)

/-- `PinentryUI::ask_password`. -/
def LiveUi.askPassword (message prompt error : Str) : EStateM Fault (LiveUi ρ) Password := do
  let r ← inquire peer (getpinSetup message prompt error) "GETPIN".toList
  onConn (conclude entered notEntered r)

/-- The connection to a new pinentry, whose first lines are `greeting`. -/
def LiveUi.fresh (q : ρ) (greeting : List Str) (junk : Nat → BitVec 32) : LiveUi ρ :=
  { conn := { pinentry := some q, unread := greeting, junk := junk, log := [.greeted greeting] }
    outBad := false, inEnd := false, collected := false }

/-- A command while the constructor holds the end to read from as well: it gets into the pipe,
also if pinentry does not read it. -/
def LiveUi.sayHeld (text : Str) : EStateM Fault (LiveUi ρ) Unit := do
  let u ← get
  if u.listens peer = true then onConn (PinentryConn.say peer.respond text)
  else onConn (modify fun c => { c with log := c.log ++ [.wrote (text.splitOn '\n') []] })

/-- `PinentryConn::open`, once the pipes are there. -/
def LiveUi.open : EStateM Fault (LiveUi ρ) Unit := do
  mapError Fault.whileHeld ok
  sayHeld peer "SETTITLE GravelBox".toList
  mapError Fault.whileHeld ok

/-- `PinentryConn::close`. -/
def LiveUi.close : EStateM Fault (LiveUi ρ) Unit := order peer "BYE".toList

/-- `check(waitpid(..))`, and in a build with assertions that pinentry exited by itself. -/
def LiveUi.wait (ndebug : Bool) : EStateM Fault (LiveUi ρ) Unit := do
  let u ← get
  if u.collected = true then throw (.systemError ECHILD)
  if ndebug = false ∧ u.conn.pinentry.all peer.exitsWell = false then throw .assertion

/-- `PinentryUI::~PinentryUI`, in the process that constructed the object. -/
def LiveUi.destroy (ndebug : Bool) : EStateM Fault (LiveUi ρ) Unit := noexcept do
  close peer
  wait peer ndebug

/-! ## 2. While pinentry listens, the streams do not matter -/

section Follows

variable {peer} {α β : Type}

/-- Both streams are good. -/
def LiveUi.Good (u : LiveUi ρ) : Prop := u.outBad = false ∧ u.inEnd = false

/-- On good streams `y` ends as `x` does on the connection; if it returns they are still good. -/
def Follows (x : EStateM Fault (PinentryConn ρ) α) (y : EStateM Fault (LiveUi ρ) α) : Prop :=
  ∀ u : LiveUi ρ, u.Good →
    Ends y u (fun a u' => ∃ c, x.run u.conn = .ok a c ∧ u' = { u with conn := c })
      (fun f u' => x.run u.conn = .error f u'.conn)

theorem follows_onConn (x : EStateM Fault (PinentryConn ρ) α) : Follows x (LiveUi.onConn x) := by
  intro u _
  rw [LiveUi.onConn, ends_zoom]
  exact (ends_run x u.conn).mono (fun a c hx => ⟨c, hx, rfl⟩) fun _ _ hx => hx

theorem Follows.bind {x : EStateM Fault (PinentryConn ρ) α} {y : EStateM Fault (LiveUi ρ) α}
    {f : α → EStateM Fault (PinentryConn ρ) β} {g : α → EStateM Fault (LiveUi ρ) β}
    (h : Follows x y) (hfg : ∀ a, Follows (f a) (g a)) : Follows (x >>= f) (y >>= g) := by
  intro u hu
  rw [ends_bind]
  refine (h u hu).mono ?_ ?_
  · rintro a _ ⟨c, hx, rfl⟩
    refine (hfg a { u with conn := c } hu).mono ?_ ?_
    · rintro b _ ⟨c', hf, rfl⟩
      exact ⟨c', run_bind_eq_ok.mpr ⟨a, c, hx, hf⟩, rfl⟩
    · intro e u' hf
      rw [EStateM.run_bind, hx]
      exact hf
  · intro e u' hx
    rw [EStateM.run_bind, hx]

theorem follows_say (hlistens : ∀ q, peer.listens q = true) (text : Str) :
    Follows (PinentryConn.say peer.respond text) (LiveUi.say peer text) := by
  intro u hu
  rw [LiveUi.say, ends_bind, ends_get]
  cases hq : u.conn.pinentry with
  | none =>
    have hbad : u.outBad = true ∨ u.listens peer = false := by
      refine .inr ?_
      rw [LiveUi.listens, hq]
      rfl
    simp only [if_pos hbad, ends_bind, ends_modify, ends_throw]
    simp only [EStateM.run, PinentryConn.say, hq]
  | some q =>
    have hgood : ¬ (u.outBad = true ∨ u.listens peer = false) := by
      rw [hu.1, LiveUi.listens, hq, Option.any_some, hlistens q]
      decide
    rw [if_neg hgood]
    exact follows_onConn _ u hu

theorem follows_recv : Follows (PinentryConn.recv (ρ := ρ)) LiveUi.recv := by
  intro u hu
  have hgood : ¬ u.inEnd = true := by
    rw [hu.2]
    decide
  rw [LiveUi.recv, ends_bind, ends_get, if_neg hgood, ends_tryCatch]
  exact (follows_onConn _ u hu).mono (fun _ _ h => h) fun _ _ h => h

theorem follows_ok : Follows (PinentryConn.ok (ρ := ρ)) LiveUi.ok := by
  refine follows_recv.bind fun r => ?_
  by_cases hr : r.success = false
  · rw [if_pos hr, if_pos hr]
    exact follows_onConn _
  · rw [if_neg hr, if_neg hr]
    exact follows_onConn (pure ())

/-- **A whole question**, as long as pinentry listens. -/
theorem follows_inquire (hlistens : ∀ q, peer.listens q = true) (setup : List Str)
    (question : Str) : Follows (inquire peer.respond setup question)
      (LiveUi.inquire peer setup question) := by
  induction setup with
  | nil => exact (follows_say hlistens question).bind fun _ => follows_recv
  | cons cmd setup ih =>
    exact ((follows_say hlistens cmd).bind fun _ => follows_ok).bind fun _ => ih

/-- `ask` does what it does on the connection alone. -/
theorem follows_ask (hlistens : ∀ q, peer.listens q = true) (syscall : Str) :
    Follows (PinentryUI.ask peer.respond syscall) (LiveUi.ask peer syscall) := by
  rw [PinentryUI.ask, confirm_eq]
  exact (follows_inquire hlistens _ _).bind fun r => follows_onConn _

/-- And so does `ask_password`. -/
theorem follows_askPassword (hlistens : ∀ q, peer.listens q = true)
    (message prompt error : Str) :
    Follows (PinentryUI.askPassword peer.respond message prompt error)
      (LiveUi.askPassword peer message prompt error) := by
  rw [PinentryUI.askPassword, getpin_eq]
  exact (follows_inquire hlistens _ _).bind fun r => follows_onConn _

end Follows

/-! ## 3. When the destructor returns -/

/-- What pinentry makes of the last command. -/
def goodbye (q : ρ) : ρ × List Str := hear peer.respond q ("BYE".toList.splitOn '\n')

/-- Pinentry reads the last command, the next answer passes for a success, and it can be waited
for. -/
structure TakesLeave (ndebug : Bool) (u : LiveUi ρ) : Prop where
  outGood : u.outBad = false
  inGood : u.inEnd = false
  answers : ∃ q, u.conn.pinentry = some q ∧ peer.listens q = true ∧
    (∃ notes line rest, Decides (u.conn.unread ++ (goodbye peer q).2) notes line rest ∧
      Passes (u.conn.junk 0) line) ∧
    (ndebug = true ∨ peer.exitsWell (goodbye peer q).1 = true)
  waits : u.collected = false

variable {peer} {u u' : LiveUi ρ}

theorem onConn_ok_iff {α : Type} {x : EStateM Fault (PinentryConn ρ) α} {a : α} :
    (LiveUi.onConn x).run u = .ok a u' ↔
      ∃ c, x.run u.conn = .ok a c ∧ u' = { u with conn := c } := by
  rw [LiveUi.onConn, run_zoom]
  cases x.run u.conn with
  | ok b c =>
    constructor
    · intro h
      cases h
      exact ⟨c, rfl, rfl⟩
    · rintro ⟨c', hc, rfl⟩
      cases hc
      rfl
  | error f c =>
    constructor
    · intro h
      cases h
    · rintro ⟨c', hc, -⟩
      cases hc

/-- The connection after a command was written to `q`. -/
def afterSaying (c : PinentryConn ρ) (heard : ρ × List Str) (lines : List Str) : PinentryConn ρ :=
  { c with pinentry := some heard.1, unread := c.unread ++ heard.2
           log := c.log ++ [.wrote lines heard.2] }

theorem say_run {c : PinentryConn ρ} {q : ρ} (hq : c.pinentry = some q) {text : Str} :
    (PinentryConn.say peer.respond text).run c =
      .ok () (afterSaying c (hear peer.respond q (text.splitOn '\n')) (text.splitOn '\n')) := by
  simp only [EStateM.run, PinentryConn.say, hq]
  rfl

theorem say_ok_iff {text : Str} :
    (LiveUi.say peer text).run u = .ok () u' ↔
      u.outBad = false ∧ ∃ q, u.conn.pinentry = some q ∧ peer.listens q = true ∧
        u' = { u with conn := afterSaying u.conn (hear peer.respond q (text.splitOn '\n'))
                        (text.splitOn '\n') } := by
  rw [LiveUi.say, run_get_bind]
  by_cases hbad : u.outBad = true ∨ u.listens peer = false
  · rw [if_pos hbad]
    refine iff_of_false nofun ?_
    rintro ⟨hout, q, hq, hlistens, -⟩
    rw [hout, LiveUi.listens, hq, Option.any_some, hlistens] at hbad
    revert hbad
    decide
  · rw [if_neg hbad, onConn_ok_iff]
    obtain ⟨hout, hlistens⟩ := not_or.mp hbad
    rw [and_iff_right (Bool.eq_false_iff.mpr hout)]
    rw [LiveUi.listens, Bool.not_eq_false] at hlistens
    cases hq : u.conn.pinentry with
    | none =>
      rw [hq] at hlistens
      cases hlistens
    | some q =>
      rw [hq, Option.any_some] at hlistens
      simp only [EStateM.run, PinentryConn.say, hq]
      constructor
      · rintro ⟨c, ⟨⟩, rfl⟩
        exact ⟨q, rfl, hlistens, rfl⟩
      · rintro ⟨_, ⟨⟩, -, rfl⟩
        exact ⟨_, rfl, rfl⟩

theorem liveRecv_ok_iff {r : Response} :
    (LiveUi.recv (ρ := ρ)).run u = .ok r u' ↔
      u.inEnd = false ∧ ∃ c, (PinentryConn.recv (ρ := ρ)).run u.conn = .ok r c ∧
        u' = { u with conn := c } := by
  have hthrows : ∀ f (s : LiveUi ρ), ∃ f' s', (LiveUi.recvFailed (α := Response) f).run s =
      .error f' s' := fun f s => ⟨f, _, rfl⟩
  rw [LiveUi.recv, run_get_bind]
  by_cases hend : u.inEnd = true
  · rw [if_pos hend]
    refine iff_of_false nofun ?_
    rintro ⟨hend', -⟩
    rw [hend] at hend'
    cases hend'
  · rw [if_neg hend, run_tryCatch_eq_ok hthrows, onConn_ok_iff]
    exact (and_iff_right (Bool.eq_false_iff.mpr hend)).symm

theorem liveOk_ok_iff :
    (LiveUi.ok (ρ := ρ)).run u = .ok () u' ↔
      u.inEnd = false ∧ ∃ notes line rest, Decides u.conn.unread notes line rest ∧
        Passes (u.conn.junk 0) line ∧
        u' = { u with conn := u.conn.received (notes ++ [line]) rest } := by
  rw [LiveUi.ok, run_bind_eq_ok]
  constructor
  · rintro ⟨r, u₁, hrecv, h⟩
    obtain ⟨hend, c, hconn, rfl⟩ := liveRecv_ok_iff.mp hrecv
    obtain ⟨notes, line, rest, hdecides, hjudge, rfl⟩ := recv_ok_iff.mp hconn
    by_cases hr : r.success = false
    · rw [if_pos hr] at h
      cases h
    · rw [if_neg hr] at h
      cases h
      rw [Bool.not_eq_false, success_iff_passes hjudge] at hr
      exact ⟨hend, notes, line, rest, hdecides, hr, rfl⟩
  · rintro ⟨hend, notes, line, rest, hdecides, hpasses, rfl⟩
    obtain ⟨r, hjudge, hsuccess⟩ := judge_success_iff.mpr hpasses
    have hrecv := recv_ok_iff.mpr ⟨notes, line, rest, hdecides, hjudge, rfl⟩
    refine ⟨r, _, liveRecv_ok_iff.mpr ⟨hend, _, hrecv, rfl⟩, ?_⟩
    rw [if_neg (by rw [hsuccess]; exact Bool.noConfusion)]
    rfl

theorem wait_ok_iff {ndebug : Bool} :
    (LiveUi.wait peer ndebug).run u = .ok () u' ↔
      u' = u ∧ u.collected = false ∧
        (ndebug = true ∨ u.conn.pinentry.all peer.exitsWell = true) := by
  rw [LiveUi.wait, run_get_bind]
  by_cases hcollected : u.collected = true
  · rw [if_pos hcollected]
    refine iff_of_false nofun ?_
    rintro ⟨-, hcollected', -⟩
    rw [hcollected] at hcollected'
    cases hcollected'
  · rw [if_neg hcollected, and_iff_right (Bool.eq_false_iff.mpr hcollected)]
    by_cases hsignal : ndebug = false ∧ u.conn.pinentry.all peer.exitsWell = false
    · rw [if_pos hsignal]
      refine iff_of_false nofun ?_
      rintro ⟨-, hndebug | hexits⟩
      · rw [hndebug] at hsignal
        cases hsignal.1
      · rw [hexits] at hsignal
        cases hsignal.2
    · rw [if_neg hsignal]
      rw [not_and_or, Bool.not_eq_false, Bool.not_eq_false] at hsignal
      rw [and_iff_left hsignal]
      constructor
      · intro h
        cases h
        rfl
      · rintro rfl
        rfl

/-- **The destructor returns** if and only if pinentry takes leave. -/
theorem destroy_ok_iff {ndebug : Bool} :
    (∃ u', (LiveUi.destroy peer ndebug).run u = .ok () u') ↔ TakesLeave peer ndebug u := by
  unfold LiveUi.destroy noexcept
  simp only [run_mapError_eq_ok]
  constructor
  · rintro ⟨u', hrun⟩
    obtain ⟨⟨⟩, u₁, hclose, hwait⟩ := run_bind_eq_ok.mp hrun
    obtain ⟨⟨⟩, u₂, hsay, hok⟩ := run_bind_eq_ok.mp hclose
    obtain ⟨hout, q, hq, hlistens, rfl⟩ := say_ok_iff.mp hsay
    obtain ⟨hend, notes, line, rest, hdecides, hpasses, rfl⟩ := liveOk_ok_iff.mp hok
    obtain ⟨-, hcollected, hexits⟩ := wait_ok_iff.mp hwait
    exact ⟨hout, hend, ⟨q, hq, hlistens, ⟨notes, line, rest, hdecides, hpasses⟩, hexits⟩,
      hcollected⟩
  · rintro ⟨hout, hend, ⟨q, hq, hlistens, ⟨notes, line, rest, hdecides, hpasses⟩, hexits⟩,
      hcollected⟩
    have hsay : (LiveUi.say peer "BYE".toList).run u = .ok () _ :=
      say_ok_iff.mpr ⟨hout, q, hq, hlistens, rfl⟩
    have hclose : (LiveUi.close peer).run u = .ok () _ := run_bind_eq_ok.mpr
      ⟨(), _, hsay, liveOk_ok_iff.mpr ⟨hend, notes, line, rest, hdecides, hpasses, rfl⟩⟩
    exact ⟨_, run_bind_eq_ok.mpr ⟨(), _, hclose, wait_ok_iff.mpr ⟨rfl, hcollected, hexits⟩⟩⟩

/-! ## 4. When the constructor has an end -/

/-- What pinentry makes of the title, if it reads it. -/
def titled (peer : Peer ρ) (q : ρ) : ρ × List Str :=
  if peer.listens q = true then hear peer.respond q ("SETTITLE GravelBox".toList.splitOn '\n')
  else (q, [])

/-- Pinentry answers the start of the conversation, and, if that answer passes for a success, the
title as well. -/
def AnswersOpening (peer : Peer ρ) (q : ρ) (greeting : List Str) (junk : Nat → BitVec 32) : Prop :=
  match greeting.dropWhile isNote with
  | [] => False
  | line :: rest => Passes (junk 0) line → ∃ l ∈ rest ++ (titled peer q).2, isNote l = false

/-- The line that decides is the first that is no note. -/
theorem Decides.dropWhile {lines notes rest : List Str} {line : Str}
    (h : Decides lines notes line rest) : lines.dropWhile isNote = line :: rest := by
  rw [h.split, List.dropWhile_append_of_pos h.notes, List.dropWhile_cons_of_neg]
  rw [h.answer]
  exact Bool.false_ne_true

theorem Decides.exists_answer {lines notes rest : List Str} {line : Str}
    (h : Decides lines notes line rest) : ∃ l ∈ lines, isNote l = false := by
  refine ⟨line, ?_, h.answer⟩
  rw [h.split]
  exact List.mem_append_right notes List.mem_cons_self

/-- A line that is no answer. -/
theorem judge_error {junk : BitVec 32} {data line : Str} {f : Fault}
    (h : judge junk data line = .error f) : ∃ msg, f = .pinentryException msg := by
  unfold judge at h
  split at h
  · cases h
  · split at h
    · cases h
    · cases h
      exact ⟨_, rfl⟩

/-- **`ok`**: the line that decides passes for a success, or there is an exception for it, or no
line decides. -/
theorem connOk_spec (c : PinentryConn ρ) :
    Ends (PinentryConn.ok (ρ := ρ)) c
      (fun _ c' => ∃ notes line rest, Decides c.unread notes line rest ∧
        Passes (c.junk 0) line ∧ c' = c.received (notes ++ [line]) rest)
      (fun f _ => (f = .iosFailure ∧ ∀ l ∈ c.unread, isNote l = true) ∨
        ∃ msg notes line rest, f = .pinentryException msg ∧ Decides c.unread notes line rest ∧
          ¬ Passes (c.junk 0) line) := by
  rw [PinentryConn.ok, ends_bind]
  rcases decides_or_notes c.unread with ⟨notes, line, rest, h⟩ | hall
  · have hrecv := recv_of_decides h
    cases hjudge : judge (c.junk 0) (lastData [] notes) line with
    | ok r =>
      rw [hjudge] at hrecv
      rw [ends_of_run_ok hrecv]
      by_cases hr : r.success = false
      · rw [if_pos hr]
        refine .inr ⟨_, notes, line, rest, rfl, h, fun hpasses => ?_⟩
        rw [(success_iff_passes hjudge).mpr hpasses] at hr
        cases hr
      · rw [if_neg hr]
        rw [Bool.not_eq_false, success_iff_passes hjudge] at hr
        exact ⟨notes, line, rest, h, hr, rfl⟩
    | error f =>
      rw [hjudge] at hrecv
      obtain ⟨msg, rfl⟩ := judge_error hjudge
      unfold Ends
      rw [hrecv]
      refine .inr ⟨msg, notes, line, rest, rfl, h, fun hpasses => ?_⟩
      obtain ⟨r, hr, -⟩ := judge_success_iff.mpr hpasses
      rw [hjudge] at hr
      cases hr
  · simp only [Ends, EStateM.run, PinentryConn.recv, recvFrom_end (c.junk 0) hall []]
    exact .inl ⟨trivial, hall⟩

/-- The same in the constructor: where no line decides there is no end. -/
theorem okHeld_spec (hu : u.Good) :
    Ends (mapError Fault.whileHeld (LiveUi.ok (ρ := ρ))) u
      (fun _ u' => ∃ notes line rest, Decides u.conn.unread notes line rest ∧
        Passes (u.conn.junk 0) line ∧
        u' = { u with conn := u.conn.received (notes ++ [line]) rest })
      (fun f _ => (f = .blocked ∧ ∀ l ∈ u.conn.unread, isNote l = true) ∨
        ∃ msg notes line rest, f = .pinentryException msg ∧
          Decides u.conn.unread notes line rest ∧ ¬ Passes (u.conn.junk 0) line) := by
  have hconn := connOk_spec u.conn
  rw [ends_mapError]
  refine (follows_ok u hu).mono ?_ ?_
  · rintro ⟨⟩ _ ⟨c, hok, rfl⟩
    obtain ⟨notes, line, rest, h, hpasses, rfl⟩ := hconn.of_ok hok
    exact ⟨notes, line, rest, h, hpasses, rfl⟩
  · intro f u' herror
    rcases hconn.of_error herror with ⟨rfl, hall⟩ | ⟨msg, notes, line, rest, rfl, h⟩
    · exact .inl ⟨rfl, hall⟩
    · exact .inr ⟨msg, notes, line, rest, rfl, h⟩

/-- **The title** is answered as pinentry answers it, or not at all. -/
theorem sayHeld_spec {q : ρ} (hq : u.conn.pinentry = some q) :
    Ends (LiveUi.sayHeld peer "SETTITLE GravelBox".toList) u
      (fun _ u' => u'.conn.unread = u.conn.unread ++ (titled peer q).2 ∧
        u'.outBad = u.outBad ∧ u'.inEnd = u.inEnd) (fun _ _ => False) := by
  have hlistens : u.listens peer = peer.listens q := by
    rw [LiveUi.listens, hq, Option.any_some]
  rw [LiveUi.sayHeld, ends_bind, ends_get, hlistens]
  unfold titled
  by_cases h : peer.listens q = true
  · have hsay : (PinentryConn.say peer.respond "SETTITLE GravelBox".toList).run u.conn = .ok () _ :=
      say_run hq
    rw [if_pos h, if_pos h, LiveUi.onConn, ends_zoom, ends_of_run_ok hsay]
    exact ⟨rfl, rfl, rfl⟩
  · rw [if_neg h, if_neg h, LiveUi.onConn, ends_zoom, ends_modify]
    exact ⟨(List.append_nil _).symm, rfl, rfl⟩

/-- **Opening the connection** has an end if and only if pinentry answers; then it returns, or there
is an exception of `PinentryConn`. -/
theorem open_spec (q : ρ) (greeting : List Str) (junk : Nat → BitVec 32) :
    Ends (LiveUi.open peer) (LiveUi.fresh q greeting junk)
      (fun _ _ => AnswersOpening peer q greeting junk)
      (fun f _ => (f = .blocked ∧ ¬ AnswersOpening peer q greeting junk) ∨
        ∃ msg, f = .pinentryException msg ∧ AnswersOpening peer q greeting junk) := by
  have hfresh : (LiveUi.fresh q greeting junk).Good := ⟨rfl, rfl⟩
  unfold AnswersOpening
  rw [LiveUi.open, ends_bind]
  refine (okHeld_spec hfresh).mono ?_ ?_
  · rintro _ u₁ ⟨notes, line, rest, h, hpasses, rfl⟩
    have hdrop : greeting.dropWhile isNote = line :: rest := h.dropWhile
    rw [hdrop, ends_bind]
    simp only
    refine (sayHeld_spec rfl).mono ?_ fun _ _ h => h.elim
    rintro _ u₂ ⟨hunread, hout, hin⟩
    have hrest : u₂.conn.unread = rest ++ (titled peer q).2 := hunread
    have hgood : u₂.Good := ⟨hout, hin⟩
    refine (okHeld_spec hgood).mono ?_ ?_
    · rintro _ _ ⟨notes', line', rest', h', -, -⟩ -
      rw [← hrest]
      exact h'.exists_answer
    · rintro f _ (⟨rfl, hall⟩ | ⟨msg, notes', line', rest', rfl, h', -⟩)
      · refine .inl ⟨rfl, fun hanswers => ?_⟩
        obtain ⟨l, hl, hanswer⟩ := hanswers hpasses
        rw [← hrest] at hl
        rw [hall l hl] at hanswer
        cases hanswer
      · refine .inr ⟨msg, rfl, fun _ => ?_⟩
        rw [← hrest]
        exact h'.exists_answer
  · rintro f _ (⟨rfl, hall⟩ | ⟨msg, notes, line, rest, rfl, h, hfails⟩)
    · have hdrop : greeting.dropWhile isNote = [] := List.dropWhile_eq_nil_iff.mpr hall
      rw [hdrop]
      exact .inl ⟨rfl, id⟩
    · have hdrop : greeting.dropWhile isNote = line :: rest := h.dropWhile
      rw [hdrop]
      exact .inr ⟨msg, rfl, fun hpasses => absurd hpasses hfails⟩

/-! ## 5. `main` -/

/-- What the handlers of `main` print, if there is one for the exception.  `what` is the text of
a `std::system_error`. -/
def Fault.report (what : Nat → Str) : Fault → Option Str
  | .systemError code =>
    some ("System error ".toList ++ Nat.toDigits 10 code ++ ": ".toList ++ what code)
  | .configException path type details =>
    some ("Configuration error: Config file \"".toList ++ path ++ "\" is not a valid ".toList ++
      type ++ " file".toList ++ if details = [] then [] else '\n' :: details)
  | .pinentryException msg => some ("Pinentry error: ".toList ++ msg)
  | _ => none

def EXIT_FAILURE : Int := 1

/-- What happens between the constructions and destructions of the objects. -/
inductive UiEvent (ρ : Type)
  /-- `ui = std::make_unique<PinentryUI>(..)`, where the new pinentry is in state `q` and has
  written `greeting`. -/
  | construct (q : ρ) (greeting : List Str) (junk : Nat → BitVec 32)
  | ask (syscall : Str)
  | askPassword (message prompt error : Str)
  /-- Pinentry goes on by itself, writing some lines. -/
  | byItself (q : ρ) (lines : List Str)
  /-- The tracer's `waitpid(-1)` returns for pinentry. -/
  | collect
  /-- Something else throws. -/
  | throws (f : Fault)
  /-- `run` returns. -/
  | returns (code : Int)

/-- Where `main` is. -/
inductive MainState (ρ : Type)
  /-- In `run`, with what `ui` owns. -/
  | running (ui : Option (LiveUi ρ))
  /-- Returned, after it printed something or not; `lost` if `PinentryConn` threw. -/
  | ended (code : Int) (printed : Option Str) (lost : Bool)
  /-- Terminated, or aborted by an `assert`. -/
  | crashed
  /-- In the constructor of a `PinentryUI`, for ever. -/
  | stuck

variable (peer) (ndebug : Bool) (what : Nat → Str)

/-- The destructor of what `ui` owns, and then `next`. -/
def leaveScope (ui : Option (LiveUi ρ)) (next : MainState ρ) : MainState ρ :=
  match ui with
  | none => next
  | some u =>
    match (LiveUi.destroy peer ndebug).run u with
    | .ok _ _ => next
    | .error _ _ => .crashed

/-- An exception leaves `run`. -/
def unwind (f : Fault) (lost : Bool) (ui : Option (LiveUi ρ)) : MainState ρ :=
  match f.report what with
  | some text => leaveScope peer ndebug ui (.ended EXIT_FAILURE (some text) lost)
  | none => .crashed

/-- A conversation with pinentry. -/
def converse {α : Type} (x : EStateM Fault (LiveUi ρ) α) (u : LiveUi ρ) : MainState ρ :=
  match x.run u with
  | .ok _ u' => .running (some u')
  | .error f u' => unwind peer ndebug what f true (some u')

/-- What an event leads to. -/
def afterEvent (ui : Option (LiveUi ρ)) : UiEvent ρ → MainState ρ
  | .construct q greeting junk =>
    match (LiveUi.open peer).run (LiveUi.fresh q greeting junk) with
    -- the old object is destroyed once the new one is there
    | .ok _ new => leaveScope peer ndebug ui (.running (some new))
    | .error .blocked _ => .stuck
    | .error f _ => unwind peer ndebug what f true ui
  | .ask syscall => ui.elim (.running none) (converse peer ndebug what (LiveUi.ask peer syscall))
  | .askPassword message prompt error =>
    ui.elim (.running none)
      (converse peer ndebug what (LiveUi.askPassword peer message prompt error))
  | .byItself q lines =>
    .running (ui.map fun u =>
      { u with conn := { u.conn with pinentry := some q, unread := u.conn.unread ++ lines } })
  | .collect => .running (ui.map fun u => { u with collected := true })
  | .throws f => unwind peer ndebug what f false ui
  | .returns code => leaveScope peer ndebug ui (.ended code none false)

/-- Only a process that has exited is collected; exceptions that `main` does not handle are not
considered. -/
def UiEvent.Enabled (ui : Option (LiveUi ρ)) : UiEvent ρ → Prop
  | .ask _ | .askPassword _ _ _ | .byItself _ _ => ui ≠ none
  | .collect => ∃ u q, ui = some u ∧ u.conn.pinentry = some q ∧ peer.exited q = true
  | .throws f => (f.report what).isSome = true
  | .construct _ _ _ | .returns _ => True

/-- One event. -/
def MainStep (s : MainState ρ) (e : UiEvent ρ) (s' : MainState ρ) : Prop :=
  ∃ ui, s = .running ui ∧ e.Enabled peer what ui ∧ s' = afterEvent peer ndebug what ui e

/-! ## 6. Losing pinentry is reported if it answers and takes leave -/

/-- No crash, and no end of the run is missing; and if `PinentryConn` threw, a message and
`EXIT_FAILURE`. -/
def Reported : MainState ρ → Prop
  | .running _ => True
  | .ended code printed lost => lost = true → code = EXIT_FAILURE ∧ printed ≠ none
  | .crashed | .stuck => False

/-- The object that a conversation leaves if it throws. -/
def lostBy {α : Type} (x : EStateM Fault (LiveUi ρ) α) (u : LiveUi ρ) : Option (LiveUi ρ) :=
  match x.run u with
  | .ok _ _ => none
  | .error _ u' => some u'

/-- The object that is destroyed on this event, as it is then. -/
def destroyedOn (ui : Option (LiveUi ρ)) : UiEvent ρ → Option (LiveUi ρ)
  | .construct _ _ _ | .throws _ | .returns _ => ui
  | .ask syscall => ui.bind (lostBy (LiveUi.ask peer syscall))
  | .askPassword message prompt error =>
    ui.bind (lostBy (LiveUi.askPassword peer message prompt error))
  | .byItself _ _ | .collect => none

/-- Pinentry answers in the constructor. -/
def AnswersAtStart : UiEvent ρ → Prop
  | .construct q greeting junk => AnswersOpening peer q greeting junk
  | _ => True

/-- Pinentry answers in the constructor, and takes leave of an object that is destroyed. -/
def StaysToTheEnd (s : MainState ρ) (e : UiEvent ρ) : Prop :=
  ∀ ui, s = .running ui →
    AnswersAtStart peer e ∧ ∀ u, destroyedOn peer ui e = some u → TakesLeave peer ndebug u

section Handlers

variable {peer ndebug what} {α β : Type}

/-- There is a handler for every exception of `x`. -/
def Caught (what : Nat → Str) {S : Type} (x : EStateM Fault S α) : Prop :=
  ∀ s, Ends x s (fun _ _ => True) fun f _ => (f.report what).isSome = true

theorem Caught.bind {S : Type} {x : EStateM Fault S α} {f : α → EStateM Fault S β}
    (h : Caught what x) (hf : ∀ a, Caught what (f a)) : Caught what (x >>= f) := by
  intro s
  rw [ends_bind]
  exact (h s).mono (fun a s' _ => hf a s') fun _ _ h => h

theorem Caught.onConn {x : EStateM Fault (PinentryConn ρ) α} (h : Caught what x) :
    Caught what (LiveUi.onConn x) := by
  intro u
  rw [LiveUi.onConn, ends_zoom]
  exact h u.conn

theorem caught_throwError (r : Response) :
    Caught what (r.throwError : EStateM Fault (PinentryConn ρ) α) := fun _ => rfl

theorem caught_conclude (yes : Response → α) (no : α) (r : Response) :
    Caught what (conclude yes no r : EStateM Fault (PinentryConn ρ) α) := by
  intro c
  unfold conclude
  split
  · exact trivial
  · split
    · exact trivial
    · exact caught_throwError r c

theorem caught_say (text : Str) : Caught what (LiveUi.say peer text) := by
  intro u
  rw [LiveUi.say, ends_bind, ends_get]
  split
  · exact rfl
  · refine Caught.onConn (fun c => ?_) u
    simp only [Ends, EStateM.run, PinentryConn.say]
    cases c.pinentry with
    | none => rfl
    | some q => trivial

theorem caught_recv : Caught what (LiveUi.recv (ρ := ρ)) := by
  have hconn : Caught what (PinentryConn.recv (ρ := ρ)) := by
    intro c
    rcases decides_or_notes c.unread with ⟨notes, line, rest, h⟩ | hall
    · unfold Ends
      rw [recv_of_decides h]
      cases hjudge : judge (c.junk 0) (lastData [] notes) line with
      | ok r => trivial
      | error f =>
        obtain ⟨msg, rfl⟩ := judge_error hjudge
        rfl
    · simp only [Ends, EStateM.run, PinentryConn.recv, recvFrom_end (c.junk 0) hall []]
      rfl
  intro u
  rw [LiveUi.recv, ends_bind, ends_get]
  split
  · exact rfl
  · rw [ends_tryCatch]
    exact (hconn.onConn u).mono (fun _ _ h => h) fun _ _ h => h

theorem caught_ok : Caught what (LiveUi.ok (ρ := ρ)) := by
  refine caught_recv.bind fun r => ?_
  split
  · exact (caught_throwError r).onConn
  · exact fun _ => trivial

theorem caught_order (cmd : Str) : Caught what (LiveUi.order peer cmd) :=
  (caught_say cmd).bind fun _ => caught_ok

theorem caught_inquire (setup : List Str) (question : Str) :
    Caught what (LiveUi.inquire peer setup question) := by
  induction setup with
  | nil => exact (caught_say question).bind fun _ => caught_recv
  | cons cmd setup ih => exact (caught_order cmd).bind fun _ => ih

theorem caught_ask (syscall : Str) : Caught what (LiveUi.ask peer syscall) :=
  (caught_inquire _ _).bind fun r => (caught_conclude _ _ r).onConn

theorem caught_askPassword (message prompt error : Str) :
    Caught what (LiveUi.askPassword peer message prompt error) :=
  (caught_inquire _ _).bind fun r => (caught_conclude _ _ r).onConn

end Handlers

section Step

variable {peer ndebug what}

/-- Leaving the scope of `ui`. -/
theorem reported_leaveScope {ui : Option (LiveUi ρ)} {next : MainState ρ} (h : Reported next) :
    Reported (leaveScope peer ndebug ui next) ↔ ∀ u, ui = some u → TakesLeave peer ndebug u := by
  cases ui with
  | none => exact iff_of_true h nofun
  | some u =>
    simp only [leaveScope, Option.some.injEq, forall_eq', ← destroy_ok_iff]
    cases (LiveUi.destroy peer ndebug).run u with
    | ok a u' =>
      obtain ⟨⟩ := a
      exact iff_of_true h ⟨u', rfl⟩
    | error f u' => exact iff_of_false id (by rintro ⟨_, ⟨⟩⟩)

/-- Leaving it by an exception. -/
theorem reported_unwind {f : Fault} {lost : Bool} {ui : Option (LiveUi ρ)}
    (h : (f.report what).isSome = true) :
    Reported (unwind peer ndebug what f lost ui) ↔
      ∀ u, ui = some u → TakesLeave peer ndebug u := by
  obtain ⟨text, htext⟩ := Option.isSome_iff_exists.mp h
  rw [unwind, htext]
  exact reported_leaveScope fun _ => ⟨rfl, Option.some_ne_none text⟩

theorem reported_converse {α : Type} {x : EStateM Fault (LiveUi ρ) α} (hx : Caught what x)
    (u : LiveUi ρ) : Reported (converse peer ndebug what x u) ↔
      ∀ u', lostBy x u = some u' → TakesLeave peer ndebug u' := by
  unfold converse lostBy
  cases hrun : x.run u with
  | ok a u' => exact iff_of_true trivial nofun
  | error f u' => exact reported_unwind ((hx u).of_error hrun)

/-- **One event** is survived if and only if pinentry answers, and takes leave of what is
destroyed. -/
theorem reported_afterEvent {ui : Option (LiveUi ρ)} {e : UiEvent ρ}
    (h : e.Enabled peer what ui) :
    Reported (afterEvent peer ndebug what ui e) ↔
      AnswersAtStart peer e ∧ ∀ u, destroyedOn peer ui e = some u → TakesLeave peer ndebug u := by
  cases e with
  | construct q greeting junk =>
    have hopen := @open_spec _ peer q greeting junk
    unfold afterEvent destroyedOn AnswersAtStart
    simp only
    cases hrun : (LiveUi.open peer).run (LiveUi.fresh q greeting junk) with
    | ok a new =>
      have hnext : Reported (.running (some new) : MainState ρ) := trivial
      exact (reported_leaveScope hnext).trans (and_iff_right (hopen.of_ok hrun)).symm
    | error f u' =>
      rcases hopen.of_error hrun with ⟨rfl, hsilent⟩ | ⟨msg, rfl, hanswers⟩
      · exact iff_of_false id fun h => hsilent h.1
      · exact (reported_unwind rfl).trans (and_iff_right hanswers).symm
  | ask syscall =>
    obtain ⟨u, rfl⟩ := Option.ne_none_iff_exists'.mp h
    exact (reported_converse (caught_ask syscall) u).trans (and_iff_right trivial).symm
  | askPassword message prompt error =>
    obtain ⟨u, rfl⟩ := Option.ne_none_iff_exists'.mp h
    exact (reported_converse (caught_askPassword message prompt error) u).trans
      (and_iff_right trivial).symm
  | byItself q lines => exact iff_of_true trivial ⟨trivial, nofun⟩
  | collect => exact iff_of_true trivial ⟨trivial, nofun⟩
  | throws f => exact (reported_unwind h).trans (and_iff_right trivial).symm
  | returns code =>
    have hnext : Reported (.ended code none false : MainState ρ) := Bool.noConfusion
    exact (reported_leaveScope hnext).trans (and_iff_right trivial).symm

/-- **Losing pinentry.**  A run of `main` never crashes or waits for ever, and reports each
exception of `PinentryConn`, if and only if pinentry answers in every constructor and takes leave
of every object that is destroyed. -/
theorem losing_reported_iff {tr : List (MainState ρ × UiEvent ρ)} {s : MainState ρ}
    (h : Run (MainStep peer ndebug what) (.running none) tr s) :
    Always Reported tr s ↔ Guarded (StaysToTheEnd peer ndebug) tr := by
  have hstart : Reported (.running none : MainState ρ) := trivial
  refine h.guarded_iff (I := fun _ => True) trivial hstart (fun _ _ _ _ _ => trivial) ?_
  rintro _ e _ - - ⟨ui, rfl, henabled, rfl⟩
  rw [reported_afterEvent henabled]
  constructor
  · rintro hstays _ ⟨⟩
    exact hstays
  · intro hstays
    exact hstays ui rfl

/-- **A pinentry that does not answer in the constructor** is waited for without end. -/
theorem silent_stuck {ui : Option (LiveUi ρ)} {q : ρ} {greeting : List Str}
    {junk : Nat → BitVec 32} (h : ¬ AnswersOpening peer q greeting junk) :
    afterEvent peer ndebug what ui (.construct q greeting junk) = .stuck := by
  have hopen := @open_spec _ peer q greeting junk
  unfold afterEvent
  simp only
  cases hrun : (LiveUi.open peer).run (LiveUi.fresh q greeting junk) with
  | ok a new => exact absurd (hopen.of_ok hrun) h
  | error f u' =>
    rcases hopen.of_error hrun with ⟨rfl, -⟩ | ⟨msg, -, hanswers⟩
    · rfl
    · exact absurd hanswers h

/-- A command to a pinentry that has gone. -/
theorem say_gone (hgone : u.listens peer = false) (text : Str) :
    Ends (LiveUi.say peer text) u (fun _ _ => False) (fun _ u' => u'.outBad = true) := by
  rw [LiveUi.say, ends_bind, ends_get, if_pos (.inr hgone)]
  exact rfl

theorem inquire_gone (hgone : u.listens peer = false) (setup : List Str) (question : Str) :
    Ends (LiveUi.inquire peer setup question) u (fun _ _ => False)
      (fun _ u' => u'.outBad = true) := by
  cases setup with
  | nil =>
    rw [LiveUi.inquire, ends_bind]
    exact (say_gone hgone question).mono (fun _ _ h => h.elim) fun _ _ h => h
  | cons cmd setup =>
    rw [LiveUi.inquire, ends_bind, LiveUi.order, ends_bind]
    exact (say_gone hgone cmd).mono (fun _ _ h => h.elim) fun _ _ h => h

/-- What asks a pinentry that has gone is left with a bad stream. -/
theorem lostBy_gone {α : Type} {f : Response → EStateM Fault (LiveUi ρ) α}
    (hgone : u.listens peer = false) (setup : List Str) (question : Str) :
    ∃ u', lostBy (LiveUi.inquire peer setup question >>= f) u = some u' ∧ u'.outBad = true := by
  have hends : Ends (LiveUi.inquire peer setup question >>= f) u (fun _ _ => False)
      (fun _ u' => u'.outBad = true) := by
    rw [ends_bind]
    exact (inquire_gone hgone setup question).mono (fun _ _ h => h.elim) fun _ _ h => h
  unfold lostBy
  cases hrun : (LiveUi.inquire peer setup question >>= f).run u with
  | ok a u' => exact (hends.of_ok hrun).elim
  | error g u' => exact ⟨u', rfl, hends.of_error hrun⟩

/-- **A pinentry that has gone** is not reported on the next event that is not its own. -/
theorem gone_unreported {e : UiEvent ρ} (hgone : u.listens peer = false)
    (henabled : e.Enabled peer what (some u))
    (he : (∀ q lines, e ≠ .byItself q lines) ∧ e ≠ .collect) :
    ¬ Reported (afterEvent peer ndebug what (some u) e) := by
  have hleave : ∀ u', u' = u ∨ u'.outBad = true → ¬ TakesLeave peer ndebug u' := by
    rintro u' (rfl | hbad) ⟨hout, -, ⟨q, hq, hlistens, -⟩, -⟩
    · rw [LiveUi.listens, hq, Option.any_some, hlistens] at hgone
      cases hgone
    · rw [hbad] at hout
      cases hout
  rw [reported_afterEvent henabled]
  rintro ⟨-, hall⟩
  have hdestroyed : ∃ u', destroyedOn peer (some u) e = some u' ∧ (u' = u ∨ u'.outBad = true) := by
    cases e with
    | construct q greeting junk => exact ⟨u, rfl, .inl rfl⟩
    | ask syscall =>
      obtain ⟨u', hlost, hbad⟩ := lostBy_gone (u := u) hgone _ _
      exact ⟨u', hlost, .inr hbad⟩
    | askPassword message prompt error =>
      obtain ⟨u', hlost, hbad⟩ := lostBy_gone (u := u) hgone _ _
      exact ⟨u', hlost, .inr hbad⟩
    | byItself q lines => exact absurd rfl (he.1 q lines)
    | collect => exact absurd rfl he.2
    | throws f => exact ⟨u, rfl, .inl rfl⟩
    | returns code => exact ⟨u, rfl, .inl rfl⟩
  obtain ⟨u', hu', hcase⟩ := hdestroyed
  exact hleave u' hcase (hall u' hu')

end Step

/-! ## 7. Two pinentry programs -/

/-- An object whose pinentry was met: it has accepted the title. -/
def met (q : ρ) : LiveUi ρ :=
  { conn := { pinentry := some q, unread := [], junk := fun _ => 0
              log := [.greeted ["OK".toList], .read ["OK".toList],
                .wrote ["SETTITLE GravelBox".toList] ["OK".toList], .read ["OK".toList]] }
    outBad := false, inEnd := false, collected := false }

/-- It refuses every question, and takes its leave. -/
def objecting : Peer Unit where
  respond _ line := ((), if line = "SETTITLE GravelBox".toList ∨ line = "BYE".toList then
    ["OK".toList] else ["ERR 1 no".toList])
  listens _ := true
  exited _ := false
  exitsWell _ := true

/-- It exits when the first question comes. -/
def exiting : Peer Bool where
  respond there line := if there = true ∧ line = "SETTITLE GravelBox".toList then
    (true, ["OK".toList]) else (false, [])
  listens there := there
  exited there := !there
  exitsWell _ := true

/-- No text for any error. -/
def noText : Nat → Str := fun _ => []

theorem met_objecting :
    MainStep objecting false noText (.running none)
      (.construct () ["OK".toList] fun _ => 0) (.running (some (met ()))) :=
  ⟨none, rfl, trivial, rfl⟩

theorem met_exiting :
    MainStep exiting false noText (.running none)
      (.construct true ["OK".toList] fun _ => 0) (.running (some (met true))) :=
  ⟨none, rfl, trivial, rfl⟩

theorem refused_ends :
    MainStep objecting false noText (.running (some (met ()))) (.ask [])
      (.ended EXIT_FAILURE (some "Pinentry error: 1 no".toList) true) :=
  ⟨some (met ()), rfl, Option.some_ne_none _, rfl⟩

/-- The object that the refused question leaves takes leave. -/
theorem refused_leaves {u : LiveUi Unit}
    (h : destroyedOn objecting (some (met ())) (.ask []) = some u) :
    TakesLeave objecting false u := by
  cases h
  exact destroy_ok_iff.mp ⟨_, rfl⟩

/-- A refused question is reported. -/
theorem refused_reported :
    ∃ tr, Run (MainStep objecting false noText) (.running none) tr
        (.ended EXIT_FAILURE (some "Pinentry error: 1 no".toList) true) ∧
      Always Reported tr (.ended EXIT_FAILURE (some "Pinentry error: 1 no".toList) true) := by
  have h := (Run.nil.snoc met_objecting).snoc refused_ends
  refine ⟨_, h, (losing_reported_iff h).mpr ?_⟩
  rw [guarded_snoc, guarded_snoc]
  refine ⟨⟨guarded_nil, ?_⟩, ?_⟩
  · rintro _ ⟨⟩
    refine ⟨fun _ => ⟨"OK".toList, ?_, rfl⟩, nofun⟩
    exact List.mem_singleton_self _
  · rintro _ ⟨⟩
    exact ⟨trivial, fun u hu => refused_leaves hu⟩

/-- **Losing pinentry crashes `main`.**  It exits when the first question comes: the exception
of the question would be handled, but the destructor throws a second one. -/
theorem lost_crashes :
    ∃ tr, Run (MainStep exiting false noText) (.running none) tr .crashed ∧
      ¬ Always Reported tr (.crashed : MainState Bool) := by
  have hask : MainStep exiting false noText (.running (some (met true))) (.ask []) .crashed :=
    ⟨some (met true), rfl, Option.some_ne_none _, rfl⟩
  exact ⟨_, (Run.nil.snoc met_exiting).snoc hask, fun h => h.2⟩

end GravelBox
