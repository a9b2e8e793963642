/-
# Asking the user through pinentry

`User` stands for the user by the answers to come; the program talks to pinentry.  An `Interview`
is the state of a part of the program that asks through a `PinentryUI`, and `Interview.ask`,
`Interview.askPassword` and `Interview.askUntil` are what `Session.ask`, `Session.askPassword` and
`askUntil` stand for.

`Tracer` is a template over its user interface and uses of it only what `IsUI` lists
(`type_traits.h`, lines 36 to 56), `ask` and `ask_password`, of which `PinentryUI` is the instance.
So the code above the interface is modelled over a `User`, whose answers are a list, and what has
to be shown is that pinentry's answers are such a list.

Where asking through pinentry returns, there is a `Script` of answers with which the `User` gives
the same (`scripted_ask`, `scripted_askUntil`): the ones that are written down in `answered`, as
`PinentryUI::ask` and `PinentryUI::ask_password` returned them.  And what was written to pinentry is
the commands of the questions asked (`Told`).  The loop for a password has no bound in the source,
so the number of rounds is fuel, and the script is found by induction on it.

Nothing is claimed where an exception leaves the loop: what pinentry had answered by then is lost
with it.  Nor is anything said here of what a person typed; that is what `Ui/Dialogue.lean` and
`Ui/Assuan.lean` are about.
-/
import GravelBox.Lib.Script
import GravelBox.Ui.Dialogue
import GravelBox.Ui.User

namespace GravelBox

open Stateful

variable {σ ρ : Type} (respond : ρ → Str → ρ × List Str)

/-! ## 1. The code -/

/-- Answers that the user gave. -/
structure Script where
  confirms : List Bool
  passwords : List Password

instance : Monoid Script where
  one := ⟨[], []⟩
  mul m m' := ⟨m.confirms ++ m'.confirms, m.passwords ++ m'.passwords⟩
  one_mul _ := rfl
  mul_one _ := congrArg₂ Script.mk (List.append_nil _) (List.append_nil _)
  mul_assoc _ _ _ := congrArg₂ Script.mk (List.append_assoc ..) (List.append_assoc ..)

/-- The state of a part of the program that asks through a `PinentryUI`. -/
structure Interview (σ ρ : Type) where
  inner : σ
  conn : PinentryConn ρ
  /-- What was asked, in order; this is not in the source. -/
  asked : List Question
  /-- What `ask` and `ask_password` returned, in order; this is not in the source. -/
  answered : Script

/-- A program that does not ask. -/
def withoutPinentry {α : Type} (x : EStateM Fault σ α) : EStateM Fault (Interview σ ρ) α :=
  zoom Interview.inner (fun s t => { s with inner := t }) x

/-- Put a question through `x`, and write down what it returns as `note` says. -/
def Interview.put {α : Type} (q : Question) (note : α → Script)
    (x : EStateM Fault (PinentryConn ρ) α) : EStateM Fault (Interview σ ρ) α := do
  modify fun s => { s with asked := s.asked ++ [q] }
  let answer ← zoom Interview.conn (fun s c => { s with conn := c }) x
  modify fun s => { s with answered := s.answered * note answer }
  return answer

/-- `ui.ask(syscall)`, of a `PinentryUI`. -/
def Interview.ask (syscall : Str) : EStateM Fault (Interview σ ρ) Bool :=
  Interview.put (.ask syscall) (fun answer => ⟨[answer], []⟩) (PinentryUI.ask respond syscall)

/-- `ui.ask_password(message, prompt, error)`, of a `PinentryUI`. -/
def Interview.askPassword (message prompt error : Str) :
    EStateM Fault (Interview σ ρ) Password :=
  Interview.put (.askPassword message prompt error) (fun password => ⟨[], [password]⟩)
    (PinentryUI.askPassword respond message prompt error)

/-- The loop that asks for a password, from an `ask_password` with the text `error` on.  Without
fuel it has not come to an end, which is neither a value nor an exception that is handled. -/
def Interview.askUntil (message prompt again : Str) (verify : Str → EStateM Fault σ Bool) :
    Nat → Str → EStateM Fault (Interview σ ρ) Bool
  | 0, _ => throw .terminate
  | fuel + 1, error => do
    let password ← Interview.askPassword respond message prompt error
    if password.cancelled then return false
    if ← withoutPinentry (verify password.password) then return true
    askUntil message prompt again verify fuel again

/-! ## 2. What a dialogue writes -/

/-- The lines that were written, of what went over the pipes. -/
def Traffic.sent : Traffic → List Str
  | .wrote lines _ => lines
  | _ => []

/-- All the lines written. -/
def PinentryConn.sent (c : PinentryConn ρ) : List Str := c.log.flatMap Traffic.sent

/-- The lines of some commands. -/
def linesOf (cmds : List Str) : List Str := cmds.flatMap fun cmd => cmd.splitOn '\n'

/-- The commands of a question. -/
def Question.commands : Question → List Str
  | .ask syscall =>
    confirmSetup ("Do you allow the following system call?%0a%0a".toList ++ syscall) ++
      ["CONFIRM".toList]
  | .askPassword message prompt error => getpinSetup message prompt error ++ ["GETPIN".toList]

/-- What a connection throws. -/
inductive ConnFault : Fault → Prop
  | stream : ConnFault .iosFailure
  | pinentry (what : Str) : ConnFault (.pinentryException what)

/-- A program on the connection writes these lines if it returns, and throws nothing else. -/
def Writes {α : Type} (x : EStateM Fault (PinentryConn ρ) α) (lines : List Str) : Prop :=
  ∀ c, Ends x c (fun _ c' => c'.sent = c.sent ++ lines) fun f _ => ConnFault f

theorem Writes.bind {α β : Type} {x : EStateM Fault (PinentryConn ρ) α}
    {f : α → EStateM Fault (PinentryConn ρ) β} {lines lines' : List Str} (hx : Writes x lines)
    (hf : ∀ a, Writes (f a) lines') : Writes (x >>= f) (lines ++ lines') := by
  intro c
  rw [ends_bind]
  refine (hx c).mono (fun a c' hc' => ?_) fun _ _ hf => hf
  refine (hf a c').mono (fun b c'' hc'' => ?_) fun _ _ hf => hf
  rw [hc'', hc', List.append_assoc]

theorem writes_say (text : Str) : Writes (PinentryConn.say respond text) (text.splitOn '\n') := by
  intro c
  simp only [Ends, EStateM.run, PinentryConn.say]
  cases c.pinentry with
  | none => exact .stream
  | some q =>
    simp only [PinentryConn.sent, List.flatMap_append, List.flatMap_singleton]
    rfl

/-- What a `recv` throws. -/
theorem recvFrom_throws (junk : BitVec 32) (data : Str) (lines : List Str) {f : Fault}
    (h : (recvFrom junk data lines).1 = .error f) : ConnFault f := by
  induction lines generalizing data with
  | nil =>
    cases h
    exact .stream
  | cons line lines ih =>
    unfold recvFrom at h
    split at h
    · cases h
    · split at h
      · cases h
      · split at h
        · exact ih _ h
        · split at h
          · exact ih _ h
          · cases h
            exact .pinentry _

theorem writes_recv : Writes (PinentryConn.recv (ρ := ρ)) [] := by
  intro c
  have hthrows := fun f => recvFrom_throws (c.junk 0) [] c.unread (f := f)
  simp only [Ends, EStateM.run, PinentryConn.recv]
  cases hr : (recvFrom (c.junk 0) [] c.unread).1 with
  | ok r =>
    simp only [PinentryConn.sent, PinentryConn.received, List.flatMap_append,
      List.flatMap_singleton]
    rfl
  | error f => exact hthrows f hr

theorem writes_ok : Writes (PinentryConn.ok (ρ := ρ)) [] := by
  refine writes_recv.bind fun r c => ?_
  split
  · exact .pinentry _
  · exact (List.append_nil _).symm

theorem writes_inquire (setup : List Str) (question : Str) :
    Writes (inquire respond setup question) (linesOf (setup ++ [question])) := by
  induction setup with
  | nil => exact (writes_say respond question).bind fun _ => writes_recv
  | cons cmd setup ih =>
    have horder : Writes (order respond cmd) (cmd.splitOn '\n' ++ []) :=
      (writes_say respond cmd).bind fun _ => writes_ok
    rw [List.append_nil] at horder
    exact horder.bind fun _ => ih

theorem writes_conclude {α : Type} (yes : Response → α) (no : α) (r : Response) :
    Writes (ρ := ρ) (conclude yes no r) [] := by
  intro c
  unfold conclude
  split
  · exact (List.append_nil _).symm
  · split
    · exact (List.append_nil _).symm
    · exact .pinentry _

/-- **A question to pinentry** writes its commands. -/
theorem writes_ask (syscall : Str) :
    Writes (PinentryUI.ask respond syscall) (linesOf (Question.ask syscall).commands) := by
  have h := (writes_inquire respond (confirmSetup
    ("Do you allow the following system call?%0a%0a".toList ++ syscall)) "CONFIRM".toList).bind
      (writes_conclude (fun _ => true) false)
  rw [← confirm_eq, List.append_nil] at h
  exact h

theorem writes_askPassword (message prompt error : Str) :
    Writes (PinentryUI.askPassword respond message prompt error)
      (linesOf (Question.askPassword message prompt error).commands) := by
  have h := (writes_inquire respond (getpinSetup message prompt error) "GETPIN".toList).bind
    (writes_conclude entered notEntered)
  rw [← getpin_eq, List.append_nil] at h
  exact h

/-! ## 3. The script of an interview -/

/-- The state in which the answers to come are written down. -/
def Interview.scripted (s : Interview σ ρ) (m : Script) : Session σ :=
  { inner := s.inner
    user := { confirms := m.confirms, passwords := m.passwords, asked := s.asked } }

/-- Besides `base`, pinentry was sent the commands of the questions asked, and no more; and the
answers so far are `k`. -/
structure Told (base : List Str) (s : Interview σ ρ) (k : Script) : Prop where
  sent : s.conn.sent = base ++ s.asked.flatMap fun q => linesOf q.commands
  answered : s.answered = k

variable {respond} {base : List Str} {p : Fault → Prop}

/-- Putting one question. -/
theorem ends_put {α : Type} {q : Question} {note : α → Script}
    {x : EStateM Fault (PinentryConn ρ) α} (hx : Writes x (linesOf q.commands))
    {s : Interview σ ρ} {k : Script} (hs : Told base s k) :
    Ends (Interview.put q note x) s
      (fun a s' => Told base s' (k * note a) ∧ s'.inner = s.inner ∧ s'.asked = s.asked ++ [q])
      (fun f _ => ConnFault f) := by
  rw [Interview.put, ends_bind, ends_modify, ends_bind, ends_zoom]
  refine (hx s.conn).mono ?_ fun _ _ hf => hf
  intro a c hc
  rw [ends_bind, ends_modify, ends_pure]
  refine ⟨⟨?_, ?_⟩, rfl, rfl⟩
  · change c.sent = base ++ (s.asked ++ [q]).flatMap fun q => linesOf q.commands
    rw [hc, hs.sent, List.flatMap_append, List.flatMap_singleton, List.append_assoc]
  · rw [hs.answered]

/-- **`ask`.**  The script is the one answer. -/
theorem scripted_ask (hp : ∀ f, ConnFault f → ¬ p f) (syscall : Str) (s : Interview σ ρ) :
    Scripted Interview.scripted (Told base) p (Interview.ask respond syscall)
      (Session.ask syscall) s := by
  intro k hs
  refine (ends_put (writes_ask respond syscall) hs).mono ?_ fun f _ hf hpf => absurd hpf (hp f hf)
  rintro answer s' ⟨hs', hinner, hasked⟩
  refine ⟨⟨[answer], []⟩, hs', fun rest => ?_⟩
  rw [Interview.scripted, Interview.scripted, hinner, hasked]
  rfl

/-- `ask_password`, as the first of the answers to come. -/
theorem ends_put_password (message prompt error : Str) {s : Interview σ ρ} {k : Script}
    (hs : Told base s k) :
    Ends (Interview.askPassword respond message prompt error) s
      (fun password s' => Told base s' (k * ⟨[], [password]⟩) ∧ s'.inner = s.inner ∧
        s'.asked = s.asked ++ [.askPassword message prompt error])
      (fun f _ => ConnFault f) :=
  ends_put (writes_askPassword respond message prompt error) hs

/-- Asking for a password, over the answers that were given: `t` is any state that agrees with `s`
but for the passwords to come. -/
theorem askUntil_script {message prompt again : Str} {verify : Str → EStateM Fault σ Bool}
    (hp : ∀ f, ConnFault f → ¬ p f) (hterm : ¬ p .terminate)
    (hverify : ∀ k t, Ends (verify k) t (fun _ _ => True) fun f _ => ¬ p f) (fuel : Nat) :
    ∀ (error : Str) (s : Interview σ ρ) (k : Script), Told base s k →
      Ends (Interview.askUntil respond message prompt again verify fuel error) s
        (fun b s' => ∃ m : Script, Told base s' (k * m) ∧ m.confirms = [] ∧
          ∀ (rest : Script) (t : Session σ), t.inner = s.inner → t.user.asked = s.asked →
            t.user.confirms = rest.confirms →
            (askUntil.go message prompt again verify error (m.passwords ++ rest.passwords)).run t =
              .ok b (s'.scripted rest))
        (fun f _ => ¬ p f) := by
  induction fuel with
  | zero => exact fun _ _ _ _ => hterm
  | succ fuel ih =>
    intro error s k hs
    rw [Interview.askUntil, ends_bind]
    refine (ends_put_password message prompt error hs).mono ?_ fun f _ hf => hp f hf
    rintro password s₁ ⟨hs₁, hinner, hasked⟩
    by_cases hcancel : password.cancelled = true
    · rw [if_pos hcancel, ends_pure]
      refine ⟨⟨[], [password]⟩, hs₁, rfl, ?_⟩
      rintro rest ⟨inner, confirms, passwords, asked⟩ rfl rfl rfl
      simp only [List.cons_append, List.nil_append, askUntil.go, askUntil.asked,
        EStateM.run_bind, EStateM.run_modify, if_pos hcancel, EStateM.run_pure]
      rw [Interview.scripted, hinner, hasked]
    · rw [if_neg hcancel, ends_bind, withoutPinentry, ends_zoom]
      cases hv : (verify password.password).run s₁.inner with
      | error f u =>
        have hf := (hverify password.password s₁.inner).of_error hv
        unfold Ends
        rw [hv]
        exact hf
      | ok b u =>
        rw [ends_of_run_ok hv]
        cases b with
        | true =>
          refine ⟨⟨[], [password]⟩, ⟨hs₁.sent, hs₁.answered⟩, rfl, ?_⟩
          rintro rest ⟨inner, confirms, passwords, asked⟩ rfl rfl rfl
          rw [hinner] at hv
          simp only [List.cons_append, List.nil_append, askUntil.go, askUntil.asked,
            EStateM.run_bind, EStateM.run_modify, if_neg hcancel, withoutUser, run_zoom, hv]
          rw [Interview.scripted, hasked]
          rfl
        | false =>
          rw [if_neg Bool.false_ne_true]
          refine (ih again { s₁ with inner := u } _ ⟨hs₁.sent, hs₁.answered⟩).mono ?_
            fun _ _ hf => hf
          rintro b s₂ ⟨m, hs₂, hm, hrun⟩
          have hmul : (⟨[], [password]⟩ * m : Script) = ⟨[], password :: m.passwords⟩ :=
            congrArg (Script.mk · (password :: m.passwords)) hm
          rw [mul_assoc, hmul] at hs₂
          refine ⟨⟨[], password :: m.passwords⟩, hs₂, rfl, ?_⟩
          rintro rest ⟨inner, confirms, passwords, asked⟩ rfl rfl rfl
          rw [hinner] at hv
          simp only [List.cons_append, askUntil.go, askUntil.asked, EStateM.run_bind,
            EStateM.run_modify, if_neg hcancel, withoutUser, run_zoom, hv,
            if_neg Bool.false_ne_true]
          exact hrun rest _ rfl hasked.symm rfl

/-- **Asking until it is verified.**  The script is the passwords that were entered. -/
theorem scripted_askUntil {message prompt again : Str} {verify : Str → EStateM Fault σ Bool}
    (hp : ∀ f, ConnFault f → ¬ p f) (hterm : ¬ p .terminate)
    (hverify : ∀ k t, Ends (verify k) t (fun _ _ => True) fun f _ => ¬ p f) (fuel : Nat)
    (s : Interview σ ρ) :
    Scripted Interview.scripted (Told base) p
      (Interview.askUntil respond message prompt again verify fuel [])
      (askUntil message prompt again verify) s := by
  intro k hs
  refine (askUntil_script hp hterm hverify fuel [] s k hs).mono ?_ fun _ _ hf hpf => absurd hpf hf
  rintro b s' ⟨m, hs', hm, hrun⟩
  refine ⟨m, hs', fun rest => hrun rest _ rfl rfl ?_⟩
  change m.confirms ++ rest.confirms = rest.confirms
  rw [hm, List.nil_append]

end GravelBox
