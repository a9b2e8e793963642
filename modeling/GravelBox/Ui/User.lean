/-
# The user

To the rest of the program the user interface is the answers it gives (`trace/tracer.h`, lines 83 to
101; `modules.cpp`, lines 27 to 40).  A `User` is the answers that are still to come, and the
questions asked so far.  Where an answer is needed and none will come, the interface is gone, and
reading from it fails.

A password is asked for again until it is accepted or the user cancels; the program does so
twice, for the signing key and for the decision password.  `askUntil_true_iff` says what that
comes to: one of the passwords entered before the first cancellation is accepted.

The two loops are the same but for their texts and for what accepts a password, so there is one
`askUntil` with these as parameters, and one induction.  What accepts a password is a program: to
verify the signing key reads a file, stores the key, and may throw.  `Verifies` says what the
induction needs of it, an invariant and the answer it gives; that the state may change from one
round to the next is the reason why it is not a predicate.

The list of answers makes the loop an ordinary recursion, as long as the list is finite.  A user who
goes on for ever entering wrong passwords is not in the model; what such a user has been asked up to
any moment is that of a user whose answers end there.

Not claimed: that the answers are those of a person.  They are what the interface returns, and what
that has to do with a person is said of pinentry where it is modelled (`Ui/PinentryConn.lean` and
what is built on it).
-/
import GravelBox.Ui.PinentryConn

namespace GravelBox

open Stateful

/-! ## 1. Asking -/

/-- What the user is asked. -/
inductive Question
  | ask (syscall : Str)
  | askPassword (message prompt error : Str)
  deriving DecidableEq

/-- The answers to come, and what was asked. -/
structure User where
  confirms : List Bool
  passwords : List Password
  asked : List Question

/-- The state of a part of the program that talks to the user. -/
structure Session (σ : Type) where
  inner : σ
  user : User

variable {σ : Type}

/-- A program that does not ask. -/
def withoutUser {α : Type} (x : EStateM Fault σ α) : EStateM Fault (Session σ) α :=
  zoom Session.inner (fun s t => { s with inner := t }) x

/-- `ui.ask(syscall)`. -/
def Session.ask (syscall : Str) : EStateM Fault (Session σ) Bool := fun s =>
  let asked := s.user.asked ++ [.ask syscall]
  match s.user.confirms with
  | [] => .error .iosFailure { s with user := { s.user with asked := asked } }
  | answer :: answers =>
    .ok answer { s with user := { s.user with confirms := answers, asked := asked } }

/-- `ui.ask_password(message, prompt, error)`. -/
def Session.askPassword (message prompt error : Str) : EStateM Fault (Session σ) Password :=
  fun s =>
  let asked := s.user.asked ++ [.askPassword message prompt error]
  match s.user.passwords with
  | [] => .error .iosFailure { s with user := { s.user with asked := asked } }
  | answer :: answers =>
    .ok answer { s with user := { s.user with passwords := answers, asked := asked } }

/-- `password = ui.ask_password(message, prompt, "")`, and for as long as it is not
verified, once more with the text `again`, over the answers to come. -/
def askUntil (message prompt again : Str) (verify : Str → EStateM Fault σ Bool) :
    EStateM Fault (Session σ) Bool := fun s =>
  go [] s.user.passwords s
where
  /-- From an `ask_password` with the text `error` on. -/
  go (error : Str) : List Password → EStateM Fault (Session σ) Bool
    | [] => do
      asked error []
      throw .iosFailure
    | password :: passwords => do
      asked error passwords
      if password.cancelled then return false
      if ← withoutUser (verify password.password) then return true
      go again passwords
  /-- The question, after which there are these answers to come. -/
  asked (error : Str) (passwords : List Password) : EStateM Fault (Session σ) Unit :=
    modify fun s => { s with user := { s.user with
      passwords := passwords
      asked := s.user.asked ++ [.askPassword message prompt error] } }

/-! ## 2. What it comes to -/

/-- The passwords that were entered before the user cancelled. -/
def enteredOf (answers : List Password) : List Str :=
  (answers.takeWhile fun p => !p.cancelled).map Password.password

/-- While `I` holds, verifying a password returns whether it is `ok` and changes the state
as `next` says; a failure keeps `I`. -/
structure Verifies (verify : Str → EStateM Fault σ Bool) (I : σ → Prop) (ok : Str → Bool)
    (next : Str → σ → σ) : Prop where
  run : ∀ k t, I t → (verify k).run t = .ok (ok k) (next k t)
  keep : ∀ k t, I t → ok k = false → I (next k t)

variable {verify : Str → EStateM Fault σ Bool} {I : σ → Prop} {ok : Str → Bool}
  {next : Str → σ → σ} {message prompt again : Str}

theorem enteredOf_cancelled {p : Password} {answers : List Password}
    (h : p.cancelled = true) : enteredOf (p :: answers) = [] := by
  unfold enteredOf
  rw [List.takeWhile_cons_of_neg (by simp [h]), List.map_nil]

theorem enteredOf_cons {p : Password} {answers : List Password} (h : ¬ p.cancelled = true) :
    enteredOf (p :: answers) = p.password :: enteredOf answers := by
  unfold enteredOf
  rw [List.takeWhile_cons_of_pos (by simp [h]), List.map_cons]

/-- The loop: whether one of the passwords entered is accepted, and what the first of them
leaves.  By induction on the answers. -/
theorem askUntil_go_spec (h : Verifies verify I ok next) (answers : List Password)
    {error : Str} {s : Session σ} (hI : I s.inner) :
    Ends (askUntil.go message prompt again verify error answers) s
      (fun b s' => b = (enteredOf answers).any ok ∧
        (b = true → ∃ k t, (enteredOf answers).find? ok = some k ∧ I t ∧ s'.inner = next k t))
      (fun _ _ => (enteredOf answers).any ok = false) := by
  induction answers generalizing error s with
  | nil =>
    simp only [askUntil.go, askUntil.asked, ends_bind, ends_modify, ends_throw]
    rfl
  | cons p answers ih =>
    simp only [askUntil.go, askUntil.asked, ends_bind, ends_modify]
    by_cases hcancel : p.cancelled = true
    · rw [if_pos hcancel, ends_pure, enteredOf_cancelled hcancel]
      exact ⟨rfl, Bool.noConfusion⟩
    · rw [if_neg hcancel, enteredOf_cons hcancel, ends_bind, withoutUser, ends_zoom,
        ends_of_run_ok (h.run p.password s.inner hI)]
      by_cases hok : ok p.password = true
      · rw [if_pos hok, ends_pure]
        refine ⟨?_, fun _ => ⟨p.password, s.inner, ?_, hI, rfl⟩⟩
        · rw [List.any_cons, hok, Bool.true_or]
        · rw [List.find?_cons_of_pos hok]
      · have hfail := Bool.eq_false_iff.mpr hok
        have hkeep := h.keep p.password s.inner hI hfail
        rw [if_neg hok, List.any_cons, List.find?_cons_of_neg hok, hfail, Bool.false_or]
        exact ih hkeep

theorem askUntil_spec (h : Verifies verify I ok next) {s : Session σ} (hI : I s.inner) :
    Ends (askUntil message prompt again verify) s
      (fun b s' => b = (enteredOf s.user.passwords).any ok ∧
        (b = true → ∃ k t, (enteredOf s.user.passwords).find? ok = some k ∧ I t ∧
          s'.inner = next k t))
      (fun _ _ => (enteredOf s.user.passwords).any ok = false) :=
  askUntil_go_spec h s.user.passwords hI

/-- **Asking until it is verified.**  It returns `true` if and only if one of the passwords
entered before the first cancellation is accepted. -/
theorem askUntil_true_iff (h : Verifies verify I ok next) {s : Session σ} (hI : I s.inner) :
    (∃ s', (askUntil message prompt again verify).run s = .ok true s') ↔
      ∃ k ∈ enteredOf s.user.passwords, ok k = true := by
  have hspec : Ends (askUntil message prompt again verify) s _ _ := askUntil_spec h hI
  rw [← List.any_eq_true]
  constructor
  · rintro ⟨s', hrun⟩
    exact (hspec.of_ok hrun).1.symm
  · intro hany
    cases hrun : (askUntil message prompt again verify).run s with
    | ok b s' =>
      have hb := (hspec.of_ok hrun).1
      rw [hany] at hb
      exact ⟨s', by rw [hb]⟩
    | error f s' =>
      have hnone := hspec.of_error hrun
      rw [hany] at hnone
      cases hnone

/-- What verifying does to the inner state, whether it returns or throws: `I` is kept until a
password is accepted, which makes it `J`. -/
theorem askUntil_ends {J : σ → Prop}
    (h : ∀ k t, I t → Ends (verify k) t (fun b t' => if b = true then J t' else I t')
      (fun _ t' => I t'))
    {s : Session σ} (hI : I s.inner) :
    Ends (askUntil message prompt again verify) s
      (fun b s' => if b = true then J s'.inner else I s'.inner) (fun _ s' => I s'.inner) := by
  have hgo : ∀ (answers : List Password) (error : Str) (s : Session σ), I s.inner →
      Ends (askUntil.go message prompt again verify error answers) s
        (fun b s' => if b = true then J s'.inner else I s'.inner) (fun _ s' => I s'.inner) := by
    intro answers
    induction answers with
    | nil =>
      intro error s hI
      simp only [askUntil.go, askUntil.asked, ends_bind, ends_modify, ends_throw]
      exact hI
    | cons p answers ih =>
      intro error s hI
      simp only [askUntil.go, askUntil.asked, ends_bind, ends_modify]
      by_cases hcancel : p.cancelled = true
      · rw [if_pos hcancel, ends_pure, if_neg Bool.false_ne_true]
        exact hI
      · rw [if_neg hcancel, ends_bind, withoutUser, ends_zoom]
        refine (h p.password s.inner hI).mono ?_ fun _ _ hI' => hI'
        intro b t' hb
        by_cases htrue : b = true
        · rw [if_pos htrue] at hb
          rw [if_pos htrue, ends_pure, if_pos rfl]
          exact hb
        · rw [if_neg htrue] at hb
          rw [if_neg htrue]
          exact ih again _ hb
  exact hgo s.user.passwords [] s hI

end GravelBox
