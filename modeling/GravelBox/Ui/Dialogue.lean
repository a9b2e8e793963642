/-
# The shape of a dialogue

`confirm` and `getpin` (`ui/pinentry_conn.h`, lines 63 to 77 and 113 to 134) both give a number of
commands, each of which pinentry has to accept, and then the one whose answer they return.
`inquire` is that shape; what follows about it is proved once, by induction over the commands.

The two are written out in the source, command by command, and `confirm_eq` and `getpin_eq` say that
this is the same: three commands and `CONFIRM`, four or five commands and `GETPIN`, the fifth only
where there is an error to show.  From there on nothing depends on how many they are.

What is returned is decided by the last response alone (`conclude`): a success is an answer, the
code of a cancellation is another, and any other code is thrown.  A response to one of the earlier
commands that is no success is thrown at once, with the rest of the dialogue not held; so the last
question is put only if pinentry has accepted everything that it is to display with it.

This is the module to look at for what an answer means: both callers go by whether the code is 0,
for which the source has a conversion to `bool`, and nothing else of a response is looked at but the
data of a password.

Not claimed: that pinentry displays what it was given.  That is what its acceptance stands for; that
the lines it is given are the ones that were meant is proved of each caller (`Ui/Assuan.lean`,
`Ui/Lockstep.lean`).
-/
import GravelBox.Ui.PinentryConn

namespace GravelBox

open Stateful

variable {ρ : Type} (respond : ρ → Str → ρ × List Str)

/-! ## 1. Setting up and asking -/

/-- One command that has to be accepted. -/
def order (cmd : Str) : EStateM Fault (PinentryConn ρ) Unit := do
  PinentryConn.say respond cmd
  PinentryConn.ok

/-- Some commands that have to be accepted, then one whose answer is wanted. -/
def inquire : List Str → Str → EStateM Fault (PinentryConn ρ) Response
  | [], question => do
    PinentryConn.say respond question
    PinentryConn.recv
  | cmd :: cmds, question => do
    order respond cmd
    inquire cmds question

/-- What `confirm` sets up. -/
def confirmSetup (message : Str) : List Str :=
  ["SETDESC ".toList ++ message, "SETOK Allow".toList, "SETCANCEL Deny".toList]

/-- What `getpin` sets up. -/
def getpinSetup (message prompt error : Str) : List Str :=
  ["SETDESC ".toList ++ message, "SETPROMPT ".toList ++ prompt, "SETOK OK".toList,
    "SETCANCEL Cancel".toList] ++ if error ≠ [] then ["SETERROR ".toList ++ error] else []

/-- What a caller makes of the answer. -/
def conclude {α : Type} (yes : Response → α) (no : α) (r : Response) :
    EStateM Fault (PinentryConn ρ) α := do
  if r.success then return yes r
  if r.code = kCancel then return no
  r.throwError

/-- What `getpin` makes of a success. -/
def entered (r : Response) : Password := { cancelled := false, password := r.data }

/-- What `getpin` makes of a cancellation. -/
def notEntered : Password := { cancelled := true, password := [] }

theorem confirm_eq (message : Str) :
    PinentryConn.confirm respond message =
      inquire respond (confirmSetup message) "CONFIRM".toList >>=
        conclude (fun _ => true) false := by
  simp only [PinentryConn.confirm, confirmSetup, inquire, order, bind_assoc]
  rfl

theorem getpin_eq (message prompt error : Str) :
    PinentryConn.getpin respond message prompt error =
      inquire respond (getpinSetup message prompt error) "GETPIN".toList >>=
        conclude entered notEntered := by
  unfold PinentryConn.getpin getpinSetup
  by_cases herror : error ≠ []
  · simp only [if_pos herror, List.cons_append, List.nil_append, inquire, order, bind_assoc]
    rfl
  · simp only [if_neg herror, List.cons_append, List.nil_append, inquire, order, bind_assoc]
    rfl

/-! ## 2. Both callers go by the success of the response -/

theorem conclude_ok_iff {α : Type} {yes : Response → α} {no a : α} {r : Response}
    {c c' : PinentryConn ρ} :
    (conclude yes no r).run c = .ok a c' ↔
      c' = c ∧ ((r.success = true ∧ a = yes r) ∨
        (r.success = false ∧ r.code = kCancel ∧ a = no)) := by
  unfold conclude
  by_cases hr : r.success = true
  · rw [if_pos hr]
    constructor
    · intro h
      cases h
      exact ⟨rfl, .inl ⟨hr, rfl⟩⟩
    · rintro ⟨rfl, ⟨-, rfl⟩ | ⟨hfail, -⟩⟩
      · rfl
      · exact absurd hr (Bool.eq_false_iff.mp hfail)
  · rw [if_neg hr]
    by_cases hcancel : r.code = kCancel
    · rw [if_pos hcancel]
      constructor
      · intro h
        cases h
        exact ⟨rfl, .inr ⟨Bool.eq_false_iff.mpr hr, hcancel, rfl⟩⟩
      · rintro ⟨rfl, ⟨hsuccess, -⟩ | ⟨-, -, rfl⟩⟩
        · exact absurd hsuccess hr
        · rfl
    · rw [if_neg hcancel]
      constructor
      · intro h
        cases h
      · rintro ⟨-, ⟨hsuccess, -⟩ | ⟨-, hcode, -⟩⟩
        · exact absurd hsuccess hr
        · exact absurd hcode hcancel

/-- A caller that grants something for a success and for nothing else. -/
theorem granted_iff {α : Type} {yes : Response → α} {no : α} (granted : α → Prop)
    (hyes : ∀ r, granted (yes r)) (hno : ¬ granted no) {setup : List Str} {question : Str}
    {c : PinentryConn ρ} :
    (∃ a c', (inquire respond setup question >>= conclude yes no).run c = .ok a c' ∧ granted a) ↔
      ∃ r c', (inquire respond setup question).run c = .ok r c' ∧ r.success = true := by
  constructor
  · rintro ⟨a, c', hrun, hgranted⟩
    obtain ⟨r, s, hinq, hend⟩ := run_bind_eq_ok.mp hrun
    obtain ⟨-, ⟨hr, -⟩ | ⟨-, -, rfl⟩⟩ := conclude_ok_iff.mp hend
    · exact ⟨r, s, hinq, hr⟩
    · exact absurd hgranted hno
  · rintro ⟨r, c', hinq, hr⟩
    refine ⟨yes r, c', run_bind_eq_ok.mpr ⟨r, c', hinq, ?_⟩, hyes r⟩
    exact conclude_ok_iff.mpr ⟨rfl, .inl ⟨hr, rfl⟩⟩

/-! ## 3. One order -/

theorem ok_ok_iff {c c' : PinentryConn ρ} :
    (PinentryConn.ok (ρ := ρ)).run c = .ok () c' ↔
      ∃ r, (PinentryConn.recv (ρ := ρ)).run c = .ok r c' ∧ r.success = true := by
  unfold PinentryConn.ok
  rw [run_bind_eq_ok]
  constructor
  · rintro ⟨r, s, hrecv, hrest⟩
    by_cases hr : r.success = false
    · rw [if_pos hr] at hrest
      cases hrest
    · rw [if_neg hr] at hrest
      cases hrest
      exact ⟨r, hrecv, Bool.not_eq_false _ ▸ hr⟩
  · rintro ⟨r, hrecv, hr⟩
    refine ⟨r, c', hrecv, ?_⟩
    rw [if_neg (by rw [hr]; exact Bool.noConfusion)]
    rfl

/-- An order is a question whose answer has to be a success. -/
theorem order_ok_iff {c c' : PinentryConn ρ} {cmd : Str} :
    (order respond cmd).run c = .ok () c' ↔
      ∃ r, (inquire respond [] cmd).run c = .ok r c' ∧ r.success = true := by
  unfold order inquire
  simp only [run_bind_eq_ok, ok_ok_iff]
  constructor
  · rintro ⟨u, s, hsay, r, hrecv, hr⟩
    exact ⟨r, ⟨u, s, hsay, hrecv⟩, hr⟩
  · rintro ⟨r, ⟨u, s, hsay, hrecv⟩, hr⟩
    exact ⟨u, s, hsay, r, hrecv, hr⟩

end GravelBox
