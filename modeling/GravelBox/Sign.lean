/-
# Signing a configuration

`gravelbox_sign` (`sign.cpp`, lines 16 to 83) is a program of its own: it writes the HMAC of the
configuration file, under a key it asks for, to the signature file.  The launch verifies that file
with the key that is entered then.

The model is `main`, over the files of the machine and the answers of the user: the configuration
is read, the key is asked for once (there is no loop as in `run`), the HMAC is computed and the
signature file is opened and written.  `signMain_spec` says what a run that succeeds has done: the
signature file holds the HMAC of the bytes that the configuration file held before, under the key
that was entered, and no other file is changed.  If both paths name one file then the
configuration is overwritten by its signature: the program does not look.

What this is for is the other side: the launch accepts a file with this HMAC under the same key, as
long as the configuration has not changed (`Authorisation.lean`).

One handler is easily misread.  The last `catch` is for `std::exception`, but the exceptions of
GravelBox inherit from that privately, so a `PinentryException` is not caught by it and leaves
`main`.

Not claimed: anything of a run that fails, which may have created the signature file.  Not
modelled: what is printed, and a failure of the HMAC itself.
-/
import GravelBox.Config.FileConfig
import GravelBox.Ui.User

namespace GravelBox

open Stateful

variable {Re : Type} (lib : Libraries Re)

/-- The files that can be written, and what becomes of the constructor of a `PinentryUI`, as in
`Environment`. -/
structure SignEnvironment where
  writable : Str → Bool
  starts : Str → Bool
  failure : Str → Fault

variable (env : SignEnvironment)

/-- The `try` block of `main`, in `sign.cpp`. -/
def signFile (configPath sigPath : Str) :
    EStateM Fault (Session (Str → Option Str)) Nat := do
  let files := (← get).inner
  match files configPath with
  | none =>
    throw (.configException configPath "GravelBox configuration".toList
      ("Cannot open file \"".toList ++ configPath ++ ['"']))
  | some config => do
    if env.starts "pinentry".toList = false then throw (env.failure "pinentry".toList)
    let response ← Session.askPassword "Enter the configuration file signing key.".toList
      "key: ".toList []
    if response.cancelled then return 1
    let md := lib.hmac response.password config
    if env.writable sigPath = false then
      throw (.configException configPath "GravelBox configuration signature".toList
        ("Cannot open file \"".toList ++ sigPath ++ ['"']))
    withoutUser (modify fun files => Function.update files sigPath (some md))
    return 0

/-- `main`, in `sign.cpp`, with the arguments after the program's name.  Errors are reported
by the exit code, all but a `PinentryException`, which is no public `std::exception`. -/
def signMain : List Str → EStateM Fault (Session (Str → Option Str)) Nat
  | [configPath, sigPath] => tryCatch (signFile lib env configPath sigPath) fun
    | .configException .. => return 1
    | .systemError _ => return 1
    | f => throw f
  | _ => return 1

/-- The signature file was written: it has the HMAC of the configuration under the key that
was entered. -/
def Signed (configPath sigPath : Str) (s s' : Session (Str → Option Str)) : Prop :=
  ∃ config key, s.inner configPath = some config ∧
    s.user.passwords.head? = some { cancelled := false, password := key } ∧
      s'.inner = Function.update s.inner sigPath (some (lib.hmac key config))

theorem ends_askPassword {σ : Type} {message prompt error : Str} {s : Session σ}
    {Q : Password → Session σ → Prop} {R : Fault → Session σ → Prop}
    (hq : ∀ p s', s.user.passwords.head? = some p → s'.inner = s.inner → Q p s')
    (hr : ∀ f s', R f s') : Ends (Session.askPassword message prompt error) s Q R := by
  unfold Ends EStateM.run Session.askPassword
  cases hanswers : s.user.passwords with
  | nil => exact hr _ _
  | cons answer answers => exact hq _ _ (by rw [hanswers]; rfl) rfl

theorem signFile_ends (configPath sigPath : Str) (s : Session (Str → Option Str)) :
    Ends (signFile lib env configPath sigPath) s
      (fun code s' => code = 0 → Signed lib configPath sigPath s s') (fun _ _ => True) := by
  simp only [signFile, ends_bind, ends_get]
  cases hconfig : s.inner configPath with
  | none => trivial
  | some config =>
    simp only
    by_cases hstarts : env.starts "pinentry".toList = false
    · rw [if_pos hstarts]
      trivial
    · rw [if_neg hstarts, ends_bind]
      refine ends_askPassword ?_ fun _ _ => trivial
      intro p s' hp hinner
      by_cases hcancel : p.cancelled = true
      · rw [if_pos hcancel]
        exact fun h => absurd h (by decide)
      · rw [if_neg hcancel]
        by_cases hwritable : env.writable sigPath = false
        · rw [if_pos hwritable]
          trivial
        · rw [if_neg hwritable]
          intro _
          have hfalse := Bool.eq_false_iff.mpr hcancel
          refine ⟨config, p.password, hconfig, ?_, ?_⟩
          · rw [hp, ← hfalse]
          · rw [← hinner]

/-- **A signature that was written** is the HMAC of the configuration under the key entered. -/
theorem signMain_spec {configPath sigPath : Str} {s s' : Session (Str → Option Str)}
    (h : (signMain lib env [configPath, sigPath]).run s = .ok 0 s') :
    Signed lib configPath sigPath s s' := by
  have hends : Ends (signMain lib env [configPath, sigPath]) s
      (fun code s' => code = 0 → Signed lib configPath sigPath s s') (fun _ _ => True) := by
    unfold signMain
    rw [ends_tryCatch]
    refine (signFile_ends lib env configPath sigPath s).mono (fun _ _ h => h) ?_
    intro f s' _
    cases f with
    | configException | systemError => exact fun h => absurd h (by decide)
    | outOfRange | jsonException | regexError | pinentryException | outOfBounds | assertion
      | terminate | blocked => trivial
  exact hends.of_ok h rfl

end GravelBox
