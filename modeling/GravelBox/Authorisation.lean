/-
# Only an authorised configuration runs a target

`run` (`modules.cpp`, lines 15 to 55) gives the tracer a configuration only if its signature was
verified, or if it was told not to verify it.  `launch_authorised` says when that is, from the
files and the keys that the user enters; what the configuration names is not used before.

The loop for the key (lines 31 to 40) is the hard part.  It ends in three ways: with a key that is
right, with a cancellation, or with the user gone, and `verify_signature` may also throw in any
round, if the signature file is not there or has another size than an HMAC.  Which of these it is
depends on all answers up to the one that ends it, so the theorem speaks of the first key that is
right (`FirstKey`), and the loop is unrolled by the induction that is made once for all loops of
this kind (`askUntil_ends`).

A wrong key is not without effect: `verify_signature` stores it before it looks, so that the
configuration has the last key that was entered.  That is what the decision password is verified
under later, and it is the right one when the loop is left (`Keyed`, `Granted`).

`Ready` collects what else has to be as it should: the programs start, and the definitions can be
loaded.  They are conditions on the environment; where one is missing the launch throws, and no
target is run.

Not claimed: that nobody else can produce the signature.  The theorems say which HMAC is compared
with which bytes; what that is worth is a matter of HMAC.  And the file is read once: what happens
to it on the disk afterwards does not matter.
-/
import GravelBox.Config.Document
import GravelBox.Modules
import GravelBox.Sign
import GravelBox.Trace.Decision

namespace GravelBox

open Stateful

variable {Re : Type} {lib : Libraries Re} {env : Environment}

/-! ## 1. What is used before the verification -/

/-- Nothing is used before the verification but the program `asking`. -/
def Cautious (asking : Str) (log : List Use) : Prop :=
  ∀ pre use post, log = pre ++ use :: post → .verified ∉ pre →
    use = .pinentry asking ∨ use = .verified

variable {asking : Str}

theorem cautious_nil : Cautious asking [] := by
  intro pre use post h
  exact absurd h.symm (List.append_ne_nil_of_right_ne_nil pre (List.cons_ne_nil use post))

/-- One more use: of the program, or after the verification. -/
theorem Cautious.snoc {log : List Use} (h : Cautious asking log) {use : Use}
    (huse : use = .pinentry asking ∨ use = .verified ∨ .verified ∈ log) :
    Cautious asking (log ++ [use]) := by
  intro pre use' post hsplit hpre
  rcases List.eq_nil_or_concat post with rfl | ⟨post, last, rfl⟩
  · obtain ⟨rfl, huse'⟩ := List.append_inj' hsplit rfl
    obtain rfl := (List.cons.inj huse').1
    rcases huse with hasking | hverified | hmem
    · exact .inl hasking
    · exact .inr hverified
    · exact absurd hmem hpre
  · have hsplit' : log ++ [use] = (pre ++ use' :: post) ++ [last] := by
      rw [hsplit, List.append_assoc, List.cons_append, List.concat_eq_append]
    exact h pre use' post (List.append_inj' hsplit' rfl).1 hpre

/-- The log is in order, and the signature was verified. -/
def Verified (asking : Str) (l : Launch Re) : Prop :=
  Cautious asking l.log ∧ .verified ∈ l.log

theorem Verified.record {l : Launch Re} (h : Verified asking l) (use : Use) :
    Verified asking (l.record use) :=
  ⟨h.1.snoc (.inr (.inr h.2)), List.mem_append_left _ h.2⟩

/-- Starting a program. -/
theorem startPinentry_makes {P : Launch Re → Prop} {program : Str} {l : Launch Re}
    (h : P (l.record (.pinentry program))) :
    Ends (startPinentry env program) l (fun _ l' => P l') (fun _ l' => P l') := by
  rw [ends_startPinentry, ite_self]
  exact h

/-- Reading the definitions. -/
theorem makeParser_makes {P : Launch Re → Prop} {path : Str} {l : Launch Re}
    (h : P (l.record (.definitions path))) :
    Ends (makeParser lib env path) l (fun _ l' => P l') (fun _ l' => P l') := by
  rw [ends_makeParser]
  cases Parser.load lib.toJsonCpp env.files path with
  | ok parser => exact h
  | error f => exact h

/-- A key is verified or not; nothing else is used. -/
theorem verifyKey_cautious {key : Str} {l : Launch Re} (h : Cautious asking l.log) :
    Ends (verifyKey lib env key) l
      (fun b l' => if b = true then Verified asking l' else Cautious asking l'.log)
      (fun _ l' => Cautious asking l'.log) := by
  simp only [verifyKey, ends_bind, ends_zoom]
  refine ends_of_forall (fun b c => ?_) fun _ _ => h
  cases b with
  | false => exact h
  | true => exact ⟨h.snoc (.inr (.inl rfl)), List.mem_append_right _ (List.mem_singleton_self _)⟩

/-- The rest of the launch, after the verification. -/
theorem makeTracer_verified {opts : Options} {l : Launch Re} (h : Verified asking l) :
    Ends (makeTracer lib env opts) l (fun _ l' => Verified asking l')
      (fun _ l' => Verified asking l') := by
  simp only [makeTracer, ends_bind, ends_get]
  by_cases hp : opts.pinentry = none
  · rw [if_pos hp, ends_bind]
    refine (startPinentry_makes (h.record _)).mono ?_ fun _ _ h => h
    intro _ l' h
    rw [ends_bind]
    exact makeParser_makes (h.record _)
  · rw [if_neg hp, ends_bind]
    exact makeParser_makes (h.record _)

/-- Asking for the key. -/
theorem authorise_cautious {opts : Options} (hsig : opts.noSignature = false)
    (hasking : opts.pinentry = none → asking = "pinentry".toList)
    {s : Session (Launch Re)} (h : Cautious asking s.inner.log) :
    Ends (authorise lib env opts) s
      (fun b s' => if b = true then Verified asking s'.inner else Cautious asking s'.inner.log)
      (fun _ s' => Cautious asking s'.inner.log) := by
  have hask : ∀ (message prompt again : Str) (s : Session (Launch Re)),
      Cautious asking s.inner.log →
      Ends (askUntil message prompt again (verifyKey lib env)) s
        (fun b s' => if b = true then Verified asking s'.inner else Cautious asking s'.inner.log)
        (fun _ s' => Cautious asking s'.inner.log) := by
    intro message prompt again s h
    exact askUntil_ends (I := fun l : Launch Re => Cautious asking l.log) (J := Verified asking)
      (fun key l => verifyKey_cautious) h
  unfold authorise
  rw [hsig, if_neg Bool.false_ne_true]
  by_cases hp : opts.pinentry = none
  · obtain rfl := hasking hp
    rw [if_pos hp, ends_bind, withoutUser, ends_zoom]
    refine (startPinentry_makes (P := fun l => Cautious _ l.log) (h.snoc (.inl rfl))).mono ?_
      fun _ _ h => h
    intro _ l h
    exact hask _ _ _ _ h
  · rw [if_neg hp]
    exact hask _ _ _ s h

/-- **Nothing that the configuration names is used before its signature was verified**,
however the launch ends. -/
theorem launch_cautious {opts : Options} (hsig : opts.noSignature = false)
    {s : Session (Launch Re)} (h : s.inner.log = []) :
    Ends (launch lib env opts) s
      (fun _ s' => Cautious (opts.pinentry.getD "pinentry".toList) s'.inner.log)
      (fun _ s' => Cautious (opts.pinentry.getD "pinentry".toList) s'.inner.log) := by
  have hopen : Ends (openPinentry env opts) s
      (fun _ s' => Cautious (opts.pinentry.getD "pinentry".toList) s'.inner.log)
      (fun _ s' => Cautious (opts.pinentry.getD "pinentry".toList) s'.inner.log) := by
    unfold openPinentry
    cases hp : opts.pinentry with
    | none =>
      rw [ends_pure, h]
      exact cautious_nil
    | some program =>
      simp only [withoutUser, ends_zoom]
      refine startPinentry_makes (P := fun l => Cautious _ l.log) ?_
      rw [Launch.record, h]
      exact cautious_nil.snoc (.inl rfl)
  rw [launch, ends_bind]
  refine hopen.mono ?_ fun _ _ h => h
  intro _ s' h'
  rw [ends_bind]
  refine (authorise_cautious hsig (fun hp => by rw [hp]; rfl) h').mono ?_ fun _ _ h => h
  intro authorised s'' h''
  cases authorised with
  | false => exact h''
  | true =>
    rw [if_pos rfl] at h''
    rw [if_neg Bool.noConfusion, ends_bind, withoutUser, ends_zoom]
    exact (makeTracer_verified h'').mono (fun _ _ h => h.1) fun _ _ h => h.1

/-! ## 2. The keys -/

/-- The configuration `c`, with any key. -/
def Keyed (c : FileConfig Re) (l : Launch Re) : Prop := ∃ key, l.config = { c with key := key }

variable {c : FileConfig Re}

/-- The launch after a key was tried, where the signature file is `sig`. -/
def afterKey (lib : Libraries Re) (c : FileConfig Re) (sig key : Str) (l : Launch Re) :
    Launch Re :=
  if lib.hmac key c.config = sig then
    { config := { c with key := key, config := [] }, log := l.log ++ [.verified] }
  else { l with config := { c with key := key } }

/-- With a signature file of the right length, verifying a key returns. -/
theorem verifies_key {sig : Str} (hfile : env.files c.signature = some sig)
    (hlen : sig.length = kHashSize) :
    Verifies (verifyKey lib env) (Keyed c) (fun k => decide (lib.hmac k c.config = sig))
      (afterKey lib c sig) := by
  refine ⟨?_, ?_⟩
  · rintro k ⟨config, log⟩ ⟨key, rfl⟩
    simp only [verifyKey, EStateM.run_bind, run_zoom, run_verifySignature, hfile,
      if_neg (not_not.mpr hlen), afterKey]
    by_cases hmac : lib.hmac k c.config = sig
    · rw [if_pos hmac, if_pos hmac, decide_eq_true hmac]
      rfl
    · rw [if_neg hmac, if_neg hmac, decide_eq_false hmac]
      rfl
  · intro k l _ hmac
    refine ⟨k, ?_⟩
    rw [afterKey, if_neg (of_decide_eq_false hmac)]

/-- There is a signature file of the right length. -/
def HasSignature (env : Environment) (c : FileConfig Re) : Prop :=
  ∃ sig, env.files c.signature = some sig ∧ sig.length = kHashSize

/-- A key that was verified: there is a signature file of the right length. -/
theorem verifyKey_sound {k : Str} {l : Launch Re} (h : Keyed c l) :
    Ends (verifyKey lib env k) l
      (fun b l' => if b = true then HasSignature env c else Keyed c l')
      (fun _ l' => Keyed c l') := by
  obtain ⟨config, log⟩ := l
  obtain ⟨key, rfl⟩ := h
  simp only [verifyKey, ends_bind, ends_zoom]
  unfold Ends
  simp only [run_verifySignature]
  cases hfile : env.files c.signature with
  | none => exact ⟨k, rfl⟩
  | some sig =>
    by_cases hlen : sig.length ≠ kHashSize
    · simp only [if_pos hlen]
      exact ⟨k, rfl⟩
    · simp only [if_neg hlen]
      by_cases hmac : lib.hmac k c.config = sig
      · simp only [if_pos hmac]
        exact ⟨sig, hfile, not_not.mp hlen⟩
      · simp only [if_neg hmac]
        exact ⟨k, rfl⟩

/-- The file at `path` is the signature of `bytes` under `key`. -/
def Signs (lib : Libraries Re) (env : Environment) (path bytes key : Str) : Prop :=
  ∃ sig, env.files path = some sig ∧ sig.length = kHashSize ∧ lib.hmac key bytes = sig

/-- `key` is the first of the keys entered that the signature is under. -/
def FirstKey (lib : Libraries Re) (env : Environment) (path bytes : Str) (user : User)
    (key : Str) : Prop :=
  ∃ pre post, enteredOf user.passwords = pre ++ key :: post ∧
    (∀ k ∈ pre, ¬ Signs lib env path bytes k) ∧ Signs lib env path bytes key

/-- A key was entered that the signature is under. -/
def KeyEntered (lib : Libraries Re) (env : Environment) (path bytes : Str) (user : User) : Prop :=
  ∃ key ∈ enteredOf user.passwords, Signs lib env path bytes key

theorem signs_iff {sig path bytes key : Str} (hfile : env.files path = some sig)
    (hlen : sig.length = kHashSize) : Signs lib env path bytes key ↔ lib.hmac key bytes = sig := by
  constructor
  · rintro ⟨sig', hfile', -, hmac⟩
    rw [hmac]
    exact Option.some.inj (hfile'.symm.trans hfile)
  · intro hmac
    exact ⟨sig, hfile, hlen, hmac⟩

theorem FirstKey.entered {path bytes key : Str} {user : User}
    (h : FirstKey lib env path bytes user key) : KeyEntered lib env path bytes user := by
  obtain ⟨pre, post, hsplit, -, hsigns⟩ := h
  refine ⟨key, ?_, hsigns⟩
  rw [hsplit]
  exact List.mem_append_right pre List.mem_cons_self

/-- Without a signature file of the right length, asking for the key does not succeed. -/
theorem askKey_unsigned {message prompt again : Str} {s : Session (Launch Re)}
    (hs : Keyed c s.inner) (hno : ¬ HasSignature env c) :
    Ends (askUntil message prompt again (verifyKey lib env)) s (fun b _ => b = false)
      (fun _ _ => True) := by
  have hask : Ends (askUntil message prompt again (verifyKey lib env)) s _ _ :=
    askUntil_ends (I := Keyed c) (J := fun _ => HasSignature env c)
      (fun _ _ => verifyKey_sound) hs
  refine hask.mono ?_ fun _ _ _ => trivial
  intro b s' h
  cases b with
  | false => rfl
  | true => exact absurd h hno

/-- Asking for the key. -/
theorem askKey_spec {message prompt again : Str} {s : Session (Launch Re)}
    (hs : Keyed c s.inner) :
    Ends (askUntil message prompt again (verifyKey lib env)) s
      (fun b s' => if b = true then
          ∃ k, FirstKey lib env c.signature c.config s.user k ∧
            s'.inner.config = { c with key := k, config := [] }
        else ¬ KeyEntered lib env c.signature c.config s.user)
      (fun _ _ => ¬ KeyEntered lib env c.signature c.config s.user) := by
  by_cases hsigned : HasSignature env c
  · obtain ⟨sig, hfile, hlen⟩ := hsigned
    have hnone : (enteredOf s.user.passwords).any
        (fun k => decide (lib.hmac k c.config = sig)) = false →
          ¬ KeyEntered lib env c.signature c.config s.user := by
      rintro hany ⟨k, hk, hsigns⟩
      exact List.any_eq_false.mp hany k hk (decide_eq_true ((signs_iff hfile hlen).mp hsigns))
    refine (askUntil_spec (verifies_key hfile hlen) hs).mono ?_ fun _ _ => hnone
    rintro b s' ⟨hb, htrue⟩
    cases b with
    | false => exact hnone hb.symm
    | true =>
      obtain ⟨k, l, hfind, -, hs'⟩ := htrue rfl
      obtain ⟨hmac, pre, post, hsplit, hpre⟩ := List.find?_eq_some_iff_append.mp hfind
      have hmac := of_decide_eq_true hmac
      refine ⟨k, ⟨pre, post, hsplit, ?_, (signs_iff hfile hlen).mpr hmac⟩, ?_⟩
      · intro k' hk' hsigns
        have hno := hpre k' hk'
        rw [decide_eq_true ((signs_iff hfile hlen).mp hsigns)] at hno
        cases hno
      · rw [hs', afterKey, if_pos hmac]
  · have hno : ¬ KeyEntered lib env c.signature c.config s.user := by
      rintro ⟨k, -, sig, hfile, hlen, -⟩
      exact hsigned ⟨sig, hfile, hlen⟩
    refine (askKey_unsigned hs hsigned).mono ?_ fun _ _ _ => hno
    rintro b s' rfl
    exact hno

/-! ## 3. Reaching the tracer -/

/-- The programs that a launch starts do start, and the definitions are read as `p`. -/
structure Ready (lib : Libraries Re) (env : Environment) (opts : Options) (c : FileConfig Re)
    (p : Parser) : Prop where
  chosen : ∀ program, opts.pinentry = some program → env.starts program = true
  asking : opts.pinentry = none → opts.noSignature = false →
    env.starts "pinentry".toList = true
  configured : opts.pinentry = none → env.starts c.pinentry = true
  definitions : Parser.load lib.toJsonCpp env.files c.syscalldef = .ok p

/-- The configuration may be used: the user was told not to verify it, or has the key. -/
def Authorised (lib : Libraries Re) (env : Environment) (opts : Options) (c : FileConfig Re)
    (user : User) : Prop :=
  opts.noSignature = true ∨ KeyEntered lib env c.signature c.config user

/-- What an authorised configuration `c` becomes. -/
def Granted (lib : Libraries Re) (env : Environment) (opts : Options) (c : FileConfig Re)
    (user : User) (c' : FileConfig Re) : Prop :=
  (opts.noSignature = true ∧ c' = c.dismissSignature.removePassword) ∨
    (opts.noSignature = false ∧ ∃ k, FirstKey lib env c.signature c.config user k ∧
      c' = { c with key := k, config := [] })

theorem Granted.authorised {opts : Options} {user : User} {c' : FileConfig Re}
    (h : Granted lib env opts c user c') : Authorised lib env opts c user := by
  rcases h with ⟨hsig, -⟩ | ⟨-, k, hfirst, -⟩
  · exact .inl hsig
  · exact .inr hfirst.entered

/-- What the rest of the launch reads is not touched by the verification. -/
theorem Granted.same {opts : Options} {user : User} {c' : FileConfig Re}
    (h : Granted lib env opts c user c') :
    c'.pinentry = c.pinentry ∧ c'.syscalldef = c.syscalldef := by
  rcases h with ⟨-, rfl⟩ | ⟨-, k, -, rfl⟩
  · exact ⟨rfl, rfl⟩
  · exact ⟨rfl, rfl⟩

theorem openPinentry_spec {opts : Options} {s : Session (Launch Re)} :
    Ends (openPinentry env opts) s
      (fun _ s' => (∀ program, opts.pinentry = some program → env.starts program = true) ∧
        s'.inner.config = s.inner.config ∧ s'.user = s.user)
      (fun _ _ => ¬ ∀ program, opts.pinentry = some program → env.starts program = true) := by
  unfold openPinentry
  cases hp : opts.pinentry with
  | none => exact ⟨nofun, rfl, rfl⟩
  | some program =>
    simp only
    rw [withoutUser, ends_zoom, ends_startPinentry]
    by_cases hstarts : env.starts program = true
    · rw [if_pos hstarts]
      refine ⟨?_, rfl, rfl⟩
      rintro _ ⟨rfl⟩
      exact hstarts
    · rw [if_neg hstarts]
      intro h
      exact hstarts (h program rfl)

/-- The program that asks for the key starts, where one is needed that the user did not
choose. -/
def CanAsk (env : Environment) (opts : Options) : Prop :=
  opts.pinentry = none → opts.noSignature = false → env.starts "pinentry".toList = true

/-- Asking for the key, where the signature is to be verified. -/
theorem askKey_granted {message prompt again : Str} {opts : Options} {s : Session (Launch Re)}
    (hsig : ¬ opts.noSignature = true) (hs : s.inner.config = c) (hask : CanAsk env opts) :
    Ends (askUntil message prompt again (verifyKey lib env)) s
      (fun b s' => if b = true then
          Granted lib env opts c s.user s'.inner.config ∧ CanAsk env opts
        else ¬ Authorised lib env opts c s.user)
      (fun _ _ => ¬ (Authorised lib env opts c s.user ∧ CanAsk env opts)) := by
  refine (askKey_spec ⟨c.key, hs⟩).mono ?_ ?_
  · intro b s' h
    cases b with
    | false => exact fun hauth => h (hauth.resolve_left hsig)
    | true => exact ⟨.inr ⟨Bool.eq_false_iff.mpr hsig, h⟩, hask⟩
  · intro _ _ h hauth
    exact h (hauth.1.resolve_left hsig)

theorem authorise_spec {opts : Options} {s : Session (Launch Re)} (hs : s.inner.config = c) :
    Ends (authorise lib env opts) s
      (fun b s' => if b = true then
          Granted lib env opts c s.user s'.inner.config ∧ CanAsk env opts
        else ¬ Authorised lib env opts c s.user)
      (fun _ _ => ¬ (Authorised lib env opts c s.user ∧ CanAsk env opts)) := by
  unfold authorise
  by_cases hsig : opts.noSignature = true
  · rw [if_pos hsig]
    refine ⟨.inl ⟨hsig, ?_⟩, fun _ h => absurd (hsig.symm.trans h) Bool.noConfusion⟩
    rw [← hs]
  · rw [if_neg hsig]
    by_cases hp : opts.pinentry = none
    · rw [if_pos hp, ends_bind, withoutUser, ends_zoom, ends_startPinentry]
      by_cases hstarts : env.starts "pinentry".toList = true
      · rw [if_pos hstarts]
        have hask : CanAsk env opts := fun _ _ => hstarts
        exact askKey_granted (s := { s with inner := s.inner.record _ }) hsig hs hask
      · rw [if_neg hstarts]
        intro h
        exact hstarts (h.2 hp (Bool.eq_false_iff.mpr hsig))
    · rw [if_neg hp]
      exact askKey_granted hsig hs fun h => absurd h hp

theorem makeTracer_spec {opts : Options} {l : Launch Re} :
    Ends (makeTracer lib env opts) l
      (fun r _ => r.2 = l.config ∧
        (opts.pinentry = none → env.starts l.config.pinentry = true) ∧
        Parser.load lib.toJsonCpp env.files l.config.syscalldef = .ok r.1)
      (fun _ _ => ¬ ((opts.pinentry = none → env.starts l.config.pinentry = true) ∧
        ∃ p, Parser.load lib.toJsonCpp env.files l.config.syscalldef = .ok p)) := by
  have hparser : ∀ l' : Launch Re, Ends (makeParser lib env l.config.syscalldef) l'
      (fun p _ => Parser.load lib.toJsonCpp env.files l.config.syscalldef = .ok p)
      (fun _ _ => ¬ ∃ p, Parser.load lib.toJsonCpp env.files l.config.syscalldef = .ok p) := by
    intro l'
    rw [ends_makeParser]
    cases hload : Parser.load lib.toJsonCpp env.files l.config.syscalldef with
    | ok p => rfl
    | error f => exact fun h => nomatch h
  simp only [makeTracer, ends_bind, ends_get]
  by_cases hp : opts.pinentry = none
  · rw [if_pos hp, ends_bind, ends_startPinentry]
    by_cases hstarts : env.starts l.config.pinentry = true
    · rw [if_pos hstarts, ends_bind]
      exact (hparser _).mono (fun p _ h => ⟨rfl, fun _ => hstarts, h⟩) fun _ _ h h' => h h'.2
    · rw [if_neg hstarts]
      intro h
      exact hstarts (h.1 hp)
  · rw [if_neg hp, ends_bind]
    exact (hparser l).mono (fun p _ h => ⟨rfl, fun h => absurd h hp, h⟩) fun _ _ h h' => h h'.2

/-- **The launch**: what the tracer is given, and that it is given something wherever the
configuration is authorised and the rest of the system is ready. -/
theorem launch_spec {opts : Options} {s : Session (Launch Re)} (hs : s.inner.config = c) :
    Ends (launch lib env opts) s
      (fun r _ => match r with
        | some (p, c') => Granted lib env opts c s.user c' ∧ Ready lib env opts c p
        | none => ¬ (Authorised lib env opts c s.user ∧ ∃ p, Ready lib env opts c p))
      (fun _ _ => ¬ (Authorised lib env opts c s.user ∧ ∃ p, Ready lib env opts c p)) := by
  rw [launch, ends_bind]
  refine openPinentry_spec.mono ?_ ?_
  · rintro _ s₁ ⟨hchosen, hs₁, huser⟩
    rw [ends_bind, ← huser]
    refine (authorise_spec (hs₁.trans hs)).mono ?_ ?_
    · intro authorised s₂ h
      cases authorised with
      | false => exact fun hall => h hall.1
      | true =>
        obtain ⟨hgranted, hasking⟩ := h
        obtain ⟨hpin, hdef⟩ := hgranted.same
        rw [if_neg Bool.noConfusion, ends_bind, withoutUser, ends_zoom]
        refine makeTracer_spec.mono ?_ ?_
        · rintro ⟨p, c'⟩ _ ⟨rfl, hconfigured, hload⟩
          rw [hpin] at hconfigured
          rw [hdef] at hload
          exact ⟨hgranted, hchosen, hasking, hconfigured, hload⟩
        · rintro _ _ hno ⟨-, p, hready⟩
          rw [hpin, hdef] at hno
          exact hno ⟨hready.configured, p, hready.definitions⟩
    · rintro _ _ hno ⟨hauth, p, hready⟩
      exact hno ⟨hauth, hready.asking⟩
  · rintro _ _ hno ⟨-, p, hready⟩
    exact hno hready.chosen

/-- `run` gets to `tracer.run`, with this parser and this configuration. -/
def Reaches (lib : Libraries Re) (env : Environment) (opts : Options) (user : User)
    (p : Parser) (c' : FileConfig Re) : Prop :=
  ∃ s, run lib env opts user = .ok (.ok (some (p, c')) s)

theorem run_of_read {opts : Options} {user : User}
    (hread : FileConfig.read lib env.files opts.config = .ok c) :
    run lib env opts user =
      .ok ((launch lib env opts).run { inner := { config := c, log := [] }, user := user }) := by
  rw [run, hread]
  rfl

theorem Reaches.granted {opts : Options} {user : User} {p : Parser} {c' : FileConfig Re}
    (hread : FileConfig.read lib env.files opts.config = .ok c)
    (h : Reaches lib env opts user p c') :
    Granted lib env opts c user c' ∧ Ready lib env opts c p := by
  obtain ⟨s, hrun⟩ := h
  rw [run_of_read hread] at hrun
  exact (launch_spec (s := { inner := { config := c, log := [] }, user := user }) rfl).of_ok
    (Except.ok.inj hrun)

theorem reaches_of_ready {opts : Options} {user : User} {p : Parser}
    (hread : FileConfig.read lib env.files opts.config = .ok c)
    (hauth : Authorised lib env opts c user) (hready : Ready lib env opts c p) :
    ∃ c', Reaches lib env opts user p c' := by
  have hspec : Ends (launch lib env opts)
      { inner := { config := c, log := [] }, user := user } _ _ := launch_spec rfl
  cases hrun : (launch lib env opts).run
      { inner := { config := c, log := [] }, user := user } with
  | error f s => exact absurd ⟨hauth, p, hready⟩ (hspec.of_error hrun)
  | ok r s =>
    have hr := hspec.of_ok hrun
    cases r with
    | none => exact absurd ⟨hauth, p, hready⟩ hr
    | some r =>
      obtain ⟨p', c'⟩ := r
      obtain rfl : p' = p :=
        Except.ok.inj (hr.2.definitions.symm.trans hready.definitions)
      refine ⟨c', s, ?_⟩
      rw [run_of_read hread, hrun]

/-- The state in which `run` ended, whether it returned or threw. -/
def StopsIn (lib : Libraries Re) (env : Environment) (opts : Options) (user : User)
    (s : Session (Launch Re)) : Prop :=
  (∃ r, run lib env opts user = .ok (.ok r s)) ∨ ∃ f, run lib env opts user = .ok (.error f s)

theorem StopsIn.cautious {opts : Options} {user : User} {s : Session (Launch Re)}
    (h : StopsIn lib env opts user s)
    (hread : FileConfig.read lib env.files opts.config = .ok c)
    (hsig : opts.noSignature = false) :
    Cautious (opts.pinentry.getD "pinentry".toList) s.inner.log := by
  have hcautious : Ends (launch lib env opts)
      { inner := { config := c, log := [] }, user := user } _ _ := launch_cautious hsig rfl
  rcases h with ⟨r, hrun⟩ | ⟨f, hrun⟩
  · rw [run_of_read hread] at hrun
    exact hcautious.of_ok (Except.ok.inj hrun)
  · rw [run_of_read hread] at hrun
    exact hcautious.of_error (Except.ok.inj hrun)

/-- A file with what `gravelbox_sign` wrote is a signature of the same bytes under the key
that was entered there. -/
theorem signs_of_signMain {signEnv : SignEnvironment} {configPath sigPath path bytes key : Str}
    {t t' : Session (Str → Option Str)}
    (h : (signMain lib signEnv [configPath, sigPath]).run t = .ok 0 t')
    (hbytes : t.inner configPath = some bytes)
    (hkey : t.user.passwords.head? = some { cancelled := false, password := key })
    (hpath : env.files path = t'.inner sigPath) : Signs lib env path bytes key := by
  obtain ⟨config, key', hconfig, hkey', ht'⟩ := signMain_spec lib signEnv h
  obtain rfl : bytes = config := Option.some.inj (hbytes.symm.trans hconfig)
  obtain rfl : key = key' := by
    rw [hkey] at hkey'
    cases hkey'
    rfl
  refine ⟨lib.hmac key bytes, ?_, lib.hmac_length key bytes, rfl⟩
  rw [hpath, ht', Function.update_self]

/-- **Only an authorised configuration runs a target.**  Whatever configuration was read from
the bytes of a file, and whatever the user enters, `run` gets to the tracer if and only if the
signature is not to be verified, or a key was entered before the first cancellation that the
signature file has the HMAC of those bytes under, and all else is ready.

The tracer's configuration then has no password, or the first such key, and keeps it.  Before
the verification nothing that the configuration names is used.  A signature that was written
for the same bytes and key is accepted. -/
theorem launch_authorised {opts : Options} {bytes : Str} (user : User)
    (hfile : env.files opts.config = some bytes)
    (hread : FileConfig.read lib env.files opts.config = .ok c) :
    (∃ doc, lib.parse bytes = .ok doc ∧ ReadFrom lib env.files opts.config c doc) ∧
    ((∃ p c', Reaches lib env opts user p c') ↔
      (opts.noSignature = true ∨ KeyEntered lib env c.signature bytes user) ∧
        ∃ p, Ready lib env opts c p) ∧
    (∀ p c', Reaches lib env opts user p c' → opts.noSignature = true →
      c'.hasPassword = false) ∧
    (∀ p c', Reaches lib env opts user p c' → opts.noSignature = false →
      ∃ k, FirstKey lib env c.signature bytes user k ∧ c'.key = k ∧
        ∀ password, c'.verifyPassword lib password =
          decide (lib.hmac k password = c.passwordHash)) ∧
    (∀ ndebug, (∀ args, KeepsConfig ((tracerCallbacks lib ndebug).syscallCallback args)) ∧
      ∀ child, KeepsConfig ((tracerCallbacks lib ndebug).pidCallback child)) ∧
    (opts.noSignature = false → ∀ s, StopsIn lib env opts user s →
      Cautious (opts.pinentry.getD "pinentry".toList) s.inner.log) ∧
    (∀ signEnv configPath sigPath t t' key,
      (signMain lib signEnv [configPath, sigPath]).run t = .ok 0 t' →
      t.inner configPath = some bytes →
      t.user.passwords.head? = some { cancelled := false, password := key } →
      env.files c.signature = t'.inner sigPath → key ∈ enteredOf user.passwords →
      ∀ p, Ready lib env opts c p → ∃ c', Reaches lib env opts user p c') := by
  obtain ⟨doc, hfrom⟩ := read_spec lib hread
  obtain rfl : bytes = c.config := Option.some.inj (hfile.symm.trans hfrom.file)
  refine ⟨⟨doc, hfrom.parse, hfrom⟩, ?_, ?_, ?_, ?_, ?_, ?_⟩
  · constructor
    · rintro ⟨p, c', hreaches⟩
      obtain ⟨hgranted, hready⟩ := hreaches.granted hread
      exact ⟨hgranted.authorised, p, hready⟩
    · rintro ⟨hauth, p, hready⟩
      exact ⟨p, reaches_of_ready hread hauth hready⟩
  · intro p c' hreaches hsig
    rcases (hreaches.granted hread).1 with ⟨-, rfl⟩ | ⟨hsig', -⟩
    · rfl
    · rw [hsig] at hsig'
      cases hsig'
  · intro p c' hreaches hsig
    rcases (hreaches.granted hread).1 with ⟨hsig', -⟩ | ⟨-, k, hfirst, rfl⟩
    · rw [hsig] at hsig'
      cases hsig'
    · exact ⟨k, hfirst, rfl, fun _ => rfl⟩
  · intro ndebug
    exact ⟨keepsConfig_syscallCallback lib ndebug, keepsConfig_pidCallback lib ndebug⟩
  · intro hsig s hends
    exact hends.cautious hread hsig
  · intro signEnv configPath sigPath t t' key hsign hconfig hkey hsig hentered p hready
    have hsigns := signs_of_signMain hsign hconfig hkey hsig
    exact reaches_of_ready hread (.inr ⟨key, hentered, hsigns⟩) hready

/-- The document of a configuration that names its signature, and asks about every call. -/
def launchDoc : Json :=
  .object [("signature".toList, .string "sig".toList),
    ("syscall-definition".toList, .string "defs".toList),
    ("pinentry".toList, .string "pinentry-gtk".toList),
    ("default-action".toList, .string "ask".toList), ("action-groups".toList, .array [])]

/-- Its text. -/
def launchText : Str := launchDoc.write

/-- The HMAC of the text under the key `key`. -/
def launchMac : Str :=
  [45, 221, 223, 220, 195, 245, 198, 141, 86, 236, 100, 238, 171, 120, 180, 80, 100, 26, 40, 88,
    134, 200, 100, 218, 100, 176, 166, 45, 149, 58, 100, 4, 169, 143, 152, 57, 59, 63, 117, 136,
    74, 127, 3, 98, 176, 36, 25, 199, 99, 199, 103, 169, 6, 87, 50, 113, 232, 249, 100, 249,
    129, 50, 189, 196].map Char.ofNat

/-- Libraries that know this document, the empty list and this HMAC. -/
def launchLib : Libraries Unit where
  toJsonCpp := .ofDocuments [launchDoc, .array []]
  compile _ := .error "not known".toList
  fullMatch _ _ := false
  hmac key data :=
    if key = "key".toList ∧ data = launchText then launchMac else List.replicate kHashSize '0'
  hmac_length key data := by
    split
    · rfl
    · rfl

/-- The files of the launch: the configuration, its signature and an empty table. -/
def launchEnv : Environment where
  files path :=
    if path = "config".toList then some launchText
    else if path = "sig".toList then some launchMac
    else if path = "defs".toList then some (Json.array []).write
    else none
  starts _ := true
  failure _ := .blocked

/-- The user names a pinentry program. -/
def launchOptions : Options :=
  { config := "config".toList, pinentry := some "pinentry-tty".toList, noSignature := false }

/-- The user enters another key first. -/
def launchUser : User :=
  { confirms := [], asked := []
    passwords := [{ cancelled := false, password := "no".toList },
      { cancelled := false, password := "key".toList }] }

/-- The configuration that is read. -/
def launchConfig : FileConfig Unit :=
  { config := launchText, signature := "sig".toList, key := [], passwordHash := []
    syscalldef := "defs".toList, pinentry := "pinentry-gtk".toList, maxStrLen := 0
    actionDefault := .ask, actionGroups := [] }

theorem launchConfig_read :
    FileConfig.read launchLib launchEnv.files launchOptions.config = .ok launchConfig := rfl

theorem launchText_file : launchEnv.files launchOptions.config = some launchText := rfl

theorem launchConfig_ready : Ready launchLib launchEnv launchOptions launchConfig
    { target := 0, syscallMap := ∅ } where
  chosen _ _ := rfl
  asking h := nomatch h
  configured h := nomatch h
  definitions := rfl

theorem launchMac_signs : Signs launchLib launchEnv "sig".toList launchText "key".toList :=
  ⟨launchMac, rfl, rfl, rfl⟩

/-- The second key is the right one: the tracer is reached. -/
theorem second_key_launches :
    ∃ p c', Reaches launchLib launchEnv launchOptions launchUser p c' := by
  have hlaunch := launch_authorised launchUser launchText_file launchConfig_read
  exact hlaunch.2.1.mpr
    ⟨.inr ⟨"key".toList, List.mem_cons_of_mem _ (List.mem_singleton_self _), launchMac_signs⟩,
      _, launchConfig_ready⟩

end GravelBox
