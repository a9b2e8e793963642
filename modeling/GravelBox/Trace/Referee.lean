/-
# The tracer as a referee

Seen from outside the tracer hears calls, one after the other, and rules on each: by what the
document of the configuration says of its text and, where that is to ask, by the answers of the user
(`trace/tracer.h`, lines 70 to 104).  A `Ruling` is what one hearing takes of the answers, which
questions it puts for them, and the answer it comes to; `Rules` says which rulings there can be.

Calls of any number of threads are heard in the order of their enter stops.  `tracer_is_referee`:
in every run each hearing has a ruling of its own, and the rulings account for every question and
every answer.  No answer is lost, used for two calls, or used for another call than the one it was
asked for.

What makes this hard is that the hearings are spread over a run of the whole.  The user's answers
are one list for all threads; which call takes the next of them depends on which stop is reported
next, and a handling can be cut short anywhere, before the question, after it, or between the answer
and the resumption of the thread.  So each stop says what was heard at it and what became of the
user (`Recorded`), the step lemma adds one ruling or none to the account, and the run lemma is an
induction over the history (`Run.history_invariant`).

A call that could not be rendered, since its thread was killed, is not heard, and takes nothing.  A
call is left without an answer only if the user has run out of them.

Not claimed: that an allowed call is carried out, which is up to the kernel (`Enforcement.lean`), or
that a person gave the answers that pinentry returned (`Trace/Consultation.lean`).
-/
import GravelBox.Config.Settings
import GravelBox.Trace.Decision
import GravelBox.Trace.Kernel

namespace GravelBox

open Stateful Runs

/-! ## 1. Rulings -/

/-- A call of `child`, heard as `text`; no answer if the user was gone before there was one. -/
structure Hearing where
  child : Tid
  text : Str
  answer : Option Bool
  deriving DecidableEq

/-- The questions that a hearing puts, and what it takes of the answers to come. -/
structure Ruling where
  questions : List Question
  confirms : List Bool
  passwords : List Password
  answer : Option Bool

/-- A password that was entered. -/
def typed (password : Str) : Password := { cancelled := false, password := password }

/-- The questions for a password, of which these were entered and wrong. -/
def questionsUntil (message prompt again error : Str) (wrong : List Str) : List Question :=
  .askPassword message prompt error :: wrong.map fun _ => .askPassword message prompt again

/-- The questions for the decision password. -/
def passwordQuestions (wrong : List Str) : List Question :=
  questionsUntil "Enter the user decision password to continue.".toList "password: ".toList
    "Incorrect password".toList [] wrong

/-- The rulings there can be on a call that is heard as `text`, by the action that is said of it.
`right` is the test that a password has to pass, if one is needed. -/
inductive Rules (text : Str) (right : Option (Str → Prop)) : Action → Ruling → Prop
  | allow : Rules text right .allow ⟨[], [], [], some true⟩
  | deny : Rules text right .deny ⟨[], [], [], some false⟩
  | refused : Rules text right .ask ⟨[.ask text], [false], [], some false⟩
  | agreed (hnone : right = none) : Rules text right .ask ⟨[.ask text], [true], [], some true⟩
  | entered {test : Str → Prop} {wrong : List Str} {password : Str} (htest : right = some test)
      (hwrong : ∀ k ∈ wrong, ¬ test k) (hright : test password) :
      Rules text right .ask ⟨.ask text :: passwordQuestions wrong, [true],
        wrong.map typed ++ [typed password], some true⟩
  | cancelled {test : Str → Prop} {wrong : List Str} {p : Password} (htest : right = some test)
      (hwrong : ∀ k ∈ wrong, ¬ test k) (hp : p.cancelled = true) :
      Rules text right .ask ⟨.ask text :: passwordQuestions wrong, [true],
        wrong.map typed ++ [p], some false⟩
  /-- Nobody was there to be asked. -/
  | alone : Rules text right .ask ⟨[.ask text], [], [], none⟩
  /-- Nobody was there any more to enter a password. -/
  | left {test : Str → Prop} {wrong : List Str} (htest : right = some test)
      (hwrong : ∀ k ∈ wrong, ¬ test k) :
      Rules text right .ask ⟨.ask text :: passwordQuestions wrong, [true], wrong.map typed, none⟩

/-- The rulings took these answers of the user, and put these questions. -/
structure Takes (user : User) (rulings : List Ruling) (user' : User) : Prop where
  confirms : user.confirms = rulings.flatMap Ruling.confirms ++ user'.confirms
  passwords : user.passwords = rulings.flatMap Ruling.passwords ++ user'.passwords
  asked : user'.asked = user.asked ++ rulings.flatMap Ruling.questions

theorem Takes.refl (user : User) : Takes user [] user :=
  ⟨rfl, rfl, (List.append_nil _).symm⟩

theorem Takes.append {user user' user'' : User} {rs rs' : List Ruling} (h : Takes user rs user')
    (h' : Takes user' rs' user'') : Takes user (rs ++ rs') user'' where
  confirms := by rw [h.confirms, h'.confirms, List.flatMap_append, List.append_assoc]
  passwords := by rw [h.passwords, h'.passwords, List.flatMap_append, List.append_assoc]
  asked := by rw [h'.asked, h.asked, List.flatMap_append, List.append_assoc]

/-! ## 2. The decision is a ruling -/

section Decision

variable {Re : Type} (lib : Libraries Re)

/-- The test for the decision password: its HMAC is the hash, if there is one. -/
def passwordTest (key hash : Str) : Option (Str → Prop) :=
  if hash = [] then none else some fun password => lib.hmac key password = hash

/-- One ruling was made, without an answer only where answers were missing, and nothing else is
changed. -/
structure Ruled {σ : Type} (text : Str) (right : Option (Str → Prop)) (a : Action) (t : Session σ)
    (answer : Option Bool) (t' : Session σ) : Prop where
  inner : t'.inner = t.inner
  ruling : ∃ r, Rules text right a r ∧ r.answer = answer ∧ Takes t.user [r] t'.user
  missing : answer = none → t'.user.confirms = [] ∨ t'.user.passwords = []

/-- What asking for a password takes, up to the first one that is right. -/
theorem askUntil_go_takes {σ : Type} {message prompt again : Str}
    {verify : Str → EStateM Fault σ Bool} {ok : Str → Bool} {c : σ}
    (h : Verifies verify (· = c) ok fun _ t => t) (answers : List Password) {error : Str}
    {s : Session σ} (hc : s.inner = c) :
    Ends (askUntil.go message prompt again verify error answers) s
      (fun b s' => s'.inner = s.inner ∧ s'.user.confirms = s.user.confirms ∧
        ∃ (wrong : List Str) (p : Password), answers = wrong.map typed ++ p :: s'.user.passwords ∧
          (∀ k ∈ wrong, ok k = false) ∧
          s'.user.asked = s.user.asked ++ questionsUntil message prompt again error wrong ∧
          (if b = true then p = typed p.password ∧ ok p.password = true else p.cancelled = true))
      (fun _ s' => s'.inner = s.inner ∧ s'.user.confirms = s.user.confirms ∧
        s'.user.passwords = [] ∧ ∃ wrong : List Str, answers = wrong.map typed ∧
          (∀ k ∈ wrong, ok k = false) ∧
          s'.user.asked = s.user.asked ++ questionsUntil message prompt again error wrong) := by
  induction answers generalizing error s with
  | nil =>
    simp only [askUntil.go, askUntil.asked, ends_bind, ends_modify, ends_throw]
    exact ⟨trivial, trivial, trivial, [], rfl, List.forall_mem_nil _, rfl⟩
  | cons p answers ih =>
    simp only [askUntil.go, askUntil.asked, ends_bind, ends_modify]
    by_cases hcancel : p.cancelled = true
    · rw [if_pos hcancel, ends_pure]
      refine ⟨rfl, rfl, [], p, rfl, List.forall_mem_nil _, rfl, ?_⟩
      rw [if_neg Bool.false_ne_true]
      exact hcancel
    · rw [if_neg hcancel, ends_bind, withoutUser, ends_zoom,
        ends_of_run_ok (h.run p.password s.inner hc)]
      have htyped : p = typed p.password := by
        rw [typed, ← Bool.eq_false_iff.mpr hcancel]
      by_cases hok : ok p.password = true
      · rw [if_pos hok, ends_pure]
        refine ⟨rfl, rfl, [], p, rfl, List.forall_mem_nil _, rfl, ?_⟩
        rw [if_pos rfl]
        exact ⟨htyped, hok⟩
      · rw [if_neg hok]
        have hfail := Bool.eq_false_iff.mpr hok
        have hmap : ∀ wrong : List Str, typed p.password :: wrong.map typed =
            (p.password :: wrong).map typed := fun _ => rfl
        refine (ih ?_).mono ?_ ?_
        · exact hc
        · rintro b s' ⟨hinner, hconfirms, wrong, q, hsplit, hwrong, hasked, hb⟩
          refine ⟨hinner, hconfirms, p.password :: wrong, q, ?_, ?_, ?_, hb⟩
          · rw [hsplit, ← hmap, ← htyped, List.cons_append]
          · exact List.forall_mem_cons.mpr ⟨hfail, hwrong⟩
          · rw [hasked, List.append_assoc]
            rfl
        · rintro f s' ⟨hinner, hconfirms, hnone, wrong, hsplit, hwrong, hasked⟩
          refine ⟨hinner, hconfirms, hnone, p.password :: wrong, ?_, ?_, ?_⟩
          · rw [hsplit, ← hmap, ← htyped]
          · exact List.forall_mem_cons.mpr ⟨hfail, hwrong⟩
          · rw [hasked, List.append_assoc]
            rfl

/-- The case `ASK`. -/
theorem decideAsk_ruled (text : Str) (c : FileConfig Re) {t : Session (FileConfig Re)}
    (hc : t.inner = c) :
    Ends (decideAsk lib c text) t
      (fun b t' => Ruled text (passwordTest lib c.key c.passwordHash) .ask t (some b) t')
      (fun _ t' => Ruled text (passwordTest lib c.key c.passwordHash) .ask t none t') := by
  rw [decideAsk, ends_bind]
  unfold Ends EStateM.run Session.ask
  cases hconfirms : t.user.confirms with
  | nil => exact ⟨rfl, ⟨_, .alone, rfl, rfl, rfl, rfl⟩, fun _ => .inl hconfirms⟩
  | cons answer confirms =>
    cases answer with
    | false =>
      exact ⟨rfl, ⟨_, .refused, rfl, hconfirms, rfl, rfl⟩,
        fun h => absurd h (Option.some_ne_none _)⟩
    | true =>
      simp only [Bool.not_true, Bool.false_eq_true, if_false]
      by_cases hnil : c.passwordHash = []
      · have hnone : passwordTest lib c.key c.passwordHash = none := if_pos hnil
        rw [FileConfig.hasPassword, decide_eq_false (not_not.mpr hnil), Bool.not_false, if_pos rfl]
        exact ⟨rfl, ⟨_, .agreed hnone, rfl, hconfirms, rfl, rfl⟩,
          fun h => absurd h (Option.some_ne_none _)⟩
      · have htest : passwordTest lib c.key c.passwordHash = some _ := if_neg hnil
        rw [FileConfig.hasPassword, decide_eq_true hnil, Bool.not_true,
          if_neg Bool.false_ne_true]
        refine (askUntil_go_takes (verifies_password lib c) t.user.passwords ?_).mono ?_ ?_
        · exact hc
        · rintro b t' ⟨hinner, hconf, wrong, p, hsplit, hwrong, hasked, hb⟩
          have hfalse : ∀ k ∈ wrong, ¬ lib.hmac c.key k = c.passwordHash :=
            fun k hk => of_decide_eq_false (hwrong k hk)
          have hpass : t.user.passwords = (wrong.map typed ++ [p]) ++ t'.user.passwords := by
            rw [hsplit, List.append_assoc, List.singleton_append]
          have htakes : ∀ answer, Takes t.user
              [⟨.ask text :: passwordQuestions wrong, [true], wrong.map typed ++ [p], answer⟩]
              t'.user := by
            intro answer
            refine ⟨?_, ?_, ?_⟩
            · rw [hconfirms, hconf]
              rfl
            · rw [hpass]
              simp
            · rw [hasked]
              simp [passwordQuestions]
          cases b with
          | true =>
            obtain ⟨hp, hok⟩ := (if_pos rfl).mp hb
            rw [hp] at htakes
            exact ⟨hinner, ⟨_, .entered htest hfalse (of_decide_eq_true hok), rfl, htakes _⟩,
              fun h => absurd h (Option.some_ne_none _)⟩
          | false =>
            have hp := (if_neg Bool.false_ne_true).mp hb
            exact ⟨hinner, ⟨_, .cancelled htest hfalse hp, rfl, htakes _⟩,
              fun h => absurd h (Option.some_ne_none _)⟩
        · rintro f t' ⟨hinner, hconf, hnone, wrong, hsplit, hwrong, hasked⟩
          have hfalse : ∀ k ∈ wrong, ¬ lib.hmac c.key k = c.passwordHash :=
            fun k hk => of_decide_eq_false (hwrong k hk)
          refine ⟨hinner, ⟨_, .left htest hfalse, rfl, ?_, ?_, ?_⟩, fun _ => .inr hnone⟩
          · rw [hconfirms, hconf]
            rfl
          · rw [hsplit, hnone]
            simp
          · rw [hasked]
            simp [passwordQuestions]

/-- **The switch makes one ruling**, by the action of the configuration. -/
theorem decideCall_ruled (text : Str) (t : Session (FileConfig Re)) :
    Ends (decideCall lib text) t
      (fun b t' => Ruled text (passwordTest lib t.inner.key t.inner.passwordHash)
        (t.inner.getAction lib text) t (some b) t')
      (fun _ t' => Ruled text (passwordTest lib t.inner.key t.inner.passwordHash)
        (t.inner.getAction lib text) t none t') := by
  have hask : Ends (decideAsk lib t.inner text) t _ _ := decideAsk_ruled lib text t.inner rfl
  unfold Ends at hask ⊢
  rw [run_decideCall]
  cases t.inner.getAction lib text with
  | allow => exact ⟨rfl, ⟨_, .allow, rfl, rfl, rfl, (List.append_nil _).symm⟩, nofun⟩
  | deny => exact ⟨rfl, ⟨_, .deny, rfl, rfl, rfl, (List.append_nil _).symm⟩, nofun⟩
  | ask => exact hask

/-! ## 3. One stop -/

/-- The callback was asked. -/
def Handling.asked {σ : Type} (h : Handling σ) : Bool :=
  h.calls.any fun c => match c with
    | .syscallCallback _ => true
    | _ => false

/-- The answer that it gave, if it gave one. -/
def Handling.verdict {σ : Type} (h : Handling σ) : Option Bool :=
  if h.answered true = true then some true
  else if h.answered false = true then some false
  else none

variable (ndebug : Bool)

/-- The call that a handling heard: the callback was asked, and the call could be rendered. -/
def Handling.hearing {π : Type} (l : Loop (Parser × π)) (e : Event) (h : Handling (Parser × π)) :
    Option Hearing :=
  match ((l.user.1.setpid e.child).call ndebug e.info.toArgs).run
      (World.tick ⟨e.mem, e.child, e.life⟩) with
  | .ok text _ =>
    if h.asked = true then some { child := e.child, text := text, answer := h.verdict } else none
  | .error _ _ => none

/-- The loop's handling of a report, so far as it is about calls: one was heard and ruled on, or
nothing was asked or answered. -/
def Recorded (l : Loop (Parser × Session (FileConfig Re))) (e : Event)
    (h : Handling (Parser × Session (FileConfig Re))) : Prop :=
  h.user.1.syscallMap = l.user.1.syscallMap ∧
    match h.hearing ndebug l e with
    | some hearing => Ruled hearing.text
        (passwordTest lib l.user.2.inner.key l.user.2.inner.passwordHash)
        (l.user.2.inner.getAction lib hearing.text) l.user.2 hearing.answer h.user.2
    | none => h.user.2 = l.user.2 ∧ h.verdict = none

variable {lib ndebug} {l : Loop (Parser × Session (FileConfig Re))} {e : Event}
  {h : Handling (Parser × Session (FileConfig Re))}

/-- No question was asked. -/
theorem recorded_of_unasked (hmap : h.user.1.syscallMap = l.user.1.syscallMap)
    (hasked : h.asked = false) (huser : h.user.2 = l.user.2) (hverdict : h.verdict = none) :
    Recorded lib ndebug l e h := by
  have hnone : h.hearing ndebug l e = none := by
    unfold Handling.hearing
    split
    · rw [if_neg (by rw [hasked]; exact Bool.false_ne_true)]
    · rfl
  refine ⟨hmap, ?_⟩
  rw [hnone]
  exact ⟨huser, hverdict⟩

/-- The call could not be rendered. -/
theorem recorded_of_error {f : Fault} {w : World}
    (hmap : h.user.1.syscallMap = l.user.1.syscallMap)
    (hcall : ((l.user.1.setpid e.child).call ndebug e.info.toArgs).run
      (World.tick ⟨e.mem, e.child, e.life⟩) = .error f w)
    (huser : h.user.2 = l.user.2) (hverdict : h.verdict = none) : Recorded lib ndebug l e h := by
  have hnone : h.hearing ndebug l e = none := by
    unfold Handling.hearing
    rw [hcall]
  refine ⟨hmap, ?_⟩
  rw [hnone]
  exact ⟨huser, hverdict⟩

/-- The call was heard. -/
theorem recorded_of_ruled {text : Str} {w : World}
    (hmap : h.user.1.syscallMap = l.user.1.syscallMap)
    (hcall : ((l.user.1.setpid e.child).call ndebug e.info.toArgs).run
      (World.tick ⟨e.mem, e.child, e.life⟩) = .ok text w)
    (hasked : h.asked = true)
    (hruled : Ruled text (passwordTest lib l.user.2.inner.key l.user.2.inner.passwordHash)
      (l.user.2.inner.getAction lib text) l.user.2 h.verdict h.user.2) :
    Recorded lib ndebug l e h := by
  have hsome : h.hearing ndebug l e =
      some { child := e.child, text := text, answer := h.verdict } := by
    unfold Handling.hearing
    rw [hcall]
    exact if_pos hasked
  refine ⟨hmap, ?_⟩
  rw [hsome]
  exact hruled

/-- The requests that follow do not matter. -/
theorem Recorded.of_calls {h' : Handling (Parser × Session (FileConfig Re))}
    (hr : Recorded lib ndebug l e h) (huser : h'.user = h.user) (c : Call)
    (hcalls : h'.calls = h.calls ++ [c])
    (hc : (∀ b, c ≠ .answer b) ∧ ∀ args, c ≠ .syscallCallback args) :
    Recorded lib ndebug l e h' := by
  have hasked : h'.asked = h.asked := by
    unfold Handling.asked
    rw [hcalls, List.any_append]
    cases c with
    | syscallCallback args => exact absurd rfl (hc.2 args)
    | _ => simp
  have hanswered : ∀ b, h'.answered b = h.answered b := by
    intro b
    unfold Handling.answered
    rw [hcalls, List.any_append]
    cases c with
    | answer b' => exact absurd rfl (hc.1 b')
    | _ => simp
  have hverdict : h'.verdict = h.verdict := by
    unfold Handling.verdict
    rw [hanswered, hanswered]
  have hhearing : h'.hearing ndebug l e = h.hearing ndebug l e := by
    unfold Handling.hearing
    rw [hasked, hverdict]
  unfold Recorded at hr ⊢
  rw [hhearing, huser, hverdict]
  exact hr

theorem ends_tracerPidCallback {child : Tid} {p : (Parser × Session (FileConfig Re)) × World}
    {Q : Unit → (Parser × Session (FileConfig Re)) × World → Prop}
    {R : Fault → (Parser × Session (FileConfig Re)) × World → Prop} :
    Ends ((tracerCallbacks lib ndebug).pidCallback child) p Q R ↔
      Q () ((p.1.1.setpid child, p.1.2), p.2) := Iff.rfl

/-- **The enter stop**, however it ends. -/
theorem syscallEnterStop_recorded (l : Loop (Parser × Session (FileConfig Re))) (e : Event) :
    Ends (syscallEnterStop (tracerCallbacks lib ndebug) ndebug e.child) (.start l e)
      (fun _ h => Recorded lib ndebug l e h) (fun _ h => Recorded lib ndebug l e h) := by
  simp only [syscallEnterStop, ptraceGetSyscallInfo, ends_bind, ends_issue, ends_get, ends_pure]
  refine ⟨fun _ => ?_, fun _ => recorded_of_unasked rfl rfl rfl rfl⟩
  have hcut : Recorded lib ndebug l e { Handling.start l e with
      calls := [] ++ [.getSyscallInfo e.child], world := World.tick ⟨e.mem, e.child, e.life⟩ } :=
    recorded_of_unasked rfl rfl rfl rfl
  refine ends_cAssert (ends_cAssert ?_ hcut) hcut
  simp only [ends_modify, ends_callback, ends_tracerPidCallback]
  simp only [tracerCallbacks, ends_bind, ends_get, ends_zoom]
  refine (ends_run _ _).mono ?_ ?_
  · intro text w hcall
    refine (decideCall_ruled lib text l.user.2).mono ?_ ?_
    · intro b t hruled
      cases b with
      | true => exact recorded_of_ruled rfl hcall rfl hruled
      | false =>
        simp only [Bool.false_eq_true, if_false, ptraceGetRegs, ptraceSetRegs, setStatus, ends_bind,
          ends_issue, ends_get, ends_pure, ends_modify]
        refine ⟨fun _ => ⟨fun _ => ?_, fun _ => ?_⟩, fun _ => ?_⟩
        · exact recorded_of_ruled rfl hcall rfl hruled
        · exact recorded_of_ruled rfl hcall rfl hruled
        · exact recorded_of_ruled rfl hcall rfl hruled
    · intro f t hruled
      exact recorded_of_ruled rfl hcall rfl hruled
  · intro f w hcall
    exact recorded_of_error rfl hcall rfl rfl

/-- A syscall stop of any kind. -/
theorem dispatchStop_recorded (l : Loop (Parser × Session (FileConfig Re))) (e : Event) :
    Ends (dispatchStop (tracerCallbacks lib ndebug) ndebug e.child SIGTRAP_SYSGOOD) (.start l e)
      (fun _ h => Recorded lib ndebug l e h) (fun _ h => Recorded lib ndebug l e h) := by
  simp only [dispatchStop, ends_bind, ends_get, if_neg sigstop_ne_sysgood.symm, if_true]
  cases hst : (Handling.start l e).threadStatus.lookup e.child with
  | none => exact recorded_of_unasked rfl rfl rfl rfl
  | some st =>
    cases st with
    | userspace => exact syscallEnterStop_recorded l e
    | kernelspaceAllow => exact recorded_of_unasked rfl rfl rfl rfl
    | kernelspaceDeny =>
      simp only [deniedExitStop, ptraceGetRegs, ptraceSetRegs, setStatus, ends_bind, ends_issue,
        ends_get, ends_pure, ends_modify]
      refine ⟨fun _ => ⟨fun _ => ?_, fun _ => ?_⟩, fun _ => ?_⟩
      · exact recorded_of_unasked rfl rfl rfl rfl
      · exact recorded_of_unasked rfl rfl rfl rfl
      · exact recorded_of_unasked rfl rfl rfl rfl

/-- **The whole handling of a syscall stop.** -/
theorem handled_recorded (l : Loop (Parser × Session (FileConfig Re))) (e : Event) :
    Recorded lib ndebug l e
      (endState (handled (tracerCallbacks lib ndebug) ndebug e SIGTRAP_SYSGOOD l)) := by
  have hends : Ends (handleStop (tracerCallbacks lib ndebug) ndebug e.child SIGTRAP_SYSGOOD)
      (.start l e) (fun _ h => Recorded lib ndebug l e h)
      (fun _ h => Recorded lib ndebug l e h) := by
    simp only [handleStop, ptraceSyscall, ends_bind, ends_issue, ends_modify]
    refine (dispatchStop_recorded l e).mono (fun _ h hr => ?_) fun _ _ hr => hr
    exact ⟨fun _ => hr.of_calls rfl _ rfl ⟨nofun, nofun⟩,
      fun _ => hr.of_calls rfl _ rfl ⟨nofun, nofun⟩⟩
  cases hr : handled (tracerCallbacks lib ndebug) ndebug e SIGTRAP_SYSGOOD l with
  | ok _ h => exact hends.of_ok hr
  | error f h => exact hends.of_error hr

/-- Any other stop leaves the callbacks' state alone. -/
theorem handled_user_of_ne {σ : Type} {cb : Callbacks σ} {l : Loop σ} {stopsig : Nat}
    (hsig : stopsig ≠ SIGTRAP_SYSGOOD) :
    (endState (handled cb ndebug e stopsig l)).user = l.user := by
  have hdis : ∀ h₁ : Handling σ, Dispatched e.child stopsig (.start l e) h₁ →
      h₁.user = l.user := by
    intro h₁ hd
    cases hd with
    | attached | ignored => rfl
    | allowed hsys | denied hsys | exitDenied hsys | exitAllowed hsys => exact absurd hsys hsig
  cases hr : handled cb ndebug e stopsig l with
  | ok _ h =>
    obtain ⟨h₁, hd, -, rfl⟩ := handled_ok hr
    exact hdis h₁ hd
  | error f h =>
    rcases handled_error hr with hc | ⟨h₁, hd, -, rfl, -⟩
    · exact absurd hc.sysgood hsig
    · exact hdis h₁ hd

/-! ## 4. A run -/

/-- The loop and the kernel, with the callbacks of the tracer. -/
abbrev TracerSys (Re : Type) := Sys (Parser × Session (FileConfig Re))

/-- What a step hears. -/
def hearings (lib : Libraries Re) (ndebug : Bool) (s : TracerSys Re) : Move → List Hearing
  | .report .syscall e =>
    ((endState (handled (tracerCallbacks lib ndebug) ndebug e SIGTRAP_SYSGOOD s.loop)).hearing
      ndebug s.loop e).toList
  | _ => []

/-- The ruling is one that there can be on the call heard, by what the document says of it. -/
def RuledBy (lib : Libraries Re) (doc : Json) (key hash : Str) (hearing : Hearing) (r : Ruling) :
    Prop :=
  r.answer = hearing.answer ∧ ∃ a, Says lib doc hearing.text a ∧
    Rules hearing.text (passwordTest lib key hash) a r

/-- The rulings on all that was heard so far account for what became of the user. -/
structure Accounted (lib : Libraries Re) (doc : Json) (p : Parser) (c : FileConfig Re)
    (user : User) (s : TracerSys Re) (heard : List Hearing) : Prop where
  map : s.loop.user.1.syscallMap = p.syscallMap
  config : s.loop.user.2.inner = c
  rulings : ∃ rulings, List.Forall₂ (RuledBy lib doc c.key c.passwordHash) heard rulings ∧
    Takes user rulings s.loop.user.2.user
  missing : (∃ hearing ∈ heard, hearing.answer = none) →
    s.loop.user.2.user.confirms = [] ∨ s.loop.user.2.user.passwords = []

variable {others : Tid → Prop} {files : Str → Option Str} {path : Str} {doc : Json}
  {c : FileConfig Re} {p : Parser} {user : User}

/-- What is taken of no answers is none. -/
theorem Takes.missing {user user' : User} {rs : List Ruling} (h : Takes user rs user')
    (hnone : user.confirms = [] ∨ user.passwords = []) :
    user'.confirms = [] ∨ user'.passwords = [] := by
  rcases hnone with hnone | hnone
  · left
    have hconfirms := h.confirms
    rw [hnone] at hconfirms
    exact (List.append_eq_nil_iff.mp hconfirms.symm).2
  · right
    have hpasswords := h.passwords
    rw [hnone] at hpasswords
    exact (List.append_eq_nil_iff.mp hpasswords.symm).2

/-- A step that hears nothing and does not touch the callbacks' state. -/
theorem Accounted.quiet {s s' : TracerSys Re} {heard : List Hearing}
    (h : Accounted lib doc p c user s heard) (huser : s'.loop.user = s.loop.user) :
    Accounted lib doc p c user s' (heard ++ []) := by
  rw [List.append_nil]
  exact ⟨huser ▸ h.map, huser ▸ h.config, huser ▸ h.rulings, huser ▸ h.missing⟩

/-- **One syscall stop**: what is heard is ruled on. -/
theorem Accounted.stop {s s' : TracerSys Re} {heard : List Hearing}
    (hdoc : ∀ text, Says lib doc text (c.getAction lib text))
    (h : Accounted lib doc p c user s heard)
    (huser : s'.loop.user =
      (endState (handled (tracerCallbacks lib ndebug) ndebug e SIGTRAP_SYSGOOD s.loop)).user) :
    Accounted lib doc p c user s' (heard ++ hearings lib ndebug s (.report .syscall e)) := by
  have hrec : Recorded lib ndebug s.loop e _ := handled_recorded s.loop e
  simp only [hearings]
  generalize endState (handled (tracerCallbacks lib ndebug) ndebug e SIGTRAP_SYSGOOD s.loop) = h'
    at hrec huser ⊢
  obtain ⟨hmap, hrec⟩ := hrec
  obtain ⟨rulings, hruled, htakes⟩ := h.rulings
  cases hhear : h'.hearing ndebug s.loop e with
  | none =>
    rw [hhear] at hrec
    rw [Option.toList_none, List.append_nil]
    refine ⟨?_, ?_, ⟨rulings, hruled, ?_⟩, ?_⟩
    · rw [huser, hmap, h.map]
    · rw [huser, hrec.1, h.config]
    · rw [huser, hrec.1]
      exact htakes
    · rw [huser, hrec.1]
      exact h.missing
  | some hearing =>
    rw [hhear] at hrec
    simp only at hrec
    rw [h.config] at hrec
    obtain ⟨r, hrules, hanswer, htakes'⟩ := hrec.ruling
    refine ⟨?_, ?_, ⟨rulings ++ [r], ?_, ?_⟩, ?_⟩
    · rw [huser, hmap, h.map]
    · rw [huser, hrec.inner, h.config]
    · exact List.rel_append hruled (.cons ⟨hanswer, _, hdoc hearing.text, hrules⟩ .nil)
    · rw [huser]
      exact htakes.append htakes'
    · rw [huser]
      rintro ⟨hearing', hmem, hnone⟩
      rcases List.mem_append.mp hmem with hold | hnew
      · exact htakes'.missing (h.missing ⟨hearing', hold, hnone⟩)
      · obtain rfl : hearing' = hearing := List.mem_singleton.mp hnew
        exact hrec.missing hnone

/-- **The step lemma.** -/
theorem step_accounted (hdoc : ∀ text, Says lib doc text (c.getAction lib text))
    {s s' : TracerSys Re} {m : Move} {heard : List Hearing}
    (h : Accounted lib doc p c user s heard)
    (hs : Step (tracerCallbacks lib ndebug) ndebug others s m s') :
    Accounted lib doc p c user s' (heard ++ hearings lib ndebug s m) := by
  obtain ⟨-, hen, rfl⟩ := hs
  cases m with
  | create | die => exact h.quiet rfl
  | execve t =>
    refine h.quiet ?_
    simp only [Sys.after]
    split <;> rfl
  | report cause e =>
    rcases e.wstatus.stopped_or_isExit with ⟨stopsig, hw⟩ | hexit
    · have hcause := Reports.sysgood_iff hen hw
      by_cases hsys : cause = .syscall
      · obtain rfl := hcause.mpr hsys
        subst hsys
        refine h.stop hdoc ?_
        rw [after_stop_loop hw]
        rfl
      · have hquiet : hearings lib ndebug s (.report cause e) = [] := by
          cases cause with
          | syscall => exact absurd rfl hsys
          | _ => rfl
        rw [hquiet]
        refine h.quiet ?_
        rw [after_stop_loop hw]
        exact handled_user_of_ne fun hsig => hsys (hcause.mp hsig)
    · have hquiet : hearings lib ndebug s (.report cause e) = [] := by
        rcases Reports.of_isExit hen hexit with rfl | ⟨rfl, -⟩
        · rfl
        · rfl
      rw [hquiet]
      refine h.quiet ?_
      rw [after_exit_loop hexit]

/-- **The run lemma**: whatever is heard is ruled on. -/
theorem run_accounted {bytes : Str} (hfile : files path = some bytes)
    (hparse : lib.parse bytes = .ok doc) (hread : FileConfig.read lib files path = .ok c)
    (key bytes' hash : Str) {child : Tid} {tr : List (TracerSys Re × Move)} {s : TracerSys Re}
    (hrun : Run (Step (tracerCallbacks lib ndebug) ndebug others)
      (Sys.init child (p, { inner := c.settled key bytes' hash, user := user })) tr s) :
    Accounted lib doc p (c.settled key bytes' hash) user s (history (hearings lib ndebug) tr) := by
  obtain ⟨doc', hfrom⟩ := read_spec lib hread
  obtain rfl : bytes = c.config := Option.some.inj (hfile.symm.trans hfrom.file)
  obtain rfl : doc = doc' := Except.ok.inj (hparse.symm.trans hfrom.parse)
  have hdoc : ∀ text, Says lib doc text ((c.settled key bytes' hash).getAction lib text) := by
    intro text
    have hsays := says_getAction lib hfrom text
    exact hsays
  refine hrun.history_invariant ?_ fun _ _ _ _ => step_accounted hdoc
  exact ⟨rfl, rfl, ⟨[], .nil, .refl user⟩, fun ⟨_, hmem, _⟩ => absurd hmem List.not_mem_nil⟩

/-- **The tracer is a referee.**  Whatever document a configuration was read from, in every run,
with any number of threads in any order: each call heard has a ruling of its own, one that there
can be by what the document says of its text; the rulings, in the order of the hearings, put all
the questions that the user is asked, and take all the answers that are gone, each in its turn.
Only a user who has run out of answers leaves a call without one.  The hash that a password is
tested with is the one in the document, if it was left as it was read (the first part). -/
theorem tracer_is_referee {bytes : Str} (hfile : files path = some bytes)
    (hparse : lib.parse bytes = .ok doc) (hread : FileConfig.read lib files path = .ok c)
    (key bytes' hash : Str) {child : Tid} {tr : List (TracerSys Re × Move)} {s : TracerSys Re}
    (hrun : Run (Step (tracerCallbacks lib ndebug) ndebug others)
      (Sys.init child (p, { inner := c.settled key bytes' hash, user := user })) tr s) :
    (SaysHash lib path doc hash ↔ hash = c.passwordHash) ∧
    (∃ rulings, List.Forall₂ (RuledBy lib doc key hash) (history (hearings lib ndebug) tr) rulings ∧
      Takes user rulings s.loop.user.2.user) ∧
    ((∃ hearing ∈ history (hearings lib ndebug) tr, hearing.answer = none) →
      s.loop.user.2.user.confirms = [] ∨ s.loop.user.2.user.passwords = []) := by
  obtain ⟨doc', hfrom⟩ := read_spec lib hread
  obtain rfl : bytes = c.config := Option.some.inj (hfile.symm.trans hfrom.file)
  obtain rfl : doc = doc' := Except.ok.inj (hparse.symm.trans hfrom.parse)
  have haccounted := run_accounted hfile hparse hread key bytes' hash hrun
  exact ⟨hfrom.saysHash_iff lib, haccounted.rulings, haccounted.missing⟩

/-- A user who agrees once. -/
def consenting : User := { confirms := [true], passwords := [], asked := [] }

/-- The HMAC of the password `open` under the key `key`. -/
def guardMac : Str :=
  [117, 179, 211, 17, 125, 204, 76, 29, 122, 226, 215, 219, 223, 218, 85, 222, 146, 130, 132, 13,
    26, 177, 217, 233, 101, 83, 91, 221, 205, 186, 174, 236, 205, 102, 219, 6, 130, 179, 113, 176,
    114, 76, 217, 211, 49, 18, 159, 197, 183, 193, 60, 81, 134, 240, 141, 137, 218, 127, 9, 79,
    163, 25, 135, 54].map Char.ofNat

/-- Settings with a password, by which `clone` is allowed and other calls are asked about. -/
def guarded : Settings :=
  { signature := [], passwordHash := guardMac, syscalldef := [], pinentry := [], maxStrLen := 0
    actionDefault := .ask
    actionGroups := [{ action := .allow, patterns := ["syscall.56,.*".toList] }] }

/-- The text of their document. -/
def guardedText : Str := guarded.document.write

/-- Libraries that know this document, this pattern and this HMAC. -/
def guardedLib : Libraries Unit where
  toJsonCpp := .ofDocuments [guarded.document]
  compile s := if s = "syscall.56,.*".toList then .ok () else .error "not known".toList
  fullMatch _ s := "syscall(56,".toList.isPrefixOf s
  hmac key data :=
    if key = "key".toList ∧ data = "open".toList then guardMac else List.replicate kHashSize '0'
  hmac_length key data := by
    split
    · rfl
    · rfl

/-- The configuration that is read from it. -/
def guardedConfig : FileConfig Unit :=
  { config := guardedText, signature := [], key := [], passwordHash := guardMac, syscalldef := []
    pinentry := [], maxStrLen := 0, actionDefault := .ask
    actionGroups := [{ action := .allow, patterns := [()] }] }

/-- It is in the file `config`. -/
def guardedFiles (path : Str) : Option Str :=
  if path = "config".toList then some guardedText else none

theorem guardedText_file : guardedFiles "config".toList = some guardedText := rfl

theorem guardedLib_parse : guardedLib.parse guardedText = .ok guarded.document := by
  rw [guardedLib, guardedText, ofDocuments_parse]

theorem guardMac_isBytes : IsBytes guardMac := by decide

theorem guardedConfig_read :
    FileConfig.read guardedLib guardedFiles "config".toList = .ok guardedConfig := by
  rw [read_document guardedLib guardMac_isBytes guardedText_file guardedLib_parse]
  rfl

/-- A user who agrees twice, mistypes the password once, and cancels the second time. -/
def hesitant : User :=
  { confirms := [true, true]
    passwords := [typed "no".toList, typed "open".toList, { cancelled := true, password := [] }]
    asked := [] }

/-- Two threads: the call that creates the second is allowed unasked, the first one's next call is
allowed for the second password, and the second one's is refused. -/
theorem two_threads_ruled :
    ∃ tr s rulings,
      Run (Step (tracerCallbacks guardedLib true) true fun _ => False)
        (Sys.init 1 (bareParser,
          { inner := guardedConfig.settled "key".toList [] guardMac, user := hesitant })) tr s ∧
      SaysHash guardedLib "config".toList guarded.document guardMac ∧
      history (hearings guardedLib true) tr =
        [⟨1, "syscall(56, 0x0, 0x0, 0x0, 0x0, 0x0, 0x0)".toList, some true⟩,
          ⟨1, "syscall(39, 0x0, 0x0, 0x0, 0x0, 0x0, 0x0)".toList, some true⟩,
          ⟨2, "syscall(39, 0x0, 0x0, 0x0, 0x0, 0x0, 0x0)".toList, some false⟩] ∧
      List.Forall₂ (RuledBy guardedLib guarded.document "key".toList guardMac)
        (history (hearings guardedLib true) tr) rulings ∧
      Takes hesitant rulings s.loop.user.2.user := by
  have h₀ : Run (Step (tracerCallbacks guardedLib true) true fun _ => False)
      (Sys.init 1 (bareParser,
        { inner := guardedConfig.settled "key".toList [] guardMac, user := hesitant })) [] _ := .nil
  have h₁ := run_move h₀ (.call 1 .enter 56) rfl (enabled_call 1 .enter 56 rfl ⟨rfl, rfl, rfl⟩ rfl)
  have h₂ := run_move h₁ (.create 1 2 true) rfl ⟨⟨_, rfl, ⟨rfl, rfl, rfl⟩, rfl, rfl⟩, rfl, id⟩
  have h₃ := run_move h₂ (.attach 2) rfl (enabled_attach 2 1 rfl)
  have h₄ := run_move h₃ (.call 1 .exit 56) rfl (enabled_call 1 .exit 56 rfl ⟨rfl, rfl, rfl⟩ rfl)
  have h₅ := run_move h₄ (.call 1 .enter 39) rfl (enabled_call 1 .enter 39 rfl ⟨rfl, rfl, rfl⟩ rfl)
  have h₆ := run_move h₅ (.call 2 .enter 39) rfl (enabled_call 2 .enter 39 rfl ⟨rfl, rfl, rfl⟩ rfl)
  obtain ⟨hhash, ⟨rulings, hruled, htakes⟩, -⟩ :=
    tracer_is_referee guardedText_file guardedLib_parse guardedConfig_read "key".toList []
      guardMac h₆
  exact ⟨_, _, rulings, h₆, hhash.mpr rfl, rfl, hruled, htakes⟩

end Decision

end GravelBox
