/-
# The policy is enforced

From the configuration file to the kernel.  Of a program that `run` (`modules.cpp`) starts the
tracer on, the kernel carries out the calls in `performed`.  `policy_enforced`: they are, in their
order, some of the calls that were heard and allowed, each by a ruling that the document in the
file provides for, and the user had the file authorised.

Three results meet here, each about runs.  `launch_authorised` says which configuration the tracer
is given; `Mediates` says that the kernel carries out no call of which the callback did not say
`true`; and `tracer_is_referee` says which questions and answers made it say so.  What is missing
between the last two is that the call that was heard is the call that is carried out: the text
that was ruled on is the one that the definitions give for what the memory of the caller held when
it entered the call (`performed_sublist`).

The one condition on the program is that of complete mediation, `KeepsTurn`; a program whose
threads leave `execve` to the leader of their group meets it.  It is only needed for the last part:
rulings are made in every run.

Not claimed: that the memory still holds the text when the kernel reads it.  The tracer reads the
arguments of a call while the caller is stopped, but other threads with the same memory run on, and
the kernel reads them again afterwards.  That is a limit of the mechanism, and no theorem about the
code can lift it.
-/
import GravelBox.Authorisation
import GravelBox.Trace.Mediation
import GravelBox.Trace.Referee

namespace GravelBox

open Stateful Runs

variable {Re : Type} {lib : Libraries Re} {ndebug : Bool} {others : Tid → Prop}

/-! ## 1. The calls that are carried out -/

/-- The callback allowed the call. -/
def Hearing.allowed (hearing : Hearing) : Bool := hearing.answer == some true

/-- The call that the kernel carries out once its stop was handled, if it does: as the
definitions of `p` render it from the memory of the caller. -/
def performed (lib : Libraries Re) (ndebug : Bool) (p : Parser) (s : TracerSys Re) :
    Move → List Hearing
  | .report .syscall e =>
    match (s.after (tracerCallbacks lib ndebug) ndebug (.report .syscall e)).kern e.child with
    | some th =>
      if th.executing = true then
        [{ child := e.child, text := p.text (e.mem e.child) e.info.toArgs, answer := some true }]
      else []
    | none => []
  | _ => []

/-- Only the definitions of a parser matter for the text. -/
theorem text_of_syscallMap {p q : Parser} (h : p.syscallMap = q.syscallMap) (m : Memory)
    (args : SyscallArgs) : p.text m args = q.text m args := by
  unfold Parser.text Parser.defOf
  rw [h]

/-! ## 2. One stop -/

section Stop

variable {l : Loop (Parser × Session (FileConfig Re))} {e : Event}

/-- What was heard is what the memory of the caller held. -/
theorem hearing_eq {π : Type} {l : Loop (Parser × π)} {h : Handling (Parser × π)}
    {hearing : Hearing} (hhear : h.hearing ndebug l e = some hearing) :
    hearing = { child := e.child, text := l.user.1.text (e.mem e.child) e.info.toArgs
                answer := h.verdict } := by
  unfold Handling.hearing at hhear
  cases hcall : ((l.user.1.setpid e.child).call ndebug e.info.toArgs).run
      (World.tick ⟨e.mem, e.child, e.life⟩) with
  | error f w =>
    rw [hcall] at hhear
    cases hhear
  | ok text w =>
    have htext := ((l.user.1.setpid e.child).call_spec ndebug e.info.toArgs _).of_ok hcall
    simp only [hcall] at hhear
    split at hhear
    · rw [Option.some.injEq] at hhear
      rw [← hhear, htext.1, text_of_syscallMap (q := l.user.1) rfl]
      rfl
    · cases hhear

/-- A call that was allowed was heard. -/
theorem heard_of_answered (l : Loop (Parser × Session (FileConfig Re))) (e : Event) :
    let h := endState (handled (tracerCallbacks lib ndebug) ndebug e SIGTRAP_SYSGOOD l)
    h.answered true = true →
      h.hearing ndebug l e = some { child := e.child
                                    text := l.user.1.text (e.mem e.child) e.info.toArgs
                                    answer := some true } := by
  intro h htrue
  have hverdict : h.verdict = some true := if_pos htrue
  obtain ⟨-, hrec⟩ : Recorded lib ndebug l e h := handled_recorded l e
  cases hhear : h.hearing ndebug l e with
  | none =>
    rw [hhear, hverdict] at hrec
    cases hrec.2
  | some hearing => rw [hearing_eq hhear, hverdict]

/-- **One step.**  What it makes the kernel carry out was heard and allowed. -/
theorem performed_sublist {p : Parser} {s s' : TracerSys Re} {m : Move}
    (hmap : s.loop.user.1.syscallMap = p.syscallMap) (hmed : Mediates s)
    (hs : Step (tracerCallbacks lib ndebug) ndebug others s m s') :
    (performed lib ndebug p s m).Sublist ((hearings lib ndebug s m).filter Hearing.allowed) := by
  obtain ⟨-, hen, -⟩ := hs
  cases m with
  | create | die | execve => exact List.nil_sublist _
  | report cause e =>
    cases cause with
    | exit | other | attach | signal | execTrap | event => exact List.nil_sublist _
    | syscall =>
      obtain ⟨th, hth, hw⟩ : ∃ th, s.kern e.child = some th ∧
          e.wstatus = .stopped SIGTRAP_SYSGOOD := by
        cases hen with
        | syscall hth _ _ _ hw => exact ⟨_, hth, hw⟩
      have hok := mediates_iff.mp hmed e.child th hth
      obtain ⟨hdead, hheld⟩ : th.dead = none ∧ th.held = false := by
        obtain ⟨th', hth', hdead, hheld, -⟩ := Reports.stopped hen hw
        cases hth.symm.trans hth'
        exact ⟨hdead, hheld⟩
      simp only [performed, after_stop_kern hw, Function.update_self, hth, Option.map_some]
      split
      · -- the kernel carries the call out, so the callback allowed it
        rename_i hexec
        have happroved := afterStop_mediated (Reports.sysgood_iff hen hw)
          (hok.1 hdead hheld) hok.2 hexec
        simp only [Thread.afterStop, if_true, Bool.and_eq_true] at happroved
        have hheard := heard_of_answered s.loop e happroved.2
        rw [hearings, hheard, Option.toList_some, text_of_syscallMap hmap]
        exact List.Sublist.refl _
      · exact List.nil_sublist _

end Stop

/-! ## 3. A run of a launched program -/

/-- The tracer's configuration is the one that was read, settled. -/
theorem Granted.settled {env : Environment} {opts : Options} {user : User} {c c' : FileConfig Re}
    (h : Granted lib env opts c user c') : c' = c.settled c'.key c'.config c'.passwordHash := by
  rcases h with ⟨-, rfl⟩ | ⟨-, k, -, rfl⟩
  · rfl
  · rfl

/-- Where the signature was verified, the password hash is still the one in the document; otherwise
there is none. -/
theorem Granted.hash {env : Environment} {opts : Options} {user : User} {c c' : FileConfig Re}
    {doc : Json} (hfrom : ReadFrom lib env.files opts.config c doc)
    (h : Granted lib env opts c user c') :
    if opts.noSignature = true then c'.passwordHash = []
    else SaysHash lib opts.config doc c'.passwordHash := by
  rcases h with ⟨hsig, rfl⟩ | ⟨hsig, k, -, rfl⟩
  · rw [if_pos hsig]
    rfl
  · rw [if_neg (by rw [hsig]; exact Bool.false_ne_true)]
    exact (hfrom.saysHash_iff lib).mpr rfl

/-- Where no tid has vanished, a program whose leaders alone execute programs keeps the turn. -/
theorem keepsTurn_of_leaderExec {σ : Type} {s : Sys σ} {m : Move} (h : NoneVanished s)
    (hlead : LeaderExec s m) (hen : Enabled others s m) : KeepsTurn s m := by
  obtain ⟨hreg, hvan⟩ := h
  cases m with
  | die | report => trivial
  | execve u =>
    intro th hth hne
    exact absurd (hlead th hth) hne
  | create c u thread =>
    -- the new tid is not in the table: it is neither a tracee's nor a vanished one
    obtain ⟨-, hnone, -⟩ := hen
    have hno : s.loop.threadStatus.lookup u = none := by
      by_contra hin
      rcases (hreg u).mp hin with ⟨th, hth, -⟩ | hu
      · cases hnone.symm.trans hth
      · rw [hvan u] at hu
        cases hu
    rw [KeepsTurn, hno]
    exact fits_none

theorem run_keepsTurn {σ : Type} {cb : Callbacks σ} {child : Tid} {u : σ}
    {tr : List (Sys σ × Move)} {s : Sys σ}
    (hrun : Run (Step cb ndebug others) (Sys.init child u) tr s) (hlead : Guarded LeaderExec tr) :
    Guarded KeepsTurn tr := by
  have hvan := (run_noneVanished hrun hlead).1
  intro q hq
  obtain ⟨s', -, hen, -⟩ := hrun.step_of_mem hq
  exact keepsTurn_of_leaderExec (hvan q hq) (hlead q hq) hen

/-- A run that keeps the turn mediates, in every state. -/
theorem run_mediates {σ : Type} {cb : Callbacks σ} {child : Tid} {u : σ}
    {tr : List (Sys σ × Move)} {s : Sys σ}
    (hrun : Run (Step cb ndebug others) (Sys.init child u) tr s) (hkeeps : Guarded KeepsTurn tr) :
    Always Mediates tr s := by
  have hiff : Always Mediates tr s ↔ Guarded KeepsTurn tr :=
    hrun.guarded_iff (init_registered child u) (init_mediates child u)
      (fun _ _ _ => step_registered) fun _ _ _ => step_mediates_iff
  exact hiff.mpr hkeeps

/-- **The policy is enforced.**  Whatever file the configuration was read from and whatever the
user answers: if `run` starts the tracer, then the user had the file authorised, and a password is
tested with the hash that the document in the file has, unless verification was dismissed.  In
every run of the program from there on, with any number of threads in any order, each call heard
has a ruling that the document provides for its text.  In every run that keeps the turn the calls
that the kernel carries out are, in their order, among those that were heard and allowed; and a run
in which leaders of thread groups alone execute programs keeps the turn. -/
theorem policy_enforced {env : Environment} {opts : Options} {user : User} {bytes : Str}
    {doc : Json} {c c' : FileConfig Re} {p : Parser} {t : Session (Launch Re)} {child : Tid}
    {tr : List (TracerSys Re × Move)} {s : TracerSys Re}
    (hfile : env.files opts.config = some bytes) (hparse : lib.parse bytes = .ok doc)
    (hread : FileConfig.read lib env.files opts.config = .ok c)
    (hlaunch : GravelBox.run lib env opts user = .ok (.ok (some (p, c')) t))
    (hrun : Run (Step (tracerCallbacks lib ndebug) ndebug others)
      (Sys.init child (p, { inner := c', user := t.user })) tr s) :
    (opts.noSignature = true ∨ KeyEntered lib env c.signature bytes user) ∧
    (if opts.noSignature = true then c'.passwordHash = []
      else SaysHash lib opts.config doc c'.passwordHash) ∧
    (∃ rulings,
      List.Forall₂ (RuledBy lib doc c'.key c'.passwordHash) (history (hearings lib ndebug) tr)
        rulings ∧
      Takes t.user rulings s.loop.user.2.user) ∧
    (Guarded LeaderExec tr → Guarded KeepsTurn tr) ∧
    (Guarded KeepsTurn tr → (history (performed lib ndebug p) tr).Sublist
      ((history (hearings lib ndebug) tr).filter Hearing.allowed)) := by
  obtain ⟨doc', hfrom⟩ := read_spec lib hread
  obtain rfl : bytes = c.config := Option.some.inj (hfile.symm.trans hfrom.file)
  obtain rfl : doc = doc' := Except.ok.inj (hparse.symm.trans hfrom.parse)
  obtain ⟨hgranted, -⟩ := Reaches.granted hread ⟨t, hlaunch⟩
  rw [hgranted.settled] at hrun
  have haccounted : ∀ {tr' s'}, Run (Step (tracerCallbacks lib ndebug) ndebug others)
      (Sys.init child (p, { inner := c.settled c'.key c'.config c'.passwordHash, user := t.user }))
      tr' s' → _ := run_accounted hfile hparse hread c'.key c'.config c'.passwordHash
  refine ⟨hgranted.authorised, hgranted.hash hfrom, (haccounted hrun).rulings,
    run_keepsTurn hrun, fun hkeeps => ?_⟩
  have hmed := run_mediates hrun hkeeps
  rw [history_filter]
  refine history_sublist fun q hq => ?_
  obtain ⟨s', hs⟩ := hrun.step_of_mem hq
  obtain ⟨tr₁, hpre⟩ := hrun.run_of_mem hq
  exact performed_sublist (haccounted hpre).map (hmed.1 q hq) hs

/-- The user enters another key first, agrees to one call and refuses the next. -/
def launchConsent : User := { launchUser with confirms := [true, false] }

/-- The configuration that the tracer is given. -/
def launchedConfig : FileConfig Unit := { launchConfig with key := "key".toList, config := [] }

/-- The parser that it is given. -/
def launchedParser : Parser := { target := 0, syscallMap := ∅ }

/-- What the launch leaves behind. -/
def launched : Session (Launch Unit) :=
  { inner := { config := launchedConfig, log := [.pinentry "pinentry-tty".toList, .verified,
      .definitions "defs".toList] }
    user :=
      { confirms := [true, false]
        passwords := []
        asked := questionsUntil "Enter the configuration file signing key.".toList "key: ".toList
          "Incorrect key, or the configuration has been changed.".toList [] ["no".toList] } }

theorem launchText_parse : launchLib.parse launchText = .ok launchDoc := rfl

theorem launchConsent_launched :
    GravelBox.run launchLib launchEnv launchOptions launchConsent =
      .ok (.ok (some (launchedParser, launchedConfig)) launched) := rfl

/-- The first call is carried out, and the second, heard too, is not. -/
theorem one_of_two_performed :
    ∃ tr s, Run (Step (tracerCallbacks launchLib true) true fun _ => False)
        (Sys.init 1 (launchedParser, { inner := launchedConfig, user := launched.user })) tr s ∧
      history (performed launchLib true launchedParser) tr =
        [{ child := 1, text := "syscall(39, 0x0, 0x0, 0x0, 0x0, 0x0, 0x0)".toList
           answer := some true }] ∧
      (history (hearings launchLib true) tr).length = 2 ∧
      (history (performed launchLib true launchedParser) tr).Sublist
        ((history (hearings launchLib true) tr).filter Hearing.allowed) := by
  have h₀ : Run (Step (tracerCallbacks launchLib true) true fun _ => False)
      (Sys.init 1 (launchedParser, { inner := launchedConfig, user := launched.user })) [] _ := .nil
  have h₁ := run_move h₀ (.call 1 .enter 39) rfl (enabled_call 1 .enter 39 rfl ⟨rfl, rfl, rfl⟩ rfl)
  have h₂ := run_move h₁ (.call 1 .exit 39) rfl (enabled_call 1 .exit 39 rfl ⟨rfl, rfl, rfl⟩ rfl)
  have h₃ := run_move h₂ (.call 1 .enter 57) rfl (enabled_call 1 .enter 57 rfl ⟨rfl, rfl, rfl⟩ rfl)
  obtain ⟨-, -, -, hleaders, henforced⟩ :=
    policy_enforced launchText_file launchText_parse launchConfig_read launchConsent_launched h₃
  have hkeeps := hleaders (guarded_snoc.mpr ⟨guarded_snoc.mpr ⟨guarded_snoc.mpr
    ⟨guarded_nil, trivial⟩, trivial⟩, trivial⟩)
  exact ⟨_, _, h₃, rfl, rfl, henforced hkeeps⟩

end GravelBox
