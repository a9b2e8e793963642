/-
# The decision on a call

The callback that `Tracer::run` gives to the loop (`trace/tracer.h`, lines 70 to 104) renders the
call, asks the configuration for its action, and asks the user where the action is to ask.
`decision_iff` says what the answer is, from the document of the configuration and the answers of
the user.

The parts of the answer come from far apart.  The action of a call is that of the earliest group in
the document with a pattern that matches the text, or the default (`getAction_iff`); whether there
is a password is a question to the configuration (`has_password`), and which one is right another
(`verify_password`), under the key that the signature was verified with.  The two agree only because
an empty hash stands for no password in one place, and is never asked about in the other.

The loop for the password has no bound: it ends with a password that is right, a cancellation, or a
user who is gone.  What it comes to is said of the whole list of answers at once: one of the
passwords entered before the first cancellation is right (`askUntil_true_iff`).

A call that is denied or allowed is decided without a question, and the user is left as he was; that
is part of the statement, as is that later groups and the order of the patterns do not matter.

Not claimed: that the call is the one that the text shows, which is the subject of
`Parser/Unambiguous.lean`, or that the user was shown the text, which is that of `Ui/Assuan.lean`.
Whether a pattern matches is a total predicate of the library.
-/
import GravelBox.Trace.Tracer
import GravelBox.Parser.Parser
import GravelBox.Config.Document
import GravelBox.Ui.User

namespace GravelBox

open Stateful

variable {Re : Type} (lib : Libraries Re)

/-! ## 1. The callbacks of `Tracer::run` -/

/-- `case Config::Action::ASK`. -/
def decideAsk (config : FileConfig Re) (syscall : Str) :
    EStateM Fault (Session (FileConfig Re)) Bool := do
  if !(← Session.ask syscall) then return false
  if !config.hasPassword then return true
  askUntil "Enter the user decision password to continue.".toList "password: ".toList
    "Incorrect password".toList fun password => return (← get).verifyPassword lib password

/-- The `switch` of the callback. -/
def decideCall (syscall : Str) : EStateM Fault (Session (FileConfig Re)) Bool := do
  let config := (← get).inner
  match config.getAction lib syscall with
  | .allow => return true
  | .ask => decideAsk lib config syscall
  | .deny => return false

/-- The callbacks.  `Logger::write` does nothing. -/
def tracerCallbacks (ndebug : Bool) : Callbacks (Parser × Session (FileConfig Re)) where
  pidCallback child := modify fun (u, w) => ((u.1.setpid child, u.2), w)
  syscallCallback args := do
    let (u, _) ← get
    let syscall ← zoom Prod.snd (fun s w => (s.1, w)) (u.1.call ndebug args)
    zoom (fun s => s.1.2) (fun s t => ((s.1.1, t), s.2)) (decideCall lib syscall)

/-! ## 2. The decision -/

/-- The user confirms the next question. -/
def User.Confirms (user : User) : Prop := user.confirms.head? = some true

/-- A password of the user, entered before the first cancellation, is the one that `hash`
was made from, under `key`. -/
def User.Knows (user : User) (key hash : Str) : Prop :=
  ∃ password ∈ enteredOf user.passwords, lib.hmac key password = hash

/-- What an action comes to. -/
def Permits (user : User) (key hash : Str) (a : Action) : Prop :=
  a = .allow ∨ (a = .ask ∧ user.Confirms ∧ (hash = [] ∨ user.Knows lib key hash))

/-- Verifying a password changes nothing. -/
theorem verifies_password (c : FileConfig Re) :
    Verifies (fun password => do return (← get).verifyPassword lib password) (· = c)
      (c.verifyPassword lib) (fun _ t => t) := by
  refine ⟨?_, ?_⟩
  · rintro k t rfl
    rfl
  · rintro k t rfl -
    rfl

/-- The state after the question whether to allow the call. -/
def User.afterAsk (user : User) (syscall : Str) : User :=
  { user with confirms := user.confirms.tail, asked := user.asked ++ [.ask syscall] }

theorem run_ask_ok_iff {σ : Type} {syscall : Str} {s s' : Session σ} {b : Bool} :
    (Session.ask syscall).run s = .ok b s' ↔
      s.user.confirms.head? = some b ∧ s' = { s with user := s.user.afterAsk syscall } := by
  unfold EStateM.run Session.ask
  cases hconfirms : s.user.confirms with
  | nil => simp
  | cons answer answers =>
    simp only [User.afterAsk, hconfirms, List.head?_cons, List.tail_cons, Option.some.injEq]
    constructor
    · intro h
      cases h
      exact ⟨rfl, rfl⟩
    · rintro ⟨rfl, rfl⟩
      rfl

theorem decideAsk_true_iff (s : Str) (c : FileConfig Re) (user : User) :
    (∃ t, (decideAsk lib c s).run { inner := c, user := user } = .ok true t) ↔
      user.Confirms ∧ (c.passwordHash = [] ∨ user.Knows lib c.key c.passwordHash) := by
  unfold decideAsk
  simp only [run_bind_eq_ok, run_ask_ok_iff]
  constructor
  · rintro ⟨t, b, s', ⟨hb, rfl⟩, hrest⟩
    cases b with
    | false =>
      rw [Bool.not_false, if_pos rfl] at hrest
      cases hrest
    | true =>
      refine ⟨hb, ?_⟩
      by_cases hnil : c.passwordHash = []
      · exact .inl hnil
      · right
        rw [Bool.not_true, if_neg Bool.false_ne_true, FileConfig.hasPassword,
          decide_eq_true hnil, Bool.not_true, if_neg Bool.false_ne_true] at hrest
        obtain ⟨password, hmem, hok⟩ :=
          (askUntil_true_iff (verifies_password lib c) rfl).mp ⟨t, hrest⟩
        exact ⟨password, hmem, of_decide_eq_true hok⟩
  · rintro ⟨hconfirms, hpassword⟩
    by_cases hnil : c.passwordHash = []
    · refine ⟨{ inner := c, user := user.afterAsk s }, true, _, ⟨hconfirms, rfl⟩, ?_⟩
      rw [Bool.not_true, if_neg Bool.false_ne_true, FileConfig.hasPassword,
        decide_eq_false (not_not.mpr hnil), Bool.not_false, if_pos rfl]
      rfl
    · obtain ⟨password, hmem, hok⟩ := hpassword.resolve_left hnil
      obtain ⟨t, hrun⟩ := (askUntil_true_iff (verifies_password lib c)
        (s := { inner := c, user := user.afterAsk s }) rfl).mpr
          ⟨password, hmem, decide_eq_true hok⟩
      refine ⟨t, true, _, ⟨hconfirms, rfl⟩, ?_⟩
      rw [Bool.not_true, if_neg Bool.false_ne_true, FileConfig.hasPassword,
        decide_eq_true hnil, Bool.not_true, if_neg Bool.false_ne_true]
      exact hrun

theorem run_decideCall (s : Str) (t : Session (FileConfig Re)) :
    (decideCall lib s).run t =
      (match t.inner.getAction lib s with
        | .allow => pure true
        | .ask => decideAsk lib t.inner s
        | .deny => pure false : EStateM Fault (Session (FileConfig Re)) Bool).run t := rfl

/-- **The switch** returns `true` just for what is permitted. -/
theorem decideCall_true_iff (s : Str) (c : FileConfig Re) (user : User) :
    (∃ t, (decideCall lib s).run { inner := c, user := user } = .ok true t) ↔
      Permits lib user c.key c.passwordHash (c.getAction lib s) := by
  simp only [run_decideCall]
  unfold Permits
  cases c.getAction lib s with
  | allow => exact ⟨fun _ => .inl rfl, fun _ => ⟨_, rfl⟩⟩
  | deny =>
    constructor
    · rintro ⟨t, hrun⟩
      cases hrun
    · rintro (h | ⟨h, -⟩)
      · cases h
      · cases h
  | ask =>
    simp only [decideAsk_true_iff]
    constructor
    · intro h
      exact .inr ⟨trivial, h⟩
    · rintro (h | ⟨-, h⟩)
      · cases h
      · exact h

/-- The callback, after the call was rendered, is the switch. -/
theorem run_callback {ndebug : Bool} {p : Parser} {args : SyscallArgs} {w w' : World} {s : Str}
    (h : (p.call ndebug args).run w = .ok s w') (t : Session (FileConfig Re)) :
    ((tracerCallbacks lib ndebug).syscallCallback args).run ((p, t), w) =
      (zoom (fun s => s.1.2) (fun s t => ((s.1.1, t), s.2)) (decideCall lib s)).run
        ((p, t), w') := by
  simp only [tracerCallbacks, EStateM.run_bind, EStateM.run_get, run_zoom, h]

/-- Asking leaves the configuration as it is. -/
theorem decideAsk_keeps (s : Str) (c : FileConfig Re) (t : Session (FileConfig Re)) :
    Ends (decideAsk lib c s) t (fun _ t' => t'.inner = t.inner)
      (fun _ t' => t'.inner = t.inner) := by
  have hask : Ends (Session.ask s) t (fun _ t' => t'.inner = t.inner)
      (fun _ t' => t'.inner = t.inner) := by
    unfold Ends EStateM.run Session.ask
    cases t.user.confirms with
    | nil => rfl
    | cons answer answers => rfl
  simp only [decideAsk, ends_bind]
  refine hask.mono ?_ fun _ _ h => h
  intro answer t' ht'
  rw [← ht']
  cases answer with
  | false => rfl
  | true =>
    rw [Bool.not_true, if_neg Bool.false_ne_true]
    by_cases hpassword : (!c.hasPassword) = true
    · rw [if_pos hpassword]
      rfl
    · rw [if_neg hpassword]
      refine (askUntil_ends (I := (· = t'.inner)) (J := (· = t'.inner)) ?_ rfl).mono ?_
        fun _ _ h => h
      · rintro k u rfl
        simp only [ends_bind, ends_get, ends_pure, ite_self]
      · intro b t'' h
        exact (ite_self _).mp h

/-- The switch leaves the configuration as it is. -/
theorem decideCall_keeps (s : Str) (t : Session (FileConfig Re)) :
    Ends (decideCall lib s) t (fun _ t' => t'.inner = t.inner)
      (fun _ t' => t'.inner = t.inner) := by
  have hask : Ends (decideAsk lib t.inner s) t (fun _ t' => t'.inner = t.inner)
      (fun _ t' => t'.inner = t.inner) := decideAsk_keeps lib s t.inner t
  unfold Ends at hask ⊢
  rw [run_decideCall]
  cases t.inner.getAction lib s with
  | allow | deny => rfl
  | ask => exact hask

/-- A program that leaves the configuration as it is. -/
def KeepsConfig {α : Type} (x : EStateM Fault ((Parser × Session (FileConfig Re)) × World) α) :
    Prop :=
  ∀ u, Ends x u (fun _ u' => u'.1.2.inner = u.1.2.inner) (fun _ u' => u'.1.2.inner = u.1.2.inner)

theorem keepsConfig_syscallCallback (ndebug : Bool) (args : SyscallArgs) :
    KeepsConfig ((tracerCallbacks lib ndebug).syscallCallback args) := by
  intro u
  simp only [tracerCallbacks, ends_bind, ends_get, ends_zoom]
  refine ends_of_forall (fun s w => ?_) fun _ _ => trivial
  exact decideCall_keeps lib s u.1.2

theorem keepsConfig_pidCallback (ndebug : Bool) (child : Tid) :
    KeepsConfig ((tracerCallbacks lib ndebug).pidCallback child) := fun _ => rfl

/-- The callback answers `b` to a call, for this configuration and this user. -/
def Answers (ndebug : Bool) (p : Parser) (args : SyscallArgs) (w : World) (c : FileConfig Re)
    (user : User) (b : Bool) : Prop :=
  ∃ t, ((tracerCallbacks lib ndebug).syscallCallback args).run
    ((p, { inner := c, user := user }), w) = .ok b t

theorem answers_iff {ndebug : Bool} {p : Parser} {args : SyscallArgs} {w w' : World} {s : Str}
    (h : (p.call ndebug args).run w = .ok s w') {c : FileConfig Re} {user : User} {b : Bool} :
    Answers lib ndebug p args w c user b ↔
      ∃ t, (decideCall lib s).run { inner := c, user := user } = .ok b t := by
  unfold Answers
  simp only [run_callback lib h, run_zoom]
  cases (decideCall lib s).run { inner := c, user := user } with
  | ok b' t => simp
  | error f t => simp

/-- A configuration as it was read, with what may have been set since: the key, the bytes
that were verified, and, where there is no verification, the password hash. -/
def FileConfig.settled (c : FileConfig Re) (key bytes hash : Str) : FileConfig Re :=
  { c with key := key, config := bytes, passwordHash := hash }

/-- **The decision on a call.**  Whatever document a configuration was read from, and
whatever the user answers, the callback allows a call if and only if the document says so of
its text: by the action of the earliest group that matches, or the default, the user's
consent and, where there is a password hash, the user's password.  The hash is that of the
document (the first two parts), or whatever else was set since (the third).

A call whose action is to deny is refused without a question; groups after the first that
matches do not matter, and neither does the order of the patterns in a group. -/
theorem decision_iff {files : Str → Option Str} {path bytes : Str} {doc : Json}
    {c : FileConfig Re} (hfile : files path = some bytes) (hparse : lib.parse bytes = .ok doc)
    (hread : FileConfig.read lib files path = .ok c) (key bytes' hash : Str) (user : User)
    {ndebug : Bool} {p : Parser} {args : SyscallArgs} {w w' : World} {s : Str}
    (hcall : (p.call ndebug args).run w = .ok s w') :
    (∃ hash', SaysHash lib path doc hash') ∧
    (∀ hash', SaysHash lib path doc hash' →
      (Answers lib ndebug p args w { c with key := key, config := bytes' } user true ↔
        ∃ a, Says lib doc s a ∧ Permits lib user key hash' a)) ∧
    (Answers lib ndebug p args w (c.settled key bytes' hash) user true ↔
      ∃ a, Says lib doc s a ∧ Permits lib user key hash a) ∧
    (Says lib doc s .deny →
      ((tracerCallbacks lib ndebug).syscallCallback args).run
          ((p, { inner := c.settled key bytes' hash, user := user }), w) =
        .ok false ((p, { inner := c.settled key bytes' hash, user := user }), w')) ∧
    (∀ pre g post post', (g.patterns.any fun r => lib.fullMatch r s) = true →
      c.actionGroups = pre ++ g :: post →
        (Answers lib ndebug p args w (c.settled key bytes' hash) user true ↔
          Answers lib ndebug p args w
            { c.settled key bytes' hash with actionGroups := pre ++ g :: post' } user true)) ∧
    (∀ groups, SamePatterns c.actionGroups groups →
      (Answers lib ndebug p args w (c.settled key bytes' hash) user true ↔
        Answers lib ndebug p args w
          { c.settled key bytes' hash with actionGroups := groups } user true)) := by
  obtain ⟨doc', hfrom⟩ := read_spec lib hread
  obtain rfl : bytes = c.config := Option.some.inj (hfile.symm.trans hfrom.file)
  obtain rfl : doc = doc' := Except.ok.inj (hparse.symm.trans hfrom.parse)
  have hanswers : ∀ c' : FileConfig Re, Answers lib ndebug p args w c' user true ↔
      Permits lib user c'.key c'.passwordHash (c'.getAction lib s) := by
    intro c'
    rw [answers_iff lib hcall, decideCall_true_iff]
  have haction : (c.settled key bytes' hash).getAction lib s = c.getAction lib s := rfl
  have hallows : ∀ hash', Answers lib ndebug p args w (c.settled key bytes' hash') user true ↔
      ∃ a, Says lib doc s a ∧ Permits lib user key hash' a := by
    intro hash'
    have hsettled : (c.settled key bytes' hash').getAction lib s = c.getAction lib s := rfl
    rw [hanswers, hsettled]
    constructor
    · intro hpermits
      exact ⟨_, says_getAction lib hfrom s, hpermits⟩
    · rintro ⟨a, hsays, hpermits⟩
      rw [(getAction_iff lib hfrom).mpr hsays]
      exact hpermits
  refine ⟨⟨_, (hfrom.saysHash_iff lib).mpr rfl⟩, ?_, hallows hash, ?_, ?_, ?_⟩
  · intro hash' hhash
    obtain rfl := (hfrom.saysHash_iff lib).mp hhash
    exact hallows c.passwordHash
  · intro hdeny
    have hact : (c.settled key bytes' hash).getAction lib s = .deny :=
      (getAction_iff lib hfrom).mpr hdeny
    rw [run_callback lib hcall, run_zoom, run_decideCall]
    simp only [hact]
    rfl
  · intro pre g post post' hmatch hgroups
    rw [hanswers, hanswers, haction, FileConfig.getAction, FileConfig.getAction, hgroups,
      findAction_later lib hmatch pre post post']
    rfl
  · intro groups hsame
    rw [hanswers, hanswers, haction, FileConfig.getAction, FileConfig.getAction,
      findAction_perm lib hsame]
    rfl

/-- The document of a configuration that asks about every call. -/
def askingDoc : Json :=
  .object [("default-action".toList, .string "deny".toList),
    ("action-groups".toList, .array [.object [("action".toList, .string "ask".toList),
      ("patterns".toList, .array [.string ".*".toList])]])]

/-- Its text. -/
def askingText : Str := askingDoc.write

/-- Libraries that know this document and the pattern `.*`; nothing is hashed with them. -/
def askingLib : Libraries Unit where
  toJsonCpp := .ofDocuments [askingDoc]
  compile s := if s = ".*".toList then .ok () else .error "not known".toList
  fullMatch _ s := '\n' ∉ s
  hmac _ _ := List.replicate kHashSize '0'
  hmac_length _ _ := List.length_replicate

/-- The configuration that is read from it. -/
def askingConfig : FileConfig Unit :=
  { config := askingText, signature := [], key := [], passwordHash := [], syscalldef := []
    pinentry := [], maxStrLen := 0, actionDefault := .deny
    actionGroups := [{ action := .ask, patterns := [()] }] }

/-- A call without a definition. -/
def bareCall : SyscallArgs := { number := 39, args := fun _ => 0, int80 := false }

/-- A parser with an empty table. -/
def bareParser : Parser := { target := 1, syscallMap := ∅ }

/-- A target that is alive. -/
def liveWorld : World :=
  { mem := fun _ => { readable := fun _ => false, byte := fun _ => 0 }, child := 1, life := none }

/-- It is in the file `config`. -/
def askingFiles (path : Str) : Option Str :=
  if path = "config".toList then some askingText else none

theorem askingText_file : askingFiles "config".toList = some askingText := rfl

theorem askingLib_parse : askingLib.parse askingText = .ok askingDoc := rfl

theorem askingConfig_read :
    FileConfig.read askingLib askingFiles "config".toList = .ok askingConfig := rfl

theorem bareCall_text : (bareParser.call true bareCall).run liveWorld =
    .ok "syscall(39, 0x0, 0x0, 0x0, 0x0, 0x0, 0x0)".toList liveWorld := rfl

theorem askingDoc_says :
    Says askingLib askingDoc "syscall(39, 0x0, 0x0, 0x0, 0x0, 0x0, 0x0)".toList .ask := by
  refine ⟨_, rfl, .inl ⟨[], _, [], rfl, nofun, ?_, rfl⟩⟩
  exact ⟨_, _, _, (), rfl, List.mem_singleton_self _, rfl, rfl, by decide⟩

/-- The user agrees, and there is no password: the call is allowed. -/
theorem consent_allows :
    Answers askingLib true bareParser bareCall liveWorld (askingConfig.settled [] [] [])
      { confirms := [true], passwords := [], asked := [] } true := by
  have hdecision := decision_iff askingLib askingText_file askingLib_parse
    askingConfig_read [] [] [] { confirms := [true], passwords := [], asked := [] } bareCall_text
  exact hdecision.2.2.1.mpr ⟨.ask, askingDoc_says, .inr ⟨rfl, rfl, .inl rfl⟩⟩

end GravelBox
