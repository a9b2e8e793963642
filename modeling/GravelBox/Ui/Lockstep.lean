/-
# Command and answer in lockstep

A `Pinentry` answers every line it is sent with exactly one response, and greets with one.
Then no command is ever more than one line, every `recv` reads just the response to the
command that was written before it, and nothing is left over between two operations
(`InStep`).  That needs no more than that the texts have no line feed, and the texts the
parser makes have none (`ui/pinentry_conn.h`, lines 51 to 134, for the operations).

What an operation returns is another matter: a `confirm` returns what the user answered to
its own question, but for the `ERR` lines that vanish (`lockstep_iff`).

What could go wrong is a shift by one.  The protocol has no numbers in it: which response belongs to
which command is a matter of counting, and an operation that leaves one response unread gives every
later question the answer of the one before.  An exception in the middle of a dialogue is where that
could begin, since the rest of its commands are not written; but then the rest of the responses is
not sent either, and the connection is in step again for the next operation.

The proof goes by exchanges: one line written and one response read (`exchange_ok`), then a dialogue
by induction over its commands (`inquire_lockstep`), then any sequence of operations, with whatever
they throw on the way (`perform_inStep`).

That a command is one line is a hypothesis on the texts of the questions.  It is met by every call
text whose name has no line feed (`Parser/Printable.lean`), and by the texts in the source.

Not claimed: anything about a pinentry that sends lines of its own accord; with one of those the
counting is off, and the result fails.
-/
import GravelBox.Ui.Dialogue
import GravelBox.Parser.Printable
import GravelBox.Lib.Runs

namespace GravelBox

open Stateful Runs

/-! ## 1. A pinentry that answers -/

/-- The line of a response that decides: its last. -/
def answerOf (reply : List Str) : Str := reply.getLastD []

/-- Some notes, and then an `OK` or an `ERR` line. -/
structure IsResponse (reply : List Str) : Prop where
  nonempty : reply ≠ []
  notes : ∀ line ∈ reply.dropLast, isNote line = true
  answer : isOk (answerOf reply) = true ∨ isErr (answerOf reply) = true

/-- A pinentry that greets with one response and answers every line with one. -/
structure Pinentry (ρ : Type) where
  greeting : ρ → List Str
  respond : ρ → Str → ρ × List Str
  greets : ∀ q, IsResponse (greeting q)
  responds : ∀ q line, IsResponse (respond q line).2

variable {ρ : Type} (pin : Pinentry ρ)

/-- Its responses to some commands, the first of which finds it in state `q`. -/
def Pinentry.replies : ρ → List Str → List (List Str)
  | _, [] => []
  | q, cmd :: cmds => (pin.respond q cmd).2 :: replies (pin.respond q cmd).1 cmds

/-- What goes over the pipes when each command is written and then its response read. -/
def Pinentry.traffic : ρ → List Str → List Traffic
  | _, [] => []
  | q, cmd :: cmds =>
    [.wrote [cmd] (pin.respond q cmd).2, .read (pin.respond q cmd).2] ++
      traffic (pin.respond q cmd).1 cmds

/-- The log of a conversation in which every `recv` reads the response to the one line that
was written just before it, or the greeting of a new pinentry. -/
inductive Lockstep : List Traffic → Prop
  | nil : Lockstep []
  | greeting {log : List Traffic} (lines : List Str) :
      Lockstep log → Lockstep (log ++ [.greeted lines, .read lines])
  | command {log : List Traffic} (cmd : Str) (reply : List Str) :
      Lockstep log → Lockstep (log ++ [.wrote [cmd] reply, .read reply])

theorem Lockstep.traffic {log : List Traffic} (h : Lockstep log) (q : ρ) (cmds : List Str) :
    Lockstep (log ++ pin.traffic q cmds) := by
  induction cmds generalizing log q with
  | nil =>
    rw [Pinentry.traffic, List.append_nil]
    exact h
  | cons cmd cmds ih =>
    rw [Pinentry.traffic, ← List.append_assoc]
    exact ih (h.command cmd _) _

/-! ## 2. One exchange -/

theorem IsResponse.decides {reply : List Str} (h : IsResponse reply) :
    Decides reply reply.dropLast (answerOf reply) [] := by
  have hsplit : reply = reply.dropLast ++ [answerOf reply] := by
    unfold answerOf
    rw [List.getLastD_eq_getLast?, List.getLast?_eq_some_getLast h.nonempty]
    exact (List.dropLast_concat_getLast h.nonempty).symm
  refine ⟨hsplit, h.notes, ?_⟩
  rw [Bool.eq_false_iff]
  intro hnote
  obtain ⟨hok, herr⟩ := not_answer_of_isNote hnote
  exact h.answer.elim hok herr

/-- Where one response is unread, `recv` reads all of it and nothing else. -/
theorem recv_response {c c' : PinentryConn ρ} {r : Response} (h : IsResponse c.unread)
    (hrun : (PinentryConn.recv (ρ := ρ)).run c = .ok r c') :
    c' = c.received c.unread [] ∧ (r.success = true ↔ Passes (c.junk 0) (answerOf c.unread)) := by
  have hd := h.decides
  rw [recv_of_decides hd] at hrun
  cases hjudge : judge (c.junk 0) (lastData [] c.unread.dropLast) (answerOf c.unread) with
  | error f =>
    rw [hjudge] at hrun
    cases hrun
  | ok r' =>
    rw [hjudge, ← hd.split] at hrun
    cases hrun
    exact ⟨rfl, success_iff_passes hjudge⟩

/-- The connection after an exchange of one command and its response. -/
def PinentryConn.exchanged (c : PinentryConn ρ) (q : ρ) (cmd : Str) : PinentryConn ρ :=
  { pinentry := some (pin.respond q cmd).1
    unread := []
    junk := fun n => c.junk (n + 1)
    log := c.log ++ [.wrote [cmd] (pin.respond q cmd).2, .read (pin.respond q cmd).2] }

/-- **One exchange.**  The command is one line, so it gets one response, and that is what is
read. -/
theorem exchange_ok {c c' : PinentryConn ρ} {r : Response} {cmd : Str} (hc : c.unread = [])
    (hcmd : '\n' ∉ cmd) (hrun : (inquire pin.respond [] cmd).run c = .ok r c') :
    ∃ q, c.pinentry = some q ∧ c' = c.exchanged pin q cmd ∧
      (r.success = true ↔ Passes (c.junk 0) (answerOf (pin.respond q cmd).2)) := by
  unfold inquire at hrun
  obtain ⟨⟨⟩, s, hsay, hrecv⟩ := run_bind_eq_ok.mp hrun
  cases hpin : c.pinentry with
  | none =>
    simp only [EStateM.run, PinentryConn.say, hpin] at hsay
    cases hsay
  | some q =>
    simp only [EStateM.run, PinentryConn.say, hpin, List.splitOn_eq_singleton hcmd, hear,
      List.append_nil, hc, List.nil_append] at hsay
    cases hsay
    obtain ⟨rfl, hsuccess⟩ := recv_response (pin.responds q cmd) hrecv
    refine ⟨q, rfl, ?_, hsuccess⟩
    simp only [PinentryConn.received, PinentryConn.exchanged, List.append_assoc,
      List.singleton_append]

theorem order_exchange {c c' : PinentryConn ρ} {cmd : Str} (hc : c.unread = [])
    (hcmd : '\n' ∉ cmd) (hrun : (order pin.respond cmd).run c = .ok () c') :
    ∃ q, c.pinentry = some q ∧ c' = c.exchanged pin q cmd ∧
      Passes (c.junk 0) (answerOf (pin.respond q cmd).2) := by
  obtain ⟨r, hask, hr⟩ := (order_ok_iff pin.respond).mp hrun
  obtain ⟨q, hq, hc', hsuccess⟩ := exchange_ok pin hc hcmd hask
  exact ⟨q, hq, hc', hsuccess.mp hr⟩

/-! ## 3. A dialogue -/

/-- The connection after some exchanges. -/
structure Conversed (c : PinentryConn ρ) (q : ρ) (cmds : List Str) (c' : PinentryConn ρ) :
    Prop where
  pinentry : c.pinentry = some q
  unread : c'.unread = []
  log : c'.log = c.log ++ pin.traffic q cmds

/-- Response number `i` passes. -/
def PassesAt (junk : Nat → BitVec 32) (replies : List (List Str)) (i : Nat) : Prop :=
  ∀ reply, replies[i]? = some reply → Passes (junk i) (answerOf reply)

/-- **A dialogue in lockstep.**  Each command is followed by the reading of its own response;
the responses to the orders pass, and the response that is returned is a success exactly if
the last passes.  By induction on the orders. -/
theorem inquire_lockstep (setup : List Str) (question : Str) {c c' : PinentryConn ρ}
    {r : Response} (hc : c.unread = []) (hcmds : ∀ cmd ∈ setup ++ [question], '\n' ∉ cmd)
    (hrun : (inquire pin.respond setup question).run c = .ok r c') :
    ∃ q, Conversed pin c q (setup ++ [question]) c' ∧
      (∀ i < setup.length, PassesAt c.junk (pin.replies q (setup ++ [question])) i) ∧
      (r.success = true ↔
        PassesAt c.junk (pin.replies q (setup ++ [question])) setup.length) := by
  induction setup generalizing c with
  | nil =>
    obtain ⟨q, hq, rfl, hsuccess⟩ := exchange_ok pin hc (hcmds question (by simp)) hrun
    refine ⟨q, ⟨hq, rfl, ?_⟩, fun i hi => absurd hi (Nat.not_lt_zero i), ?_⟩
    · simp only [PinentryConn.exchanged, List.nil_append, Pinentry.traffic, List.append_nil]
    · rw [hsuccess]
      simp [PassesAt, Pinentry.replies]
  | cons cmd setup ih =>
    obtain ⟨⟨⟩, s, horder, hrest⟩ := run_bind_eq_ok.mp hrun
    obtain ⟨q, hq, hs, hpass⟩ := order_exchange pin hc (hcmds cmd (by simp)) horder
    have hunread : s.unread = [] := by rw [hs]; rfl
    obtain ⟨q', hconv, hbefore, hlast⟩ := ih hunread
      (fun l hl => hcmds l (List.mem_cons_of_mem cmd hl)) hrest
    obtain rfl : q' = (pin.respond q cmd).1 := by
      have hpin := hconv.pinentry
      rw [hs] at hpin
      exact (Option.some.inj hpin).symm
    have hjunk : s.junk = fun n => c.junk (n + 1) := by rw [hs]; rfl
    rw [hjunk] at hbefore hlast
    refine ⟨q, ⟨hq, hconv.unread, ?_⟩, ?_, ?_⟩
    · rw [hconv.log, hs]
      simp only [PinentryConn.exchanged, List.cons_append, Pinentry.traffic, List.append_assoc,
        List.nil_append]
    · intro i hi
      cases i with
      | zero =>
        intro reply hreply
        obtain rfl := Option.some.inj hreply
        exact hpass
      | succ i => exact hbefore i (Nat.lt_of_succ_lt_succ hi)
    · exact hlast

/-! ## 4. Any sequence of operations -/

/-- The operations of a connection; `open` with the state of the pinentry that is there. -/
inductive Op (ρ : Type)
  | «open» (q : ρ)
  | confirm (message : Str)
  | getpin (message prompt error : Str)
  | close

/-- What an operation returns. -/
inductive Returned
  | done
  | confirmed (b : Bool)
  | entered (p : Password)

/-- The operation, performed. -/
def Op.perform : Op ρ → EStateM Fault (PinentryConn ρ) Returned
  | .open q => (fun _ => .done) <$> PinentryConn.open pin.respond q (pin.greeting q)
  | .confirm message => .confirmed <$> PinentryConn.confirm pin.respond message
  | .getpin message prompt error =>
    .entered <$> PinentryConn.getpin pin.respond message prompt error
  | .close => (fun _ => .done) <$> PinentryConn.close pin.respond

/-- The texts it is given have no line feed. -/
def Op.OneLine : Op ρ → Prop
  | .open _ => True
  | .confirm message => '\n' ∉ message
  | .getpin message prompt error => '\n' ∉ message ∧ '\n' ∉ prompt ∧ '\n' ∉ error
  | .close => True

/-- The operation that `PinentryUI::ask` is. -/
def Op.ask (syscall : Str) : Op ρ :=
  .confirm ("Do you allow the following system call?%0a%0a".toList ++ syscall)

/-- An operation that returned, as a step. -/
def OpStep (c : PinentryConn ρ) (l : Op ρ × Returned) (c' : PinentryConn ρ) : Prop :=
  l.1.OneLine ∧ (l.1.perform pin).run c = .ok l.2 c'

/-- A connection that was never opened. -/
def PinentryConn.new (junk : Nat → BitVec 32) : PinentryConn ρ :=
  { pinentry := none, unread := [], junk := junk, log := [] }

/-- Between two operations: nothing is unread, and commands and responses alternated. -/
structure InStep (c : PinentryConn ρ) : Prop where
  unread : c.unread = []
  lockstep : Lockstep c.log

theorem Conversed.inStep {c c' : PinentryConn ρ} {q : ρ} {cmds : List Str}
    (h : Conversed pin c q cmds c') (hc : Lockstep c.log) : InStep c' := by
  refine ⟨h.unread, ?_⟩
  rw [h.log]
  exact hc.traffic pin q cmds

theorem order_inStep {c c' : PinentryConn ρ} {cmd : Str} (h : InStep c) (hcmd : '\n' ∉ cmd)
    (hrun : (order pin.respond cmd).run c = .ok () c') : InStep c' := by
  obtain ⟨q, -, rfl, -⟩ := order_exchange pin h.unread hcmd hrun
  exact ⟨rfl, h.lockstep.command cmd _⟩

/-- The greeting of a new pinentry is read as any response is. -/
theorem open_inStep {c c' : PinentryConn ρ} {q : ρ} (h : InStep c)
    (hrun : (PinentryConn.open pin.respond q (pin.greeting q)).run c = .ok () c') :
    InStep c' := by
  unfold PinentryConn.open at hrun
  obtain ⟨⟨⟩, s, hmodify, hrest⟩ := run_bind_eq_ok.mp hrun
  obtain ⟨⟨⟩, s', hok, htitle⟩ := run_bind_eq_ok.mp hrest
  obtain ⟨⟨⟩, s'', hsay, hok'⟩ := run_bind_eq_ok.mp htitle
  rw [run_mapError_eq_ok] at hok hok'
  have horder : (order pin.respond "SETTITLE GravelBox".toList).run s' = .ok () c' :=
    run_bind_eq_ok.mpr ⟨(), s'', hsay, hok'⟩
  have hs : s = { c with pinentry := some q, unread := pin.greeting q
                         log := c.log ++ [.greeted (pin.greeting q)] } := by
    cases hmodify
    simp only [h.unread, List.nil_append]
  have hgreets : IsResponse s.unread := by
    rw [hs]
    exact pin.greets q
  obtain ⟨r, hrecv, -⟩ := ok_ok_iff.mp hok
  obtain ⟨rfl, -⟩ := recv_response hgreets hrecv
  refine order_inStep pin ⟨rfl, ?_⟩ (by decide) horder
  rw [hs]
  simp only [PinentryConn.received, List.append_assoc, List.singleton_append]
  exact h.lockstep.greeting _

theorem oneLine_confirmSetup {message : Str} (h : '\n' ∉ message) :
    ∀ cmd ∈ confirmSetup message ++ ["CONFIRM".toList], '\n' ∉ cmd := by
  have hdesc : '\n' ∉ "SETDESC ".toList ++ message := List.not_mem_append (by decide) h
  simp only [confirmSetup, List.cons_append, List.nil_append, List.forall_mem_cons]
  exact ⟨hdesc, by decide, by decide, by decide, List.forall_mem_nil _⟩

theorem oneLine_getpinSetup {message prompt error : Str} (hm : '\n' ∉ message)
    (hp : '\n' ∉ prompt) (he : '\n' ∉ error) :
    ∀ cmd ∈ getpinSetup message prompt error ++ ["GETPIN".toList], '\n' ∉ cmd := by
  have hdesc : '\n' ∉ "SETDESC ".toList ++ message := List.not_mem_append (by decide) hm
  have hprompt : '\n' ∉ "SETPROMPT ".toList ++ prompt := List.not_mem_append (by decide) hp
  have herror : '\n' ∉ "SETERROR ".toList ++ error := List.not_mem_append (by decide) he
  unfold getpinSetup
  split
  · simp only [List.cons_append, List.nil_append, List.forall_mem_cons]
    exact ⟨hdesc, hprompt, by decide, by decide, herror, by decide, List.forall_mem_nil _⟩
  · simp only [List.cons_append, List.nil_append, List.forall_mem_cons]
    exact ⟨hdesc, hprompt, by decide, by decide, by decide,
      List.forall_mem_nil _⟩

theorem dialogue_inStep {α : Type} {yes : Response → α} {no a : α} {setup : List Str}
    {question : Str} {c c' : PinentryConn ρ} (h : InStep c)
    (hcmds : ∀ cmd ∈ setup ++ [question], '\n' ∉ cmd)
    (hrun : (inquire pin.respond setup question >>= conclude yes no).run c = .ok a c') :
    InStep c' := by
  obtain ⟨r, s, hinq, hend⟩ := run_bind_eq_ok.mp hrun
  obtain ⟨rfl, -⟩ := conclude_ok_iff.mp hend
  obtain ⟨q, hconv, -⟩ := inquire_lockstep pin setup question h.unread hcmds hinq
  exact hconv.inStep pin h.lockstep

/-- **The step lemma.**  Every operation that returns leaves the connection in step. -/
theorem perform_inStep {c c' : PinentryConn ρ} {l : Op ρ × Returned} (h : InStep c)
    (hstep : OpStep pin c l c') : InStep c' := by
  obtain ⟨op, ret⟩ := l
  obtain ⟨hline, hrun⟩ := hstep
  cases op with
  | «open» q =>
    obtain ⟨⟨⟩, hopen, -⟩ := run_map_eq_ok.mp hrun
    exact open_inStep pin h hopen
  | confirm message =>
    obtain ⟨b, hconfirm, -⟩ := run_map_eq_ok.mp hrun
    rw [confirm_eq] at hconfirm
    exact dialogue_inStep pin h (oneLine_confirmSetup hline) hconfirm
  | getpin message prompt error =>
    obtain ⟨p, hgetpin, -⟩ := run_map_eq_ok.mp hrun
    rw [getpin_eq] at hgetpin
    obtain ⟨hm, hp, he⟩ := hline
    exact dialogue_inStep pin h (oneLine_getpinSetup hm hp he) hgetpin
  | close =>
    obtain ⟨⟨⟩, hclose, -⟩ := run_map_eq_ok.mp hrun
    exact order_inStep pin h (by decide) hclose

/-! ## 5. The answer to one's own question -/

/-- The responses that a pinentry in state `q` gives to the commands of a `confirm`. -/
def Pinentry.confirmReplies (q : ρ) (message : Str) : List (List Str) :=
  pin.replies q (confirmSetup message ++ ["CONFIRM".toList])

/-- Response number `i` ends in an `OK` line. -/
def OkReply (replies : List (List Str)) (i : Nat) : Prop :=
  ∃ reply, replies[i]? = some reply ∧ isOk (answerOf reply) = true

/-- What a `confirm` returned is what the user answered to its own question: pinentry took
the text and the names of the buttons, and the value is `true` exactly if `CONFIRM` was
answered with `OK`. -/
def Truthful (c : PinentryConn ρ) : Op ρ × Returned → Prop
  | (.confirm message, .confirmed b) =>
    ∃ q, c.pinentry = some q ∧ (∀ i < 3, OkReply (pin.confirmReplies q message) i) ∧
      (b = true ↔ OkReply (pin.confirmReplies q message) 3)
  | _ => True

/-- None of the responses to a `confirm` is an `ERR` line that is taken for a success. -/
def NoneVanishes (c : PinentryConn ρ) : Op ρ × Returned → Prop
  | (.confirm message, _) =>
    ∀ q, c.pinentry = some q → ∀ i reply, (pin.confirmReplies q message)[i]? = some reply →
      vanishes (c.junk i) (answerOf reply) = false
  | _ => True

theorem length_replies (q : ρ) (cmds : List Str) : (pin.replies q cmds).length = cmds.length := by
  induction cmds generalizing q with
  | nil => rfl
  | cons cmd cmds ih => simp only [Pinentry.replies, List.length_cons, ih]

/-- A response that passes ends in `OK`, if it does not vanish. -/
theorem okReply_of_passes {junk : Nat → BitVec 32} {replies : List (List Str)} {i : Nat}
    (hi : i < replies.length) (hpass : PassesAt junk replies i)
    (hno : ∀ reply, replies[i]? = some reply → vanishes (junk i) (answerOf reply) = false) :
    OkReply replies i := by
  have hreply := List.getElem?_eq_getElem hi
  refine ⟨replies[i], hreply, ?_⟩
  rcases hpass _ hreply with hok | hvanish
  · exact hok
  · rw [hno _ hreply] at hvanish
    cases hvanish

/-- A response that ends in `OK` passes, and does not vanish. -/
theorem OkReply.passes {replies : List (List Str)} {i : Nat} (h : OkReply replies i)
    (junk : Nat → BitVec 32) : PassesAt junk replies i ∧
      ∀ reply, replies[i]? = some reply → vanishes (junk i) (answerOf reply) = false := by
  obtain ⟨reply, hreply, hok⟩ := h
  constructor
  · intro reply' hreply'
    obtain rfl := Option.some.inj (hreply.symm.trans hreply')
    exact .inl hok
  · intro reply' hreply'
    obtain rfl := Option.some.inj (hreply.symm.trans hreply')
    exact not_vanishes_of_isOk hok

/-- A dialogue of four commands, of which the first three passed, and of which the value says
whether the last one did. -/
theorem answered_truly_iff {junk : Nat → BitVec 32} {replies : List (List Str)} {b : Bool}
    (hlen : replies.length = 4) (hbefore : ∀ i < 3, PassesAt junk replies i)
    (hb : b = true ↔ PassesAt junk replies 3) :
    ((∀ i < 3, OkReply replies i) ∧ (b = true ↔ OkReply replies 3)) ↔
      ∀ i reply, replies[i]? = some reply → vanishes (junk i) (answerOf reply) = false := by
  rw [hb]
  constructor
  · rintro ⟨hsetup, hquestion⟩ i reply hreply
    have hi := (List.getElem?_eq_some_iff.mp hreply).1
    rw [hlen] at hi
    rcases Nat.lt_succ_iff_lt_or_eq.mp hi with hi | rfl
    · exact ((hsetup i hi).passes junk).2 reply hreply
    · rw [Bool.eq_false_iff]
      intro hvanish
      -- a response that vanishes passes
      have hpass : PassesAt junk replies 3 := by
        intro reply' hreply'
        obtain rfl := Option.some.inj (hreply.symm.trans hreply')
        exact .inr hvanish
      have hok := hquestion.mp hpass
      rw [(hok.passes junk).2 reply hreply] at hvanish
      cases hvanish
  · intro hno
    refine ⟨?_, ?_⟩
    · intro i hi
      exact okReply_of_passes (by omega) (hbefore i hi) (hno i)
    · constructor
      · intro hpass
        exact okReply_of_passes (by omega) hpass (hno 3)
      · intro hok
        exact (hok.passes junk).1

/-- One `confirm` in step is truthful if and only if no `ERR` line vanishes in it. -/
theorem truthful_iff {c c' : PinentryConn ρ} {l : Op ρ × Returned} (h : InStep c)
    (hstep : OpStep pin c l c') : Truthful pin c l ↔ NoneVanishes pin c l := by
  obtain ⟨op, ret⟩ := l
  obtain ⟨hline, hrun⟩ := hstep
  cases op with
  | «open» q => exact ⟨fun _ => trivial, fun _ => trivial⟩
  | getpin message prompt error => exact ⟨fun _ => trivial, fun _ => trivial⟩
  | close => exact ⟨fun _ => trivial, fun _ => trivial⟩
  | confirm message =>
    obtain ⟨b, hconfirm, rfl⟩ := run_map_eq_ok.mp hrun
    rw [confirm_eq] at hconfirm
    obtain ⟨r, s, hinq, hend⟩ := run_bind_eq_ok.mp hconfirm
    obtain ⟨q, hconv, hbefore, hlast⟩ :=
      inquire_lockstep pin _ _ h.unread (oneLine_confirmSetup hline) hinq
    have hb : b = true ↔ r.success = true := by
      obtain ⟨-, ⟨hr, rfl⟩ | ⟨hr, -, rfl⟩⟩ := conclude_ok_iff.mp hend
      · rw [hr]
      · rw [hr]
    rw [hlast] at hb
    have hlen : (pin.confirmReplies q message).length = 4 := length_replies pin q _
    have htruly := answered_truly_iff hlen hbefore hb
    constructor
    · rintro ⟨q', hq', hanswers⟩ q'' hq''
      obtain rfl : q = q' := Option.some.inj (hconv.pinentry.symm.trans hq')
      obtain rfl : q = q'' := Option.some.inj (hconv.pinentry.symm.trans hq'')
      exact htruly.mp hanswers
    · intro hno
      exact ⟨q, hconv.pinentry, htruly.mpr (hno q hconv.pinentry)⟩

/-- **Lockstep.**  The text of a call is printable outside its name, so that asking about it
takes one line for each command.  In every run of operations on one-line texts, whatever a
pinentry that gives one response to each line responds, each `recv` reads the response to
the command just written and nothing is unread between operations.  And every `confirm` of
the run returns the answer to its own question if and only if in none of them an `ERR` line
was taken for a success. -/
theorem lockstep_iff (junk : Nat → BitVec 32) {tr : List (PinentryConn ρ × (Op ρ × Returned))}
    {c : PinentryConn ρ} (hrun : Run (OpStep pin) (PinentryConn.new junk) tr c) :
    (∀ (p : Parser) (ndebug : Bool) (args : SyscallArgs) (w w' : World) (s : Str),
      (p.call ndebug args).run w = .ok s w' →
        (∃ body, s = p.fname args ++ body ∧ Printable body) ∧
          (p.NamesOneLine → (Op.ask s : Op ρ).OneLine)) ∧
    Always InStep tr c ∧
    (Guarded (Truthful pin) tr ↔ Guarded (NoneVanishes pin) tr) := by
  have hstart : InStep (PinentryConn.new junk : PinentryConn ρ) := ⟨rfl, .nil⟩
  have halways : Always InStep tr c :=
    hrun.invariant hstart fun _ _ _ h hstep => perform_inStep pin h hstep
  refine ⟨?_, halways, ?_⟩
  · intro p ndebug args w w' s hcall
    obtain ⟨rfl, -⟩ := (p.call_spec ndebug args w).of_ok hcall
    refine ⟨text_printable p _ args, fun hp => ?_⟩
    exact List.not_mem_append (by decide) (text_oneLine hp _ args)
  · have hpoint : ∀ e ∈ tr, Truthful pin e.1 e.2 ↔ NoneVanishes pin e.1 e.2 := by
      intro e he
      obtain ⟨c', hstep⟩ := hrun.step_of_mem he
      exact truthful_iff pin (halways.1 e he) hstep
    constructor
    · intro h e he
      exact (hpoint e he).mp (h e he)
    · intro h e he
      exact (hpoint e he).mpr (h e he)

/-- A pinentry without a user: it answers `CONFIRM` with `verdict` and all else with `OK`. -/
def automaton (verdict : Str) (h : isOk verdict = true ∨ isErr verdict = true) :
    Pinentry Unit where
  greeting _ := ["OK Pleased to meet you".toList]
  respond q line := (q, [if line = "CONFIRM".toList then verdict else "OK".toList])
  greets _ := ⟨List.cons_ne_nil _ _, nofun, .inl rfl⟩
  responds _ line := by
    refine ⟨List.cons_ne_nil _ _, nofun, ?_⟩
    by_cases hline : line = "CONFIRM".toList
    · rw [if_pos hline]
      exact h
    · rw [if_neg hline]
      exact .inl rfl

/-- A user who allows a call. -/
def allowing : Pinentry Unit := automaton "OK".toList (.inl rfl)

/-- A user who does not, reported with an error code of 0. -/
def refusing : Pinentry Unit := automaton "ERR 0 Not confirmed".toList (.inr rfl)

/-- The connection to either, opened. -/
def opened : PinentryConn Unit :=
  { pinentry := some ()
    unread := []
    junk := fun _ => 0
    log := [.greeted ["OK Pleased to meet you".toList], .read ["OK Pleased to meet you".toList],
      .wrote ["SETTITLE GravelBox".toList] ["OK".toList], .read ["OK".toList]] }

theorem ask_oneLine : (Op.ask "read()".toList : Op Unit).OneLine := by
  show '\n' ∉ "Do you allow the following system call?%0a%0a".toList ++ "read()".toList
  decide

/-- Where the answers are `OK`, the user is understood. -/
theorem allowing_lockstep :
    ∃ tr c, Run (OpStep allowing) (PinentryConn.new fun _ => 0) tr c ∧
      tr.map Prod.snd = [(.open (), .done), (.ask "read()".toList, .confirmed true)] ∧
      Always InStep tr c ∧ Guarded (Truthful allowing) tr := by
  have hopen : OpStep allowing (PinentryConn.new fun _ => 0) (.open (), .done) opened :=
    ⟨trivial, rfl⟩
  have hask : OpStep allowing opened (.ask "read()".toList, .confirmed true) _ :=
    ⟨ask_oneLine, rfl⟩
  have hrun := (Run.nil.snoc hopen).snoc hask
  obtain ⟨-, halways, htruthful⟩ := lockstep_iff allowing _ hrun
  refine ⟨_, _, hrun, rfl, halways, htruthful.mpr ?_⟩
  rw [guarded_snoc, guarded_snoc]
  refine ⟨⟨guarded_nil, trivial⟩, ?_⟩
  intro q _ i reply hreply
  have hmem := List.mem_of_getElem? hreply
  have hok : ∀ reply ∈ allowing.confirmReplies ()
      ("Do you allow the following system call?%0a%0a".toList ++ "read()".toList),
        vanishes 0 (answerOf reply) = false := by decide
  exact hok reply hmem

/-- The call is allowed although `CONFIRM` was answered with an `ERR` line. -/
theorem refusing_misunderstood :
    ∃ tr c, Run (OpStep refusing) (PinentryConn.new fun _ => 0) tr c ∧
      tr.map Prod.snd = [(.open (), .done), (.ask "read()".toList, .confirmed true)] ∧
      ¬ Guarded (Truthful refusing) tr := by
  have hopen : OpStep refusing (PinentryConn.new fun _ => 0) (.open (), .done) opened :=
    ⟨trivial, rfl⟩
  have hask : OpStep refusing opened (.ask "read()".toList, .confirmed true) _ :=
    ⟨ask_oneLine, rfl⟩
  have hrun := (Run.nil.snoc hopen).snoc hask
  refine ⟨_, _, hrun, rfl, ?_⟩
  rw [guarded_snoc]
  rintro ⟨-, q, -, -, hquestion⟩
  obtain ⟨reply, hreply, hok⟩ := hquestion.mp rfl
  obtain rfl : ["ERR 0 Not confirmed".toList] = reply := Option.some.inj hreply
  exact absurd hok (by decide)

end GravelBox
