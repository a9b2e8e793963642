/-
# What a configuration says about its document

A configuration that was read (`config/file_config.cpp`, lines 27 to 104) is related to the
document it was read from, member by member (`read_spec`), and the action it gives a call is the
one the document lists: that of the earliest group with a pattern that matches, or the default
(`getAction_iff`).

This is the step from the constructor, which is a program with a dozen places to fail in, to a
relation between two values.  Everything that is proved later about decisions goes through it:
`Says` is about the document alone, and does not mention the configuration, its vectors or the
order in which they were filled.  The same goes for the password hash (`SaysHash`), which the
document has in hexadecimal and the configuration as bytes.

The search of `get_action` is a loop in a loop that returns from the inner one.  So what a group
says depends on the groups before it, but only through whether one of them matches
(`findAction_later`), and not on the order of the patterns in it (`findAction_perm`).

Not claimed: that a document which is not accepted is wrong in any other sense.  And what a member
"is" goes by the conversions of the library, so a number can be a pattern, and a group without an
action is refused only because the empty string is no action.
-/
import GravelBox.Config.FileConfig
import GravelBox.Lib.Fallible

namespace GravelBox

open Fallible

variable {Re : Type} (lib : Libraries Re)

/-! ## 1. Reading, member by member -/

/-- The member `key` of `value` is read as the string `s`. -/
def HasString (value : Json) (key : String) (s : Str) : Prop :=
  stringMember lib key value = .ok s

theorem hasString_of_member {value v : Json} {key : String} {s : Str}
    (hv : value.memberOrNull key.toList = some v) (hs : v.textOf = some s) :
    HasString lib value key s :=
  bind_eq_ok.mpr ⟨v, (get_ok_iff lib.toJsonCpp).mpr hv, (asString_ok_iff lib.toJsonCpp).mpr hs⟩

/-- The member `key` of `value` is the array `elements`. -/
def HasArray (value : Json) (key : String) (elements : List Json) : Prop :=
  value.get lib.toJsonCpp key.toList = .ok (.array elements)

/-- `c` was read from `doc`, which was parsed from the bytes of the file at `path`. -/
structure ReadFrom (files : Str → Option Str) (path : Str) (c : FileConfig Re) (doc : Json) :
    Prop where
  file : files path = some c.config
  parse : lib.parse c.config = .ok doc
  signature : HasString lib doc "signature" c.signature
  password : ∃ hex, HasString lib doc "password" hex ∧ hex2bytes path hex = .ok c.passwordHash
  hashSize : c.passwordHash = [] ∨ c.passwordHash.length = kHashSize
  syscalldef : HasString lib doc "syscall-definition" c.syscalldef
  pinentry : HasString lib doc "pinentry" c.pinentry
  maxStrLen : ∃ n, doc.get lib.toJsonCpp "max-string-length".toList = .ok n ∧
    n.asUInt64 lib.toJsonCpp = .ok c.maxStrLen
  actionDefault : ∃ s, HasString lib doc "default-action" s ∧ toAction path s = .ok c.actionDefault
  actionGroups : ∃ elements, HasArray lib doc "action-groups" elements ∧
    List.Forall₂ (fun ag g => readGroup lib path ag = .ok g) elements c.actionGroups

/-- An assertion of the constructor that held. -/
theorem sanitize_eq_ok {path : Str} {assertion : Bool} {details : String} {u : Unit} :
    sanitize path assertion details = .ok u ↔ assertion = true := by
  unfold sanitize
  cases assertion with
  | false => simp [configError]
  | true => simp

/-- A value that is an array is the array of its elements. -/
theorem eq_array_of_isArray {value : Json} (h : value.isArray = true) :
    value = .array value.elements := by
  cases value with
  | array elements => rfl
  | null | int | uint | real | string | boolean | object => cases h

/-- The constructor catches two kinds of exception, and throws others for them. -/
theorem tryRead_of_read {files : Str → Option Str} {path : Str} {c : FileConfig Re}
    (h : FileConfig.read lib files path = .ok c) : FileConfig.tryRead lib files path = .ok c := by
  unfold FileConfig.read at h
  split at h
  · cases h
  · cases h
  · exact h

theorem readBytes_eq_ok {files : Str → Option Str} {path bytes : Str} :
    readBytes files path = .ok bytes ↔ files path = some bytes := by
  unfold readBytes
  cases files path with
  | none => simp [configError]
  | some b => simp

theorem checkHash_eq_ok {path hash : Str} {u : Unit} :
    checkHash path hash = .ok u ↔ hash = [] ∨ hash.length = kHashSize := by
  unfold checkHash
  by_cases hnil : hash = []
  · rw [if_neg (not_not.mpr hnil)]
    exact ⟨fun _ => .inl hnil, fun _ => rfl⟩
  · rw [if_pos hnil, sanitize_eq_ok, decide_eq_true_eq, or_iff_right hnil]

/-- **Reading a configuration.**  Every member is the one of that name in the document. -/
theorem read_spec {files : Str → Option Str} {path : Str} {c : FileConfig Re}
    (h : FileConfig.read lib files path = .ok c) : ∃ doc, ReadFrom lib files path c doc := by
  have htry := tryRead_of_read lib h
  simp only [FileConfig.tryRead, bind_eq_ok, sanitize_eq_ok, checkHash_eq_ok,
    readBytes_eq_ok, mapM_eq_ok] at htry
  obtain ⟨bytes, hbytes, doc, hdoc, -, -, signature, hsig, hex, hhex, hash, hhash, -, hsize,
    def', hdef, pin, hpin, len, hlen, n, hn, act, hact, a, ha, groups, hgroups, -, harray,
    gs, hgs, hc⟩ := htry
  cases hc
  rw [eq_array_of_isArray harray] at hgroups
  exact ⟨doc,
    { file := hbytes
      parse := mapError_eq_ok.mp hdoc
      signature := hsig
      password := ⟨hex, hhex, hhash⟩
      hashSize := hsize
      syscalldef := hdef
      pinentry := hpin
      maxStrLen := ⟨len, hlen, hn⟩
      actionDefault := ⟨act, hact, ha⟩
      actionGroups := ⟨groups.elements, hgroups, hgs⟩ }⟩

/-- The document has the password hash `hash`, none or one of 64 bytes: it is what the member
`password` stands for. -/
structure SaysHash (path : Str) (doc : Json) (hash : Str) : Prop where
  password : ∃ hex, HasString lib doc "password" hex ∧ hex2bytes path hex = .ok hash
  size : hash = [] ∨ hash.length = kHashSize

/-- The hash that is read is the one that the document has. -/
theorem ReadFrom.saysHash_iff {files : Str → Option Str} {path : Str} {c : FileConfig Re}
    {doc : Json} (h : ReadFrom lib files path c doc) {hash : Str} :
    SaysHash lib path doc hash ↔ hash = c.passwordHash := by
  constructor
  · rintro ⟨⟨hex, hhex, hhash⟩, -⟩
    obtain ⟨hex', hhex', hhash'⟩ := h.password
    obtain rfl : hex = hex' := Except.ok.inj (hhex.symm.trans hhex')
    exact Except.ok.inj (hhash.symm.trans hhash')
  · rintro rfl
    exact ⟨h.password, h.hashSize⟩

/-! ## 2. The action of a call -/

/-- The name of an action in a document. -/
def Action.name : Action → Str
  | .allow => "allow".toList
  | .ask => "ask".toList
  | .deny => "deny".toList

theorem Action.name_injective {a b : Action} (h : a.name = b.name) : a = b := by
  revert h
  cases a <;> cases b <;> decide

theorem name_of_toAction {path s : Str} {a : Action} (h : toAction path s = .ok a) :
    s = a.name := by
  unfold toAction at h
  split at h
  · rename_i hs
    cases h
    exact hs
  · split at h
    · rename_i hs
      cases h
      exact hs
    · split at h
      · rename_i hs
        cases h
        exact hs
      · cases h

/-- The element `ag` of the action groups has a pattern that matches all of `s`. -/
def GroupMatches (ag : Json) (s : Str) : Prop :=
  ∃ patterns p text r, HasArray lib ag "patterns" patterns ∧ p ∈ patterns ∧
    p.asString lib.toJsonCpp = .ok text ∧ lib.compile text = .ok r ∧ lib.fullMatch r s = true

/-- `a` is what `doc` says of the text `s`: the action of the earliest group that matches,
or the default where none does. -/
def Says (doc : Json) (s : Str) (a : Action) : Prop :=
  ∃ elements, HasArray lib doc "action-groups" elements ∧
    ((∃ pre ag post, elements = pre ++ ag :: post ∧ (∀ g ∈ pre, ¬ GroupMatches lib g s) ∧
        GroupMatches lib ag s ∧ HasString lib ag "action" a.name) ∨
      ((∀ g ∈ elements, ¬ GroupMatches lib g s) ∧ HasString lib doc "default-action" a.name))

/-- A group that was read has the action and the patterns of its element. -/
theorem readGroup_spec {path : Str} {ag : Json} {g : ActionGroup Re}
    (h : readGroup lib path ag = .ok g) :
    HasString lib ag "action" g.action.name ∧
      ∀ s, (g.patterns.any fun r => lib.fullMatch r s) = true ↔ GroupMatches lib ag s := by
  simp only [readGroup, bind_eq_ok, sanitize_eq_ok, mapM_eq_ok] at h
  obtain ⟨act, hact, a, ha, ps, hps, -, harray, rs, hrs, hg⟩ := h
  cases hg
  obtain rfl := name_of_toAction ha
  rw [eq_array_of_isArray harray] at hps
  refine ⟨hact, fun s => ?_⟩
  rw [any_eq_true_iff hrs]
  constructor
  · rintro ⟨p, hp, r, hread, hmatch⟩
    obtain ⟨text, htext, hcompile⟩ := bind_eq_ok.mp hread
    exact ⟨ps.elements, p, text, r, hps, hp, htext, mapError_eq_ok.mp hcompile, hmatch⟩
  · rintro ⟨ps', p, text, r, hps', hp, htext, hcompile, hmatch⟩
    obtain rfl : ps.elements = ps' := Json.array.inj (Except.ok.inj (hps.symm.trans hps'))
    exact ⟨p, hp, r, bind_eq_ok.mpr ⟨text, htext, mapError_eq_ok.mpr hcompile⟩, hmatch⟩

/-- The search over the groups of a document and over those that were read from it. -/
theorem findAction_spec {path : Str} {elements : List Json} {groups : List (ActionGroup Re)}
    (h : List.Forall₂ (fun ag g => readGroup lib path ag = .ok g) elements groups) (s : Str)
    (d : Action) :
    (∃ pre ag post, elements = pre ++ ag :: post ∧ (∀ g ∈ pre, ¬ GroupMatches lib g s) ∧
        GroupMatches lib ag s ∧ HasString lib ag "action" (findAction lib s d groups).name) ∨
      ((∀ g ∈ elements, ¬ GroupMatches lib g s) ∧ findAction lib s d groups = d) := by
  induction h with
  | nil => exact .inr ⟨nofun, rfl⟩
  | @cons ag g elements groups hread _ ih =>
    obtain ⟨haction, hmatches⟩ := readGroup_spec lib hread
    unfold findAction
    by_cases hm : (g.patterns.any fun r => lib.fullMatch r s) = true
    · rw [if_pos hm]
      exact .inl ⟨[], ag, elements, rfl, nofun, (hmatches s).mp hm, haction⟩
    · rw [if_neg hm]
      have hno : ¬ GroupMatches lib ag s := fun h => hm ((hmatches s).mpr h)
      rcases ih with ⟨pre, ag', post, rfl, hpre, hag', haction'⟩ | ⟨hall, hdefault⟩
      · exact .inl ⟨ag :: pre, ag', post, rfl, List.forall_mem_cons.mpr ⟨hno, hpre⟩, hag',
          haction'⟩
      · exact .inr ⟨List.forall_mem_cons.mpr ⟨hno, hall⟩, hdefault⟩

/-- The document says the action that the configuration gives. -/
theorem says_getAction {files : Str → Option Str} {path : Str} {c : FileConfig Re} {doc : Json}
    (h : ReadFrom lib files path c doc) (s : Str) : Says lib doc s (c.getAction lib s) := by
  obtain ⟨elements, hgroups, hread⟩ := h.actionGroups
  refine ⟨elements, hgroups, ?_⟩
  rcases findAction_spec lib hread s c.actionDefault with hfirst | ⟨hall, hdefault⟩
  · exact .inl hfirst
  · obtain ⟨act, hact, ha⟩ := h.actionDefault
    obtain rfl := name_of_toAction ha
    refine .inr ⟨hall, ?_⟩
    rw [FileConfig.getAction, hdefault]
    exact hact

/-- The earliest element with some property is the same, however the list is split. -/
theorem first_unique {α : Type} {P : α → Prop} {pre pre' post post' : List α} {a a' : α}
    (h : pre ++ a :: post = pre' ++ a' :: post') (hpre : ∀ x ∈ pre, ¬ P x)
    (hpre' : ∀ x ∈ pre', ¬ P x) (ha : P a) (ha' : P a') : a = a' := by
  induction pre generalizing pre' with
  | nil =>
    cases pre' with
    | nil => exact (List.cons.inj h).1
    | cons x pre' =>
      obtain rfl := (List.cons.inj h).1
      exact absurd ha (hpre' a List.mem_cons_self)
  | cons x pre ih =>
    cases pre' with
    | nil =>
      obtain rfl := (List.cons.inj h).1
      exact absurd ha' (hpre x List.mem_cons_self)
    | cons y pre' =>
      exact ih (List.cons.inj h).2 (fun z hz => hpre z (List.mem_cons_of_mem x hz))
        (fun z hz => hpre' z (List.mem_cons_of_mem y hz))

/-- A document says one action of a text. -/
theorem Says.unique {doc : Json} {s : Str} {a b : Action} (ha : Says lib doc s a)
    (hb : Says lib doc s b) : a = b := by
  obtain ⟨elements, hgroups, ha⟩ := ha
  obtain ⟨elements', hgroups', hb⟩ := hb
  obtain rfl : elements = elements' :=
    Json.array.inj (Except.ok.inj (hgroups.symm.trans hgroups'))
  apply Action.name_injective
  rcases ha with ⟨pre, ag, post, rfl, hpre, hag, ha⟩ | ⟨hall, ha⟩
  · rcases hb with ⟨pre', ag', post', hsplit, hpre', hag', hb⟩ | ⟨hall, -⟩
    · obtain rfl : ag = ag' := first_unique hsplit hpre hpre' hag hag'
      exact Except.ok.inj (ha.symm.trans hb)
    · exact absurd hag (hall ag (by simp))
  · rcases hb with ⟨pre, ag, post, rfl, -, hag, -⟩ | ⟨-, hb⟩
    · exact absurd hag (hall ag (by simp))
    · exact Except.ok.inj (ha.symm.trans hb)

/-- **The action of a call** is the one the document says. -/
theorem getAction_iff {files : Str → Option Str} {path : Str} {c : FileConfig Re} {doc : Json}
    (h : ReadFrom lib files path c doc) {s : Str} {a : Action} :
    c.getAction lib s = a ↔ Says lib doc s a := by
  constructor
  · rintro rfl
    exact says_getAction lib h s
  · intro hsays
    exact (says_getAction lib h s).unique lib hsays

/-! ## 3. What the action does not depend on -/

/-- Groups after one that matches. -/
theorem findAction_later {s : Str} {d : Action} {g : ActionGroup Re}
    (h : (g.patterns.any fun r => lib.fullMatch r s) = true)
    (pre post post' : List (ActionGroup Re)) :
    findAction lib s d (pre ++ g :: post) = findAction lib s d (pre ++ g :: post') := by
  induction pre with
  | nil => simp only [List.nil_append, findAction, if_pos h]
  | cons g' pre ih => simp only [List.cons_append, findAction, ih]

/-- The same groups with their patterns in another order. -/
def SamePatterns (groups groups' : List (ActionGroup Re)) : Prop :=
  List.Forall₂ (fun g g' => g.action = g'.action ∧ g.patterns.Perm g'.patterns) groups groups'

theorem findAction_perm {s : Str} {d : Action} {groups groups' : List (ActionGroup Re)}
    (h : SamePatterns groups groups') : findAction lib s d groups = findAction lib s d groups' := by
  induction h with
  | nil => rfl
  | @cons g g' groups groups' hg _ ih =>
    obtain ⟨haction, hperm⟩ := hg
    simp only [findAction, hperm.any_eq, haction, ih]

end GravelBox
