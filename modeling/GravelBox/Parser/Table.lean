/-
# The table and the document it was loaded from

`Parser::Parser` (`parser/parser.cpp`, lines 20 to 56) checks that an element of the definition list
is an object, that its parameters are an array of known types, and that no other element has its
number.  The number and the name go through the conversions of the library, which turn a member that
is missing, and some that are no number or no string, into a value.

`load_ok` and `exists_load` say what is loaded, in terms of these conversions; what is not
loaded is a `ConfigException` (`load_error`).  The table is in bijection with what the elements
themselves state if and only if every element is explicit (`loadsAsStated_iff`).

What an element states is a notion of its own, beside what it is read as (`ReadsAs`): it needs a
number that is an unsigned integer and a name that is a string.  So an element with no name is
loaded, under the empty name, though it states no definition (`unnamed_accepted`), and one with no
number is loaded as call number 0.

What makes this hard is that the loop can stop in the middle.  A table that was loaded is the result
of a fold in which every step succeeded, and a step may fail for what the steps before it put into
the table; that part is general (`Lib/Entries.lean`), and what is left is about one element.

Not claimed: that the definitions are the kernel's.  What the numbers mean is up to whoever wrote
the file.
-/
import GravelBox.Parser.Accepted
import GravelBox.Lib.Entries

namespace GravelBox

open Fallible Entries

variable (lib : JsonCpp)

/-! ## 1. What an element is read as -/

/-- `s` is the name of the type `ty`. -/
def TypeNamed (s : Str) (ty : ArgType) : Prop := argtypes.lookup s = some ty

/-- The element is converted to the number, and to the name and the types of `d`. -/
structure ReadsAs (syscall : Json) (number : BitVec 64) (d : SyscallDef) : Prop where
  object : syscall.isObject = true
  number : ∃ v, syscall.get lib "number".toList = .ok v ∧ v.asUInt64 lib = .ok number
  name : ∃ v, syscall.get lib "name".toList = .ok v ∧ v.asString lib = .ok d.fname
  params : ∃ v, syscall.get lib "params".toList = .ok v ∧ v.isArray = true ∧
    List.Forall₂ (fun param ty => ∃ s, param.asString lib = .ok s ∧ TypeNamed s ty)
      v.elements d.argtypes

/-- `readDefinition`, but for the table. -/
def definitionOf (path : Str) (syscall : Json) : Except Fault (BitVec 64 × SyscallDef) := do
  sanitizeDefinition path syscall.isObject "syscall definition is not an object".toList
  let number ← (← syscall.get lib "number".toList).asUInt64 lib
  let name ← (← syscall.get lib "name".toList).asString lib
  let params ← syscall.get lib "params".toList
  sanitizeDefinition path params.isArray "parameter definition is not an array".toList
  let types ← params.elements.mapM (readParam lib path)
  return (number, { fname := name, argtypes := types })

/-- The exception for a number that is in the table already. -/
def duplicateNumber (path : Str) (number : BitVec 64) : Fault :=
  .configException path "syscall definition".toList
    ("duplicate syscall number ".toList ++ Nat.toDigits 10 number.toNat)

/-- One turn of the loop adds one definition. -/
theorem readDefinition_eq_add (path : Str) :
    readDefinition lib path = add (definitionOf lib path) (duplicateNumber path) := by
  funext table syscall
  simp only [readDefinition, add, definitionOf, bind_assoc, pure_bind]
  refine bind_congr fun _ => bind_congr fun _ => bind_congr fun number => ?_
  refine bind_congr fun _ => bind_congr fun _ => bind_congr fun _ => ?_
  refine bind_congr fun _ => bind_congr fun _ => ?_
  cases table.lookup number with
  | none => rfl
  | some d => rfl

theorem readParam_eq_ok {path : Str} {param : Json} {ty : ArgType} :
    readParam lib path param = .ok ty ↔ ∃ s, param.asString lib = .ok s ∧ TypeNamed s ty := by
  unfold readParam TypeNamed
  rw [bind_eq_ok]
  refine exists_congr fun s => and_congr_right fun _ => ?_
  cases argtypes.lookup s with
  | none => simp [definitionError]
  | some ty' => simp [pure, Except.pure]

theorem definitionOf_eq_ok {path : Str} {syscall : Json} {number : BitVec 64} {d : SyscallDef} :
    definitionOf lib path syscall = .ok (number, d) ↔ ReadsAs lib syscall number d := by
  simp only [definitionOf, bind_eq_ok, sanitizeDefinition_eq_ok, mapM_eq_ok, readParam_eq_ok]
  constructor
  · rintro ⟨-, hobject, v, hv, n, hn, w, hw, name, hname, ps, hps, -, harray, types, htypes, hd⟩
    cases hd
    exact ⟨hobject, ⟨v, hv, hn⟩, ⟨w, hw, hname⟩, ⟨ps, hps, harray, htypes⟩⟩
  · rintro ⟨hobject, ⟨v, hv, hn⟩, ⟨w, hw, hname⟩, ⟨ps, hps, harray, htypes⟩⟩
    exact ⟨⟨⟩, hobject, v, hv, number, hn, w, hw, d.fname, hname, ps, hps, ⟨⟩, harray, d.argtypes,
      htypes, rfl⟩

/-! ## 2. What is loaded -/

/-- The file at `path` is the document `doc`. -/
def DocumentAt (files : Str → Option Str) (path : Str) (doc : Json) : Prop :=
  ∃ bytes, files path = some bytes ∧ lib.parse bytes = .ok doc

theorem DocumentAt.unique {files : Str → Option Str} {path : Str} {doc doc' : Json}
    (h : DocumentAt lib files path doc) (h' : DocumentAt lib files path doc') : doc = doc' := by
  obtain ⟨bytes, hfile, hdoc⟩ := h
  obtain ⟨bytes', hfile', hdoc'⟩ := h'
  obtain rfl : bytes = bytes' := Option.some.inj (hfile.symm.trans hfile')
  exact Except.ok.inj (hdoc.symm.trans hdoc')

/-- The elements are converted to these definitions, of which no two have the same number. -/
structure AllRead (elements : List Json) (defs : List (BitVec 64 × SyscallDef)) : Prop where
  read : List.Forall₂ (fun syscall d => ReadsAs lib syscall d.1 d.2) elements defs
  numbers : (defs.map Prod.fst).Nodup

theorem readDefinitionFile_eq_ok {files : Str → Option Str} {path bytes : Str} :
    readDefinitionFile files path = .ok bytes ↔ files path = some bytes := by
  unfold readDefinitionFile
  cases files path with
  | none => simp [definitionError]
  | some b => simp

/-- What the `try` block returns. -/
theorem tryLoad_eq_ok {files : Str → Option Str} {path : Str} {p : Parser} :
    Parser.tryLoad lib files path = .ok p ↔
      ∃ elements, DocumentAt lib files path (.array elements) ∧
        elements.foldlM (add (definitionOf lib path) (duplicateNumber path)) ∅ =
          .ok p.syscallMap ∧ p.target = 0 := by
  simp only [Parser.tryLoad, bind_eq_ok, sanitizeDefinition_eq_ok, readDefinitionFile_eq_ok,
    readDefinition_eq_add]
  constructor
  · rintro ⟨bytes, hfile, doc, hdoc, -, harray, table, htable, hp⟩
    cases hp
    cases doc with
    | array elements => exact ⟨elements, ⟨bytes, hfile, mapError_eq_ok.mp hdoc⟩, htable, rfl⟩
    | null | int | uint | real | string | boolean | object => cases harray
  · rintro ⟨elements, ⟨bytes, hfile, hdoc⟩, htable, htarget⟩
    refine ⟨bytes, hfile, _, mapError_eq_ok.mpr hdoc, ⟨⟩, rfl, p.syscallMap, htable, ?_⟩
    obtain ⟨target, table⟩ := p
    obtain rfl : target = 0 := htarget
    rfl

theorem forall₂_definitionOf (path : Str) {elements : List Json}
    {defs : List (BitVec 64 × SyscallDef)} :
    List.Forall₂ (fun syscall d => definitionOf lib path syscall = .ok d) elements defs ↔
      List.Forall₂ (fun syscall d => ReadsAs lib syscall d.1 d.2) elements defs := by
  have hrel : (fun syscall d => definitionOf lib path syscall = .ok d) =
      fun (syscall : Json) (d : BitVec 64 × SyscallDef) => ReadsAs lib syscall d.1 d.2 := by
    funext syscall d
    exact propext (definitionOf_eq_ok lib)
  rw [hrel]

/-- **What is loaded**: a table that holds the definitions its document is converted to. -/
theorem load_ok {files : Str → Option Str} {path : Str} {p : Parser}
    (h : Parser.load lib files path = .ok p) :
    ∃ elements defs, DocumentAt lib files path (.array elements) ∧ AllRead lib elements defs ∧
      Holds p.syscallMap defs := by
  obtain ⟨elements, hdoc, htable, -⟩ := (tryLoad_eq_ok lib).mp (tryLoad_of_load lib h)
  obtain ⟨defs, hread, hold⟩ := foldlM_add_ok Holds.empty htable
  rw [List.nil_append] at hold
  exact ⟨elements, defs, hdoc, ⟨(forall₂_definitionOf lib path).mp hread, hold.keys⟩, hold⟩

/-- **What can be loaded**: a document whose elements are converted, with different numbers. -/
theorem exists_load {files : Str → Option Str} {path : Str} {elements : List Json}
    {defs : List (BitVec 64 × SyscallDef)} (hdoc : DocumentAt lib files path (.array elements))
    (hread : AllRead lib elements defs) : ∃ p, Parser.load lib files path = .ok p := by
  obtain ⟨table, htable⟩ := exists_foldlM_add (duplicateNumber path)
    ((forall₂_definitionOf lib path).mpr hread.read) Holds.empty hread.numbers
  have htry : Parser.tryLoad lib files path = .ok { target := 0, syscallMap := table } :=
    (tryLoad_eq_ok lib).mpr ⟨elements, hdoc, htable, rfl⟩
  refine ⟨{ target := 0, syscallMap := table }, ?_⟩
  unfold Parser.load
  rw [htry]

/-! ## 3. What is not loaded -/

/-- The exceptions of `error`, in `parser.cpp`, and those of the library. -/
def LoadFailure (path : Str) (f : Fault) : Prop :=
  (∃ details, f = .configException path "syscall definition".toList details) ∨
    ∃ what, f = .jsonException what

theorem failsWith_sanitizeDefinition {path : Str} {assertion : Bool} {details : Str} :
    FailsWith (LoadFailure path) (sanitizeDefinition path assertion details) := by
  unfold sanitizeDefinition
  split
  · exact failsWith_error.mpr (.inl ⟨details, rfl⟩)
  · exact failsWith_ok

/-- A conversion of the library throws nothing else. -/
theorem failsWith_conversion {α : Type} {path : Str} {x : Except Str α} :
    FailsWith (LoadFailure path) (x.mapError .jsonException) := by
  cases x with
  | error what => exact failsWith_error.mpr (.inr ⟨what, rfl⟩)
  | ok a => exact failsWith_ok

theorem failsWith_readParam {path : Str} {param : Json} :
    FailsWith (LoadFailure path) (readParam lib path param) := by
  refine failsWith_conversion.bind fun s => ?_
  split
  · exact failsWith_ok
  · exact failsWith_error.mpr (.inl ⟨_, rfl⟩)

theorem failsWith_readDefinition {path : Str} {table : AList fun _ : BitVec 64 => SyscallDef}
    {syscall : Json} : FailsWith (LoadFailure path) (readDefinition lib path table syscall) := by
  refine failsWith_sanitizeDefinition.bind fun _ => ?_
  refine failsWith_conversion.bind fun _ => failsWith_conversion.bind fun _ => ?_
  refine failsWith_conversion.bind fun _ => failsWith_conversion.bind fun _ => ?_
  refine failsWith_conversion.bind fun params => failsWith_sanitizeDefinition.bind fun _ => ?_
  refine (FailsWith.mapM (fun _ => failsWith_readParam lib) params.elements).bind fun _ => ?_
  exact failsWith_sanitizeDefinition.bind fun _ => failsWith_ok

theorem failsWith_tryLoad {files : Str → Option Str} {path : Str} :
    FailsWith (LoadFailure path) (Parser.tryLoad lib files path) := by
  have hfile : FailsWith (LoadFailure path) (readDefinitionFile files path) := by
    unfold readDefinitionFile
    split
    · exact failsWith_error.mpr (.inl ⟨_, rfl⟩)
    · exact failsWith_ok
  refine hfile.bind fun bytes => failsWith_conversion.bind fun doc => ?_
  refine failsWith_sanitizeDefinition.bind fun _ => ?_
  refine (FailsWith.foldlM (fun _ _ => failsWith_readDefinition lib) doc.elements ∅).bind
    fun _ => ?_
  exact failsWith_ok

/-- **A document that is not loaded** is reported as a `ConfigException`. -/
theorem load_error {files : Str → Option Str} {path : Str} {f : Fault}
    (h : Parser.load lib files path = .error f) :
    ∃ details, f = .configException path "syscall definition".toList details := by
  unfold Parser.load at h
  split at h
  · cases h
    exact ⟨_, rfl⟩
  · rename_i hother
    rcases failsWith_tryLoad lib f h with hconfig | ⟨what, rfl⟩
    · exact hconfig
    · exact absurd h (hother what)

/-! ## 4. What the elements state themselves -/

/-- The member `key` that `value` itself has. -/
def Json.member (value : Json) (key : Str) : Option Json :=
  match value with
  | .object members => members.lookup key
  | _ => none

/-- The unsigned integer that a value is. -/
def Json.unsigned : Json → Option (BitVec 64)
  | .int i => if 0 ≤ i ∧ i ≤ 0xffffffffffffffff then some (BitVec.ofInt 64 i) else none
  | .uint n => if n ≤ 0xffffffffffffffff then some (BitVec.ofNat 64 n) else none
  | _ => none

/-- The string that a value is. -/
def Json.text : Json → Option Str
  | .string s => some s
  | _ => none

/-- The element itself has the number, the name of `d` and an array of the names of its types. -/
structure DefinitionStated (syscall : Json) (number : BitVec 64) (d : SyscallDef) : Prop where
  number : ∃ v, syscall.member "number".toList = some v ∧ v.unsigned = some number
  name : ∃ v, syscall.member "name".toList = some v ∧ v.text = some d.fname
  params : ∃ params, syscall.member "params".toList = some (.array params) ∧
    List.Forall₂ (fun param ty => ∃ s, param.text = some s ∧ TypeNamed s ty) params d.argtypes

/-- The element itself has a number that is an unsigned integer and a name that is a string,
and its parameters, if it has any, are strings. -/
structure Explicit (syscall : Json) : Prop where
  number : ∃ v, syscall.member "number".toList = some v ∧ v.unsigned.isSome = true
  name : ∃ v, syscall.member "name".toList = some v ∧ v.text.isSome = true
  params : ∀ params, syscall.member "params".toList = some (.array params) →
    ∀ param ∈ params, param.text.isSome = true

/-- A member that is there is what the library returns for it. -/
theorem get_of_member {syscall v : Json} {key : Str} (h : syscall.member key = some v) :
    syscall.get lib key = .ok v := by
  cases syscall with
  | object members =>
    rw [get_ok_iff, Json.memberOrNull, show members.lookup key = some v from h]
    rfl
  | null | int | uint | real | string | boolean | array => cases h

/-- The library converts an unsigned integer to itself. -/
theorem asUInt64_of_unsigned {v : Json} {n : BitVec 64} (h : v.unsigned = some n) :
    v.asUInt64 lib = .ok n := by
  rw [asUInt64_ok_iff]
  unfold Json.unsigned at h
  split at h
  · exact h
  · exact h
  · cases h

theorem asString_of_text {v : Json} {s : Str} (h : v.text = some s) : v.asString lib = .ok s := by
  rw [asString_ok_iff]
  cases v with
  | string t => exact h
  | null | int | uint | real | boolean | array | object => cases h

/-- A member that the library returns and that is not null is there. -/
theorem member_of_get {syscall v : Json} {key : Str} (h : syscall.get lib key = .ok v)
    (hv : v ≠ .null) : syscall.member key = some v := by
  rw [get_ok_iff] at h
  cases syscall with
  | object members =>
    obtain hget : (members.lookup key).getD .null = v := Option.some.inj h
    change members.lookup key = some v
    cases hlookup : members.lookup key with
    | none =>
      rw [hlookup] at hget
      exact absurd hget.symm hv
    | some w =>
      rw [hlookup] at hget
      exact congrArg some hget
  | null =>
    cases h
    exact absurd rfl hv
  | int | uint | real | string | boolean | array => cases h

theorem DefinitionStated.explicit {syscall : Json} {number : BitVec 64} {d : SyscallDef}
    (h : DefinitionStated syscall number d) : Explicit syscall := by
  obtain ⟨⟨v, hv, hn⟩, ⟨w, hw, hname⟩, params, hparams, htypes⟩ := h
  refine ⟨⟨v, hv, Option.isSome_of_eq_some hn⟩, ⟨w, hw, Option.isSome_of_eq_some hname⟩, ?_⟩
  intro params' hparams' param hmem
  cases hparams.symm.trans hparams'
  obtain ⟨ty, -, s, hs, -⟩ := exists_partner htypes hmem
  exact Option.isSome_of_eq_some hs

/-- **An explicit element** states what it is converted to. -/
theorem ReadsAs.stated {syscall : Json} {number : BitVec 64} {d : SyscallDef}
    (h : ReadsAs lib syscall number d) (hexp : Explicit syscall) :
    DefinitionStated syscall number d := by
  refine ⟨?_, ?_, ?_⟩
  · obtain ⟨v, hv, hn⟩ := hexp.number
    obtain ⟨n, hn⟩ := Option.isSome_iff_exists.mp hn
    obtain ⟨v', hv', hnumber⟩ := h.number
    obtain rfl : v = v' := Except.ok.inj ((get_of_member lib hv).symm.trans hv')
    obtain rfl : n = number := Except.ok.inj ((asUInt64_of_unsigned lib hn).symm.trans hnumber)
    exact ⟨v, hv, hn⟩
  · obtain ⟨v, hv, hs⟩ := hexp.name
    obtain ⟨s, hs⟩ := Option.isSome_iff_exists.mp hs
    obtain ⟨v', hv', hname⟩ := h.name
    obtain rfl : v = v' := Except.ok.inj ((get_of_member lib hv).symm.trans hv')
    obtain rfl : s = d.fname := Except.ok.inj ((asString_of_text lib hs).symm.trans hname)
    exact ⟨v, hv, hs⟩
  · obtain ⟨v, hv, harray, htypes⟩ := h.params
    cases v with
    | array params =>
      have hmember := member_of_get lib hv Json.noConfusion
      refine ⟨params, hmember, ?_⟩
      have hstrings := hexp.params params hmember
      refine ((List.forall₂_and_left _ _).mpr ⟨hstrings, htypes⟩).imp ?_
      rintro param ty ⟨hsome, s, hs, hty⟩
      obtain ⟨t, ht⟩ := Option.isSome_iff_exists.mp hsome
      obtain rfl : t = s := Except.ok.inj ((asString_of_text lib ht).symm.trans hs)
      exact ⟨t, ht, hty⟩
    | null | int | uint | real | string | boolean | object => cases harray

/-! ## 5. When the table is the one the document states -/

/-- The constructor throws a `ConfigException`, or its table is in bijection with the elements
of the document, each of which states its own number, name and types. -/
def LoadsAsStated (files : Str → Option Str) (path : Str) : Prop :=
  (∃ details, Parser.load lib files path =
    .error (.configException path "syscall definition".toList details)) ∨
  ∃ p elements defs, Parser.load lib files path = .ok p ∧
    DocumentAt lib files path (.array elements) ∧
    List.Forall₂ (fun syscall d => DefinitionStated syscall d.1 d.2) elements defs ∧
    Holds p.syscallMap defs

/-- **The constructor loads what is stated** if and only if each document that it can convert
has explicit elements only. -/
theorem loadsAsStated_iff (files : Str → Option Str) (path : Str) :
    LoadsAsStated lib files path ↔
      ∀ elements, DocumentAt lib files path (.array elements) →
        (∃ defs, AllRead lib elements defs) → ∀ syscall ∈ elements, Explicit syscall := by
  constructor
  · rintro h elements hdoc ⟨defs, hread⟩ syscall hmem
    obtain ⟨p, hload⟩ := exists_load lib hdoc hread
    rcases h with ⟨details, herror⟩ | ⟨p', elements', defs', -, hdoc', hstated, -⟩
    · rw [hload] at herror
      cases herror
    · cases hdoc.unique lib hdoc'
      obtain ⟨d, -, hd⟩ := exists_partner hstated hmem
      exact hd.explicit
  · intro h
    cases hload : Parser.load lib files path with
    | error f =>
      obtain ⟨details, rfl⟩ := load_error lib hload
      exact .inl ⟨details, hload⟩
    | ok p =>
      obtain ⟨elements, defs, hdoc, hread, hold⟩ := load_ok lib hload
      have hexp := h elements hdoc ⟨defs, hread⟩
      refine .inr ⟨p, elements, defs, hload, hdoc, ?_, hold⟩
      exact ((List.forall₂_and_left _ _).mpr ⟨hexp, hread.read⟩).imp
        fun _ _ ⟨he, hr⟩ => hr.stated lib he

/-- An element with nothing but an empty list of parameters. -/
def unnamed : Json := .array [.object [("params".toList, .array [])]]

/-- The library for its text. -/
def unnamedLib : JsonCpp := .ofDocuments [unnamed]

/-- **An element that states neither number nor name is accepted**, and defines the system call
0, with an empty name. -/
theorem unnamed_accepted :
    Parser.load unnamedLib (fun _ => some unnamed.write) [] =
        .ok (.single 0 { fname := [], argtypes := [] }) ∧
      ¬ LoadsAsStated unnamedLib (fun _ => some unnamed.write) [] := by
  have hload : Parser.load unnamedLib (fun _ => some unnamed.write) [] =
      .ok (.single 0 { fname := [], argtypes := [] }) := rfl
  refine ⟨hload, ?_⟩
  rintro (⟨details, herror⟩ | ⟨p, elements, defs, -, ⟨bytes, hfile, hdoc⟩, hstated, -⟩)
  · rw [hload] at herror
    cases herror
  · cases hfile
    obtain hdoc : unnamed = .array elements := Except.ok.inj hdoc
    cases hdoc
    obtain ⟨d, -, hd⟩ := exists_partner hstated List.mem_cons_self
    obtain ⟨v, hv, -⟩ := hd.number
    cases hv

end GravelBox
