/-
# Writing a table of definitions down

`tableDocument` is a document that lists some definitions, and `load_tableDocument` is what the
constructor of `Parser` (`parser/parser.cpp`, lines 20 to 56) makes of it: a table of just these
definitions, or the exception for the first number that is listed twice.  A table that was loaded
from any document can be written down as well, and the parser that is constructed from that renders
every call as the first one does (`definitions_round_trip`).

The first half is about documents as somebody would write them.  All checks but one are met by
construction, so the outcome hangs on the numbers alone: if they differ the table holds the
definitions, and if not the first that is there already is named in the exception.

The second half starts from any document that was accepted, with what is missing in it and what was
converted.  From the table a list of definitions is read off, and the table that is loaded from that
list has the same entries, though they may stand in another order.  What makes this hard is that the
parser is more than its table: `Parser::operator()` reads memory of a process that may be killed
meanwhile.  So the two parsers are compared call by call, for every process and every world, with
whatever is thrown.

Not claimed: that the two files are equal, or that the second is in any normal form.  A document has
more in it than the parser reads; the members that it does not know are lost.
-/
import GravelBox.Parser.Table
import GravelBox.Config.Settings

namespace GravelBox

open Fallible Entries

variable (lib : JsonCpp)

/-! ## 1. Definitions -/

/-- A name of the type; `flags` is another one of `uint64_t`. -/
def ArgType.name : ArgType → Str
  | .unknown => "unknown".toList
  | .sint32 => "int32_t".toList
  | .uint32 => "uint32_t".toList
  | .sint64 => "int64_t".toList
  | .uint64 => "uint64_t".toList
  | .str => "char*".toList
  | .ptr => "void*".toList

def definitionDocument (e : BitVec 64 × SyscallDef) : Json :=
  .object [("number".toList, numberValue e.1), ("name".toList, .string e.2.fname),
    ("params".toList, .array (e.2.argtypes.map fun ty => .string ty.name))]

/-- The document with these definitions. -/
def tableDocument (defs : List (BitVec 64 × SyscallDef)) : Json :=
  .array (defs.map definitionDocument)

/-! ## 2. Loading them -/

theorem typeNamed_name (ty : ArgType) : TypeNamed ty.name ty := by
  cases ty with
  | unknown | sint32 | uint32 | sint64 | uint64 | str | ptr => rfl

/-- A definition is read as it was written. -/
theorem readsAs_document (e : BitVec 64 × SyscallDef) :
    ReadsAs lib (definitionDocument e) e.1 e.2 where
  object := rfl
  number := ⟨_, (get_ok_iff lib).mpr rfl, asUInt64_numberValue lib e.1⟩
  name := ⟨_, (get_ok_iff lib).mpr rfl, (asString_ok_iff lib).mpr rfl⟩
  params := by
    refine ⟨_, (get_ok_iff lib).mpr rfl, rfl, ?_⟩
    change List.Forall₂ _ (e.2.argtypes.map fun ty => Json.string ty.name) e.2.argtypes
    rw [List.forall₂_map_left_iff, List.forall₂_same]
    exact fun ty _ => ⟨ty.name, (asString_ok_iff lib).mpr rfl, typeNamed_name ty⟩

theorem definitionOf_document (path : Str) (defs : List (BitVec 64 × SyscallDef)) :
    List.Forall₂ (fun syscall e => definitionOf lib path syscall = .ok e)
      (defs.map definitionDocument) defs := by
  rw [List.forall₂_map_left_iff, List.forall₂_same]
  exact fun e _ => (definitionOf_eq_ok lib).mpr (readsAs_document lib e)

/-- **What is made of the document.**  Definitions with different numbers make a table; otherwise
the first number that is there already is reported. -/
theorem load_tableDocument {files : Str → Option Str} {path : Str}
    {defs : List (BitVec 64 × SyscallDef)}
    (hdoc : DocumentAt lib files path (tableDocument defs)) :
    ((defs.map Prod.fst).Nodup ∧
        ∃ p, Parser.load lib files path = .ok p ∧ Holds p.syscallMap defs) ∨
      ∃ pre number d post, defs = pre ++ (number, d) :: post ∧ (pre.map Prod.fst).Nodup ∧
        number ∈ pre.map Prod.fst ∧
          Parser.load lib files path = .error (duplicateNumber path number) := by
  by_cases hkeys : (defs.map Prod.fst).Nodup
  · have hread : AllRead lib (defs.map definitionDocument) defs :=
      ⟨(forall₂_definitionOf lib path).mp (definitionOf_document lib path defs), hkeys⟩
    obtain ⟨p, hload⟩ := exists_load lib hdoc hread
    obtain ⟨elements, defs', hdoc', hread', hold⟩ := load_ok lib hload
    cases hdoc.unique lib hdoc'
    obtain rfl : defs' = defs := mapM_unique
      ((forall₂_definitionOf lib path).mpr hread'.read) (definitionOf_document lib path defs)
    exact .inl ⟨hkeys, p, hload, hold⟩
  · obtain ⟨pre, number, d, post, rfl, hpre, hnumber⟩ := exists_taken hkeys
    refine .inr ⟨pre, number, d, post, rfl, hpre, hnumber, ?_⟩
    obtain ⟨bytes, hfile, hparse⟩ := hdoc
    have hloop : ((pre ++ (number, d) :: post).map definitionDocument).foldlM
        (readDefinition lib path) ∅ = .error (duplicateNumber path number) := by
      rw [readDefinition_eq_add, List.map_append, List.map_cons]
      exact foldlM_add_taken (definitionOf_document lib path pre) hpre
        ((definitionOf_eq_ok lib).mpr (readsAs_document lib (number, d))) hnumber
    have hbytes : readDefinitionFile files path = .ok bytes :=
      (readDefinitionFile_eq_ok).mpr hfile
    have hread : lib.read bytes = .ok (tableDocument (pre ++ (number, d) :: post)) :=
      mapError_eq_ok.mpr hparse
    have htry : Parser.tryLoad lib files path = .error (duplicateNumber path number) := by
      unfold Parser.tryLoad
      rw [hbytes]
      simp only [bind, Except.bind, hread]
      change (((pre ++ (number, d) :: post).map definitionDocument).foldlM
        (readDefinition lib path) ∅).bind _ = _
      rw [hloop]
      rfl
    unfold Parser.load
    rw [htry]
    rfl

/-! ## 3. A table that was loaded -/

/-- Two parsers with the same definitions render the same. -/
theorem call_congr {p p' : Parser} (h : ∀ n, p'.syscallMap.lookup n = p.syscallMap.lookup n)
    (pid : Tid) (ndebug : Bool) (args : SyscallArgs) :
    (p'.setpid pid).call ndebug args = (p.setpid pid).call ndebug args := by
  unfold Parser.call Parser.setpid
  simp only [h]

/-- **The round trip.**  A document that lists definitions with different numbers is loaded as the
table of these, and one with a number listed twice is refused for the first such number.  And for
each table that was loaded from any document there is a list of definitions whose document, in any
other file, is loaded as a parser that renders every call of every process alike. -/
theorem definitions_round_trip :
    (∀ (defs : List (BitVec 64 × SyscallDef)) (files : Str → Option Str) (path : Str),
      DocumentAt lib files path (tableDocument defs) →
        ((defs.map Prod.fst).Nodup ∧
            ∃ p, Parser.load lib files path = .ok p ∧ Holds p.syscallMap defs) ∨
          ∃ pre number d post, defs = pre ++ (number, d) :: post ∧ (pre.map Prod.fst).Nodup ∧
            number ∈ pre.map Prod.fst ∧
              Parser.load lib files path = .error (duplicateNumber path number)) ∧
    ∀ (files : Str → Option Str) (path : Str) (p : Parser), Parser.load lib files path = .ok p →
      ∃ defs, Holds p.syscallMap defs ∧ ∀ (files' : Str → Option Str) (path' : Str),
        DocumentAt lib files' path' (tableDocument defs) →
          ∃ p', Parser.load lib files' path' = .ok p' ∧
            ∀ pid ndebug args,
              (p'.setpid pid).call ndebug args = (p.setpid pid).call ndebug args := by
  refine ⟨fun defs files path hdoc => load_tableDocument lib hdoc, ?_⟩
  intro files path p hload
  obtain ⟨-, defs, -, -, hold⟩ := load_ok lib hload
  refine ⟨defs, hold, fun files' path' hdoc => ?_⟩
  rcases load_tableDocument lib hdoc with ⟨-, p', hload', hold'⟩ | ⟨pre, n, d, post, rfl, -, hn, -⟩
  · exact ⟨p', hload', call_congr (hold.lookup_eq hold')⟩
  · exact absurd hn (key_not_mem hold.keys)

/-- The calls `getpid` and `chdir`. -/
def twoDefinitions : List (BitVec 64 × SyscallDef) :=
  [(39, { fname := "getpid".toList, argtypes := [] }),
    (80, { fname := "chdir".toList, argtypes := [.str] })]

/-- The text of their document. -/
def twoDefinitionsText : Str := (tableDocument twoDefinitions).write

/-- The library for this text. -/
def twoDefinitionsLib : JsonCpp := .ofDocuments [tableDocument twoDefinitions]

/-- They are loaded, and can be written down again. -/
theorem twoDefinitions_loaded :
    ∃ p, Parser.load twoDefinitionsLib (fun _ => some twoDefinitionsText) "defs".toList = .ok p ∧
      Holds p.syscallMap twoDefinitions ∧
      ∃ defs, Holds p.syscallMap defs ∧ ∀ (files' : Str → Option Str) (path' : Str),
        DocumentAt twoDefinitionsLib files' path' (tableDocument defs) →
          ∃ p', Parser.load twoDefinitionsLib files' path' = .ok p' ∧
            ∀ pid ndebug args,
              (p'.setpid pid).call ndebug args = (p.setpid pid).call ndebug args := by
  obtain ⟨hread, hwrite⟩ := definitions_round_trip twoDefinitionsLib
  have hdoc : DocumentAt twoDefinitionsLib (fun _ => some twoDefinitionsText) "defs".toList
      (tableDocument twoDefinitions) := by
    exact ⟨twoDefinitionsText, rfl, rfl⟩
  rcases hread twoDefinitions _ _ hdoc with
    ⟨-, p, hload, hold⟩ | ⟨pre, n, d, post, hsplit, -, hn, -⟩
  · exact ⟨p, hload, hold, hwrite _ _ p hload⟩
  · have hkeys : (twoDefinitions.map Prod.fst).Nodup := by decide
    rw [hsplit] at hkeys
    exact absurd hn (key_not_mem hkeys)

end GravelBox
