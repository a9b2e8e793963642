/-
# The table of definitions

`Parser::Parser` (`parser/parser.cpp`, lines 20 to 56) reads the definition file: an array of
objects, each with a number, a name and the types of the parameters.

The model is the constructor as it stands, one `readDefinition` for each pass of its loop and a fold
over the elements of the array.  The order in which it looks at things decides which exception is
thrown: the kind of the element, its number, its name, that the parameters are an array, each of
their types, and last whether the number is there already.  `Json::Exception` is caught around the
whole, and its text is thrown again as a `ConfigException`; an unknown type is one from the start.

Three things that the loop does not do matter later.  It does not count the parameters, though a
call has six registers (`Parser/Accepted.lean`).  It does not ask whether a number or a name is
there at all: what is missing is 0 and the empty string (`Parser/Table.lean`).  And it does not look
at names, so two numbers may have one name (`Parser/Unambiguous.lean`).

The table is an association list without duplicates for the `std::unordered_map` of the source.
Nothing depends on its order: it is asked for one number at a time, and is never walked.

Not modelled: how the bytes of the file are parsed, which is the library's, and the path in the
`ConfigException` beyond what the caller passed.
-/
import GravelBox.Parser.Parser
import GravelBox.Config.Json

namespace GravelBox

variable (lib : JsonCpp)

/-- `argtypes_`. -/
def argtypes : List (Str × ArgType) :=
  [("unknown".toList, .unknown), ("flags".toList, .uint64), ("int32_t".toList, .sint32),
    ("uint32_t".toList, .uint32), ("int64_t".toList, .sint64), ("uint64_t".toList, .uint64),
    ("char*".toList, .str), ("void*".toList, .ptr)]

/-- `error`, in `parser.cpp`. -/
def definitionError {α : Type} (path details : Str) : Except Fault α :=
  .error (.configException path "syscall definition".toList details)

/-- `sanitize`, in `parser.cpp`. -/
def sanitizeDefinition (path : Str) (assertion : Bool) (details : Str) : Except Fault Unit :=
  if assertion = false then definitionError path details else .ok ()

/-- The type of one parameter. -/
def readParam (path : Str) (param : Json) : Except Fault ArgType := do
  let paramStr ← param.asString lib
  match argtypes.lookup paramStr with
  | some ty => return ty
  | none => definitionError path ("unknown type \"".toList ++ paramStr ++ ['"'])

/-- One element of the definition list. -/
def readDefinition (path : Str) (table : AList fun _ : BitVec 64 => SyscallDef)
    (syscall : Json) : Except Fault (AList fun _ : BitVec 64 => SyscallDef) := do
  sanitizeDefinition path syscall.isObject "syscall definition is not an object".toList
  let number ← (← syscall.get lib "number".toList).asUInt64 lib
  let name ← (← syscall.get lib "name".toList).asString lib
  let params ← syscall.get lib "params".toList
  sanitizeDefinition path params.isArray "parameter definition is not an array".toList
  let types ← params.elements.mapM (readParam lib path)
  sanitizeDefinition path (table.lookup number).isNone
    ("duplicate syscall number ".toList ++ Nat.toDigits 10 number.toNat)
  return table.insert number { fname := name, argtypes := types }

/-- The bytes of the definition file. -/
def readDefinitionFile (files : Str → Option Str) (path : Str) : Except Fault Str :=
  match files path with
  | none => definitionError path "file not found".toList
  | some bytes => .ok bytes

/-- The `try` block of `Parser::Parser`. -/
def Parser.tryLoad (files : Str → Option Str) (path : Str) : Except Fault Parser := do
  let bytes ← readDefinitionFile files path
  let definitions ← lib.read bytes
  sanitizeDefinition path definitions.isArray "definition list is not an array".toList
  let table ← definitions.elements.foldlM (readDefinition lib path) ∅
  -- `target_` is set by `setpid`, before the first call is rendered
  return { target := 0, syscallMap := table }

/-- `Parser::Parser`. -/
def Parser.load (files : Str → Option Str) (path : Str) : Except Fault Parser :=
  match Parser.tryLoad lib files path with
  | .error (.jsonException what) => definitionError path what
  | r => r

end GravelBox
