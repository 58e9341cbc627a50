import CompiledScript.Container.Basic
import CompiledScript.Decimal.Layout
import CompiledScript.Json.Value

/-!
# Containers as JSON

The JSON form of a container shows every field of it.  A value that is one of
several kinds is an object with the name of its kind as the only key.  Bytes are
arrays of numbers, maps are arrays of pairs since their keys need not be texts,
and integers of unbounded size are a sign with the base-2³² digits of their
magnitude, least significant first.
-/

namespace CompiledScript

set_option autoImplicit false

namespace Json

/-- How JSON writes doubles; it has no numbers for those that are not finite. -/
def doubleLayout : Decimal.Layout where
  placesFrom := -5
  placesTo := 15
  tie := .toEven
  positivePower := "+"
  notANumber := "null"
  infinity := "null"
  negativeInfinity := "null"

/-! ## Parts without blocks -/

def ofWord (word : UInt32) : Json := .natural word.toNat

def ofWords (words : List UInt32) : Json := .array (words.map ofWord)

def ofBytes (bytes : Bytes) : Json := .array (bytes.map fun byte => .natural byte.toNat)

/-- The base-2³² digits of a number, least significant first, without zeros at the end. -/
def magnitudeDigits (value : Nat) : List Nat :=
  if value = 0 then [] else value % 4294967296 :: magnitudeDigits (value / 4294967296)
termination_by value
decreasing_by omega

/-- An integer of any size. -/
def ofBigInt (value : Int) : Json :=
  .array [.integer value.sign, .array ((magnitudeDigits value.natAbs).map .natural)]

def ofAuxiliary : Auxiliary → Json
  | .textJumps table =>
    .tagged "StringJumpTable" <| .object <|
      table.entries.map fun (key, offset) => (key, .integer offset.toInt)
  | .integerJumps table =>
    .tagged "NumericJumpTable" <| .object <|
      table.entries.map fun (key, offset) => (toString key.toInt, .integer offset.toInt)
  | .dictUpdate slots => .tagged "DictUpdate" (ofWords slots)
  | .foreach loop =>
    let flavor := match loop.layout with
      | .legacy => "Legacy"
      | .current => "Current"
    .tagged "Foreach" <| .object [
      ("flavor", .text flavor),
      ("loop_counter_var", ofWord loop.counter),
      ("first_value_var", ofWord loop.firstValue),
      ("lists", .array (loop.lists.map ofWords))]

def ofRange (range : ExceptionRange) : Json :=
  let kind := match range.kind with
    | .loop => "Loop"
    | .catching => "Catch"
  .object [
    ("kind", .text kind),
    ("nesting_level", ofWord range.level),
    ("code_offset", ofWord range.offset),
    ("code_length", ofWord range.length),
    ("continue_target", ofWord range.continueTarget),
    ("break_target", ofWord range.breakTarget),
    ("catch_target", ofWord range.catchTarget)]

/-- A slot of the table of local variables. -/
def ofLocal (slot : LocalVariable) : Json :=
  .object [("name", .text slot.name), ("is_argument", .boolean slot.isArgument)]

/-- A value, or null if there is none. -/
def optional {α : Type} (form : α → Json) (value : Option α) : Json := value.elim .null form

/-! ## Literals and blocks -/

mutual

def ofLiteral : Literal → Json
  | .int value => .tagged "Int" (.integer value.toInt)
  | .bigInt value => .tagged "BigInt" (ofBigInt value)
  | .boolean value => .tagged "Boolean" (.boolean value)
  | .bytes value => .tagged "Bytes" (ofBytes value)
  | .map entries => .tagged "Map" (.array (ofEntries entries))
  | .double bits => .tagged "Double" (.number (doubleLayout.write bits))
  | .list items => .tagged "List" (.array (ofLiterals items))
  | .text value => .tagged "Text" (.text value)
  | .closure scope parameters body =>
    .tagged "Closure" <| .object [
      ("namespace", .text scope),
      ("args", .array (ofParameters parameters)),
      ("body", ofBlock body)]
  | .block scope body =>
    .tagged "Block" (.object [("namespace", .text scope), ("body", ofBlock body)])

def ofLiterals : List Literal → List Json
  | [] => []
  | literal :: literals => ofLiteral literal :: ofLiterals literals

/-- The entries of a map, each a pair of its key and its value. -/
def ofEntries : List MapEntry → List Json
  | [] => []
  | ⟨key, value⟩ :: entries => .array [ofLiteral key, ofLiteral value] :: ofEntries entries

def ofParameters : List Parameter → List Json
  | [] => []
  | ⟨name, fallback⟩ :: parameters =>
    .object [("name", .text name), ("default", ofFallback fallback)] :: ofParameters parameters

/-- The value a parameter falls back to. -/
def ofFallback : Option Literal → Json
  | none => .null
  | some literal => ofLiteral literal

def ofBlock : Block → Json
  | ⟨code, literals, auxiliaries, exceptions, maxStack, compiledLocals, localTable⟩ =>
    .object [
      ("code", ofBytes code),
      ("literals", .array (ofLiterals literals)),
      ("aux", .array (auxiliaries.map ofAuxiliary)),
      ("exceptions", .array (exceptions.map ofRange)),
      ("max_stack_depth", ofWord maxStack),
      ("compiled_locals", optional ofWord compiledLocals),
      ("local_table", optional (fun table => .array (table.map ofLocal)) localTable)]

end

/-! ## Containers -/

def ofHeader (header : Header) : Json :=
  .object [
    ("magic", ofWord header.magic),
    ("format_version", ofWord header.format),
    ("runtime", .object [
      ("major", .natural header.runtime.major.toNat),
      ("minor", .natural header.runtime.minor.toNat)]),
    ("top_code_len", .natural header.codeLength.toNat),
    ("top_command_count", ofWord header.commands),
    ("top_exception_count", ofWord header.exceptions),
    ("top_literal_count", ofWord header.literals),
    ("top_aux_count", ofWord header.auxiliaries),
    ("top_local_count", ofWord header.locals),
    ("top_max_stack", ofWord header.maxStack)]

def ofProcedure (entry : ProcedureEntry) : Json :=
  .object [
    ("fqn", .text entry.name),
    ("namespace", .text entry.scope),
    ("arg_spec", .text entry.arguments),
    ("body", ofBlock entry.body)]

def ofMethod (entry : MethodEntry) : Json :=
  let kind := match entry.kind with
    | .method => "Method"
    | .classMethod => "ClassMethod"
    | .constructor => "Constructor"
    | .destructor => "Destructor"
  .object [
    ("class_fqn", .text entry.className),
    ("kind", .text kind),
    ("name", .text entry.name),
    ("arg_spec", .text entry.arguments),
    ("body", ofBlock entry.body)]

def ofContainer (container : Container) : Json :=
  .object [
    ("header", ofHeader container.header),
    ("top", ofBlock container.top),
    ("procedures", .array (container.procedures.map ofProcedure)),
    ("classes", .array (container.classes.map fun entry => .object [("fqn", .text entry.name)])),
    ("methods", .array (container.methods.map ofMethod))]

end Json

end CompiledScript
