import CompiledScript.Json.Container
import CompiledScript.Limits
import CompiledScript.Literal.HostType

/-!
# Summaries

A summary tells the constants of the container format together with the bounds
in force, or what the header of one container says.  Both are shown as lines for
reading or as JSON.
-/

namespace CompiledScript.CommandLine

set_option autoImplicit false

def programVersion : String := "0.1.0"

/-- A text with blanks behind it up to a width. -/
def padRight (width : Nat) (text : String) : String :=
  text ++ String.ofList (List.replicate (width - text.length) ' ')

/-- A text with blanks in front of it up to a width. -/
def padLeft (width : Nat) (text : String) : String :=
  String.ofList (List.replicate (width - text.length) ' ') ++ text

def unlines (lines : List String) : String := String.join (lines.map (· ++ "\n"))

/-- A label with a value in the column of values. -/
def labelled (label value : String) : String := padRight 16 label ++ value

/-! ## The format -/

namespace FormatSummary

def literalTags : List (UInt32 × String) :=
  Literal.Tag.all.map fun tag => (tag.code, tag.name)

def auxiliaryTags : List (UInt32 × String) :=
  Auxiliary.Tag.all.map fun tag => (tag.code, tag.name)

/-- The host types with the names of the literals that stand for their values. -/
def hostTypes : List (String × String) :=
  HostType.all.map fun (name, tag) => (name, tag.name)

/-- The bounds with the labels they have in lines and in JSON. -/
def bounds (limits : Limits) : List (String × String × Nat) := [
  ("string/bytes", "max_string_len", limits.maxStringLength),
  ("code", "max_code_len", limits.maxCodeLength),
  ("literals", "max_literals", limits.maxLiterals),
  ("aux", "max_aux", limits.maxAuxiliaries),
  ("exceptions", "max_exceptions", limits.maxExceptions),
  ("elements", "max_elements", limits.maxElements),
  ("depth", "max_depth", limits.maxDepth)]

def tagLine (tag : UInt32 × String) : String :=
  "  " ++ padLeft 2 (toString tag.1.toNat) ++ "  " ++ tag.2

/-- The constants of the format and the bounds in force, as lines. -/
def text (limits : Limits) : String :=
  unlines <|
    ["tbc " ++ programVersion, "==========", "",
      labelled "Magic:" (Hex.word containerMagic),
      labelled "Format:" (toString formatVersion.toNat), "",
      "Limits:"] ++
    ((bounds limits).map fun (label, _, bound) => labelled ("  " ++ label) (toString bound)) ++
    ["", "Literal tags:"] ++ literalTags.map tagLine ++
    ["", "Aux tags:"] ++ auxiliaryTags.map tagLine ++
    ["", "Host types:"] ++ hostTypes.map fun (name, tag) => labelled ("  " ++ name) tag

def tagsJson (tags : List (UInt32 × String)) : Json :=
  .array <| tags.map fun (code, name) => .object [("id", .ofWord code), ("name", .text name)]

/-- The constants of the format and the bounds in force, as JSON. -/
def json (limits : Limits) : Json :=
  .object [
    ("version", .text programVersion),
    ("magic", .text (Hex.word containerMagic)),
    ("format_version", .ofWord formatVersion),
    ("limits", .object ((bounds limits).map fun (_, name, bound) => (name, .natural bound))),
    ("literal_tags", tagsJson literalTags),
    ("aux_tags", tagsJson auxiliaryTags),
    ("host_types", .array <| hostTypes.map fun (name, tag) =>
      .object [("name", .text name), ("encodes_as", .text tag)])]

end FormatSummary

/-! ## A container -/

namespace ContainerSummary

def headerFields (header : Header) : List (String × String) := [
  ("runtime", header.runtime.text),
  ("format", toString header.format.toNat),
  ("top code", s!"{header.codeLength.toNat} bytes"),
  ("literals", toString header.literals.toNat),
  ("aux", toString header.auxiliaries.toNat),
  ("exceptions", toString header.exceptions.toNat),
  ("locals", toString header.locals.toNat),
  ("max stack", toString header.maxStack.toNat)]

/-- The sizes of a container's tables, with their labels. -/
def tableSizes (container : Container) : List (String × Nat) := [
  ("procedures", container.procedures.length),
  ("classes", container.classes.length),
  ("methods", container.methods.length)]

/-- Whether the header agrees with the top block. -/
def isConsistent (container : Container) : Bool :=
  (container.header.crossCheck container.top).isEmpty

def text (path : String) (container : Container) : String :=
  unlines <|
    path ::
    ((headerFields container.header).map fun (label, value) => labelled ("  " ++ label) value) ++
    ((tableSizes container).map fun (label, size) => labelled ("  " ++ label) (toString size)) ++
    if isConsistent container then []
    else ["  warning: header counters disagree with the top block (see `tbc verify`)"]

def json (path : String) (container : Container) : Json :=
  .object <|
    [("path", .text path), ("header", .ofHeader container.header)] ++
    ((tableSizes container).map fun (name, size) => (name, .natural size)) ++
    [("header_consistent", .boolean (isConsistent container))]

end ContainerSummary

end CompiledScript.CommandLine
