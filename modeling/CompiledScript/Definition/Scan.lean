import CompiledScript.Definition.Dialect
import CompiledScript.Script.Parser

/-!
# Finding definitions without running a script

A scan reads a script from top to bottom and records the procedures and class
members whose definitions are literal in every word.  It goes into the bodies of
namespaces, down to a fixed depth, and nowhere else.  A definition that is put
together by substitution is not recorded, and a script that is malformed is
scanned up to the error; what encloses it is still scanned to its end.

The scan of a script is the list of its findings in source order, so it is
determined command by command.
-/

namespace CompiledScript

set_option autoImplicit false

inductive DefinitionKind where
  | procedure
  | member (kind : MethodKind) (className : String)
deriving DecidableEq, Inhabited, Repr

def DefinitionKind.isMember : DefinitionKind → Bool
  | procedure => false
  | member _ _ => true

def DefinitionKind.className? : DefinitionKind → Option String
  | procedure => none
  | member _ className => some className

/-- A definition found in a script. -/
structure Definition where
  /-- The absolute name of a procedure, or the name of a member, which is empty for
  constructors and destructors. -/
  name : String
  /-- The namespace the body is compiled against. -/
  scope : String
  /-- The argument specification, as it is written. -/
  arguments : String
  body : String
  kind : DefinitionKind
  /-- The line of the defining command, counted from one. -/
  line : Nat
deriving DecidableEq, Inhabited, Repr

inductive Finding where
  | definition (definition : Definition)
  | classNamed (name : String)
deriving DecidableEq, Inhabited, Repr

namespace Finding

def definition? : Finding → Option Definition
  | definition found => some found
  | classNamed _ => none

def className? : Finding → Option String
  | definition _ => none
  | classNamed name => some name

end Finding

structure ScanResult where
  definitions : List Definition
  /-- The classes in the order in which they were first seen, each once. -/
  classes : List String
deriving DecidableEq, Inhabited, Repr

namespace ScanResult

def procedures (result : ScanResult) : List Definition :=
  result.definitions.filter fun found => !found.kind.isMember

def members (result : ScanResult) : List Definition :=
  result.definitions.filter fun found => found.kind.isMember

/-- The result that findings in source order amount to. -/
def ofFindings (findings : List Finding) : ScanResult where
  definitions := findings.filterMap Finding.definition?
  classes := (findings.filterMap Finding.className?).eraseDups

end ScanResult

namespace Scan

/-- How many namespace bodies may enclose a command that is still scanned. -/
def maxNesting : Nat := 256

def literalWords? (command : Command) : Option (List String) :=
  command.words.mapM Word.literal?

def literalWord? (command : Command) (index : Nat) : Option String :=
  command.words[index]?.bind Word.literal?

def procedureFindings (command : Command) (scope : String) (line : Nat) : List Finding :=
  match literalWords? command with
  | some [_, name, arguments, body] =>
    let name := Name.qualify name scope
    [.definition ⟨name, Name.namespaceOf name, arguments, body, .procedure, line⟩]
  | _ => []

/-- The class, name, arguments and body of a member definition of the given kind, all of
whose words are given. -/
def memberParts? : MethodKind → List String → Option (String × String × String × String)
  | .method, [_, className, _, name, arguments, body] => some (className, name, arguments, body)
  | .classMethod, [_, className, _, name, arguments, body] =>
    some (className, name, arguments, body)
  | .constructor, [_, className, _, arguments, body] => some (className, "", arguments, body)
  | .destructor, [_, className, _, body] => some (className, "", "", body)
  | .destructor, [_, className, _, arguments, body] => some (className, "", arguments, body)
  | _, _ => none

def memberFindings (dialect : Dialect) (command : Command) (scope : String) (line : Nat) :
    List Finding :=
  match (literalWord? command 2).bind dialect.memberKind? with
  | none => []
  | some kind =>
    match (literalWords? command).bind (memberParts? kind) with
    | none => []
    | some (className, name, arguments, body) =>
      let className := Name.qualify className scope
      [.classNamed className,
        .definition ⟨name, className, arguments, body, .member kind className, line⟩]

/-- The offset at which the content of a word starts. -/
def contentOffset (word : Word) : Nat :=
  match word.form with
  | .braced | .quoted => word.offset + 1
  | .bare | .expanded => word.offset

/-- What a command amounts to.  `base` is the offset of the command's script in the whole
text, and `scanBody` scans the body of a namespace given its offset and the namespace. -/
def commandFindings (dialect : Dialect) (ends : List Nat)
    (scanBody : (body : String) → (base : Nat) → (scope : String) → List Finding)
    (base : Nat) (scope : String) (command : Command) : List Finding :=
  match literalWord? command 0 with
  | none => []
  | some first =>
    let line := lineAt ends (base + command.offset)
    if dialect.isProcedure first then procedureFindings command scope line
    else if dialect.isMember first then memberFindings dialect command scope line
    else
      match literalWord? command 1 with
      | none => []
      | some second =>
        if dialect.isNamespaceEval first second then
          match command.words with
          | [_, _, inner, body] =>
            match inner.literal?, body.literal? with
            | some inner, some content =>
              scanBody content (base + contentOffset body) (Name.qualify inner scope)
            | _, _ => []
          | _ => []
        else if dialect.isClassCreate first second then
          match literalWord? command 2 with
          | some name => [.classNamed (Name.qualify name scope)]
          | none => []
        else []

/-- What a script amounts to, in which namespaces are followed down to `levels` levels. -/
def scriptFindings (dialect : Dialect) (ends : List Nat) :
    (levels : Nat) → (script : String) → (base : Nat) → (scope : String) → List Finding
  | 0, _, _, _ => []
  | levels + 1, script, base, scope =>
    (parseScript script).flatMap fun parsed =>
      match parsed with
      | .error _ => []
      | .ok command =>
        commandFindings dialect ends (scriptFindings dialect ends levels) base scope command

end Scan

/-- The definitions and classes of a script. -/
def scan (source : String) (dialect : Dialect) : ScanResult :=
  .ofFindings
    (Scan.scriptFindings dialect (lineEnds 0 source.toList) (Scan.maxNesting + 1) source 0
      Name.global)

end CompiledScript
