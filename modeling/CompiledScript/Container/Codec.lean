import CompiledScript.Container.Basic

/-!
# Containers on the wire

The sections of a container follow one another: header, top block, procedures,
classes, members.  Class records end in a list of superclasses and member
records carry the text of their body; both are written empty, and what is found
there is skipped on reading.

Compatibility with the running runtime is decided right after the header, so an
incompatible container is refused whatever follows.
-/

namespace CompiledScript

set_option autoImplicit false

/-! ## Writing -/

def ProcedureEntry.encode (limits : Limits) (entry : ProcedureEntry) : Encoder :=
  Encoder.text limits "procedure name" entry.name ++
  Encoder.text limits "procedure namespace" entry.scope ++
  Encoder.text limits "procedure args" entry.arguments ++
  entry.body.encode limits

/-- A class without superclasses. -/
def ClassEntry.encode (limits : Limits) (entry : ClassEntry) : Encoder :=
  Encoder.text limits "class name" entry.name ++ Encoder.word32 0

/-- A class member without the text of its body. -/
def MethodEntry.encode (limits : Limits) (entry : MethodEntry) : Encoder :=
  Encoder.text limits "class name" entry.className ++
  Encoder.byte entry.kind.code ++
  Encoder.text limits "method name" entry.name ++
  Encoder.text limits "method args" entry.arguments ++
  Encoder.word32 0 ++
  entry.body.encode limits

/-- The sections of a container in order. -/
def Container.encode (limits : Limits) (container : Container) : Encoder :=
  container.header.encode ++
  container.top.encode limits ++
  Encoder.table "procedures" limits.maxElements container.procedures
    (ProcedureEntry.encode limits) ++
  Encoder.table "classes" limits.maxElements container.classes (ClassEntry.encode limits) ++
  Encoder.table "methods" limits.maxElements container.methods (MethodEntry.encode limits)

/-! ## Reading -/

def ProcedureEntry.decode (limits : Limits) : Decoder ProcedureEntry := do
  let name ← Decoder.text limits "procedure name"
  let scope ← Decoder.text limits "procedure namespace"
  let arguments ← Decoder.text limits "procedure args"
  let body ← Block.decode limits
  return { name, scope, arguments, body }

/-- A class, whose superclasses are skipped. -/
def ClassEntry.decode (limits : Limits) : Decoder ClassEntry := do
  let name ← Decoder.text limits "class name"
  let _superclasses ←
    Decoder.table "superclasses" limits.maxElements (Decoder.text limits "superclass name")
  return { name }

/-- A class member, whose body text is skipped. -/
def MethodEntry.decode (limits : Limits) : Decoder MethodEntry := do
  let className ← Decoder.text limits "class name"
  let code ← Decoder.byte
  match MethodKind.ofCode? code with
  | none => throw (.unknownMethodKind code)
  | some kind =>
    let name ← Decoder.text limits "method name"
    let arguments ← Decoder.text limits "method args"
    let textLength ← Decoder.count "method body text" limits.maxStringLength
    let _bodyText ← Decoder.run textLength
    let body ← Block.decode limits
    return { className, kind, name, arguments, body }

/-- A header that the running runtime may go on from. -/
def Header.decodeFor (running : RuntimeVersion) : Decoder Header := do
  let header ← Header.decode
  match header.checkRuntime running with
  | .ok () => return header
  | .error error => throw error

/-- A container for a runtime of the given version. -/
def Container.decode (limits : Limits) (running : RuntimeVersion) : Decoder Container := do
  let header ← Header.decodeFor running
  let top ← Block.decode limits
  let procedures ←
    Decoder.table "procedures" limits.maxElements (ProcedureEntry.decode limits)
  let classes ← Decoder.table "classes" limits.maxElements (ClassEntry.decode limits)
  let methods ← Decoder.table "methods" limits.maxElements (MethodEntry.decode limits)
  return { header, top, procedures, classes, methods }

/-- The container that a file holds, for a runtime of the given version, or for the one
that wrote it if none is given. -/
def Container.ofFile (limits : Limits) (running : Option RuntimeVersion) (content : Bytes) :
    Except FormatError Container := do
  let running ← match running with
    | some running => pure running
    | none => Header.runtime <$> Header.decode.outcome content
  (Container.decode limits running).outcome content

end CompiledScript
