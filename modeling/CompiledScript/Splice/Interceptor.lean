import CompiledScript.Definition.Dialect
import CompiledScript.Splice.Registry

/-!
# Interceptors of definition commands

While a container is replayed, an interceptor stands in for a definition command
of the host.  It recognises the calls that define something, asks its registry
for the body of the definition, and passes the call on to the command it stands
in for: with the body in place of the body's text if one was handed out, and
unchanged otherwise.

An interceptor is data.  It names the command it passes calls on to and the registry it
asks, and a host that keeps it in its command table needs nothing more to run it.
-/

namespace CompiledScript

set_option autoImplicit false

/-- What a definition defines, as registries are asked for it. -/
inductive DefinitionKey where
  /-- A procedure, by its absolute name. -/
  | procedure (name : String)
  /-- A class member, by the absolute name of its class, its kind and its own name, which
  is empty for constructors and destructors. -/
  | member (className : String) (kind : MethodKind) (name : String)
deriving DecidableEq, Inhabited, Repr

/-- The definition commands that an interceptor can stand in for. -/
inductive InterceptorForm where
  /-- The command that defines procedures. -/
  | procedures
  /-- The command that adds members to classes, with the words that announce their kinds. -/
  | members (dialect : Dialect)
deriving DecidableEq, Inhabited, Repr

/-- A stand-in for a definition command. -/
structure Interceptor where
  /-- The command that calls are passed on to. -/
  target : String
  form : InterceptorForm
  /-- The number of the registry that is asked for bodies. -/
  registry : Nat
deriving DecidableEq, Inhabited, Repr

/-- A call that defines something. -/
structure DefiningCall where
  key : DefinitionKey
  /-- The argument specification, as it is written in the call. -/
  arguments : String
  /-- Which argument of the call is the body. -/
  bodyAt : Nat
deriving DecidableEq, Inhabited, Repr

namespace InterceptorForm

/-- What a member definition of the given kind says, given all arguments of the call: the
class, the name, the argument specification and the place of the body. -/
def memberParts? : MethodKind → List String → Option (String × String × String × Nat)
  | .method, [className, _, name, arguments, _] => some (className, name, arguments, 4)
  | .classMethod, [className, _, name, arguments, _] => some (className, name, arguments, 4)
  | .constructor, [className, _, arguments, _] => some (className, "", arguments, 3)
  | .destructor, [className, _, _] => some (className, "", "", 2)
  | .destructor, [className, _, arguments, _] => some (className, "", arguments, 3)
  | _, _ => none

/-- What a call defines that is made in a namespace, if all its arguments are texts and it
has the form of a definition. -/
def recognise (form : InterceptorForm) (scope : String) (arguments : List Argument) :
    Option DefiningCall :=
  match form, Argument.texts? arguments with
  | procedures, some [name, specification, _] =>
    some ⟨.procedure (Name.qualify name scope), specification, 2⟩
  | members dialect, some words =>
    match words[1]?.bind dialect.memberKind? with
    | none => none
    | some kind =>
      (memberParts? kind words).map fun (className, name, specification, bodyAt) =>
        ⟨.member (Name.qualify className scope) kind name, specification, bodyAt⟩
  | _, _ => none

/-- The arguments that a call made in a namespace is passed on with, and what is left of
the registry. -/
def passOn (form : InterceptorForm) (scope : String) (registry : Registry DefinitionKey)
    (arguments : List Argument) : List Argument × Registry DefinitionKey :=
  match form.recognise scope arguments with
  | none => (arguments, registry)
  | some call =>
    let (delivery, left) := registry.take call.key call.arguments
    match delivery.body? with
    | some body => (arguments.set call.bodyAt (.precompiled body), left)
    | none => (arguments, left)

end InterceptorForm

end CompiledScript
