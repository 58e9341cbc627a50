/-!
# Qualified names

Names are qualified by namespaces, which `::` separates; a name that starts with
`::` is absolute and any other is relative to a namespace.  Runs of more than two
colons are legal, so the separator of a name is the last place where two colons
stand together, and all colons in front of it belong to the separation.
-/

namespace CompiledScript.Name

set_option autoImplicit false

/-- The namespace that holds all others. -/
def global : String := "::"

/-- Whether a name does not depend on the namespace it stands in. -/
def isAbsolute (name : String) : Bool :=
  match name.toList with
  | ':' :: ':' :: _ => true
  | _ => false

/-- The absolute form of a name that stands in a namespace. -/
def qualify (name scope : String) : String :=
  if isAbsolute name then name
  else if scope = global ∨ scope = "" then "::" ++ name
  else scope ++ "::" ++ name

/-- What stands in front of the last separator, both written backwards. -/
def beforeSeparator? : List Char → Option (List Char)
  | [] => none
  | ':' :: ':' :: before => some before
  | _ :: before => beforeSeparator? before

/-- The namespace part of a name, which is the global namespace if nothing stands in
front of the last separator. -/
def namespaceOf (name : String) : String :=
  match beforeSeparator? name.toList.reverse with
  | none | some [] => global
  | some before => String.ofList (before.dropWhile (· == ':')).reverse

/-- A name without a leading separator. -/
def stripGlobal (name : String) : String :=
  match name.toList with
  | ':' :: ':' :: rest => String.ofList rest
  | _ => name

/-- Whether two names mean the same command, with or without a leading separator. -/
def same (first second : String) : Bool := stripGlobal first == stripGlobal second

end CompiledScript.Name
