import CompiledScript.Host.Argument

/-!
# Registries of precompiled bodies

A registry holds the bodies of one load, each under the key of its definition.
Bodies of one key are handed out in the order in which they were put in, so a
definition that a script repeats receives its bodies one after the other.  A body
is handed out only for the argument specification it was compiled with.

The entries of all keys stand in one list, oldest first.  The oldest body of a
key is then the first entry with that key, and handing it out erases this entry
and no other.
-/

namespace CompiledScript

set_option autoImplicit false

/-- Bodies under the keys of their definitions, oldest first. -/
structure Registry (κ : Type) where
  entries : List (κ × PrecompiledBody)
deriving Inhabited

/-- What a registry answers when it is asked for the body of a definition. -/
inductive Delivery where
  /-- The oldest body of the key, which has the argument specification asked for. -/
  | substituted (body : PrecompiledBody)
  /-- The oldest body of the key has another argument specification. -/
  | argumentsDiffer
  /-- The key has no body left. -/
  | notFound
deriving Inhabited

/-- The body that was handed out. -/
def Delivery.body? : Delivery → Option PrecompiledBody
  | substituted body => some body
  | argumentsDiffer | notFound => none

namespace Registry

variable {κ : Type}

def empty : Registry κ := ⟨[]⟩

/-- The number of bodies not handed out yet. -/
def size (registry : Registry κ) : Nat := registry.entries.length

def isEmpty (registry : Registry κ) : Bool := registry.entries.isEmpty

/-- Adds a body behind those that are there. -/
def insert (registry : Registry κ) (key : κ) (body : PrecompiledBody) : Registry κ :=
  ⟨registry.entries ++ [(key, body)]⟩

/-- The registry of a list of keys and bodies. -/
def ofList (entries : List (κ × PrecompiledBody)) : Registry κ := ⟨entries⟩

/-- The bodies of one key, oldest first. -/
def bodies [DecidableEq κ] (registry : Registry κ) (key : κ) : List PrecompiledBody :=
  (registry.entries.filter fun entry => entry.1 == key).map Prod.snd

def oldest? [DecidableEq κ] (registry : Registry κ) (key : κ) : Option PrecompiledBody :=
  (registry.entries.find? fun entry => entry.1 == key).map Prod.snd

/-- The registry without the oldest body of a key. -/
def eraseOldest [DecidableEq κ] (registry : Registry κ) (key : κ) : Registry κ :=
  ⟨registry.entries.eraseP fun entry => entry.1 == key⟩

/-- Asks for the body of a definition with the given argument specification, and takes it
out of the registry if it is handed out. -/
def take [DecidableEq κ] (registry : Registry κ) (key : κ) (arguments : String) :
    Delivery × Registry κ :=
  match registry.oldest? key with
  | none => (.notFound, registry)
  | some body =>
    if body.arguments = arguments then (.substituted body, registry.eraseOldest key)
    else (.argumentsDiffer, registry)

/-! ## One key at a time -/

theorem oldest?_eq_head? [DecidableEq κ] (registry : Registry κ) (key : κ) :
    registry.oldest? key = (registry.bodies key).head? := by
  simp [oldest?, bodies, List.head?_map, List.head?_filter]

theorem bodies_insert [DecidableEq κ] (registry : Registry κ) (key other : κ)
    (body : PrecompiledBody) :
    (registry.insert key body).bodies other =
      registry.bodies other ++ if key = other then [body] else [] := by
  by_cases same : key = other <;> simp [bodies, insert, List.filter_append, same]

end Registry

end CompiledScript
