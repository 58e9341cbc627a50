/-!
# Bounds on what is read and written

Every length a container declares is compared with a bound before anything of
that length is touched, and literals nest only to a bounded depth.  The same
bounds hold in both directions, so what was written under some bounds is read
back under the same bounds.
-/

set_option autoImplicit false

namespace CompiledScript

/-- The bounds in force while a container is written or read. -/
structure Limits where
  /-- Longest text, byte string or integer magnitude, in bytes. -/
  maxStringLength : Nat := 16777216
  /-- Longest code of one block, in bytes. -/
  maxCodeLength : Nat := 1073741824
  /-- Most literals in one pool. -/
  maxLiterals : Nat := 67108864
  /-- Most auxiliary records of one block. -/
  maxAuxiliaries : Nat := 67108864
  /-- Most exception ranges of one block. -/
  maxExceptions : Nat := 67108864
  /-- Most entries of any other table or list. -/
  maxElements : Nat := 67108864
  /-- Deepest nesting of literals inside literals. -/
  maxDepth : Nat := 256
deriving DecidableEq, Inhabited, Repr

end CompiledScript
