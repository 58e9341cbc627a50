/-!
# TOML tables

A TOML document is a table.  A table is the list of its entries in the order in
which their keys were first given, and every key is given once.

Tables come about in four ways, and how one came about decides what may be added
to it later.  A table written between braces is finished.  A table opened by a
header takes entries below that header only, and no second header.  A table that
exists because the header of a table inside it passed through it may still get a
header of its own.  A table that exists because a dotted key passed through it
takes more dotted keys but no header.  Tables of a series are opened by headers,
and what is added to a series is added to its last table.
-/

namespace CompiledScript.Toml

set_option autoImplicit false

/-- How a table came about. -/
inductive Origin where
  /-- It is written out between braces. -/
  | braces
  /-- A header opens it. -/
  | header
  /-- The header of a table inside it passes through it. -/
  | passage
  /-- A dotted key passes through it. -/
  | dots
deriving DecidableEq, Inhabited, Repr

inductive Value where
  | text (value : String)
  | integer (value : Int)
  /-- A number with a fraction or a power of ten, which is `coefficient * 10 ^ power`
  without its sign, or an infinity or none of these if nothing is given. -/
  | float (magnitude : Option (Nat × Int))
  | boolean (value : Bool)
  /-- A date, a time of day, or both, by its written form. -/
  | moment (digits : String)
  /-- An array that is written out. -/
  | array (items : List Value)
  | table (origin : Origin) (entries : List (String × Value))
  /-- A series of tables with a header each. -/
  | series (tables : List (List (String × Value)))
deriving Inhabited

abbrev Entries := List (String × Value)

namespace Entries

/-- The entries with the value of a key changed, or given if there is none. -/
def change (key : String) (value : Option Value → Option Value) : Entries → Option Entries
  | [] => return [(key, ← value none)]
  | entry :: entries =>
    if entry.1 = key then return (key, ← value (some entry.2)) :: entries
    else return entry :: (← change key value entries)

/-- A series with its last table changed. -/
def changeLast (change : Entries → Option Entries) : List Entries → Option (List Entries)
  | [] => none
  | [last] => return [← change last]
  | first :: tables => return first :: (← changeLast change tables)

/-- The entries with a change to the table that the keys of a header lead to. -/
def within (path : List String) (inner : Entries → Option Entries) (entries : Entries) :
    Option Entries :=
  match path with
  | [] => inner entries
  | key :: path => entries.change key fun
    | none => return .table .passage (← within path inner [])
    | some (.table .braces _) => none
    | some (.table origin entries) => return .table origin (← within path inner entries)
    | some (.series tables) => return .series (← changeLast (within path inner) tables)
    | some _ => none

/-- The entries of the table that the keys of a header lead to. -/
def reach : (path : List String) → Entries → Option Entries
  | [], entries => some entries
  | key :: path, entries =>
    match entries.lookup key with
    | none => some []
    | some (.table .braces _) => none
    | some (.table _ entries) => reach path entries
    | some (.series tables) => tables.getLast?.bind (reach path)
    | some _ => none

/-- The entries that a table has when a header opens it. -/
def opened (path : List String) (key : String) (entries : Entries) : Option Entries := do
  match (← entries.reach path).lookup key with
  | none => some []
  | some (.table .passage entries) => some entries
  | some _ => none

/-- The entries with a table that a header opened. -/
def putTable (path : List String) (key : String) (entries table : Entries) :
    Option Entries :=
  entries.within path fun entries => entries.change key fun _ => some (.table .header table)

/-- The entries with one more table of a series, opened by a header. -/
def putNext (path : List String) (key : String) (entries table : Entries) :
    Option Entries :=
  entries.within path fun entries => entries.change key fun
    | none => some (.series [table])
    | some (.series tables) => some (.series (tables ++ [table]))
    | some _ => none

/-- The entries with the value of a new key, which dots may lead to. -/
def define (path : List String) (key : String) (value : Value) (entries : Entries) :
    Option Entries :=
  match path with
  | [] => entries.change key fun
    | none => some value
    | some _ => none
  | part :: path => entries.change part fun
    | none => return .table .dots (← define path key value [])
    | some (.table .dots entries) => return .table .dots (← define path key value entries)
    | some (.table .passage entries) =>
      if path.isEmpty then none else return .table .passage (← define path key value entries)
    | some (.series tables) =>
      if path.isEmpty then none else return .series (← changeLast (define path key value) tables)
    | some _ => none

end Entries

end CompiledScript.Toml
