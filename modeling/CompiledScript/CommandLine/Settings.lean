import CompiledScript.CommandLine.Failure
import CompiledScript.CommandLine.Surroundings
import CompiledScript.Limits
import CompiledScript.Listing
import CompiledScript.Toml.Document
import CompiledScript.Toml.Range

/-!
# Settings

Settings are the bounds in force while containers are read, and how listings
look.  They come from a TOML file: the one that is named, or else the first that
is found in the directory of the command and those above it, or else that of the
user.

What a settings file leaves out keeps its usual value, and what it has besides
is passed over unless a number in it is out of range.  A group of settings is a
table; an array gives the settings of the group by position.
-/

namespace CompiledScript.CommandLine

set_option autoImplicit false

structure Settings where
  limits : Limits := {}
  listing : ListingOptions := {}
deriving DecidableEq, Inhabited, Repr

namespace Settings

open Toml (Value)

/-! ## Reading -/

/-- The values of entries with the given names.  The others are passed over, but the
numbers in them must be in range all the same. -/
def named? (names : List String) (entries : List (String × Value)) :
    Option (List (String × Value)) :=
  let (known, others) := entries.partition fun entry => names.contains entry.1
  if Value.haveRange others then some known else none

/-- The values that a group of settings has for names.  What an array has behind them is
not looked at. -/
def group? (names : List String) : Value → Option (List (String × Value))
  | .table _ entries => named? names entries
  | .array items => some (names.zip items)
  | .series tables => some (names.zip (tables.map (Value.table .header)))
  | .moment _ => some []
  | .text _ | .integer _ | .float _ | .boolean _ => none

/-- A setting in a group, which keeps its usual value if the group has none for it. -/
def setting? {α : Type} (group : List (String × Value)) (name : String) (usual : α)
    (read : Value → Option α) : Option α :=
  (group.lookup name).elim (some usual) read

/-- A natural number below a bound. -/
def below? (bound : Nat) : Value → Option Nat
  | .integer value => if 0 ≤ value ∧ value < bound then some value.toNat else none
  | _ => none

def truth? : Value → Option Bool
  | .boolean value => some value
  | _ => none

def limits? (value : Value) : Option Limits := do
  let group ← group? ["max_string_len", "max_code_len", "max_literals", "max_aux",
    "max_exceptions", "max_elements", "max_depth"] value
  let bound (name : String) (usual : Nat) := setting? group name usual (below? (Nat.pow 2 32))
  let usual : Limits := {}
  return {
    maxStringLength := ← bound "max_string_len" usual.maxStringLength
    maxCodeLength := ← bound "max_code_len" usual.maxCodeLength
    maxLiterals := ← bound "max_literals" usual.maxLiterals
    maxAuxiliaries := ← bound "max_aux" usual.maxAuxiliaries
    maxExceptions := ← bound "max_exceptions" usual.maxExceptions
    maxElements := ← bound "max_elements" usual.maxElements
    maxDepth := ← bound "max_depth" usual.maxDepth }

def listing? (value : Value) : Option ListingOptions := do
  let group ← group? ["show_code", "code_bytes_per_line"] value
  let usual : ListingOptions := {}
  return {
    showCode := ← setting? group "show_code" usual.showCode truth?
    bytesPerLine :=
      ← setting? group "code_bytes_per_line" usual.bytesPerLine (below? (Nat.pow 2 64)) }

def ofEntries? (entries : Toml.Entries) : Option Settings := do
  let document ← named? ["limits", "dump"] entries
  return {
    limits := ← setting? document "limits" {} limits?
    listing := ← setting? document "dump" {} listing? }

def ofText (text : String) : Except Toml.Fault Settings := do
  Toml.Fault.orMalformed (ofEntries? (← Toml.parse text))

/-! ## Finding -/

/-- The paths of files in a directory and in those above it, nearest first. -/
def upwards (names : List String) (directory : Place) : List String :=
  (List.range (directory.length + 1)).reverse.flatMap fun depth =>
    names.map fun name => String.join ((directory.take depth ++ [name]).map ("/" ++ ·))

variable {m : Type → Type} [Monad m]

/-- The first path that leads to something. -/
def firstPresent (surroundings : Surroundings m) : List String → m (Option String)
  | [] => return none
  | path :: paths => do
    if ← surroundings.contains path then return some path
    firstPresent surroundings paths

/-- The paths at which settings are looked for when none are named. -/
def usualPaths (surroundings : Surroundings m) : List String :=
  match surroundings.directory with
  | none => []
  | some directory =>
    upwards ["tbc.toml", ".tbc.toml"] directory ++
      surroundings.userSettings.toList.map (· ++ "/tbc/tbc.toml")

def readFrom (surroundings : Surroundings m) (path : String) : ExceptT Failure m Settings := do
  match ← surroundings.read path with
  | .error error => throw (.settingsUnreadable error)
  | .ok content =>
    let some text := Bytes.text? content | throw .settingsNotText
    match ofText text with
    | .error fault => throw (.settingsRefused path fault)
    | .ok settings => return settings

/-- The settings at the path that is named, or else at the usual ones. -/
def load (surroundings : Surroundings m) (path : Option String) : ExceptT Failure m Settings := do
  match path with
  | some path =>
    unless ← surroundings.contains path do throw (.settingsMissing path)
    readFrom surroundings path
  | none =>
    match ← (firstPresent surroundings (usualPaths surroundings) : m (Option String)) with
    | some path => readFrom surroundings path
    | none => return {}

end Settings

end CompiledScript.CommandLine
