import CompiledScript.Container.Basic
import CompiledScript.Decimal.Layout
import CompiledScript.Text.Quoted

/-!
# Listings of containers

A listing shows the structure of a container for reading: its header with every
counter that disagrees with the top block, and then all blocks with their code,
literals, auxiliary records and exception ranges.  Blocks inside literals are
listed in place, further to the right.

A listing is a sequence of pieces.  The lines of code are pieces of their own,
each with the offset of its first byte, so what a listing shows of the code does
not depend on how anything else is written.  The other pieces are plain text.
-/

namespace CompiledScript

set_option autoImplicit false

/-- What a listing shows, and how. -/
structure ListingOptions where
  showCode : Bool := true
  /-- The number of code bytes in a line; none counts as one. -/
  bytesPerLine : Nat := 16
deriving DecidableEq, Inhabited, Repr

namespace Listing

/-- A piece of a listing. -/
inductive Piece where
  | plain (text : String)
  /-- A line of code, with the offset of its first byte. -/
  | code (indent : Nat) (offset : Nat) (bytes : Bytes)
deriving DecidableEq, Inhabited, Repr

/-- The blanks in front of a line at a depth. -/
def indentation (depth : Nat) : String :=
  String.ofList (List.replicate (2 * depth) ' ')

/-- The text of a piece. -/
def Piece.text : Piece → String
  | plain text => text
  | code indent offset bytes =>
    indentation indent ++ Hex.padded 6 offset ++ " " ++
      String.join (bytes.map fun byte => " " ++ Hex.byte byte) ++ "\n"

/-- The lines of code from an offset on, with `width + 1` bytes each. -/
def codeLines (indent width offset : Nat) (code : Bytes) : List Piece :=
  match code with
  | [] => []
  | byte :: rest =>
    .code indent offset ((byte :: rest).take (width + 1)) ::
      codeLines indent width (offset + (width + 1)) (rest.drop width)
termination_by code.length
decreasing_by
  simp only [List.length_cons, List.length_drop]
  omega

/-- The lines of a block's code. -/
def ofCode (options : ListingOptions) (indent : Nat) (code : Bytes) : List Piece :=
  if options.showCode then codeLines indent (options.bytesPerLine - 1) 0 code else []

/-! ## Parts without blocks -/

/-- How listings write doubles. -/
def doubleLayout : Decimal.Layout where
  placesFrom := -4
  placesTo := 15
  tie := .up
  positivePower := ""
  notANumber := "NaN"
  infinity := "inf"
  negativeInfinity := "-inf"

/-- A number with its sign. -/
def signed (value : Int) : String :=
  if value < 0 then toString value else "+" ++ toString value

def bracketed (items : List String) : String :=
  "[" ++ ", ".intercalate items ++ "]"

def ofWords (words : List UInt32) : String :=
  bracketed (words.map fun word => toString word.toNat)

def ofAuxiliary : Auxiliary → String
  | .textJumps table =>
    bracketed (table.entries.map fun (key, offset) =>
      Quoted.write key ++ "->" ++ signed offset.toInt)
  | .integerJumps table =>
    bracketed (table.entries.map fun (key, offset) =>
      toString key.toInt ++ "->" ++ signed offset.toInt)
  | .dictUpdate slots => "vars=" ++ ofWords slots
  | .foreach loop =>
    s!"counter={loop.counter.toNat} first_value={loop.firstValue.toNat} lists=" ++
      bracketed (loop.lists.map ofWords)

def ofExceptionKind : ExceptionKind → String
  | .loop => "Loop"
  | .catching => "Catch"

/-- A target, or a dash for an unused one. -/
def ofTarget (target : UInt32) : String :=
  if target = ExceptionRange.noTarget then "-" else toString target.toNat

def ofRange (range : ExceptionRange) : String :=
  s!"{ofExceptionKind range.kind} level={range.level.toNat} " ++
  s!"code=[{range.offset.toNat}, +{range.length.toNat}) " ++
  s!"continue={ofTarget range.continueTarget} break={ofTarget range.breakTarget} " ++
  s!"catch={ofTarget range.catchTarget}"

/-- The names of parameters, with a mark for those that are optional. -/
def ofParameters (parameters : List Parameter) : String :=
  " ".intercalate <| parameters.map fun parameter =>
    if parameter.fallback.isSome then "?" ++ parameter.name else parameter.name

/-- The auxiliary records and exception ranges of a block, a line each. -/
def ofTables (depth : Nat) (auxiliaries : List Auxiliary) (exceptions : List ExceptionRange) :
    List Piece :=
  (auxiliaries.zipIdx.map fun (auxiliary, index) => .plain <|
    indentation depth ++ s!"  aux {index}: {auxiliary.tag.name} {ofAuxiliary auxiliary}\n") ++
  exceptions.zipIdx.map fun (range, index) => .plain <|
    indentation depth ++ s!"  exc {index}: {ofRange range}\n"

/-! ## Literals and blocks -/

mutual

/-- A literal, with the blocks in it at the given depth. -/
def ofLiteral (options : ListingOptions) (depth : Nat) : Literal → List Piece
  | .int value => [.plain ("int " ++ toString value.toInt)]
  | .bigInt value => [.plain ("bignum " ++ toString value)]
  | .boolean value => [.plain ("boolean " ++ toString value)]
  | .bytes value => [.plain s!"bytes ({value.length} bytes)"]
  | .map entries =>
    .plain "map \x7b" :: ofEntries options depth "" entries ++ [.plain "\x7d"]
  | .double bits => [.plain s!"double {doubleLayout.write bits} ({Hex.pattern bits})"]
  | .list items => .plain "list [" :: ofItems options depth "" items ++ [.plain "]"]
  | .text value => [.plain ("text " ++ Quoted.write value)]
  | .closure scope parameters body =>
    .plain s!"closure ({ofParameters parameters}) in {scope}\n" :: ofBlock options depth body
  | .block scope body => .plain s!"block in {scope}\n" :: ofBlock options depth body

/-- The items of a list, each behind what separates it from the one before. -/
def ofItems (options : ListingOptions) (depth : Nat) (separator : String) :
    List Literal → List Piece
  | [] => []
  | item :: items =>
    .plain separator :: ofLiteral options depth item ++ ofItems options depth ", " items

/-- The entries of a map, each behind what separates it from the one before. -/
def ofEntries (options : ListingOptions) (depth : Nat) (separator : String) :
    List MapEntry → List Piece
  | [] => []
  | ⟨key, value⟩ :: entries =>
    .plain separator :: ofLiteral options depth key ++
      .plain ": " :: ofLiteral options depth value ++ ofEntries options depth ", " entries

/-- The literals of a pool, a line each, of which the first has the given number. -/
def ofPool (options : ListingOptions) (depth number : Nat) : List Literal → List Piece
  | [] => []
  | literal :: literals =>
    .plain (indentation depth ++ s!"  lit {number}: ") ::
      ofLiteral options (depth + 2) literal ++
      .plain "\n" :: ofPool options depth (number + 1) literals

def ofBlock (options : ListingOptions) (depth : Nat) : Block → List Piece
  | ⟨code, literals, auxiliaries, exceptions, maxStack, compiledLocals, localTable⟩ =>
    let locals :=
      Block.localCount
        ⟨code, literals, auxiliaries, exceptions, maxStack, compiledLocals, localTable⟩
    .plain (indentation depth ++
      s!"block code={code.length} stack={maxStack.toNat} locals={locals.toNat}\n") ::
    ofCode options (depth + 1) code ++
    ofPool options depth 0 literals ++
    ofTables depth auxiliaries exceptions

end

/-! ## Containers -/

/-- The header of a container and its disagreements with the top block. -/
def ofHeader (container : Container) : String :=
  let header := container.header
  "container\n" ++
  s!"  magic          {Hex.word header.magic}\n" ++
  s!"  format         {header.format.toNat}\n" ++
  s!"  runtime        {header.runtime.text}\n" ++
  s!"  top counters   code={header.codeLength.toNat} literals={header.literals.toNat} " ++
  s!"aux={header.auxiliaries.toNat} exceptions={header.exceptions.toNat} " ++
  s!"locals={header.locals.toNat} stack={header.maxStack.toNat}\n" ++
  String.join ((header.crossCheck container.top).map fun mismatch =>
    s!"  warning: {mismatch.text}\n")

def ofMethodKind : MethodKind → String
  | .method => "Method"
  | .classMethod => "ClassMethod"
  | .constructor => "Constructor"
  | .destructor => "Destructor"

def ofProcedure (options : ListingOptions) (entry : ProcedureEntry) : List Piece :=
  .plain s!"  proc {entry.name} \x7b{entry.arguments}\x7d in {entry.scope}\n" ::
    ofBlock options 2 entry.body

def ofMethod (options : ListingOptions) (entry : MethodEntry) : List Piece :=
  .plain (s!"  {ofMethodKind entry.kind} {entry.className} {entry.name} " ++
    s!"\x7b{entry.arguments}\x7d\n") ::
    ofBlock options 2 entry.body

def pieces (options : ListingOptions) (container : Container) : List Piece :=
  .plain (ofHeader container) :: .plain "top\n" :: ofBlock options 1 container.top ++
  .plain s!"procedures ({container.procedures.length})\n" ::
    container.procedures.flatMap (ofProcedure options) ++
  .plain s!"classes ({container.classes.length})\n" ::
    (container.classes.map fun entry => .plain s!"  class {entry.name}\n") ++
  .plain s!"methods ({container.methods.length})\n" ::
    container.methods.flatMap (ofMethod options)

end Listing

def Container.listing (options : ListingOptions) (container : Container) : String :=
  String.join ((Listing.pieces options container).map Listing.Piece.text)

end CompiledScript
