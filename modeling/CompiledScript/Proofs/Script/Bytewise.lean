import CompiledScript.Proofs.Script.Octets

/-!
# Splitting a script into commands, byte by byte

The parser of a script goes from character to character, and so it cannot stand inside
one.  A program that keeps a script as bytes does not have it that easy.  It counts its
position in bytes and compares single bytes with ASCII characters; where a backslash
hides the character behind it, it just steps over two bytes, which may leave it inside
that character.  It only asks for a character when it needs one for the value of a word,
and it only cuts texts out of the script between two positions.  Both are allowed at the
start of a character alone.

The functions of this module are those of the parser, written in this way.  They say
explicitly where such a program would break down: when a text is cut inside a character,
when a count would fall below zero, when a loop does not get any further, and when
substitutions nest without end.  Values are the bytes of their characters.
-/

set_option autoImplicit false

namespace CompiledScript

namespace Bytewise

open Cursor

/-! ## Positions and breakdowns -/

/-- A position in a script: the offset, and the bytes from there on. -/
structure Position where
  offset : Nat
  rest : Bytes
deriving DecidableEq, Inhabited, Repr

/-- Why the parser would not come back. -/
inductive Breakdown where
  /-- A text is cut inside a character or outside of the script. -/
  | torn (offset : Nat)
  /-- More parentheses are closed than were opened. -/
  | underflow (offset : Nat)
  /-- A loop does not get any further. -/
  | standstill (offset : Nat)
  /-- Substitutions nest more deeply than there are bytes. -/
  | bottomless (offset : Nat)
deriving DecidableEq, Inhabited, Repr

/-- What a parsing function found, and where it stands afterwards. -/
structure Found (α : Type) where
  outcome : Except ParseError α
  position : Position

/-- A way to skip the rest of a substitution, given the offset of its opening bracket. -/
abbrev Skip := (opening : Nat) → Position → Except Breakdown (Found Unit)

structure Word where
  value : Bytes
  literal : Bool
  form : WordForm
  offset : Nat
deriving DecidableEq, Inhabited, Repr

structure Command where
  words : List Word
  offset : Nat
deriving DecidableEq, Inhabited, Repr

/-- The bytes, each as the ASCII character it may be. -/
def letters (bytes : Bytes) : List Char := bytes.map letter

/-! ## Cutting texts -/

/-- Cuts a text at a position, where a character has to start or the text to end. -/
def cut (position : Position) : Except Breakdown Unit :=
  if position.rest.head?.all (!isContinuation ·) then return () else throw (.torn position.offset)

/-- The text between two positions. -/
def slice (start stop : Position) : Except Breakdown Bytes := do
  cut start
  cut stop
  if stop.offset < start.offset ∨ start.offset + start.rest.length < stop.offset then
    throw (.torn stop.offset)
  else return start.rest.take (stop.offset - start.offset)

/-- Behind its lead byte a character cannot be cut. -/
example : slice ⟨1, [0xa9]⟩ ⟨2, []⟩ = .error (.torn 1) := rfl

/-- The character at a position, if there is one, and the position behind it. -/
def nextChar (position : Position) : Except Breakdown (Bytes × Position) := do
  cut position
  match position.rest with
  | [] => return ([], position)
  | lead :: more =>
    let size := sizeFrom lead
    return ((lead :: more).take size, ⟨position.offset + size, (lead :: more).drop size⟩)

/-! ## Gaps -/

/-- Whether a continued line ends here. -/
def isContinued (bytes : Bytes) : Bool :=
  match letters bytes with
  | '\\' :: '\n' :: _ => true
  | _ => false

/-- The position behind blanks and continued lines. -/
def skipBlanks (offset : Nat) (bytes : Bytes) : Position :=
  match bytes with
  | [] => ⟨offset, []⟩
  | byte :: rest =>
    if isBlank (letter byte) then skipBlanks (offset + 1) rest
    else if isContinued (byte :: rest) then skipBlanks (offset + 2) (rest.drop 1)
    else ⟨offset, byte :: rest⟩
termination_by bytes.length
decreasing_by
  all_goals simp only [List.length_cons, List.length_drop]
  all_goals omega

/-- The position of the next command.  In a comment a backslash hides the byte behind it. -/
def skipGap (terminator : Option Char) (inComment : Bool) (offset : Nat) (bytes : Bytes) :
    Position :=
  match bytes with
  | [] => ⟨offset, []⟩
  | byte :: rest =>
    if letter byte == '\n' then skipGap terminator false (offset + 1) rest
    else if inComment then
      if letter byte == '\\' then
        skipGap terminator true (offset + 1 + min 1 rest.length) (rest.drop 1)
      else if some (letter byte) == terminator then ⟨offset, byte :: rest⟩
      else skipGap terminator true (offset + 1) rest
    else if isBlank (letter byte) || letter byte == ';' then
      skipGap terminator false (offset + 1) rest
    else if isContinued (byte :: rest) then skipGap terminator false (offset + 2) (rest.drop 1)
    else if letter byte == '#' then skipGap terminator true (offset + 1) rest
    else ⟨offset, byte :: rest⟩
termination_by bytes.length
decreasing_by
  all_goals simp only [List.length_cons, List.length_drop]
  all_goals omega

/-! ## Variables -/

/-- The position behind the name between `${` and `}`; the word starts at `word`. -/
def skipBracedName (word offset : Nat) : Bytes → Found Unit
  | [] => ⟨.error (.missingCloseBrace word), ⟨offset, []⟩⟩
  | byte :: rest =>
    if letter byte == '}' then ⟨.ok (), ⟨offset + 1, rest⟩⟩
    else skipBracedName word (offset + 1) rest

/-- The position behind an index in parentheses, of which `depth` are open. -/
def skipIndex (inner : Skip) (depth offset : Nat) (bytes : Bytes) : Except Breakdown (Found Unit) :=
  match bytes with
  | [] => return ⟨.ok (), ⟨offset, []⟩⟩
  | byte :: rest =>
    if letter byte == '(' then skipIndex inner (depth + 1) (offset + 1) rest
    else if letter byte == ')' then
      if depth = 0 then throw (.underflow offset)
      else if depth = 1 then return ⟨.ok (), ⟨offset + 1, rest⟩⟩
      else skipIndex inner (depth - 1) (offset + 1) rest
    else if letter byte == '[' then do
      let skipped ← inner offset ⟨offset + 1, rest⟩
      match skipped.outcome with
      | .error error => return ⟨.error error, skipped.position⟩
      | .ok () =>
        if _further : skipped.position.rest.length < (byte :: rest).length then
          skipIndex inner depth skipped.position.offset skipped.position.rest
        else throw (.standstill offset)
    else if letter byte == '\\' then
      skipIndex inner depth (offset + 1 + min 1 rest.length) (rest.drop 1)
    else skipIndex inner depth (offset + 1) rest
termination_by bytes.length
decreasing_by
  all_goals simp only [List.length_cons, List.length_drop] at *
  all_goals omega

/-- The position behind a variable, given what follows its dollar sign. -/
def skipVariable (inner : Skip) (word offset : Nat) (bytes : Bytes) : Except Breakdown (Found Unit) :=
  match letters bytes with
  | '{' :: _ => return skipBracedName word (offset + 1) (bytes.drop 1)
  | _ =>
    let name := bytes.takeWhile fun byte => isNameChar (letter byte)
    let behind := bytes.drop name.length
    match letters behind with
    | '(' :: _ => skipIndex inner 0 (offset + name.length) behind
    | _ => return ⟨.ok (), ⟨offset + name.length, behind⟩⟩

/-! ## Backslash sequences -/

/-- The digits that the bytes start with, at most `count` of them. -/
def leadingDigits (digit? : Char → Option Nat) (count : Nat) (bytes : Bytes) : Bytes :=
  (bytes.take count).takeWhile fun byte => (digit? (letter byte)).isSome

/-- A letter with at most `count` hexadecimal digits, which are cut out of the script. -/
def decodeHex (kind : Char) (count offset : Nat) (bytes : Bytes) :
    Except Breakdown (Bytes × Position) := do
  let size := (leadingDigits Backslash.hexDigit? count bytes).length
  let behind : Position := ⟨offset + size, bytes.drop size⟩
  let digits ← slice ⟨offset, bytes⟩ behind
  return (Bytes.ofChars (Backslash.hexChars kind (letters digits)), behind)

/-- The text that a backslash sequence stands for, and the position behind it.  The offset and the
bytes are those behind the backslash. -/
def decode (offset : Nat) : Bytes → Except Breakdown (Bytes × Position)
  | [] => return (Bytes.ofChars ['\\'], ⟨offset, []⟩)
  | byte :: rest =>
    let next := offset + 1
    match letter byte with
    | 'n' => return (Bytes.ofChars ['\n'], ⟨next, rest⟩)
    | 't' => return (Bytes.ofChars ['\t'], ⟨next, rest⟩)
    | 'r' => return (Bytes.ofChars ['\r'], ⟨next, rest⟩)
    | 'a' => return (Bytes.ofChars ['\x07'], ⟨next, rest⟩)
    | 'b' => return (Bytes.ofChars ['\x08'], ⟨next, rest⟩)
    | 'f' => return (Bytes.ofChars ['\x0c'], ⟨next, rest⟩)
    | 'v' => return (Bytes.ofChars ['\x0b'], ⟨next, rest⟩)
    | '\n' =>
      let indent := rest.takeWhile fun byte => Backslash.isIndent (letter byte)
      return (Bytes.ofChars [' '], ⟨next + indent.length, rest.drop indent.length⟩)
    | 'x' => decodeHex 'x' 2 next rest
    | 'u' => decodeHex 'u' 4 next rest
    | 'U' => decodeHex 'U' 8 next rest
    | char =>
      if (Backslash.octalDigit? char).isSome then
        let more := leadingDigits Backslash.octalDigit? 2 rest
        let number := Backslash.numberOf Backslash.octalDigit? 8 (char :: letters more)
        return (Bytes.ofChars [Char.ofNat (number % 256)],
          ⟨next + more.length, rest.drop more.length⟩)
      else nextChar ⟨offset, byte :: rest⟩

/-! ## Words with substitutions -/

/-- The value read so far, and whether the word has no substitution yet. -/
structure WordState where
  value : Bytes
  literal : Bool

/-- What a step of reading a word has found, after a substitution or a variable. -/
def Found.notLiteral (skipped : Found Unit) (state : WordState) : Found WordState :=
  ⟨skipped.outcome.map fun () => { state with literal := false }, skipped.position⟩

/-- One element of a bare or quoted word, of which the first byte is given. -/
def readElement (inner : Skip) (word : Nat) (state : WordState) (offset : Nat) (byte : UInt8)
    (rest : Bytes) : Except Breakdown (Found WordState) :=
  if letter byte == '\\' then do
    let (value, position) ← decode (offset + 1) rest
    return ⟨.ok { state with value := state.value ++ value }, position⟩
  else if letter byte == '$' && startsVariable (letters rest) then do
    return (← skipVariable inner word (offset + 1) rest).notLiteral state
  else if letter byte == '[' then do
    return (← inner offset ⟨offset + 1, rest⟩).notLiteral state
  else do
    let (char, position) ← nextChar ⟨offset, byte :: rest⟩
    return ⟨.ok { state with value := state.value ++ char }, position⟩

/-- The elements of a quoted word up to its closing quote. -/
def readQuoted (inner : Skip) (word : Nat) (state : WordState) (offset : Nat) (bytes : Bytes) :
    Except Breakdown (Found WordState) :=
  match bytes with
  | [] => return ⟨.error (.missingCloseQuote word), ⟨offset, []⟩⟩
  | byte :: rest =>
    if letter byte == '"' then return ⟨.ok state, ⟨offset, byte :: rest⟩⟩
    else do
      let read ← readElement inner word state offset byte rest
      match read.outcome with
      | .error error => return ⟨.error error, read.position⟩
      | .ok next =>
        if _further : read.position.rest.length < (byte :: rest).length then
          readQuoted inner word next read.position.offset read.position.rest
        else throw (.standstill offset)
termination_by bytes.length
decreasing_by exact _further

/-- The elements of a bare word up to its end. -/
def readBare (inner : Skip) (terminator : Option Char) (word : Nat) (state : WordState)
    (offset : Nat) (bytes : Bytes) : Except Breakdown (Found WordState) :=
  if isWordEnd terminator (letters bytes) then return ⟨.ok state, ⟨offset, bytes⟩⟩
  else
    match bytes with
    | [] => return ⟨.ok state, ⟨offset, []⟩⟩
    | byte :: rest => do
      let read ← readElement inner word state offset byte rest
      match read.outcome with
      | .error error => return ⟨.error error, read.position⟩
      | .ok next =>
        if _further : read.position.rest.length < (byte :: rest).length then
          readBare inner terminator word next read.position.offset read.position.rest
        else throw (.standstill offset)
termination_by bytes.length
decreasing_by exact _further

/-! ## Braced words -/

/-- The position of the brace that closes a braced word, where `depth` further braces are open.  The
word starts at `word`. -/
def readBraced (word depth offset : Nat) (bytes : Bytes) : Found Position :=
  match bytes with
  | [] => ⟨.error (.missingCloseBrace word), ⟨offset, []⟩⟩
  | byte :: rest =>
    if letter byte == '\\' then
      readBraced word depth (offset + 1 + min 1 rest.length) (rest.drop 1)
    else if letter byte == '{' then readBraced word (depth + 1) (offset + 1) rest
    else if letter byte == '}' then
      if depth = 0 then ⟨.ok ⟨offset, byte :: rest⟩, ⟨offset + 1, rest⟩⟩
      else readBraced word (depth - 1) (offset + 1) rest
    else readBraced word depth (offset + 1) rest
termination_by bytes.length
decreasing_by
  all_goals simp only [List.length_cons, List.length_drop]
  all_goals omega

/-- The number of bytes in front of the first backslash at the end of a line. -/
def findContinued : Bytes → Option Nat
  | [] => none
  | byte :: rest =>
    if isContinued (byte :: rest) then some 0 else (findContinued rest).map (· + 1)

/-- What stands in front of a continued line ends at least two bytes in front of the end. -/
theorem findContinued_le {bytes : Bytes} {index : Nat} (found : findContinued bytes = some index) :
    index + 2 ≤ bytes.length := by
  induction bytes generalizing index with
  | nil => cases found
  | cons byte rest ih =>
    rw [findContinued] at found
    split at found
    · rename_i continued
      cases found
      cases rest with
      | nil => simp [isContinued, letters] at continued
      | cons next behind => simp
    · obtain ⟨before, foundBefore, rfl⟩ := Option.map_eq_some_iff.mp found
      have bound := ih foundBefore
      simp only [List.length_cons]
      omega

/-- The value of a braced word with the given content, which is cut in front of every continued line
and behind its line end. -/
def collapse (content : Bytes) : Except Breakdown Bytes :=
  match _found : findContinued content with
  | none => return content
  | some index => do
    let front := content.take index
    let rest := content.drop (index + 2)
    cut ⟨index, content.drop index⟩
    cut ⟨index + 2, rest⟩
    let backslashes := (front.reverse.takeWhile fun byte => letter byte == '\\').length
    if backslashes % 2 = 1 then return content.take (index + 2) ++ (← collapse rest)
    else
      let indented := rest.dropWhile fun byte => Backslash.isIndent (letter byte)
      return front ++ Bytes.ofChars [' '] ++ (← collapse indented)
termination_by content.length
decreasing_by
  all_goals
    have bound := findContinued_le _found
    have shorter := (List.dropWhile_suffix (l := content.drop (index + 2))
      fun byte => Backslash.isIndent (letter byte)).length_le
    simp only [List.length_drop] at *
    omega

/-! ## Words -/

/-- Ends a word behind its closing delimiter, where nothing else may follow.  The value of the word is
only taken then. -/
def endDelimited (terminator : Option Char) (after : Delimiter) (word : Except Breakdown Word)
    (position : Position) : Except Breakdown (Found Word) :=
  if isWordEnd terminator (letters position.rest) then return ⟨.ok (← word), position⟩
  else return ⟨.error (.extraCharacters after position.offset), position⟩

/-- A word in braces, given what follows the opening brace. -/
def parseBraced (terminator : Option Char) (offset : Nat) (bytes : Bytes) :
    Except Breakdown (Found Word) :=
  let read := readBraced offset 0 (offset + 1) bytes
  match read.outcome with
  | .error error => return ⟨.error error, read.position⟩
  | .ok stop =>
    let word := do
      let content ← slice ⟨offset + 1, bytes⟩ stop
      return ⟨← collapse content, true, .braced, offset⟩
    endDelimited terminator .brace word read.position

/-- The value of a word that may hold substitutions: what was read, or its source text. -/
def WordState.valueOr (state : WordState) (start stop : Position) : Except Breakdown Bytes :=
  if state.literal then return state.value else slice start stop

/-- A word in quotes, given what follows the opening quote. -/
def parseQuoted (inner : Skip) (terminator : Option Char) (offset : Nat) (bytes : Bytes) :
    Except Breakdown (Found Word) := do
  let read ← readQuoted inner offset ⟨[], true⟩ (offset + 1) bytes
  match read.outcome with
  | .error error => return ⟨.error error, read.position⟩
  | .ok state =>
    let word := do
      let value ← state.valueOr ⟨offset + 1, bytes⟩ read.position
      return ⟨value, state.literal, .quoted, offset⟩
    endDelimited terminator .quote word ⟨read.position.offset + 1, read.position.rest.drop 1⟩

/-- A word without delimiters. -/
def parseBare (inner : Skip) (terminator : Option Char) (offset : Nat) (bytes : Bytes) :
    Except Breakdown (Found Word) := do
  let read ← readBare inner terminator offset ⟨[], true⟩ offset bytes
  match read.outcome with
  | .error error => return ⟨.error error, read.position⟩
  | .ok state =>
    let value ← state.valueOr ⟨offset, bytes⟩ read.position
    return ⟨.ok ⟨value, state.literal, .bare, offset⟩, read.position⟩

/-- Whether a word expands: it starts with `{*}`, and there is more of it. -/
def expands (terminator : Option Char) (bytes : Bytes) : Bool :=
  (letters bytes).take 3 == ['{', '*', '}'] && !isWordEnd terminator (letters (bytes.drop 3))

/-- The next word. -/
def parseWord (inner : Skip) (terminator : Option Char) (offset : Nat) (bytes : Bytes) :
    Except Breakdown (Found Word) :=
  if _expands : expands terminator bytes then do
    let expanded ← parseWord inner terminator (offset + 3) (bytes.drop 3)
    match expanded.outcome with
    | .error error => return ⟨.error error, expanded.position⟩
    | .ok _ =>
      let value ← slice ⟨offset, bytes⟩ expanded.position
      return ⟨.ok ⟨value, false, .expanded, offset⟩, expanded.position⟩
  else
    match letters bytes with
    | '{' :: _ => parseBraced terminator offset (bytes.drop 1)
    | '"' :: _ => parseQuoted inner terminator offset (bytes.drop 1)
    | _ => parseBare inner terminator offset bytes
termination_by bytes.length
decreasing_by
  have starts := eq_of_beq (Bool.and_eq_true_iff.mp _expands).1
  have length := congrArg List.length starts
  simp only [letters, List.length_take, List.length_map, List.length_cons,
    List.length_nil] at length
  rw [List.length_drop]
  omega

/-! ## Commands -/

/-- The words up to the end of a command, behind the words read so far, reversed. -/
def parseWords (inner : Skip) (terminator : Option Char) (words : List Word) (offset : Nat)
    (bytes : Bytes) : Except Breakdown (Found (List Word)) :=
  let here := skipBlanks offset bytes
  if isCommandEnd terminator (letters here.rest) then return ⟨.ok words.reverse, here⟩
  else do
    let parsed ← parseWord inner terminator here.offset here.rest
    match parsed.outcome with
    | .error error => return ⟨.error error, parsed.position⟩
    | .ok word =>
      if _further : parsed.position.rest.length < bytes.length then
        parseWords inner terminator (word :: words) parsed.position.offset parsed.position.rest
      else throw (.standstill offset)
termination_by bytes.length

/-- The next command, if there is one before the end of the script or the terminator. -/
def parseCommand (inner : Skip) (terminator : Option Char) (position : Position) :
    Except Breakdown (Found (Option Command)) :=
  let here := skipGap terminator false position.offset position.rest
  if here.rest = [] ∨ (letters here.rest).head? = terminator then return ⟨.ok none, here⟩
  else do
    let parsed ← parseWords inner terminator [] here.offset here.rest
    return ⟨parsed.outcome.map fun words => some ⟨words, here.offset⟩, parsed.position⟩

/-! ## Substitutions -/

/-- The rest of a substitution: commands up to the closing bracket. -/
def skipScript (inner : Skip) (opening : Nat) (position : Position) :
    Except Breakdown (Found Unit) := do
  let parsed ← parseCommand inner (some ']') position
  match parsed.outcome with
  | .error error => return ⟨.error error, parsed.position⟩
  | .ok (some _) =>
    if _further : parsed.position.rest.length < position.rest.length then
      skipScript inner opening parsed.position
    else throw (.standstill position.offset)
  | .ok none =>
    match letters parsed.position.rest with
    | ']' :: _ => return ⟨.ok (), ⟨parsed.position.offset + 1, parsed.position.rest.drop 1⟩⟩
    | _ => return ⟨.error (.missingCloseBracket opening), parsed.position⟩
termination_by position.rest.length

/-- Skips a substitution that holds fewer than `levels` further levels of substitutions. -/
def within : (levels : Nat) → Skip
  | 0 => fun _ position => throw (.bottomless position.offset)
  | levels + 1 => fun opening position => skipScript (within levels) opening position

/-! ## Scripts -/

/-- The next command of a script, and the position behind it. -/
def nextCommand (position : Position) : Except Breakdown (Found (Option Command)) :=
  parseCommand (within position.rest.length) none position

/-- The first `count` attempts to find a command, each with the offset behind it. -/
def attempts : (count : Nat) → Position →
    Except Breakdown (List (Except ParseError (Option Command) × Nat))
  | 0, _ => return []
  | count + 1, position => do
    let parsed ← nextCommand position
    return (parsed.outcome, parsed.position.offset) :: (← attempts count parsed.position)

end Bytewise

end CompiledScript
