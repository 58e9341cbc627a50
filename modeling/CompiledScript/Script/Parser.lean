import CompiledScript.Script.Backslash

/-!
# Splitting a script into commands

The parser substitutes nothing; it finds where words and commands end and which
words are literal.  What makes this hard is that a command substitution holds a
script of its own, whose words end at the closing bracket as well, and that such
a script may hold substitutions again.

The functions here take the way to skip a substitution as a parameter and recurse
only on the characters that are left.  `Substitution.within` ties the knot: it
skips substitutions down to a number of levels, and since every level costs an
opening bracket, as many levels as there are characters are always enough.

A parse that fails still says where it stands, so a caller can go on from there.
-/

namespace CompiledScript

set_option autoImplicit false

open Cursor

/-- A way to skip the rest of a substitution, given the offset of its opening bracket
and the position behind it. -/
structure Substitution where
  skip : (opening : Nat) → Cursor → Parsed Unit
  /-- Skipping never goes back. -/
  length_le : ∀ (opening : Nat) (cursor : Cursor),
    (skip opening cursor).cursor.rest.length ≤ cursor.rest.length

/-! ## Variables -/

/-- The position behind the name between `${` and `}`; the word starts at `word`. -/
def skipBracedName (word offset : Nat) : List Char → Parsed Unit
  | [] => ⟨.error (.missingCloseBrace word), ⟨offset, []⟩⟩
  | char :: rest =>
    let next := offset + char.utf8Size
    if char == '}' then ⟨.ok (), ⟨next, rest⟩⟩ else skipBracedName word next rest

theorem skipBracedName_length_le (word offset : Nat) (chars : List Char) :
    (skipBracedName word offset chars).cursor.rest.length ≤ chars.length := by
  fun_induction skipBracedName word offset chars with
  | case1 => simp
  | case2 => simp
  | case3 _ _ _ _ _ ih =>
    rw [List.length_cons]
    omega

/-- The position behind an index in parentheses, of which `depth` are open. -/
def skipIndex (inner : Substitution) (depth offset : Nat) (chars : List Char) : Parsed Unit :=
  match chars with
  | [] => ⟨.ok (), ⟨offset, []⟩⟩
  | '(' :: rest => skipIndex inner (depth + 1) (offset + 1) rest
  | ')' :: rest =>
    if depth ≤ 1 then ⟨.ok (), ⟨offset + 1, rest⟩⟩
    else skipIndex inner (depth - 1) (offset + 1) rest
  | '[' :: rest =>
    let skipped := inner.skip offset ⟨offset + 1, rest⟩
    match skipped.outcome with
    | .error _ => skipped
    | .ok () => skipIndex inner depth skipped.cursor.offset skipped.cursor.rest
  | '\\' :: char :: rest => skipIndex inner depth (offset + 1 + char.utf8Size) rest
  | char :: rest => skipIndex inner depth (offset + char.utf8Size) rest
termination_by chars.length
decreasing_by
  all_goals simp only [List.length_cons]
  all_goals first
    | omega
    | have := inner.length_le offset ⟨offset + 1, rest⟩; simp only at this; omega

theorem skipIndex_length_le (inner : Substitution) (depth offset : Nat) (chars : List Char) :
    (skipIndex inner depth offset chars).cursor.rest.length ≤ chars.length := by
  fun_induction skipIndex inner depth offset chars with
  | case1 => simp
  | case2 _ _ _ ih => simp only [List.length_cons]; omega
  | case3 => simp
  | case4 _ _ _ _ ih => simp only [List.length_cons]; omega
  | case5 depth offset rest skipped =>
    have shorter : skipped.cursor.rest.length ≤ rest.length :=
      inner.length_le offset ⟨offset + 1, rest⟩
    simp only [List.length_cons]
    omega
  | case6 depth offset rest skipped _ ih =>
    have shorter : skipped.cursor.rest.length ≤ rest.length :=
      inner.length_le offset ⟨offset + 1, rest⟩
    simp only [List.length_cons]
    omega
  | case7 _ _ _ _ ih => simp only [List.length_cons]; omega
  | case8 _ _ _ _ _ _ _ _ ih => simp only [List.length_cons]; omega

/-- Whether a dollar sign in front of the given characters starts a variable. -/
def startsVariable : List Char → Bool
  | [] => false
  | char :: _ => char == '{' || isNameChar char

/-- The position behind a variable, given what follows its dollar sign. -/
def skipVariable (inner : Substitution) (word offset : Nat) (chars : List Char) : Parsed Unit :=
  match chars with
  | '{' :: rest => skipBracedName word (offset + 1) rest
  | _ =>
    let name := chars.takeWhile isNameChar
    let behind := chars.drop name.length
    match behind with
    | '(' :: _ => skipIndex inner 0 (offset + name.length) behind
    | _ => ⟨.ok (), ⟨offset + name.length, behind⟩⟩

theorem skipVariable_length_le (inner : Substitution) (word offset : Nat) (chars : List Char) :
    (skipVariable inner word offset chars).cursor.rest.length ≤ chars.length := by
  unfold skipVariable
  split
  · rename_i rest
    have shorter := skipBracedName_length_le word (offset + 1) rest
    simp only [List.length_cons]
    omega
  · simp only
    split
    · rename_i behind
      have shorter := skipIndex_length_le inner 0
        (offset + (chars.takeWhile isNameChar).length)
        (chars.drop (chars.takeWhile isNameChar).length)
      simp only [List.length_drop] at shorter
      omega
    · simp

/-! ## Words with substitutions -/

/-- The value read so far, reversed, and whether the word has no substitution yet. -/
structure WordState where
  value : List Char
  literal : Bool

/-- One element of a bare or quoted word: a backslash sequence, a variable, a command
substitution or a character.  The word starts at `word`. -/
def readElement (inner : Substitution) (word : Nat) (state : WordState) (offset : Nat)
    (char : Char) (rest : List Char) : Parsed WordState :=
  if char == '\\' then
    let (value, cursor) := Backslash.decode (offset + 1) rest
    ⟨.ok { state with value := value.reverse ++ state.value }, cursor⟩
  else if char == '$' && startsVariable rest then
    let skipped := skipVariable inner word (offset + 1) rest
    ⟨skipped.outcome.map fun () => { state with literal := false }, skipped.cursor⟩
  else if char == '[' then
    let skipped := inner.skip offset ⟨offset + 1, rest⟩
    ⟨skipped.outcome.map fun () => { state with literal := false }, skipped.cursor⟩
  else ⟨.ok { state with value := char :: state.value }, ⟨offset + char.utf8Size, rest⟩⟩

theorem readElement_length_le (inner : Substitution) (word : Nat) (state : WordState)
    (offset : Nat) (char : Char) (rest : List Char) :
    (readElement inner word state offset char rest).cursor.rest.length ≤ rest.length := by
  unfold readElement
  split
  · exact Backslash.decode_length_le (offset + 1) rest
  · split
    · exact skipVariable_length_le inner word (offset + 1) rest
    · split
      · exact inner.length_le offset ⟨offset + 1, rest⟩
      · exact Nat.le_refl _

/-- The elements of a quoted word up to its closing quote, where the cursor is left. -/
def readQuoted (inner : Substitution) (word : Nat) (state : WordState) (offset : Nat)
    (chars : List Char) : Parsed WordState :=
  match chars with
  | [] => ⟨.error (.missingCloseQuote word), ⟨offset, []⟩⟩
  | char :: rest =>
    if char == '"' then ⟨.ok state, ⟨offset, chars⟩⟩
    else
      let read := readElement inner word state offset char rest
      match read.outcome with
      | .error error => ⟨.error error, read.cursor⟩
      | .ok next => readQuoted inner word next read.cursor.offset read.cursor.rest
termination_by chars.length
decreasing_by
  have shorter := readElement_length_le inner word state offset char rest
  simp only [List.length_cons]
  omega

/-- The elements of a bare word up to its end. -/
def readBare (inner : Substitution) (terminator : Option Char) (word : Nat) (state : WordState)
    (offset : Nat) (chars : List Char) : Parsed WordState :=
  if isWordEnd terminator chars then ⟨.ok state, ⟨offset, chars⟩⟩
  else
    match chars with
    | [] => ⟨.ok state, ⟨offset, chars⟩⟩
    | char :: rest =>
      let read := readElement inner word state offset char rest
      match read.outcome with
      | .error error => ⟨.error error, read.cursor⟩
      | .ok next => readBare inner terminator word next read.cursor.offset read.cursor.rest
termination_by chars.length
decreasing_by
  have shorter := readElement_length_le inner word state offset char rest
  simp only [List.length_cons]
  omega

theorem readQuoted_length_le (inner : Substitution) (word : Nat) (state : WordState)
    (offset : Nat) (chars : List Char) :
    (readQuoted inner word state offset chars).cursor.rest.length ≤ chars.length := by
  fun_induction readQuoted inner word state offset chars with
  | case1 => simp
  | case2 => simp
  | case3 state offset char rest _ read error _ =>
    have shorter : read.cursor.rest.length ≤ rest.length :=
      readElement_length_le inner word state offset char rest
    simp only [List.length_cons]
    omega
  | case4 state offset char rest _ read next _ ih =>
    have shorter : read.cursor.rest.length ≤ rest.length :=
      readElement_length_le inner word state offset char rest
    simp only [List.length_cons]
    omega

/-- A bare word takes at least one character unless it ends where it starts. -/
theorem readBare_length (inner : Substitution) (terminator : Option Char) (word : Nat)
    (state : WordState) (offset : Nat) (chars : List Char) :
    (readBare inner terminator word state offset chars).cursor.rest.length ≤ chars.length ∧
      (isWordEnd terminator chars = false →
        (readBare inner terminator word state offset chars).cursor.rest.length < chars.length) := by
  fun_induction readBare inner terminator word state offset chars with
  | case1 => simp_all
  | case2 => simp_all [isWordEnd]
  | case3 state offset char rest read error _ _ =>
    have shorter : read.cursor.rest.length ≤ rest.length :=
      readElement_length_le inner word state offset char rest
    simp only [List.length_cons]
    omega
  | case4 state offset char rest read next _ _ ih =>
    have shorter : read.cursor.rest.length ≤ rest.length :=
      readElement_length_le inner word state offset char rest
    simp only [List.length_cons]
    omega

/-! ## Braced words -/

/-- The content of a braced word, reversed, up to the brace that closes it; `depth`
further braces are open.  The word starts at `word`. -/
def readBraced (word depth : Nat) (content : List Char) (offset : Nat) :
    List Char → Parsed (List Char)
  | [] => ⟨.error (.missingCloseBrace word), ⟨offset, []⟩⟩
  | '\\' :: char :: rest =>
    readBraced word depth (char :: '\\' :: content) (offset + 1 + char.utf8Size) rest
  | '{' :: rest => readBraced word (depth + 1) ('{' :: content) (offset + 1) rest
  | '}' :: rest =>
    match depth with
    | 0 => ⟨.ok content, ⟨offset + 1, rest⟩⟩
    | depth + 1 => readBraced word depth ('}' :: content) (offset + 1) rest
  | char :: rest => readBraced word depth (char :: content) (offset + char.utf8Size) rest

theorem readBraced_length_le (word depth : Nat) (content : List Char) (offset : Nat)
    (chars : List Char) :
    (readBraced word depth content offset chars).cursor.rest.length ≤ chars.length := by
  fun_induction readBraced word depth content offset chars <;>
    simp only [List.length_cons, List.length_nil] <;> omega

/-! ## Words -/

/-- Ends a word behind its closing delimiter, where nothing else may follow. -/
def endDelimited (terminator : Option Char) (after : Delimiter) (word : Word) (cursor : Cursor) :
    Parsed Word :=
  if isWordEnd terminator cursor.rest then ⟨.ok word, cursor⟩
  else ⟨.error (.extraCharacters after cursor.offset), cursor⟩

/-- A word in braces, given what follows the opening brace. -/
def parseBraced (terminator : Option Char) (offset : Nat) (chars : List Char) : Parsed Word :=
  let read := readBraced offset 0 [] (offset + 1) chars
  match read.outcome with
  | .error error => ⟨.error error, read.cursor⟩
  | .ok content =>
    let value := String.ofList (Backslash.collapse content.reverse)
    endDelimited terminator .brace ⟨value, true, .braced, offset⟩ read.cursor

/-- A word in quotes, given what follows the opening quote. -/
def parseQuoted (inner : Substitution) (terminator : Option Char) (offset : Nat)
    (chars : List Char) : Parsed Word :=
  let read := readQuoted inner offset ⟨[], true⟩ (offset + 1) chars
  match read.outcome with
  | .error error => ⟨.error error, read.cursor⟩
  | .ok state =>
    let value := if state.literal then String.ofList state.value.reverse
      else textTo ⟨offset + 1, chars⟩ read.cursor
    endDelimited terminator .quote ⟨value, state.literal, .quoted, offset⟩
      ⟨read.cursor.offset + 1, read.cursor.rest.drop 1⟩

/-- A word without delimiters. -/
def parseBare (inner : Substitution) (terminator : Option Char) (offset : Nat)
    (chars : List Char) : Parsed Word :=
  let read := readBare inner terminator offset ⟨[], true⟩ offset chars
  match read.outcome with
  | .error error => ⟨.error error, read.cursor⟩
  | .ok state =>
    let value := if state.literal then String.ofList state.value.reverse
      else textTo ⟨offset, chars⟩ read.cursor
    ⟨.ok ⟨value, state.literal, .bare, offset⟩, read.cursor⟩

/-- The next word.  Three characters `{*}` in front of another word expand it; at the
end of a word they are the braced word of an asterisk. -/
def parseWord (inner : Substitution) (terminator : Option Char) (offset : Nat)
    (chars : List Char) : Parsed Word :=
  match chars with
  | '{' :: '*' :: '}' :: rest =>
    if isWordEnd terminator rest then parseBraced terminator offset ('*' :: '}' :: rest)
    else
      let expanded := parseWord inner terminator (offset + 3) rest
      match expanded.outcome with
      | .error error => ⟨.error error, expanded.cursor⟩
      | .ok _ =>
        ⟨.ok ⟨textTo ⟨offset, chars⟩ expanded.cursor, false, .expanded, offset⟩, expanded.cursor⟩
  | '{' :: rest => parseBraced terminator offset rest
  | '"' :: rest => parseQuoted inner terminator offset rest
  | _ => parseBare inner terminator offset chars
termination_by chars.length

theorem endDelimited_cursor (terminator : Option Char) (after : Delimiter) (word : Word)
    (cursor : Cursor) : (endDelimited terminator after word cursor).cursor = cursor := by
  unfold endDelimited
  split <;> rfl

theorem parseBraced_length_le (terminator : Option Char) (offset : Nat) (chars : List Char) :
    (parseBraced terminator offset chars).cursor.rest.length ≤ chars.length := by
  have shorter := readBraced_length_le offset 0 [] (offset + 1) chars
  unfold parseBraced
  simp only
  split
  · exact shorter
  · rw [endDelimited_cursor]
    exact shorter

theorem parseQuoted_length_le (inner : Substitution) (terminator : Option Char) (offset : Nat)
    (chars : List Char) :
    (parseQuoted inner terminator offset chars).cursor.rest.length ≤ chars.length := by
  have shorter := readQuoted_length_le inner offset ⟨[], true⟩ (offset + 1) chars
  unfold parseQuoted
  simp only
  split
  · exact shorter
  · rw [endDelimited_cursor, List.length_drop]
    omega

theorem parseBare_length (inner : Substitution) (terminator : Option Char) (offset : Nat)
    (chars : List Char) :
    (parseBare inner terminator offset chars).cursor.rest.length ≤ chars.length ∧
      (isWordEnd terminator chars = false →
        (parseBare inner terminator offset chars).cursor.rest.length < chars.length) := by
  have shorter := readBare_length inner terminator offset ⟨[], true⟩ offset chars
  unfold parseBare
  simp only
  split <;> exact shorter

theorem parseWord_length (inner : Substitution) (terminator : Option Char) (offset : Nat)
    (chars : List Char) :
    (parseWord inner terminator offset chars).cursor.rest.length ≤ chars.length ∧
      (isWordEnd terminator chars = false →
        (parseWord inner terminator offset chars).cursor.rest.length < chars.length) := by
  fun_induction parseWord inner terminator offset chars with
  | case1 offset rest _ =>
    have shorter := parseBraced_length_le terminator offset ('*' :: '}' :: rest)
    simp only [List.length_cons] at *
    omega
  | case2 offset rest _ expanded error _ ih =>
    have shorter : expanded.cursor.rest.length ≤ rest.length := ih.1
    simp only [List.length_cons]
    omega
  | case3 offset rest _ expanded word _ ih =>
    have shorter : expanded.cursor.rest.length ≤ rest.length := ih.1
    simp only [List.length_cons]
    omega
  | case4 offset rest _ =>
    have shorter := parseBraced_length_le terminator offset rest
    simp only [List.length_cons]
    omega
  | case5 offset rest =>
    have shorter := parseQuoted_length_le inner terminator offset rest
    simp only [List.length_cons]
    omega
  | case6 offset chars => exact parseBare_length inner terminator offset chars

/-! ## Commands -/

/-- Whether a command ends in front of the given characters. -/
def isCommandEnd (terminator : Option Char) : List Char → Bool
  | [] => true
  | char :: _ => char == '\n' || char == ';' || some char == terminator

/-- A word behind blanks ends only where its command does. -/
theorem isWordEnd_skipBlanks (terminator : Option Char) (offset : Nat) (chars : List Char)
    (inside : isCommandEnd terminator (skipBlanks offset chars).rest = false) :
    isWordEnd terminator (skipBlanks offset chars).rest = false := by
  fun_induction skipBlanks offset chars with
  | case1 => simp [isCommandEnd] at inside
  | case2 _ _ ih => exact ih inside
  | case3 _ _ _ _ _ ih => exact ih inside
  | case4 offset char rest notContinued notBlank =>
    simp_all [isCommandEnd, isWordEnd]

/-- The words up to the end of a command, behind the words read so far, reversed. -/
def parseWords (inner : Substitution) (terminator : Option Char) (words : List Word)
    (offset : Nat) (chars : List Char) : Parsed (List Word) :=
  let here := skipBlanks offset chars
  if _ended : isCommandEnd terminator here.rest then ⟨.ok words.reverse, here⟩
  else
    let parsed := parseWord inner terminator here.offset here.rest
    match parsed.outcome with
    | .error error => ⟨.error error, parsed.cursor⟩
    | .ok word =>
      parseWords inner terminator (word :: words) parsed.cursor.offset parsed.cursor.rest
termination_by chars.length
decreasing_by
  have blanks : here.rest.length ≤ chars.length := skipBlanks_length_le offset chars
  have shorter : parsed.cursor.rest.length < here.rest.length :=
    (parseWord_length inner terminator here.offset here.rest).2
      (isWordEnd_skipBlanks terminator offset chars (by simpa using _ended))
  exact Nat.lt_of_lt_of_le shorter blanks

/-- The next command, if there is one before the end of the script or the terminator. -/
def parseCommand (inner : Substitution) (terminator : Option Char) (cursor : Cursor) :
    Parsed (Option Command) :=
  let here := skipGap terminator false cursor.offset cursor.rest
  if here.rest = [] ∨ here.rest.head? = terminator then ⟨.ok none, here⟩
  else
    let parsed := parseWords inner terminator [] here.offset here.rest
    ⟨parsed.outcome.map fun words => some ⟨words, here.offset⟩, parsed.cursor⟩

theorem parseWords_length (inner : Substitution) (terminator : Option Char) (words : List Word)
    (offset : Nat) (chars : List Char) :
    (parseWords inner terminator words offset chars).cursor.rest.length ≤ chars.length ∧
      (isCommandEnd terminator (skipBlanks offset chars).rest = false →
        (parseWords inner terminator words offset chars).cursor.rest.length < chars.length) := by
  fun_induction parseWords inner terminator words offset chars with
  | case1 words offset chars here ended =>
    have blanks : here.rest.length ≤ chars.length := skipBlanks_length_le offset chars
    exact ⟨blanks, fun inside => absurd ended (by simpa using inside)⟩
  | case2 words offset chars here ended parsed error _ =>
    have blanks : here.rest.length ≤ chars.length := skipBlanks_length_le offset chars
    have shorter : parsed.cursor.rest.length < here.rest.length :=
      (parseWord_length inner terminator here.offset here.rest).2
        (isWordEnd_skipBlanks terminator offset chars (by simpa using ended))
    simp only
    omega
  | case3 words offset chars here ended parsed word _ ih =>
    have blanks : here.rest.length ≤ chars.length := skipBlanks_length_le offset chars
    have shorter : parsed.cursor.rest.length < here.rest.length :=
      (parseWord_length inner terminator here.offset here.rest).2
        (isWordEnd_skipBlanks terminator offset chars (by simpa using ended))
    omega

/-- Where a command is expected, the gap in front of it has been skipped to its end. -/
theorem skipBlanks_skipGap (terminator : Option Char) (offset : Nat) (chars : List Char)
    (inComment : Bool) :
    let here := skipGap terminator inComment offset chars
    here.rest ≠ [] → here.rest.head? ≠ terminator →
      isCommandEnd terminator (skipBlanks here.offset here.rest).rest = false := by
  fun_induction skipGap terminator inComment offset chars <;>
    simp_all [isCommandEnd, skipBlanks, isBlank]

/-- A command that is found takes at least one character. -/
theorem parseCommand_length (inner : Substitution) (terminator : Option Char) (cursor : Cursor) :
    (parseCommand inner terminator cursor).cursor.rest.length ≤ cursor.rest.length ∧
      ((parseCommand inner terminator cursor).outcome ≠ .ok none →
        (parseCommand inner terminator cursor).cursor.rest.length < cursor.rest.length) := by
  have gap := skipGap_length_le terminator false cursor.offset cursor.rest
  unfold parseCommand
  simp only
  split
  · exact ⟨gap, fun found => absurd rfl found⟩
  · rename_i found
    rw [not_or] at found
    have words := parseWords_length inner terminator []
      (skipGap terminator false cursor.offset cursor.rest).offset
      (skipGap terminator false cursor.offset cursor.rest).rest
    have inside := skipBlanks_skipGap terminator cursor.offset cursor.rest false found.1 found.2
    have shorter := words.2 inside
    simp only
    omega

/-! ## Substitutions -/

/-- The rest of a substitution: commands up to the closing bracket. -/
def skipScript (inner : Substitution) (opening : Nat) (cursor : Cursor) : Parsed Unit :=
  let parsed := parseCommand inner (some ']') cursor
  match _found : parsed.outcome with
  | .error error => ⟨.error error, parsed.cursor⟩
  | .ok (some _) =>
    skipScript inner opening parsed.cursor
  | .ok none =>
    match parsed.cursor.rest with
    | ']' :: rest => ⟨.ok (), ⟨parsed.cursor.offset + 1, rest⟩⟩
    | _ => ⟨.error (.missingCloseBracket opening), parsed.cursor⟩
termination_by cursor.rest.length
decreasing_by
  exact (parseCommand_length inner (some ']') cursor).2 (by
    rw [show (parseCommand inner (some ']') cursor).outcome = _ from _found]
    simp)

theorem skipScript_length_le (inner : Substitution) (opening : Nat) (cursor : Cursor) :
    (skipScript inner opening cursor).cursor.rest.length ≤ cursor.rest.length := by
  fun_induction skipScript inner opening cursor with
  | case1 cursor parsed error _ => exact (parseCommand_length inner (some ']') cursor).1
  | case2 cursor parsed command _ ih =>
    exact Nat.le_trans ih (parseCommand_length inner (some ']') cursor).1
  | case3 cursor parsed _ rest stop =>
    have shorter : parsed.cursor.rest.length ≤ cursor.rest.length :=
      (parseCommand_length inner (some ']') cursor).1
    rw [stop, List.length_cons] at shorter
    simp only
    omega
  | case4 cursor parsed _ _ => exact (parseCommand_length inner (some ']') cursor).1

namespace Substitution

/-- Skips a substitution that holds fewer than `levels` further levels of substitutions. -/
def within : (levels : Nat) → Substitution
  | 0 => ⟨fun opening cursor => ⟨.error (.missingCloseBracket opening), cursor⟩, by simp⟩
  | levels + 1 =>
    ⟨fun opening cursor => skipScript (within levels) opening cursor,
      fun opening cursor => skipScript_length_le (within levels) opening cursor⟩

end Substitution

/-! ## Scripts -/

/-- The next command of a script and the position behind it.  Substitutions nest less
deeply than there are characters left. -/
def nextCommand (cursor : Cursor) : Parsed (Option Command) :=
  parseCommand (.within cursor.rest.length) none cursor

/-- The commands from a position on, up to the end of the script or the first error. -/
def commandsFrom (cursor : Cursor) : List (Except ParseError Command) :=
  let parsed := nextCommand cursor
  match _found : parsed.outcome with
  | .error error => [.error error]
  | .ok none => []
  | .ok (some command) => .ok command :: commandsFrom parsed.cursor
termination_by cursor.rest.length
decreasing_by
  exact (parseCommand_length (.within cursor.rest.length) none cursor).2 (by
    rw [show (parseCommand _ none cursor).outcome = _ from _found]
    simp)

/-- The commands of a script, up to its end or the first error. -/
def parseScript (script : String) : List (Except ParseError Command) :=
  commandsFrom (.start script)

/-- The first `count` attempts to find a command, each going on from where the one before
it stands, whether it succeeded or not. -/
def attempts : (count : Nat) → Cursor → List (Except ParseError (Option Command))
  | 0, _ => []
  | count + 1, cursor =>
    let parsed := nextCommand cursor
    parsed.outcome :: attempts count parsed.cursor

end CompiledScript
