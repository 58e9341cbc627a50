import CompiledScript.Proofs.Script.Displacement
import CompiledScript.Proofs.Script.Movement

/-!
# What stands behind a separator does not matter

A line end or a semicolon separates commands.  Where the parser is left in front of a
separator, or at one, it has not looked at anything behind it: any other text behind
the separator gives the same result.

The separator is seen, since it is what ends a word, a variable name or the digits of a
backslash sequence.  So two texts are compared that go on differently behind one and
the same separator, and a result is kept as long as it leaves the separator where it
is (`Parsed.Keeps`).  A function that calls another one has its result kept if that of
the other is, since what is left in the end was left in between.
-/

set_option autoImplicit false

namespace CompiledScript

open Cursor

/-- The characters that end a command. -/
def Separates (separator : Char) : Prop := separator = '\n' ∨ separator = ';'

/-- Where the first cursor stands in front of a separator, so does the second.  The texts go on
behind the separator as `behind` and `other`. -/
def Cursor.Keeps (separator : Char) (behind other : List Char) (first second : Cursor) : Prop :=
  ∀ left, first.rest = left ++ separator :: behind →
    second = ⟨first.offset, left ++ separator :: other⟩

/-- What the first parse has found in front of a separator, the second has found as well. -/
def Parsed.Keeps {α : Type} (separator : Char) (behind other : List Char)
    (first second : Parsed α) : Prop :=
  ∀ value left, first.outcome = .ok value → first.cursor.rest = left ++ separator :: behind →
    second = ⟨.ok value, ⟨first.cursor.offset, left ++ separator :: other⟩⟩

variable {separator : Char} {behind other : List Char}

/-! ## In front of the separator -/

section Front

variable {start stop : Cursor} {char : Char} {inside left rest : List Char}

/-- The separator is further on in a text from which it is not taken away. -/
theorem Cursor.Leads.exists_front (leads : start.Leads stop)
    (ends : stop.rest = left ++ separator :: behind) :
    ∃ front, start.rest = front ++ separator :: behind := by
  obtain ⟨passed, split, -⟩ := leads
  refine ⟨passed ++ left, ?_⟩
  rw [split, ends, List.append_assoc]

theorem length_lt_of_ends (ends : rest = left ++ separator :: behind) :
    behind.length < rest.length := by
  rw [ends, List.length_append, List.length_cons]
  omega

theorem Cursor.Leads.long (leads : start.Leads stop)
    (ends : stop.rest = left ++ separator :: behind) : behind.length < start.rest.length := by
  obtain ⟨front, split⟩ := leads.exists_front ends
  exact length_lt_of_ends split

/-- A character that is taken away is not the separator if that is there afterwards. -/
theorem exists_inside (split : inside ++ separator :: behind = char :: rest)
    (long : behind.length < rest.length) :
    ∃ more, inside = char :: more ∧ more ++ separator :: behind = rest := by
  cases inside with
  | nil =>
    obtain ⟨-, rfl⟩ := List.cons.inj split
    exact absurd long (Nat.lt_irrefl _)
  | cons first more =>
    obtain ⟨rfl, same⟩ := List.cons.inj split
    exact ⟨more, rfl, same⟩

theorem exists_inside_two {next : Char}
    (split : inside ++ separator :: behind = char :: next :: rest)
    (long : behind.length < rest.length) :
    ∃ more, inside = char :: next :: more ∧ more ++ separator :: behind = rest := by
  obtain ⟨front, rfl, further⟩ := exists_inside split (by rw [List.length_cons]; omega)
  obtain ⟨more, rfl, same⟩ := exists_inside further long
  exact ⟨more, rfl, same⟩

/-- A character that is no separator is in front of the separator. -/
theorem exists_inside_of_ne (plain : char ≠ separator)
    (split : inside ++ separator :: behind = char :: rest) :
    ∃ more, inside = char :: more ∧ more ++ separator :: behind = rest := by
  cases inside with
  | nil => exact absurd (List.cons.inj split).1.symm plain
  | cons first more =>
    obtain ⟨rfl, same⟩ := List.cons.inj split
    exact ⟨more, rfl, same⟩

/-- The next character is the same, whatever stands behind the separator. -/
theorem exists_next (same : inside ++ separator :: behind = char :: rest) :
    ∃ tail, inside ++ separator :: other = char :: tail := by
  cases inside with
  | nil =>
    obtain ⟨rfl, -⟩ := List.cons.inj same
    exact ⟨other, rfl⟩
  | cons first more =>
    obtain ⟨rfl, -⟩ := List.cons.inj same
    exact ⟨_, rfl⟩

theorem exists_next_two {next : Char} (separates : Separates separator)
    (same : inside ++ separator :: behind = '\\' :: next :: rest) :
    ∃ tail, inside ++ separator :: other = '\\' :: next :: tail := by
  cases inside with
  | nil =>
    obtain ⟨rfl, -⟩ := List.cons.inj same
    rcases separates with impossible | impossible <;> cases impossible
  | cons first more =>
    obtain ⟨rfl, further⟩ := List.cons.inj same
    obtain ⟨tail, same⟩ : ∃ tail, more ++ separator :: other = next :: tail := exists_next further
    exact ⟨tail, congrArg ('\\' :: ·) same⟩

/-- A backslash has something behind it if it does not hide a separator itself. -/
theorem ne_backslash (separates : Separates separator)
    (split : inside ++ separator :: behind = char :: rest)
    (alone : ∀ next tail, char = '\\' → rest = next :: tail → False) : char ≠ '\\' := by
  rintro rfl
  cases inside with
  | nil =>
    obtain ⟨rfl, -⟩ := List.cons.inj split
    rcases separates with same | same <;> cases same
  | cons first more =>
    obtain ⟨-, rfl⟩ := List.cons.inj split
    cases more with
    | nil => exact alone separator behind rfl rfl
    | cons next more => exact alone next _ rfl rfl

end Front

/-! ## Looking ahead -/

/-- Whether a word ends is seen from two characters. -/
theorem isWordEnd_cons_cons (terminator : Option Char) (char next : Char) (rest more : List Char) :
    isWordEnd terminator (char :: next :: rest) = isWordEnd terminator (char :: next :: more) := by
  by_cases hidden : char = '\\' ∧ next = '\n'
  · obtain ⟨rfl, rfl⟩ := hidden
    rfl
  · have apart : ∀ tail behind, char = '\\' → next :: tail = '\n' :: behind → False := by
      intro tail behind backslash continued
      exact hidden ⟨backslash, (List.cons.inj continued).1⟩
    rw [isWordEnd_cons (apart rest), isWordEnd_cons (apart more)]

theorem isWordEnd_keeps (separates : Separates separator) (terminator : Option Char)
    (inside : List Char) :
    isWordEnd terminator (inside ++ separator :: other) =
      isWordEnd terminator (inside ++ separator :: behind) := by
  match inside with
  | [] => rcases separates with rfl | rfl <;> rfl
  | [char] => exact isWordEnd_cons_cons terminator char separator other behind
  | char :: next :: rest => exact isWordEnd_cons_cons terminator char next _ _

theorem isCommandEnd_keeps (terminator : Option Char) (inside : List Char) :
    isCommandEnd terminator (inside ++ separator :: other) =
      isCommandEnd terminator (inside ++ separator :: behind) := by
  cases inside <;> rfl

theorem startsVariable_keeps (inside : List Char) :
    startsVariable (inside ++ separator :: other) =
      startsVariable (inside ++ separator :: behind) := by
  cases inside <;> rfl

theorem head?_keeps (inside : List Char) :
    (inside ++ separator :: other).head? = (inside ++ separator :: behind).head? := by
  cases inside <;> rfl

/-- A run of characters of a kind that separators are not of ends in front of the separator. -/
theorem takeWhile_separator {kind : Char → Bool} (unlike : kind separator = false)
    (inside tail : List Char) :
    (inside ++ separator :: tail).takeWhile kind = inside.takeWhile kind := by
  induction inside with
  | nil => exact List.takeWhile_cons_of_neg (by simp [unlike])
  | cons char inside ih => simp only [List.cons_append, List.takeWhile_cons, ih]

theorem take_takeWhile_separator {kind : Char → Bool} (unlike : kind separator = false)
    (count : Nat) (inside tail : List Char) :
    ((inside ++ separator :: tail).take count).takeWhile kind =
      (inside.take count).takeWhile kind := by
  induction inside generalizing count with
  | nil => cases count <;> simp [unlike]
  | cons char inside ih => cases count <;> simp [List.takeWhile_cons, ih]

/-! ## Gaps -/

theorem skipBlanks_keeps (separates : Separates separator) (offset : Nat) (inside : List Char) :
    Cursor.Keeps separator behind other (skipBlanks offset (inside ++ separator :: behind))
      (skipBlanks offset (inside ++ separator :: other)) := by
  intro left ends
  generalize split : inside ++ separator :: behind = chars at ends ⊢
  fun_induction skipBlanks offset chars generalizing inside with
  | case1 => simp at split
  | case2 offset rest ih =>
    obtain ⟨more, rfl, further⟩ := exists_inside_two split ((leads_skipBlanks _ _).long ends)
    rw [List.cons_append, List.cons_append, skipBlanks]
    exact ih more further ends
  | case3 offset char rest hidden blank ih =>
    obtain ⟨more, rfl, further⟩ := exists_inside split ((leads_skipBlanks _ _).long ends)
    rw [List.cons_append, skipBlanks, if_pos blank]
    · exact ih more further ends
    · rintro _ rfl
      cases blank
  | case4 offset char rest hidden solid =>
    obtain rfl : inside = left := List.append_cancel_right (split.trans ends)
    obtain ⟨tail, same⟩ : ∃ tail, inside ++ separator :: other = char :: tail := exists_next split
    rw [same, skipBlanks, if_neg solid]
    rintro after rfl rfl
    obtain ⟨further, continued⟩ : ∃ further,
        inside ++ separator :: behind = '\\' :: '\n' :: further := exists_next_two separates same
    exact hidden further rfl (List.cons.inj (split.symm.trans continued)).2

theorem skipGap_keeps (separates : Separates separator) (terminator : Option Char)
    (inComment : Bool) (offset : Nat) (inside : List Char) :
    Cursor.Keeps separator behind other
      (skipGap terminator inComment offset (inside ++ separator :: behind))
      (skipGap terminator inComment offset (inside ++ separator :: other)) := by
  intro left ends
  generalize split : inside ++ separator :: behind = chars at ends ⊢
  fun_induction skipGap terminator inComment offset chars generalizing inside with
  | case1 => simp at split
  | case2 offset char rest ih =>
    obtain ⟨more, rfl, further⟩ := exists_inside_two split ((leads_skipGap _ _ _ _).long ends)
    rw [List.cons_append, List.cons_append, skipGap, if_pos rfl]
    exact ih more further ends
  | case3 inComment offset char rest code lineEnd ih =>
    obtain ⟨more, rfl, further⟩ := exists_inside_two split ((leads_skipGap _ _ _ _).long ends)
    rw [List.cons_append, List.cons_append, skipGap, if_neg code, if_pos lineEnd]
    exact ih more further ends
  | case4 inComment offset char rest code solid =>
    obtain rfl : inside = left := List.append_cancel_right (split.trans ends)
    obtain ⟨tail, same⟩ : ∃ tail, inside ++ separator :: other = '\\' :: char :: tail :=
      exists_next_two separates split
    rw [same, skipGap, if_neg code, if_neg solid]
  | case5 inComment offset char rest alone lineEnd ih =>
    have plain := ne_backslash separates split alone
    obtain ⟨more, rfl, further⟩ := exists_inside split ((leads_skipGap _ _ _ _).long ends)
    rw [List.cons_append, skipGap, if_pos lineEnd]
    · exact ih more further ends
    · exact fun _ _ backslash => absurd backslash plain
  | case6 offset char rest alone notLineEnd closing =>
    have plain := ne_backslash separates split alone
    obtain rfl : inside = left := List.append_cancel_right (split.trans ends)
    obtain ⟨tail, same⟩ : ∃ tail, inside ++ separator :: other = char :: tail := exists_next split
    rw [same, skipGap, if_neg notLineEnd, if_pos rfl, if_pos closing]
    exact fun _ _ backslash => absurd backslash plain
  | case7 offset char rest alone notLineEnd notClosing ih =>
    have plain := ne_backslash separates split alone
    obtain ⟨more, rfl, further⟩ := exists_inside split ((leads_skipGap _ _ _ _).long ends)
    rw [List.cons_append, skipGap, if_neg notLineEnd, if_pos rfl, if_neg notClosing]
    · exact ih more further ends
    · exact fun _ _ backslash => absurd backslash plain
  | case8 inComment offset char rest alone notLineEnd code blank ih =>
    have plain := ne_backslash separates split alone
    obtain ⟨more, rfl, further⟩ := exists_inside split ((leads_skipGap _ _ _ _).long ends)
    rw [List.cons_append, skipGap, if_neg notLineEnd, if_neg code, if_pos blank]
    · exact ih more further ends
    · exact fun _ _ backslash => absurd backslash plain
  | case9 inComment offset char rest alone notLineEnd code solid sharp ih =>
    have plain := ne_backslash separates split alone
    obtain ⟨more, rfl, further⟩ := exists_inside split ((leads_skipGap _ _ _ _).long ends)
    rw [List.cons_append, skipGap, if_neg notLineEnd, if_neg code, if_neg solid, if_pos sharp]
    · exact ih more further ends
    · exact fun _ _ backslash => absurd backslash plain
  | case10 inComment offset char rest alone notLineEnd code solid notSharp =>
    have plain := ne_backslash separates split alone
    obtain rfl : inside = left := List.append_cancel_right (split.trans ends)
    obtain ⟨tail, same⟩ : ∃ tail, inside ++ separator :: other = char :: tail := exists_next split
    rw [same, skipGap, if_neg notLineEnd, if_neg code, if_neg solid, if_neg notSharp]
    exact fun _ _ backslash => absurd backslash plain

/-! ## Substitutions and variables -/

/-- The second way to skip substitutions does what the first does in front of the separator, if
fewer than `bound` characters are in front of it. -/
def Substitution.Keeps (separator : Char) (behind other : List Char) (bound : Nat)
    (inner outer : Substitution) : Prop :=
  ∀ (opening offset : Nat) (inside : List Char), inside.length < bound →
    Parsed.Keeps separator behind other (inner.skip opening ⟨offset, inside ++ separator :: behind⟩)
      (outer.skip opening ⟨offset, inside ++ separator :: other⟩)

theorem skipBracedName_keeps (word offset : Nat) (inside : List Char) :
    Parsed.Keeps separator behind other
      (skipBracedName word offset (inside ++ separator :: behind))
      (skipBracedName word offset (inside ++ separator :: other)) := by
  intro value left done ends
  generalize split : inside ++ separator :: behind = chars at done ends ⊢
  fun_induction skipBracedName word offset chars generalizing inside with
  | case1 => cases done
  | case2 offset char rest next closing =>
    obtain ⟨more, rfl, further⟩ := exists_inside split (length_lt_of_ends ends)
    obtain rfl : more = left := List.append_cancel_right (further.trans ends)
    rw [List.cons_append, skipBracedName, if_pos closing]
  | case3 offset char rest next notClosing ih =>
    obtain ⟨more, rfl, further⟩ := exists_inside split ((leads_skipBracedName _ _ _).long ends)
    rw [List.cons_append, skipBracedName, if_neg notClosing]
    exact ih more further done ends

variable {inner outer : Substitution} {bound : Nat}

theorem skipIndex_keeps (separates : Separates separator) (moves : inner.MovesOn)
    (keeps : inner.Keeps separator behind other bound outer) (depth offset : Nat)
    {inside : List Char} (short : inside.length ≤ bound) :
    Parsed.Keeps separator behind other
      (skipIndex inner depth offset (inside ++ separator :: behind))
      (skipIndex outer depth offset (inside ++ separator :: other)) := by
  intro value left done ends
  generalize split : inside ++ separator :: behind = chars at done ends ⊢
  fun_induction skipIndex inner depth offset chars generalizing inside with
  | case1 => simp at split
  | case2 depth offset rest ih =>
    obtain ⟨more, rfl, further⟩ := exists_inside split ((leads_skipIndex moves _ _ _).long ends)
    rw [List.length_cons] at short
    rw [List.cons_append, skipIndex]
    exact ih (by omega) further done ends
  | case3 depth offset rest last =>
    obtain ⟨more, rfl, further⟩ := exists_inside split (length_lt_of_ends ends)
    obtain rfl : more = left := List.append_cancel_right (further.trans ends)
    rw [List.cons_append, skipIndex, if_pos last]
  | case4 depth offset rest notLast ih =>
    obtain ⟨more, rfl, further⟩ := exists_inside split ((leads_skipIndex moves _ _ _).long ends)
    rw [List.length_cons] at short
    rw [List.cons_append, skipIndex, if_neg notLast]
    exact ih (by omega) further done ends
  | case5 depth offset rest skipped error =>
    rename_i failed
    rw [failed] at done
    cases done
  | case6 depth offset rest skipped found =>
    rename_i ih
    obtain ⟨front, between⟩ := (leads_skipIndex moves _ _ _).exists_front ends
    have onwards : Leads ⟨offset + 1, rest⟩ skipped.cursor := moves _ _
    obtain ⟨more, rfl, further⟩ := exists_inside split (onwards.long between)
    have shorter := onwards.suffix.length_le
    rw [between, ← further, List.length_append, List.length_append] at shorter
    rw [List.length_cons] at short
    have kept : outer.skip offset ⟨offset + 1, more ++ separator :: other⟩ =
        ⟨.ok (), ⟨skipped.cursor.offset, front ++ separator :: other⟩⟩ := by
      subst further
      exact keeps offset (offset + 1) more (by omega) () front found between
    rw [List.cons_append, skipIndex]
    simp only [kept]
    exact ih (by omega) between.symm done ends
  | case7 depth offset char rest ih =>
    obtain ⟨more, rfl, further⟩ := exists_inside_two split ((leads_skipIndex moves _ _ _).long ends)
    simp only [List.length_cons] at short
    rw [List.cons_append, List.cons_append, skipIndex]
    exact ih (by omega) further done ends
  | case8 depth offset char rest notOpening notClosing notBracket alone ih =>
    have plain := ne_backslash separates split alone
    obtain ⟨more, rfl, further⟩ := exists_inside split ((leads_skipIndex moves _ _ _).long ends)
    rw [List.length_cons] at short
    rw [List.cons_append, skipIndex]
    · exact ih (by omega) further done ends
    · exact notOpening
    · exact notClosing
    · exact notBracket
    · exact fun _ _ backslash => absurd backslash plain

theorem isNameChar_separator (separates : Separates separator) : isNameChar separator = false := by
  rcases separates with rfl | rfl <;> decide

/-- What is done behind the name of a variable. -/
def skipIndexed (inner : Substitution) (offset : Nat) (chars : List Char) : Parsed Unit :=
  match chars with
  | '(' :: _ => skipIndex inner 0 offset chars
  | _ => ⟨.ok (), ⟨offset, chars⟩⟩

theorem skipVariable_named {word offset : Nat} {chars : List Char}
    (named : ∀ rest, chars = '{' :: rest → False) :
    skipVariable inner word offset chars =
      skipIndexed inner (offset + (chars.takeWhile isNameChar).length)
        (chars.drop (chars.takeWhile isNameChar).length) := by
  unfold skipVariable
  split
  · rename_i rest
    exact (named rest rfl).elim
  · rfl

theorem skipIndexed_of_ne {offset : Nat} {char : Char} {rest : List Char} (plain : char ≠ '(') :
    skipIndexed inner offset (char :: rest) = ⟨.ok (), ⟨offset, char :: rest⟩⟩ := by
  unfold skipIndexed
  split
  · rename_i same
    exact (plain (List.cons.inj same).1).elim
  · rfl

theorem skipIndexed_keeps (separates : Separates separator) (moves : inner.MovesOn)
    (keeps : inner.Keeps separator behind other bound outer) (offset : Nat) {inside : List Char}
    (short : inside.length ≤ bound) :
    Parsed.Keeps separator behind other
      (skipIndexed inner offset (inside ++ separator :: behind))
      (skipIndexed outer offset (inside ++ separator :: other)) := by
  by_cases opens : ∃ more, inside = '(' :: more
  · obtain ⟨more, rfl⟩ := opens
    exact skipIndex_keeps separates moves keeps 0 offset short
  · obtain ⟨char, plain, starts⟩ : ∃ char, char ≠ '(' ∧
        ∀ tail, ∃ rest, inside ++ separator :: tail = char :: rest := by
      cases inside with
      | nil =>
        refine ⟨separator, ?_, fun tail => ⟨tail, rfl⟩⟩
        rcases separates with rfl | rfl <;> decide
      | cons char more =>
        refine ⟨char, ?_, fun tail => ⟨_, rfl⟩⟩
        rintro rfl
        exact opens ⟨more, rfl⟩
    intro value left done ends
    obtain ⟨rest, same⟩ := starts behind
    rw [same, skipIndexed_of_ne plain] at ends ⊢
    obtain rfl : inside = left := List.append_cancel_right (same.trans ends)
    obtain ⟨tail, stays⟩ := starts other
    rw [stays, skipIndexed_of_ne plain]

theorem skipVariable_keeps (separates : Separates separator) (moves : inner.MovesOn)
    (keeps : inner.Keeps separator behind other bound outer) (word offset : Nat)
    {inside : List Char} (short : inside.length ≤ bound) :
    Parsed.Keeps separator behind other
      (skipVariable inner word offset (inside ++ separator :: behind))
      (skipVariable outer word offset (inside ++ separator :: other)) := by
  by_cases braced : ∃ more, inside = '{' :: more
  · obtain ⟨more, rfl⟩ := braced
    exact skipBracedName_keeps word (offset + 1) more
  · have unlike := isNameChar_separator separates
    have named : ∀ tail rest, inside ++ separator :: tail = '{' :: rest → False := by
      intro tail rest same
      cases inside with
      | nil =>
        obtain ⟨rfl, -⟩ := List.cons.inj same
        rcases separates with impossible | impossible <;> cases impossible
      | cons char more =>
        obtain ⟨rfl, -⟩ := List.cons.inj same
        exact braced ⟨more, rfl⟩
    have name : (inside.takeWhile isNameChar).length ≤ inside.length :=
      (List.takeWhile_prefix isNameChar).length_le
    rw [skipVariable_named (named behind), skipVariable_named (named other),
      takeWhile_separator unlike, takeWhile_separator unlike,
      List.drop_append_of_le_length name, List.drop_append_of_le_length name]
    apply skipIndexed_keeps separates moves keeps
    rw [List.length_drop]
    omega

/-! ## Backslash sequences -/

namespace Backslash

/-- What belongs to a backslash sequence stands in front of the separator. -/
theorem run_separator (separates : Separates separator) (char : Char) (inside tail : List Char) :
    run char (inside ++ separator :: tail) = run char inside := by
  have indent : isIndent separator = false := by
    rcases separates with rfl | rfl <;> decide
  have hex : (hexDigit? separator).isSome = false := by
    rcases separates with rfl | rfl <;> decide
  have octal : (octalDigit? separator).isSome = false := by
    rcases separates with rfl | rfl <;> decide
  unfold run
  split
  · exact takeWhile_separator indent inside tail
  · exact take_takeWhile_separator hex _ inside tail
  · exact take_takeWhile_separator hex _ inside tail
  · exact take_takeWhile_separator hex _ inside tail
  · rw [leadingDigits, leadingDigits, take_takeWhile_separator octal]

theorem decode_keeps (separates : Separates separator) (offset : Nat) {inside left : List Char}
    (ends : (decode offset (inside ++ separator :: behind)).2.rest = left ++ separator :: behind) :
    decode offset (inside ++ separator :: other) =
      ((decode offset (inside ++ separator :: behind)).1,
        ⟨(decode offset (inside ++ separator :: behind)).2.offset, left ++ separator :: other⟩) := by
  cases inside with
  | nil =>
    rw [List.nil_append, decode_cons] at ends
    have shorter := congrArg List.length ends
    rw [List.length_drop, List.length_append, List.length_cons] at shorter
    omega
  | cons char more =>
    have length := (prefix_run char more).length_le
    rw [List.cons_append, decode_cons, run_separator separates,
      List.drop_append_of_le_length length] at ends ⊢
    rw [List.cons_append, decode_cons, run_separator separates,
      List.drop_append_of_le_length length, List.append_cancel_right ends]

end Backslash

/-! ## Words with substitutions -/

theorem Parsed.Keeps.map {α β : Type} {first second : Parsed α}
    (keeps : Parsed.Keeps separator behind other first second) (make : α → β) :
    Parsed.Keeps separator behind other ⟨first.outcome.map make, first.cursor⟩
      ⟨second.outcome.map make, second.cursor⟩ := by
  intro value left done ends
  cases found : first.outcome with
  | error error =>
    rw [found] at done
    cases done
  | ok inner =>
    rw [found] at done
    cases done
    rw [keeps inner left found ends]
    rfl

theorem readElement_keeps (separates : Separates separator) (moves : inner.MovesOn)
    (keeps : inner.Keeps separator behind other bound outer) (word : Nat) (state : WordState)
    (offset : Nat) (char : Char) {inside : List Char} (short : inside.length < bound) :
    Parsed.Keeps separator behind other
      (readElement inner word state offset char (inside ++ separator :: behind))
      (readElement outer word state offset char (inside ++ separator :: other)) := by
  have seen : startsVariable (inside ++ separator :: other) =
      startsVariable (inside ++ separator :: behind) := startsVariable_keeps inside
  unfold readElement
  rw [seen]
  by_cases backslash : (char == '\\') = true
  · rw [if_pos backslash, if_pos backslash]
    intro value left done ends
    have kept : Backslash.decode (offset + 1) (inside ++ separator :: other) = _ :=
      Backslash.decode_keeps separates (offset + 1) ends
    have same : ({ state with
        value := (Backslash.decode (offset + 1) (inside ++ separator :: behind)).1.reverse ++
          state.value } : WordState) = value := Except.ok.inj done
    simp only [kept, same]
  · rw [if_neg backslash, if_neg backslash]
    split
    · exact (skipVariable_keeps separates moves keeps word (offset + 1) (Nat.le_of_lt short)).map _
    · split
      · exact (keeps offset (offset + 1) inside short).map _
      · intro value left done ends
        cases done
        rw [List.append_cancel_right ends]

/-- What is read in front of the separator leaves a shorter text in front of it. -/
theorem exists_inside_element (separates : Separates separator) (moves : inner.MovesOn)
    (keeps : inner.Keeps separator behind other bound outer) {word offset : Nat}
    {state next : WordState} {char : Char} {rest inside front : List Char}
    (split : inside ++ separator :: behind = char :: rest) (short : inside.length ≤ bound)
    (found : (readElement inner word state offset char rest).outcome = .ok next)
    (between : (readElement inner word state offset char rest).cursor.rest =
      front ++ separator :: behind) :
    ∃ more, inside = char :: more ∧ front.length ≤ bound ∧
      readElement outer word state offset char (more ++ separator :: other) =
        ⟨.ok next, ⟨(readElement inner word state offset char rest).cursor.offset,
          front ++ separator :: other⟩⟩ := by
  have shorter := readElement_length_le inner word state offset char rest
  have long := length_lt_of_ends between
  obtain ⟨more, rfl, further⟩ := exists_inside split (by omega)
  rw [between, ← further, List.length_append, List.length_append] at shorter
  rw [List.length_cons] at short
  subst further
  exact ⟨more, rfl, by omega,
    readElement_keeps separates moves keeps word state offset char (by omega) next front found
      between⟩

theorem readQuoted_keeps (separates : Separates separator) (moves : inner.MovesOn)
    (keeps : inner.Keeps separator behind other bound outer) (word : Nat) (state : WordState)
    (offset : Nat) {inside : List Char} (short : inside.length ≤ bound) :
    Parsed.Keeps separator behind other
      (readQuoted inner word state offset (inside ++ separator :: behind))
      (readQuoted outer word state offset (inside ++ separator :: other)) := by
  intro value left done ends
  generalize split : inside ++ separator :: behind = chars at done ends ⊢
  fun_induction readQuoted inner word state offset chars generalizing inside with
  | case1 => cases done
  | case2 state offset char rest closing =>
    obtain rfl : inside = left := List.append_cancel_right (split.trans ends)
    obtain ⟨tail, same⟩ : ∃ tail, inside ++ separator :: other = char :: tail := exists_next split
    cases done
    rw [same, readQuoted, if_pos closing]
  | case3 => cases done
  | case4 state offset char rest notClosing read next found =>
    rename_i ih
    obtain ⟨front, between⟩ := (leads_readQuoted moves word next _ _).exists_front ends
    obtain ⟨more, rfl, fewer, kept⟩ :=
      exists_inside_element separates moves keeps split short found between
    rw [List.cons_append, readQuoted, if_neg notClosing]
    simp only [kept]
    exact ih fewer between.symm done ends

theorem readBare_keeps (separates : Separates separator) (moves : inner.MovesOn)
    (keeps : inner.Keeps separator behind other bound outer) (terminator : Option Char)
    (word : Nat) (state : WordState) (offset : Nat) {inside : List Char}
    (short : inside.length ≤ bound) :
    Parsed.Keeps separator behind other
      (readBare inner terminator word state offset (inside ++ separator :: behind))
      (readBare outer terminator word state offset (inside ++ separator :: other)) := by
  intro value left done ends
  have seen : isWordEnd terminator (inside ++ separator :: other) =
      isWordEnd terminator (inside ++ separator :: behind) :=
    isWordEnd_keeps separates terminator inside
  generalize split : inside ++ separator :: behind = chars at done ends seen ⊢
  fun_induction readBare inner terminator word state offset chars generalizing inside with
  | case1 state offset chars ended =>
    obtain rfl : inside = left := List.append_cancel_right (split.trans ends)
    cases done
    rw [readBare.eq_def, if_pos (seen.trans ended)]
  | case2 => simp at split
  | case3 => cases done
  | case4 state offset char rest read next found notEnded =>
    rename_i ih
    obtain ⟨front, between⟩ := (leads_readBare moves terminator word next _ _).exists_front ends
    obtain ⟨more, rfl, fewer, kept⟩ :=
      exists_inside_element separates moves keeps split short found between
    rw [List.cons_append] at seen
    rw [List.cons_append, readBare, if_neg (by rw [seen]; exact notEnded)]
    simp only [kept]
    refine ih fewer between.symm done ends ?_
    rw [between]
    exact isWordEnd_keeps separates terminator front

/-! ## Words -/

theorem readBraced_keeps (separates : Separates separator) (word depth : Nat)
    (content : List Char) (offset : Nat) (inside : List Char) :
    Parsed.Keeps separator behind other
      (readBraced word depth content offset (inside ++ separator :: behind))
      (readBraced word depth content offset (inside ++ separator :: other)) := by
  intro value left done ends
  generalize split : inside ++ separator :: behind = chars at done ends ⊢
  fun_induction readBraced word depth content offset chars generalizing inside with
  | case1 => cases done
  | case2 depth content offset char rest ih =>
    obtain ⟨more, rfl, further⟩ :=
      exists_inside_two split ((leads_readBraced _ _ _ _ _).long ends)
    rw [List.cons_append, List.cons_append, readBraced]
    exact ih more further done ends
  | case3 depth content offset rest ih =>
    obtain ⟨more, rfl, further⟩ := exists_inside split ((leads_readBraced _ _ _ _ _).long ends)
    rw [List.cons_append, readBraced]
    exact ih more further done ends
  | case4 content offset rest =>
    obtain ⟨more, rfl, further⟩ := exists_inside split (length_lt_of_ends ends)
    obtain rfl : more = left := List.append_cancel_right (further.trans ends)
    cases done
    rw [List.cons_append, readBraced]
  | case5 content offset rest depth ih =>
    obtain ⟨more, rfl, further⟩ := exists_inside split ((leads_readBraced _ _ _ _ _).long ends)
    rw [List.cons_append, readBraced]
    exact ih more further done ends
  | case6 depth content offset char rest alone notOpening notClosing ih =>
    have plain := ne_backslash separates split alone
    obtain ⟨more, rfl, further⟩ := exists_inside split ((leads_readBraced _ _ _ _ _).long ends)
    rw [List.cons_append, readBraced]
    · exact ih more further done ends
    · exact fun _ _ backslash => absurd backslash plain
    · exact notOpening
    · exact notClosing

/-- The text that was passed stands in front of the separator. -/
theorem textTo_keeps {offset : Nat} {inside left : List Char} {stop : Cursor}
    (leads : Leads ⟨offset, inside ++ separator :: behind⟩ stop)
    (ends : stop.rest = left ++ separator :: behind) :
    textTo ⟨offset, inside ++ separator :: other⟩ ⟨stop.offset, left ++ separator :: other⟩ =
      textTo ⟨offset, inside ++ separator :: behind⟩ stop := by
  obtain ⟨passed, split, sized⟩ := leads
  rw [textTo_eq split sized]
  apply textTo_eq
  · rw [ends, ← List.append_assoc] at split
    rw [List.append_cancel_right split, List.append_assoc]
  · exact sized

theorem endDelimited_keeps (separates : Separates separator) (terminator : Option Char)
    (after : Delimiter) (word : Word) (offset : Nat) (inside : List Char) :
    Parsed.Keeps separator behind other
      (endDelimited terminator after word ⟨offset, inside ++ separator :: behind⟩)
      (endDelimited terminator after word ⟨offset, inside ++ separator :: other⟩) := by
  have seen : isWordEnd terminator (inside ++ separator :: other) =
      isWordEnd terminator (inside ++ separator :: behind) :=
    isWordEnd_keeps separates terminator inside
  intro value left done ends
  rw [endDelimited_cursor] at ends ⊢
  by_cases ended : isWordEnd terminator (inside ++ separator :: behind) = true
  · rw [endDelimited, if_pos ended] at done
    cases done
    rw [endDelimited, if_pos (seen.trans ended), List.append_cancel_right ends]
  · rw [endDelimited, if_neg ended] at done
    cases done

theorem parseBraced_keeps (separates : Separates separator) (terminator : Option Char)
    (offset : Nat) (inside : List Char) :
    Parsed.Keeps separator behind other
      (parseBraced terminator offset (inside ++ separator :: behind))
      (parseBraced terminator offset (inside ++ separator :: other)) := by
  intro value left done ends
  have kept : Parsed.Keeps separator behind other _ _ :=
    readBraced_keeps separates offset 0 [] (offset + 1) inside
  unfold parseBraced at done ends ⊢
  generalize readBraced offset 0 [] (offset + 1) (inside ++ separator :: behind) = read
    at kept done ends ⊢
  obtain ⟨outcome, cursor⟩ := read
  cases outcome with
  | error error => cases done
  | ok content =>
    simp only [endDelimited_cursor] at ends
    rw [kept content left rfl ends]
    obtain ⟨stop, rest⟩ := cursor
    cases ends
    exact endDelimited_keeps separates terminator .brace _ stop left value left done
      (by rw [endDelimited_cursor])

theorem parseQuoted_keeps (separates : Separates separator) (moves : inner.MovesOn)
    (keeps : inner.Keeps separator behind other bound outer) (terminator : Option Char)
    (offset : Nat) {inside : List Char} (short : inside.length ≤ bound) :
    Parsed.Keeps separator behind other
      (parseQuoted inner terminator offset (inside ++ separator :: behind))
      (parseQuoted outer terminator offset (inside ++ separator :: other)) := by
  intro value left done ends
  have kept : Parsed.Keeps separator behind other _ _ :=
    readQuoted_keeps separates moves keeps offset ⟨[], true⟩ (offset + 1) short
  have leads := leads_readQuoted moves offset ⟨[], true⟩ (offset + 1)
    (inside ++ separator :: behind)
  have closed : ∀ state,
      (readQuoted inner offset ⟨[], true⟩ (offset + 1) (inside ++ separator :: behind)).outcome =
        .ok state → _ := fun _ => readQuoted_closed
  unfold parseQuoted at done ends ⊢
  generalize readQuoted inner offset ⟨[], true⟩ (offset + 1) (inside ++ separator :: behind) = read
    at kept leads closed done ends ⊢
  obtain ⟨outcome, ⟨stop, rest⟩⟩ := read
  cases outcome with
  | error error => cases done
  | ok state =>
    obtain ⟨tail, quote⟩ := closed state rfl
    change rest = '"' :: tail at quote
    subst quote
    simp only [endDelimited_cursor, List.drop_succ_cons, List.drop_zero] at ends
    subst ends
    have text : textTo ⟨offset + 1, inside ++ separator :: other⟩
        ⟨stop, '"' :: left ++ separator :: other⟩ = _ := textTo_keeps leads rfl
    rw [kept state ('"' :: left) rfl rfl]
    simp only [text]
    exact endDelimited_keeps separates terminator .quote _ (stop + 1) left value left done
      (by rw [endDelimited_cursor])

theorem parseBare_keeps (separates : Separates separator) (moves : inner.MovesOn)
    (keeps : inner.Keeps separator behind other bound outer) (terminator : Option Char)
    (offset : Nat) {inside : List Char} (short : inside.length ≤ bound) :
    Parsed.Keeps separator behind other
      (parseBare inner terminator offset (inside ++ separator :: behind))
      (parseBare outer terminator offset (inside ++ separator :: other)) := by
  intro value left done ends
  have kept : Parsed.Keeps separator behind other _ _ :=
    readBare_keeps separates moves keeps terminator offset ⟨[], true⟩ offset short
  have leads := leads_readBare moves terminator offset ⟨[], true⟩ offset
    (inside ++ separator :: behind)
  unfold parseBare at done ends ⊢
  generalize readBare inner terminator offset ⟨[], true⟩ offset (inside ++ separator :: behind) =
    read at kept leads done ends ⊢
  obtain ⟨outcome, ⟨stop, rest⟩⟩ := read
  cases outcome with
  | error error => cases done
  | ok state =>
    change rest = left ++ separator :: behind at ends
    subst ends
    have text : textTo ⟨offset, inside ++ separator :: other⟩ ⟨stop, left ++ separator :: other⟩ =
        _ := textTo_keeps leads rfl
    cases done
    rw [kept state left rfl rfl]
    simp only [text]

/-- The three characters in front of a word that is expanded are in front of the separator. -/
theorem exists_inside_expansion (separates : Separates separator) {inside rest : List Char}
    (split : inside ++ separator :: behind = '{' :: '*' :: '}' :: rest) :
    ∃ more, inside = '{' :: '*' :: '}' :: more ∧ more ++ separator :: behind = rest := by
  have unlike : '{' ≠ separator ∧ '*' ≠ separator ∧ '}' ≠ separator := by
    rcases separates with rfl | rfl <;> decide
  obtain ⟨first, rfl, further⟩ := exists_inside_of_ne unlike.1 split
  obtain ⟨second, rfl, behindBrace⟩ := exists_inside_of_ne unlike.2.1 further
  obtain ⟨more, rfl, same⟩ := exists_inside_of_ne unlike.2.2 behindBrace
  exact ⟨more, rfl, same⟩

theorem parseWord_keeps (separates : Separates separator) (moves : inner.MovesOn)
    (keeps : inner.Keeps separator behind other bound outer) (terminator : Option Char)
    (offset : Nat) {inside : List Char} (short : inside.length ≤ bound) :
    Parsed.Keeps separator behind other
      (parseWord inner terminator offset (inside ++ separator :: behind))
      (parseWord outer terminator offset (inside ++ separator :: other)) := by
  intro value left done ends
  generalize split : inside ++ separator :: behind = chars at done ends ⊢
  fun_induction parseWord inner terminator offset chars generalizing inside value with
  | case1 offset rest ended =>
    obtain ⟨more, rfl, further⟩ := exists_inside_expansion separates split
    subst further
    have seen : isWordEnd terminator (more ++ separator :: other) = true := by
      rw [isWordEnd_keeps separates, ended]
    rw [List.cons_append, List.cons_append, List.cons_append, parseWord, if_pos seen]
    exact parseBraced_keeps separates terminator offset ('*' :: '}' :: more) value left done ends
  | case2 => cases done
  | case3 offset rest notEnded expanded word found =>
    rename_i ih
    obtain ⟨more, rfl, further⟩ := exists_inside_expansion separates split
    simp only [List.length_cons] at short
    have leads : Leads ⟨offset, '{' :: '*' :: '}' :: rest⟩ expanded.cursor :=
      .step rfl (.step rfl (.step rfl (leads_parseWord moves terminator (offset + 3) rest)))
    have kept : parseWord outer terminator (offset + 3) (more ++ separator :: other) =
        ⟨.ok word, ⟨expanded.cursor.offset, left ++ separator :: other⟩⟩ :=
      ih (by omega) word further found ends
    subst further
    have text : textTo ⟨offset, '{' :: '*' :: '}' :: more ++ separator :: other⟩
        ⟨expanded.cursor.offset, left ++ separator :: other⟩ = _ := textTo_keeps leads ends
    have seen : ¬isWordEnd terminator (more ++ separator :: other) = true := by
      rw [isWordEnd_keeps separates]
      exact notEnded
    simp only [List.cons_append] at text ⊢
    rw [parseWord, if_neg seen]
    simp only [kept, text]
    cases done
    rfl
  | case4 offset rest notExpanded =>
    have plain : '{' ≠ separator := by
      rcases separates with rfl | rfl <;> decide
    obtain ⟨more, rfl, further⟩ := exists_inside_of_ne plain split
    subst further
    rw [List.cons_append, parseWord]
    · exact parseBraced_keeps separates terminator offset more value left done ends
    · intro tail expands
      have whole : '{' :: more ++ separator :: other = '{' :: '*' :: '}' :: tail :=
        congrArg ('{' :: ·) expands
      obtain ⟨inside, same, -⟩ := exists_inside_expansion separates whole
      obtain ⟨-, rfl⟩ := List.cons.inj same
      exact notExpanded _ rfl
  | case5 offset rest =>
    have plain : '"' ≠ separator := by
      rcases separates with rfl | rfl <;> decide
    obtain ⟨more, rfl, further⟩ := exists_inside_of_ne plain split
    subst further
    rw [List.length_cons] at short
    rw [List.cons_append, parseWord]
    exact parseQuoted_keeps separates moves keeps terminator offset (by omega) value left done ends
  | case6 offset chars notExpanded notBraced notQuoted =>
    subst split
    have starts : ∀ char tail, inside ++ separator :: other = char :: tail →
        ∃ rest, inside ++ separator :: behind = char :: rest := fun _ _ => exists_next
    rw [parseWord]
    · exact parseBare_keeps separates moves keeps terminator offset short value left done ends
    · intro tail expands
      obtain ⟨rest, braced⟩ := starts _ _ expands
      exact notBraced rest braced
    · intro tail starting
      obtain ⟨rest, braced⟩ := starts _ _ starting
      exact notBraced rest braced
    · intro tail starting
      obtain ⟨rest, quoted⟩ := starts _ _ starting
      exact notQuoted rest quoted

/-! ## Commands -/

theorem parseWords_keeps (separates : Separates separator) (moves : inner.MovesOn)
    (keeps : inner.Keeps separator behind other bound outer) (terminator : Option Char)
    (words : List Word) (offset : Nat) {inside : List Char} (short : inside.length ≤ bound) :
    Parsed.Keeps separator behind other
      (parseWords inner terminator words offset (inside ++ separator :: behind))
      (parseWords outer terminator words offset (inside ++ separator :: other)) := by
  intro value left done ends
  generalize split : inside ++ separator :: behind = chars at done ends ⊢
  fun_induction parseWords inner terminator words offset chars generalizing inside with
  | case1 words offset chars here =>
    rename_i ended
    subst split
    have kept : skipBlanks offset (inside ++ separator :: other) =
        ⟨here.offset, left ++ separator :: other⟩ :=
      skipBlanks_keeps separates offset inside left ends
    change here.rest = left ++ separator :: behind at ends
    have seen : isCommandEnd terminator (left ++ separator :: other) = true := by
      rw [isCommandEnd_keeps, ← ends, ended]
    cases done
    rw [parseWords]
    simp only [kept]
    rw [dif_pos seen]
  | case2 => cases done
  | case3 words offset chars here notEnded parsed word found =>
    rename_i ih
    obtain ⟨front, between⟩ := (leads_parseWords moves terminator _ _ _).exists_front ends
    have onwards : here.Leads parsed.cursor := leads_parseWord moves terminator _ _
    obtain ⟨middle, starts⟩ := onwards.exists_front between
    have blanks : here.rest.length ≤ chars.length := skipBlanks_length_le offset chars
    have shorter := onwards.suffix.length_le
    rw [between, starts, List.length_append, List.length_append] at shorter
    rw [starts, ← split, List.length_append, List.length_append] at blanks
    have keptBlanks : skipBlanks offset (inside ++ separator :: other) =
        ⟨here.offset, middle ++ separator :: other⟩ := by
      subst split
      exact skipBlanks_keeps separates offset inside middle starts
    have keptWord : parseWord outer terminator here.offset (middle ++ separator :: other) =
        ⟨.ok word, ⟨parsed.cursor.offset, front ++ separator :: other⟩⟩ := by
      have keepsWord : Parsed.Keeps separator behind other
          (parseWord inner terminator here.offset (middle ++ separator :: behind))
          (parseWord outer terminator here.offset (middle ++ separator :: other)) :=
        parseWord_keeps separates moves keeps terminator here.offset (by omega)
      rw [← starts] at keepsWord
      exact keepsWord word front found between
    have seen : ¬isCommandEnd terminator (middle ++ separator :: other) = true := by
      rw [isCommandEnd_keeps, ← starts]
      exact notEnded
    rw [parseWords]
    simp only [keptBlanks]
    rw [dif_neg seen]
    simp only [keptWord]
    exact ih (by omega) between.symm done ends

theorem parseCommand_keeps (separates : Separates separator) (moves : inner.MovesOn)
    (keeps : inner.Keeps separator behind other bound outer) (terminator : Option Char)
    (offset : Nat) {inside : List Char} (short : inside.length ≤ bound) :
    Parsed.Keeps separator behind other
      (parseCommand inner terminator ⟨offset, inside ++ separator :: behind⟩)
      (parseCommand outer terminator ⟨offset, inside ++ separator :: other⟩) := by
  intro value left done ends
  have keptGap : Cursor.Keeps separator behind other _ _ :=
    skipGap_keeps separates terminator false offset inside
  have gap := skipGap_length_le terminator false offset (inside ++ separator :: behind)
  unfold parseCommand at done ends ⊢
  simp only at done ends ⊢
  generalize skipGap terminator false offset (inside ++ separator :: behind) = here
    at keptGap gap done ends ⊢
  obtain ⟨start, rest⟩ := here
  by_cases ended : rest = [] ∨ rest.head? = terminator
  · rw [if_pos ended] at done ends ⊢
    cases done
    change rest = left ++ separator :: behind at ends
    have seen : left ++ separator :: other = [] ∨
        (left ++ separator :: other).head? = terminator := by
      subst ends
      rcases ended with empty | closing
      · simp at empty
      · exact .inr ((head?_keeps left).trans closing)
    rw [keptGap left ends, if_pos seen]
  · rw [if_neg ended] at done ends ⊢
    obtain ⟨front, rfl⟩ := (leads_parseWords moves terminator _ _ _).exists_front ends
    have seen : ¬(front ++ separator :: other = [] ∨
        (front ++ separator :: other).head? = terminator) := by
      rw [head?_keeps]
      rintro (empty | closing)
      · simp at empty
      · exact ended (.inr closing)
    rw [List.length_append, List.length_append] at gap
    have keptWords : Parsed.Keeps separator behind other
        (parseWords inner terminator [] start (front ++ separator :: behind))
        (parseWords outer terminator [] start (front ++ separator :: other)) :=
      parseWords_keeps separates moves keeps terminator [] start (by omega)
    rw [keptGap front rfl, if_neg seen]
    exact keptWords.map _ value left done ends

/-! ## Substitutions in front of the separator -/

theorem skipScript_keeps (separates : Separates separator) (moves : inner.MovesOn)
    (keeps : inner.Keeps separator behind other bound outer) (opening offset : Nat)
    {inside : List Char} (short : inside.length ≤ bound) :
    Parsed.Keeps separator behind other
      (skipScript inner opening ⟨offset, inside ++ separator :: behind⟩)
      (skipScript outer opening ⟨offset, inside ++ separator :: other⟩) := by
  intro value left done ends
  generalize split : (⟨offset, inside ++ separator :: behind⟩ : Cursor) = cursor at done ends ⊢
  fun_induction skipScript inner opening cursor generalizing inside offset with
  | case1 => cases done
  | case2 cursor parsed command found ih =>
    subst split
    obtain ⟨front, between⟩ := (leads_skipScript moves opening _).exists_front ends
    have kept : parseCommand outer (some ']') ⟨offset, inside ++ separator :: other⟩ =
        ⟨.ok (some command), ⟨parsed.cursor.offset, front ++ separator :: other⟩⟩ :=
      parseCommand_keeps separates moves keeps _ offset short _ front found between
    have outcome : (parseCommand outer (some ']') ⟨offset, inside ++ separator :: other⟩).outcome =
        .ok (some command) := by rw [kept]
    have shorter : parsed.cursor.rest.length ≤ (inside ++ separator :: behind).length :=
      (leads_parseCommand moves (some ']') ⟨offset, inside ++ separator :: behind⟩).suffix.length_le
    rw [between, List.length_append, List.length_append] at shorter
    rw [skipScript_of_command outcome, kept]
    have stands : (⟨parsed.cursor.offset, front ++ separator :: behind⟩ : Cursor) =
        parsed.cursor := by rw [← between]
    exact ih parsed.cursor.offset (by omega) stands done ends
  | case3 cursor parsed ended rest closed =>
    subst split
    change rest = left ++ separator :: behind at ends
    subst ends
    have kept : parseCommand outer (some ']') ⟨offset, inside ++ separator :: other⟩ =
        ⟨.ok none, ⟨parsed.cursor.offset, ']' :: left ++ separator :: other⟩⟩ :=
      parseCommand_keeps separates moves keeps _ offset short _ (']' :: left) ended closed
    have outcome : (parseCommand outer (some ']') ⟨offset, inside ++ separator :: other⟩).outcome =
        .ok none := by rw [kept]
    have stop : (parseCommand outer (some ']')
        ⟨offset, inside ++ separator :: other⟩).cursor.rest =
          ']' :: (left ++ separator :: other) := by
      rw [kept]
      rfl
    cases done
    rw [skipScript_closed outcome stop, kept]
  | case4 => cases done

/-- As many levels of substitutions as there are characters in front of the separator are enough. -/
theorem Substitution.keeps_within (separates : Separates separator) {levels others : Nat}
    (enough : bound ≤ others) :
    (within levels).Keeps separator behind other bound (within others) := by
  induction bound generalizing levels others with
  | zero =>
    intro opening offset inside short
    exact absurd short (Nat.not_lt_zero _)
  | succ bound ih =>
    cases others with
    | zero => exact absurd enough (Nat.not_succ_le_zero _)
    | succ others =>
      cases levels with
      | zero =>
        intro opening offset inside short value left done
        cases done
      | succ levels =>
        intro opening offset inside short
        exact skipScript_keeps separates (movesOn_within levels)
          (ih (Nat.le_of_succ_le_succ enough)) opening offset (Nat.le_of_lt_succ short)

/-! ## Scripts that go on differently -/

/-- A call for the next command that stops in front of a separator finds the same, whatever stands
behind the separator. -/
theorem nextCommand_keeps (separates : Separates separator) (offset : Nat) (inside : List Char) :
    Parsed.Keeps separator behind other
      (nextCommand ⟨offset, inside ++ separator :: behind⟩)
      (nextCommand ⟨offset, inside ++ separator :: other⟩) := by
  have enough : inside.length ≤ (inside ++ separator :: other).length := by
    rw [List.length_append]
    exact Nat.le_add_right _ _
  exact parseCommand_keeps separates (Substitution.movesOn_within _)
    (Substitution.keeps_within separates enough) none offset (Nat.le_refl _)

/-- A separator is passed as if the script started behind it. -/
theorem nextCommand_separator (separates : Separates separator) (offset : Nat)
    (chars : List Char) :
    nextCommand ⟨offset, separator :: chars⟩ =
      (nextCommand ⟨0, chars⟩).displace (Option.map (Command.displace (offset + 1)))
        (offset + 1) := by
  have plain : ∀ char rest, separator = '\\' → chars = char :: rest → False := by
    rintro char rest rfl
    rcases separates with impossible | impossible <;> cases impossible
  have passed : skipGap none false offset (separator :: chars) =
      skipGap none false (offset + 1) chars := by
    rw [skipGap.eq_3 _ _ _ _ _ plain]
    rcases separates with rfl | rfl <;> rfl
  have behindIt : nextCommand ⟨offset, separator :: chars⟩ =
      parseCommand (.within (chars.length + 1)) none (Cursor.displace (offset + 1) ⟨0, chars⟩) := by
    unfold nextCommand parseCommand
    rw [passed, displace_mk, Nat.zero_add]
    rfl
  rw [behindIt]
  exact parseCommand_displace
    (Substitution.displaced_within (Nat.le_refl _) (Nat.le_succ _)) none (Nat.le_refl _)

end CompiledScript
