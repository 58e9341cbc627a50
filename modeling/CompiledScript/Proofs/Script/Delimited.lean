import Mathlib.Data.List.Infix
import CompiledScript.Proofs.Script.Movement

/-!
# Texts between delimiters

Between braces a text stands as it is.  This needs three things of it: its own braces
balance, so that the closing one is the one that was put behind it, it does not end in a
backslash that hides this brace, and none of its lines is continued, since continued
lines are joined.

Between quotes any text may stand.  The characters that would end the word, start
a substitution or hide another character get a backslash in front, and all others stand
as they are.
-/

set_option autoImplicit false

namespace CompiledScript

open Cursor

/-! ## Between braces -/

/-- How many braces are open behind a text, if there are any number open in front of it.  The
character behind a backslash does not count.  There is no answer if a brace is closed that is not
open, or if the text ends in a backslash that hides what stands behind the text. -/
def openBehind? : (opened : Nat) → List Char → Option Nat
  | opened, [] => some opened
  | opened, '\\' :: hidden =>
    match hidden with
    | [] => none
    | _ :: rest => openBehind? opened rest
  | opened, '{' :: rest => openBehind? (opened + 1) rest
  | opened, '}' :: rest =>
    match opened with
    | 0 => none
    | opened + 1 => openBehind? opened rest
  | opened, _ :: rest => openBehind? opened rest
termination_by structural _ text => text

/-- A text that stands for itself between braces. -/
structure Braceable (text : List Char) : Prop where
  balanced : openBehind? 0 text = some 0
  /-- No line is continued. -/
  whole : ¬['\\', '\n'] <:+: text

instance (text : List Char) : Decidable (Braceable text) :=
  decidable_of_iff (openBehind? 0 text = some 0 ∧ ¬['\\', '\n'] <:+: text)
    ⟨fun parts => ⟨parts.1, parts.2⟩, fun braceable => ⟨braceable.balanced, braceable.whole⟩⟩

theorem openBehind?_cons {char : Char} (notHiding : char ≠ '\\') (notOpening : char ≠ '{')
    (notClosing : char ≠ '}') (opened : Nat) (rest : List Char) :
    openBehind? opened (char :: rest) = openBehind? opened rest := by
  rw [openBehind?] <;> assumption

theorem openBehind?_append {opened between : Nat} {front : List Char}
    (balanced : openBehind? opened front = some between) (back : List Char) :
    openBehind? opened (front ++ back) = openBehind? between back := by
  fun_induction openBehind? opened front with
  | case1 opened =>
    cases balanced
    rfl
  | case2 => cases balanced
  | case3 opened char rest ih => exact ih balanced
  | case4 opened rest ih => exact ih balanced
  | case5 => cases balanced
  | case6 rest opened ih => exact ih balanced
  | case7 opened char rest notHiding notOpening notClosing ih =>
    rw [List.cons_append, openBehind?_cons notHiding notOpening notClosing]
    exact ih balanced

/-- Further braces around a text stay open. -/
theorem openBehind?_add {opened stop : Nat} {text : List Char}
    (balanced : openBehind? opened text = some stop) (further : Nat) :
    openBehind? (opened + further) text = some (stop + further) := by
  fun_induction openBehind? opened text with
  | case1 opened =>
    cases balanced
    rfl
  | case2 => cases balanced
  | case3 opened char rest ih => exact ih balanced
  | case4 opened rest ih =>
    rw [openBehind?, Nat.add_right_comm]
    exact ih balanced
  | case5 => cases balanced
  | case6 rest opened ih =>
    rw [Nat.succ_add]
    exact ih balanced
  | case7 opened char rest notHiding notOpening notClosing ih =>
    rw [openBehind?_cons notHiding notOpening notClosing]
    exact ih balanced

/-- Where the braces of a text balance, the word ends at the brace behind it. -/
theorem readBraced_balanced (word : Nat) {opened : Nat} {inside : List Char}
    (balanced : openBehind? opened inside = some 0) (content : List Char) (offset : Nat)
    (rest : List Char) :
    readBraced word opened content offset (inside ++ '}' :: rest) =
      ⟨.ok (inside.reverse ++ content), ⟨offset + octets inside + 1, rest⟩⟩ := by
  have one : '\\'.utf8Size = 1 ∧ '{'.utf8Size = 1 ∧ '}'.utf8Size = 1 := ⟨rfl, rfl, rfl⟩
  fun_induction openBehind? opened inside generalizing content offset with
  | case1 opened =>
    cases balanced
    rfl
  | case2 => cases balanced
  | case3 opened char inside ih =>
    simp only [List.cons_append, readBraced, ih balanced, List.reverse_cons, List.append_assoc,
      List.nil_append, octets_cons, one, Nat.add_assoc]
  | case4 opened inside ih =>
    simp only [List.cons_append, readBraced, ih balanced, List.reverse_cons, List.append_assoc,
      List.nil_append, octets_cons, one, Nat.add_assoc]
  | case5 => cases balanced
  | case6 inside opened ih =>
    simp only [List.cons_append, readBraced, ih balanced, List.reverse_cons, List.append_assoc,
      List.nil_append, octets_cons, one, Nat.add_assoc]
  | case7 opened char inside notHiding notOpening notClosing ih =>
    rw [List.cons_append, readBraced, ih balanced]
    · simp only [List.reverse_cons, List.append_assoc, List.singleton_append, octets_cons,
        Nat.add_assoc]
    · exact fun _ _ backslash => absurd backslash notHiding
    · exact notOpening
    · exact notClosing

/-- Where no line is continued, joining leaves a text as it is. -/
theorem Backslash.joinLines_whole {joined : List Char} {run : Nat} {text : List Char}
    (whole : ¬['\\', '\n'] <:+: text) : joinLines joined run text = joined.reverse ++ text := by
  fun_induction joinLines joined run text with
  | case1 => simp
  | case2 joined run rest => exact absurd ⟨[], rest, rfl⟩ whole
  | case3 joined run rest => exact absurd ⟨[], rest, rfl⟩ whole
  | case4 joined run char rest other ih =>
    have further : ¬['\\', '\n'] <:+: rest := fun hidden => whole (List.infix_cons hidden)
    simp only [dite_eq_ite] at ih
    rw [ih further, List.reverse_cons, List.append_assoc]
    rfl

/-- A text that may stand between braces is the value of the word. -/
theorem parseBraced_braceable {text : List Char} (braceable : Braceable text)
    {terminator : Option Char} {rest : List Char} (ends : isWordEnd terminator rest = true)
    (offset : Nat) :
    parseBraced terminator offset (text ++ '}' :: rest) =
      ⟨.ok ⟨String.ofList text, true, .braced, offset⟩, ⟨offset + 1 + octets text + 1, rest⟩⟩ := by
  have collapsed : Backslash.collapse text = text := Backslash.joinLines_whole braceable.whole
  unfold parseBraced
  simp only [readBraced_balanced offset braceable.balanced, List.append_nil, List.reverse_reverse,
    collapsed, endDelimited, ends, if_true]

/-- Behind an asterisk only the brace of the word itself can close. -/
theorem Braceable.eq_asterisk {text rest behind : List Char} (braceable : Braceable text)
    (starts : text ++ '}' :: rest = '*' :: '}' :: behind) : text = ['*'] ∧ rest = behind := by
  match text with
  | [] => cases starts
  | [_] =>
    cases starts
    exact ⟨rfl, rfl⟩
  | _ :: _ :: _ =>
    cases starts
    cases braceable.balanced

/-- A text that may stand between braces can be read back from there, also where three characters
look like the mark of an expansion. -/
theorem parseWord_braceable (inner : Substitution) {text : List Char} (braceable : Braceable text)
    {terminator : Option Char} {rest : List Char} (ends : isWordEnd terminator rest = true)
    (offset : Nat) :
    parseWord inner terminator offset ('{' :: (text ++ '}' :: rest)) =
      ⟨.ok ⟨String.ofList text, true, .braced, offset⟩, ⟨offset + 1 + octets text + 1, rest⟩⟩ := by
  have braced := parseBraced_braceable braceable ends offset
  rw [parseWord.eq_def]
  split
  · rename_i behind starts
    obtain ⟨rfl, rfl⟩ := braceable.eq_asterisk (List.cons.inj starts).2
    rw [if_pos ends]
    exact braced
  · rename_i starts
    cases starts
    exact braced
  · rename_i starts
    cases starts
  · rename_i notBraced _
    exact (notBraced _ rfl).elim

/-! ## Between quotes -/

/-- Whether a character means something between quotes. -/
def isSpecial (char : Char) : Bool :=
  char == '\\' || char == '"' || char == '$' || char == '['

/-- A character as it is written between quotes. -/
def quote (char : Char) : List Char := if isSpecial char then ['\\', char] else [char]

/-- A character that is written between quotes is read as itself. -/
theorem readQuoted_quote (inner : Substitution) (word : Nat) (value : List Char) (offset : Nat)
    (char : Char) (rest : List Char) :
    readQuoted inner word ⟨value, true⟩ offset (quote char ++ rest) =
      readQuoted inner word ⟨char :: value, true⟩ (offset + octets (quote char)) rest := by
  unfold quote
  split
  · rename_i special
    simp only [isSpecial, Bool.or_eq_true, beq_iff_eq] at special
    rw [List.cons_append, List.singleton_append, readQuoted]
    rcases special with ((rfl | rfl) | rfl) | rfl <;> rfl
  · rename_i plain
    simp only [isSpecial, Bool.or_eq_true, beq_iff_eq, not_or] at plain
    obtain ⟨⟨⟨notHiding, notQuote⟩, notDollar⟩, notBracket⟩ := plain
    rw [List.singleton_append, readQuoted]
    simp [readElement, notHiding, notQuote, notDollar, notBracket]

theorem readQuoted_quoted (inner : Substitution) (word : Nat) (value : List Char) (offset : Nat)
    (text rest : List Char) :
    readQuoted inner word ⟨value, true⟩ offset (text.flatMap quote ++ '"' :: rest) =
      ⟨.ok ⟨text.reverse ++ value, true⟩,
        ⟨offset + octets (text.flatMap quote), '"' :: rest⟩⟩ := by
  induction text generalizing value offset with
  | nil =>
    rw [List.flatMap_nil, List.nil_append, readQuoted]
    rfl
  | cons char text ih =>
    rw [List.flatMap_cons, List.append_assoc, readQuoted_quote, ih, octets_append,
      List.reverse_cons, List.append_assoc, Nat.add_assoc]
    rfl

/-- Any text can be read back from between quotes. -/
theorem parseWord_quoted (inner : Substitution) (text : List Char) {terminator : Option Char}
    {rest : List Char} (ends : isWordEnd terminator rest = true) (offset : Nat) :
    parseWord inner terminator offset ('"' :: (text.flatMap quote ++ '"' :: rest)) =
      ⟨.ok ⟨String.ofList text, true, .quoted, offset⟩,
        ⟨offset + 1 + octets (text.flatMap quote) + 1, rest⟩⟩ := by
  rw [parseWord, parseQuoted]
  simp only [readQuoted_quoted, List.append_nil, List.reverse_reverse, if_true, endDelimited,
    List.drop_one, List.tail_cons, ends]

end CompiledScript
