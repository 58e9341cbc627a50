import CompiledScript.Proofs.Script.Collapse

/-!
# Continued lines, read in pairs

Which line ends of a braced word are continued can be said without counting.  Read from
left to right, a backslash and the character behind it are a pair, and a line end is
continued when it is the second half of one.  A backslash that is itself a second half
opens no pair, which is what the parity of a run of backslashes stands for.

So at every place all that matters of what was read is whether a pair is open, and both
the single pass and the search for the next continued line come to what the pairs say.
What they give holds no continued line, so joining its lines again changes nothing.
-/

set_option autoImplicit false

namespace CompiledScript

namespace Backslash

/-- The text with its continued lines joined, read from left to right in pairs: a backslash
is copied with the character behind it, unless this is a line end, and then one space stands
for the pair and the indentation that follows. -/
def joinPairs : List Char → List Char
  | [] => []
  | '\\' :: '\n' :: rest => ' ' :: joinPairs (rest.dropWhile isIndent)
  | '\\' :: char :: rest => '\\' :: char :: joinPairs rest
  | char :: rest => char :: joinPairs rest
termination_by chars => chars.length
decreasing_by
  all_goals simp only [List.length_cons]
  · have shorter := (List.dropWhile_suffix (l := rest) isIndent).length_le
    omega
  · omega
  · omega

/-! ## One step of the reading -/

theorem joinPairs_continued (rest : List Char) :
    joinPairs ('\\' :: '\n' :: rest) = ' ' :: joinPairs (rest.dropWhile isIndent) := by
  rw [joinPairs]

theorem joinPairs_pair {char : Char} (other : char ≠ '\n') (rest : List Char) :
    joinPairs ('\\' :: char :: rest) = '\\' :: char :: joinPairs rest := by
  rw [joinPairs]
  exact other

theorem joinPairs_plain {char : Char} (other : char ≠ '\\') (rest : List Char) :
    joinPairs (char :: rest) = char :: joinPairs rest := by
  rw [joinPairs]
  · exact fun _ backslash _ => other backslash
  · exact fun _ _ backslash _ => other backslash

/-- A backslash at the end of the text opens a pair that has no second half. -/
theorem joinPairs_last : joinPairs ['\\'] = ['\\'] := by
  rw [joinPairs, joinPairs]
  · rintro _ - ends
    cases ends
  · rintro _ _ - ends
    cases ends

/-! ## Counting and pairing -/

/-- What pairs make of a text with so many backslashes in front of it: after an odd number of
them a pair is open, and its second half is copied whatever it is. -/
def joinPairsBehind (run : Nat) (chars : List Char) : List Char :=
  if run % 2 = 1 then chars.take 1 ++ joinPairs (chars.drop 1) else joinPairs chars

theorem joinPairsBehind_odd {run : Nat} (odd : run % 2 = 1) (char : Char) (rest : List Char) :
    joinPairsBehind run (char :: rest) = char :: joinPairs rest := by
  rw [joinPairsBehind, if_pos odd]
  rfl

theorem joinPairsBehind_even {run : Nat} (even : run % 2 ≠ 1) (chars : List Char) :
    joinPairsBehind run chars = joinPairs chars := by
  rw [joinPairsBehind, if_neg even]

/-- A single character that is no continued line end, with the count of backslashes behind it. -/
theorem joinPairsBehind_cons {char : Char} {rest : List Char}
    (other : ∀ behind, char = '\\' → rest = '\n' :: behind → False) (run : Nat) :
    joinPairsBehind run (char :: rest) =
      char :: joinPairsBehind (if char = '\\' then run + 1 else 0) rest := by
  by_cases odd : run % 2 = 1
  · -- The character closes the pair, so behind it none is open.
    rw [joinPairsBehind_odd odd, joinPairsBehind_even]
    split <;> omega
  rw [joinPairsBehind_even odd]
  by_cases backslash : char = '\\'
  · subst backslash
    have opens : (run + 1) % 2 = 1 := by omega
    rw [if_pos rfl]
    cases rest with
    | nil =>
      rw [joinPairs_last, joinPairsBehind, if_pos opens, List.take_nil, List.drop_nil, joinPairs,
        List.append_nil]
    | cons next behind =>
      have notEnd : next ≠ '\n' := fun ends => other behind rfl (ends ▸ rfl)
      rw [joinPairs_pair notEnd, joinPairsBehind_odd opens]
  · rw [joinPairs_plain backslash, if_neg backslash, joinPairsBehind_even (by decide)]

/-- One pass that counts backslashes keeps track of whether a pair is open. -/
theorem joinLines_eq_joinPairsBehind (joined : List Char) (run : Nat) (chars : List Char) :
    joinLines joined run chars = joined.reverse ++ joinPairsBehind run chars := by
  fun_induction joinLines joined run chars with
  | case1 joined run => simp [joinPairsBehind, joinPairs]
  | case2 joined run rest odd ih =>
    rw [ih, joinPairsBehind_odd odd, joinPairsBehind_even (by decide),
      joinPairs_plain (by decide)]
    simp
  | case3 joined run rest even ih =>
    rw [ih, joinPairsBehind_even even, joinPairsBehind_even (by decide), joinPairs_continued]
    simp
  | case4 joined run char rest other ih =>
    rw [dite_eq_ite] at ih
    rw [ih, joinPairsBehind_cons other]
    simp

theorem collapse_eq_joinPairs (text : List Char) : collapse text = joinPairs text := by
  rw [collapse, joinLines_eq_joinPairsBehind, joinPairsBehind_even (by decide)]
  rfl

/-! ## Joined once -/

/-- In what pairs make of a text every pair is one that is copied. -/
theorem joinPairs_joinPairs (text : List Char) :
    joinPairs (joinPairs text) = joinPairs text := by
  fun_induction joinPairs text with
  | case1 => rw [joinPairs]
  | case2 rest ih => rw [joinPairs_plain (by decide), ih]
  | case3 char rest other ih =>
    have notEnd : char ≠ '\n' := fun ends => other ends
    rw [joinPairs_pair notEnd, ih]
  | case4 char rest continued pair ih =>
    by_cases backslash : char = '\\'
    · subst backslash
      cases rest with
      | nil => rw [joinPairs, joinPairs_last]
      | cons next behind => exact (pair next behind rfl rfl).elim
    · rw [joinPairs_plain backslash, ih]

end Backslash

open Backslash

/-- **Continued lines are joined in pairs.**  The search for the next continued line never cuts a
character in two, and it and the single pass both give what reading the text in pairs gives.
Joining the lines of what they give changes nothing. -/
theorem continued_lines_in_pairs (text : List Char) :
    Bytewise.collapse (Bytes.ofChars text) = .ok (Bytes.ofChars (joinPairs text)) ∧
      collapse text = joinPairs text ∧
      collapse (collapse text) = collapse text ∧
      (Bytewise.collapse (Bytes.ofChars text) >>= Bytewise.collapse) =
        Bytewise.collapse (Bytes.ofChars text) := by
  have search : ∀ chars,
      Bytewise.collapse (Bytes.ofChars chars) = .ok (Bytes.ofChars (joinPairs chars)) := by
    intro chars
    rw [Bytewise.collapse_ofChars, collapse_eq_joinPairs]
  refine ⟨search text, collapse_eq_joinPairs text, ?_, ?_⟩
  · rw [collapse_eq_joinPairs, collapse_eq_joinPairs, joinPairs_joinPairs]
  · rw [search text]
    exact (search (joinPairs text)).trans (by rw [joinPairs_joinPairs])

/-- Two backslashes are a pair and leave the line end alone; with a third one the line is
continued. -/
example : collapse ['\\', '\\', '\n', ' ', 'a'] = ['\\', '\\', '\n', ' ', 'a'] ∧
    collapse ['\\', '\\', '\\', '\n', ' ', 'a'] = ['\\', '\\', ' ', 'a'] :=
  ⟨by cbv, by cbv⟩

end CompiledScript
