import CompiledScript.Proofs.Script.Letters

/-!
# Continued lines in braced words

The parser joins the continued lines of a braced word in one pass, counting the
backslashes it has just seen.  The bytewise parser looks for the next backslash at the
end of a line, cuts the text there, counts the backslashes in front of it, and starts
again behind it.  Both come to the same value, since between two of these places nothing
but the count of backslashes is remembered, and at each of them the count starts again.
-/

set_option autoImplicit false

namespace CompiledScript

namespace Backslash

/-! ## One pass over the characters -/

/-- The number of backslashes directly in front of what follows, of which `run` stood in front of
the characters. -/
def runBehind (run : Nat) (chars : List Char) : Nat :=
  chars.foldl (fun run char => if char = '\\' then run + 1 else 0) run

theorem runBehind_eq (back : List Char) :
    runBehind 0 back.reverse = (back.takeWhile (· == '\\')).length := by
  rw [runBehind, List.foldl_reverse]
  induction back with
  | nil => rfl
  | cons char back ih =>
    rw [List.foldr_cons, ih, List.takeWhile_cons]
    by_cases backslash : char = '\\'
    · simp [backslash]
    · simp [backslash]

end Backslash

namespace Bytewise

open Bytes Backslash

/-! ## From one continued line to the next -/

/-- No line is continued inside a character. -/
theorem findContinued_continuation {more : Bytes}
    (continues : ∀ byte ∈ more, isContinuation byte = true) (bytes : Bytes) :
    findContinued (more ++ bytes) = (findContinued bytes).map (· + more.length) := by
  induction more with
  | nil => simp
  | cons byte more ih =>
    obtain ⟨first, others⟩ := List.forall_mem_cons.mp continues
    have backslash := kind_of_continuation (ascii_eq '\\' (by decide)) first
    have notHere : isContinued (byte :: (more ++ bytes)) = false := by
      unfold isContinued
      split
      · rename_i starts
        rw [(List.cons.inj starts).1] at backslash
        cases backslash
      · rfl
    rw [List.cons_append, findContinued, notHere, ih others, Option.map_map]
    rfl

theorem findContinued_cons {char : Char} {rest : List Char}
    (other : ∀ behind, char = '\\' → rest = '\n' :: behind → False) :
    findContinued (ofChars (char :: rest)) =
      (findContinued (ofChars rest)).map (· + char.utf8Size) := by
  have notHere := isContinued_eq_false other
  obtain ⟨lead, more, encoded, spelled⟩ := exists_ofChars_cons char rest
  rw [encoded] at notHere ⊢
  rw [findContinued, notHere, findContinued_continuation spelled.continues, ← spelled.size]
  simp [Function.comp_def, Nat.add_assoc]

/-- Either no line is continued, and then nothing is joined, or the first continued line is found and
one pass gets there with everything in front of it as it is. -/
theorem findContinued_ofChars (chars : List Char) :
    (findContinued (ofChars chars) = none ∧
      ∀ joined run, joinLines joined run chars = joined.reverse ++ chars) ∨
    ∃ front rest, chars = front ++ '\\' :: '\n' :: rest ∧
      findContinued (ofChars chars) = some (octets front) ∧
      ∀ joined run, joinLines joined run chars =
        joinLines (front.reverse ++ joined) (runBehind run front) ('\\' :: '\n' :: rest) := by
  induction chars with
  | nil => exact .inl ⟨rfl, fun joined run => by simp [joinLines]⟩
  | cons char rest ih =>
    by_cases continued : ∃ behind, char = '\\' ∧ rest = '\n' :: behind
    · obtain ⟨behind, rfl, rfl⟩ := continued
      refine .inr ⟨[], behind, rfl, ?_, fun joined run => rfl⟩
      have here : isContinued (ofChars ('\\' :: '\n' :: behind)) = true :=
        isContinued_ofChars_iff.mpr ⟨behind, rfl⟩
      exact if_pos here
    · have other : ∀ behind, char = '\\' → rest = '\n' :: behind → False :=
        fun behind first second => continued ⟨behind, first, second⟩
      rw [findContinued_cons other]
      rcases ih with ⟨absent, same⟩ | ⟨front, behind, split, found, further⟩
      · refine .inl ⟨by rw [absent]; rfl, fun joined run => ?_⟩
        rw [joinLines_cons other, same, List.reverse_cons, List.append_assoc]
        rfl
      · refine .inr ⟨char :: front, behind, by rw [split]; rfl, ?_, fun joined run => ?_⟩
        · rw [found, octets_cons, Nat.add_comm]
          rfl
        · rw [joinLines_cons other, further, List.reverse_cons, List.append_assoc]
          rfl

/-! ## Backslashes in front of a line end -/

theorem ne_backslash {char : Char} (other : char ≠ '\\') {byte : UInt8}
    (listed : byte ∈ ofChars [char]) : (letter byte == '\\') = false := by
  obtain ⟨lead, more, encoded, spelled⟩ := exists_spelled char
  rw [ofChars_cons, encoded, ofChars_nil, List.append_nil] at listed
  rcases List.mem_cons.mp listed with rfl | behind
  · rw [spelled.eq _ (by decide)]
    exact beq_eq_false_iff_ne.mpr other
  · exact kind_of_continuation (ascii_eq '\\' (by decide)) (spelled.continues byte behind)

/-- The backslashes at the end of a text, which is given backwards, are as many bytes. -/
theorem takeWhile_backslash (back : List Char) :
    ((ofChars back.reverse).reverse.takeWhile fun byte => letter byte == '\\').length =
      (back.takeWhile (· == '\\')).length := by
  induction back with
  | nil => rfl
  | cons char back ih =>
    rw [List.reverse_cons, ofChars_append, List.reverse_append, List.takeWhile_cons]
    by_cases backslash : char = '\\'
    · subst backslash
      have one : (ofChars ['\\']).reverse = [0x5c] := rfl
      rw [one, List.cons_append, List.takeWhile_cons, if_pos (by rfl), if_pos (by rfl),
        List.length_cons, List.length_cons, List.nil_append, ih]
    · cases last : (ofChars [char]).reverse with
      | nil => exact absurd (List.reverse_eq_nil_iff.mp last) (by
          obtain ⟨lead, more, encoded, -⟩ := exists_ofChars_cons char []
          rw [encoded]
          exact List.cons_ne_nil _ _)
      | cons byte others =>
        have listed : byte ∈ ofChars [char] :=
          List.mem_reverse.mp (last ▸ List.mem_cons_self)
        rw [List.cons_append, List.takeWhile_cons, ne_backslash backslash listed,
          beq_eq_false_iff_ne.mpr backslash]
        rfl

theorem dropWhile_ofChars {kind : Char → Bool} (ascii : AsciiKind kind) (chars : List Char) :
    (ofChars chars).dropWhile (fun byte => kind (letter byte)) =
      ofChars (chars.dropWhile kind) := by
  induction chars with
  | nil => rfl
  | cons char rest ih =>
    obtain ⟨lead, more, encoded, spelled⟩ := exists_ofChars_cons char rest
    rw [List.dropWhile_cons]
    by_cases holds : kind char
    · obtain ⟨-, rfl⟩ := spelled.ascii (ascii char holds)
      rw [if_pos holds, encoded, List.dropWhile_cons, spelled.kind ascii, if_pos holds]
      exact ih
    · rw [if_neg holds, encoded, List.dropWhile_cons, spelled.kind ascii, if_neg holds]

/-! ## The value of a braced word -/

theorem collapse_ofChars (content : List Char) :
    collapse (ofChars content) = .ok (ofChars (Backslash.collapse content)) := by
  induction size : content.length using Nat.strongRecOn generalizing content with
  | _ size ih =>
    rcases findContinued_ofChars content with ⟨absent, same⟩ | ⟨front, rest, split, found, further⟩
    · rw [Backslash.collapse, same, collapse, absent]
      rfl
    · have before : (ofChars content).take (octets front) = ofChars front := by
        rw [split, ofChars_append, ← length_ofChars, List.take_left]
      have from_ : (ofChars content).drop (octets front) = ofChars ('\\' :: '\n' :: rest) := by
        rw [split, ofChars_append, ← length_ofChars, List.drop_left]
      have behind : (ofChars content).drop (octets front + 2) = ofChars rest := by
        rw [← List.drop_drop, from_]
        rfl
      have including : (ofChars content).take (octets front + 2) =
          ofChars (front ++ ['\\', '\n']) := by
        rw [List.take_add, before, from_, ofChars_append]
        rfl
      have run := takeWhile_backslash front.reverse
      rw [List.reverse_reverse, ← runBehind_eq, List.reverse_reverse] at run
      have shorter : (rest.dropWhile isIndent).length ≤ rest.length :=
        (List.dropWhile_suffix (l := rest) isIndent).length_le
      have longer := congrArg List.length split
      simp only [List.length_append, List.length_cons] at longer
      rw [Backslash.collapse, further, List.append_nil, collapse]
      split
      · rename_i absent
        rw [found] at absent
        cases absent
      · rename_i index foundAgain
        rw [found] at foundAgain
        cases foundAgain
        have cutBefore := cut_bytes ⟨octets front, '\\' :: '\n' :: rest⟩
        have cutBehind := cut_bytes ⟨octets front + 2, rest⟩
        simp only [Cursor.bytes] at cutBefore cutBehind
        simp only [before, from_, behind, including, run, cutBefore, cutBehind, bind, Except.bind]
        rw [joinLines]
        by_cases odd : runBehind 0 front % 2 = 1
        · have joined := ih rest.length (by omega) rest rfl
          rw [if_pos odd, if_pos odd, joined, joinLines_eq]
          simp [pure, Except.pure]
        · have joined := ih (rest.dropWhile isIndent).length (by omega) (rest.dropWhile isIndent) rfl
          rw [if_neg odd, if_neg odd, dropWhile_ofChars ascii_isIndent, joined, joinLines_eq]
          simp [pure, Except.pure]

end Bytewise

end CompiledScript
