import CompiledScript.Listing
import CompiledScript.Proofs.Text.Hex
import Mathlib.Data.List.TakeWhile

/-!
# Lines of code in listings

The code of a block is cut into runs of one length, of which only the last may be
shorter, and each run is a line headed by the number of bytes in front of it.  A
line is read back from its text: the offset up to the next blank, and then a blank
and two lower-case digits for each byte up to the end of the line.  The lines of a
block therefore give its code back.
-/

set_option autoImplicit false

namespace CompiledScript.Listing

/-! ## Cutting code into runs -/

/-- Runs of a given length that make up some code, of which only the last may be shorter. -/
structure CutsInto (width : Nat) (code : Bytes) (runs : List Bytes) : Prop where
  whole : runs.flatten = code
  full : ∀ run ∈ runs.dropLast, run.length = width
  within : ∀ run ∈ runs, 0 < run.length ∧ run.length ≤ width

/-- A line for each run, headed by the number of bytes in front of it. -/
def rows (indent offset : Nat) : List Bytes → List Piece
  | [] => []
  | run :: runs => .code indent offset run :: rows indent (offset + run.length) runs

namespace CutsInto

variable {width : Nat} {code : Bytes} {run : Bytes} {runs : List Bytes}

theorem nil : CutsInto width [] [] :=
  ⟨rfl, fun _ found => absurd found List.not_mem_nil, fun _ found => absurd found List.not_mem_nil⟩

/-- No code has no run. -/
theorem eq_nil (cut : CutsInto width [] runs) : runs = [] := by
  match runs, cut with
  | [], _ => rfl
  | run :: runs, cut =>
    have empty : run = [] := (List.append_eq_nil_iff.mp cut.whole).1
    have filled := (cut.within run List.mem_cons_self).1
    rw [empty] at filled
    exact absurd filled (Nat.lt_irrefl 0)

/-- A run in front has to be full unless it is the only one. -/
theorem cons (filled : 0 < run.length) (within : run.length ≤ width)
    (full : code ≠ [] → run.length = width) (cut : CutsInto width code runs) :
    CutsInto width (run ++ code) (run :: runs) where
  whole := congrArg (run ++ ·) cut.whole
  full := by
    intro other found
    by_cases last : runs = []
    · rw [last] at found
      exact absurd found List.not_mem_nil
    · have behind : code ≠ [] := by
        rintro rfl
        exact last cut.eq_nil
      rw [List.dropLast_cons_of_ne_nil last] at found
      rcases List.mem_cons.mp found with rfl | found
      · exact full behind
      · exact cut.full other found
  within := by
    intro other found
    rcases List.mem_cons.mp found with rfl | found
    · exact ⟨filled, within⟩
    · exact cut.within other found

end CutsInto

/-- The lines of some code are the rows of its runs. -/
theorem exists_codeLines_eq (indent width offset : Nat) (code : Bytes) :
    ∃ runs, CutsInto (width + 1) code runs ∧
      codeLines indent width offset code = rows indent offset runs := by
  fun_induction codeLines indent width offset code with
  | case1 offset => exact ⟨[], .nil, rfl⟩
  | case2 offset byte rest ih =>
    obtain ⟨runs, cut, same⟩ := ih
    have full : rest.drop width ≠ [] → ((byte :: rest).take (width + 1)).length = width + 1 := by
      intro behind
      rw [Ne, List.drop_eq_nil_iff] at behind
      rw [List.length_take, List.length_cons]
      omega
    refine ⟨(byte :: rest).take (width + 1) :: runs, ?_, ?_⟩
    · have whole : (byte :: rest).take (width + 1) ++ rest.drop width = byte :: rest := by
        rw [List.take_succ_cons, List.cons_append, List.take_append_drop]
      have joined := CutsInto.cons (by simp) (by simp) full cut
      rwa [whole] at joined
    · rw [rows, same]
      -- A short run is the last one, so that its length does not move another line.
      by_cases last : rest.drop width = []
      · rw [last] at cut
        rw [cut.eq_nil, rows, rows]
      · rw [full last]

/-! ## The text of a line -/

theorem toList_indentation (depth : Nat) :
    (indentation depth).toList = List.replicate (2 * depth) ' ' :=
  String.toList_ofList

/-- What stands behind the offset in a line of code. -/
def behindOffset (bytes : Bytes) : List Char :=
  bytes.flatMap (fun byte => ' ' :: (Hex.byte byte).toList) ++ ['\n']

theorem Piece.toList_text_code (indent offset : Nat) (bytes : Bytes) :
    (Piece.code indent offset bytes).text.toList =
      List.replicate (2 * indent) ' ' ++ ((Hex.padded 6 offset).toList ++
        ' ' :: behindOffset bytes) := by
  have blank : " ".toList = [' '] := rfl
  have lineEnd : "\n".toList = ['\n'] := rfl
  simp only [text, String.toList_append, String.toList_join, List.flatMap_map, toList_indentation,
    blank, lineEnd, behindOffset, List.append_assoc, List.cons_append, List.nil_append]

/-! ## Reading lines back -/

/-- The bytes behind the offset of a line: a blank and two lower-case digits for each, and the end
of the line. -/
def bytesBehind? : List Char → Option Bytes
  | ['\n'] => some []
  | ' ' :: high :: low :: rest => do
    let high ← Hex.value? high
    let low ← Hex.value? low
    let bytes ← bytesBehind? rest
    return UInt8.ofNat (16 * high + low) :: bytes
  | _ => none

/-- The offset and the bytes of a line of code, whatever its depth. -/
def readLine? (line : String) : Option (Nat × Bytes) := do
  let shown := line.toList.dropWhile (· == ' ')
  let offset ← Hex.number? (shown.takeWhile (· != ' '))
  let bytes ← bytesBehind? ((shown.dropWhile (· != ' ')).drop 1)
  return (offset, bytes)

/-- The code that lines show from an offset on.  Each line has to be headed by the number of bytes
in front of it. -/
def codeFrom? (offset : Nat) : List String → Option Bytes
  | [] => some []
  | line :: lines => do
    let (heading, bytes) ← readLine? line
    if heading = offset then
      let rest ← codeFrom? (offset + bytes.length) lines
      return bytes ++ rest
    else none

theorem bytesBehind?_behindOffset (bytes : Bytes) :
    bytesBehind? (behindOffset bytes) = some bytes := by
  induction bytes with
  | nil => rfl
  | cons byte bytes ih =>
    have bound : byte.toNat < 256 := byte.toNat_lt
    have high : byte.toNat / 16 < 16 := by omega
    have low : byte.toNat % 16 < 16 := by omega
    have split : behindOffset (byte :: bytes) =
        ' ' :: Hex.digit (byte.toNat / 16) :: Hex.digit (byte.toNat % 16) ::
          behindOffset bytes := by
      rw [behindOffset, List.flatMap_cons, Hex.toList_byte]
      rfl
    rw [split, bytesBehind?, Hex.value?_digit high, Hex.value?_digit low, ih]
    simp only [Option.bind_eq_bind, Option.bind_some, Nat.div_add_mod, UInt8.ofNat_toNat]
    rfl

/-- A line of code gives its offset and its bytes back. -/
theorem readLine?_text (indent offset : Nat) (bytes : Bytes) :
    readLine? (Piece.code indent offset bytes).text = some (offset, bytes) := by
  have digits : ∀ char ∈ (Hex.padded 6 offset).toList, (char != ' ') = true := by
    intro char found
    have printed := (Hex.isDigit_of_mem_padded found).isWhitespace
    rw [bne_iff_ne]
    rintro rfl
    exact absurd printed (by decide)
  have shown : (Piece.code indent offset bytes).text.toList.dropWhile (· == ' ') =
      (Hex.padded 6 offset).toList ++ ' ' :: behindOffset bytes := by
    rw [Piece.toList_text_code, List.dropWhile_append_of_pos (by simp)]
    obtain ⟨first, rest, same⟩ := List.exists_cons_of_ne_nil (Hex.padded_ne_nil 6 offset)
    have other := digits first (same ▸ List.mem_cons_self)
    rw [same, List.cons_append, List.dropWhile_cons_of_neg]
    simpa using other
  rw [readLine?, shown]
  rw [List.takeWhile_append_of_pos digits, List.dropWhile_append_of_pos digits]
  simp [Hex.number?_padded, bytesBehind?_behindOffset]

theorem codeFrom?_rows (indent offset : Nat) (runs : List Bytes) :
    codeFrom? offset ((rows indent offset runs).map Piece.text) = some runs.flatten := by
  induction runs generalizing offset with
  | nil => rfl
  | cons run runs ih =>
    rw [rows, List.map_cons, codeFrom?, readLine?_text]
    simp [ih]

/-! ## The lines of a block -/

/-- Lines at a depth that show some code, with a given number of bytes in each: the code in runs of
which only the last may be shorter, each headed by the offset of its first byte. -/
structure ShowsCode (width indent : Nat) (code : Bytes) (lines : List Piece) : Prop where
  inRows : ∃ runs, CutsInto width code runs ∧ lines = rows indent 0 runs
  /-- The texts of the lines give the code back. -/
  readBack : codeFrom? 0 (lines.map Piece.text) = some code
  ofEmpty : code = [] → lines = []

/-- The lines of a block show its code, and no bytes to a line count as one. -/
theorem showsCode_ofCode (bytesPerLine indent : Nat) (code : Bytes) :
    ShowsCode (max bytesPerLine 1) indent code (ofCode ⟨true, bytesPerLine⟩ indent code) := by
  obtain ⟨runs, cut, same⟩ := exists_codeLines_eq indent (bytesPerLine - 1) 0 code
  have width : bytesPerLine - 1 + 1 = max bytesPerLine 1 := by omega
  have lines : ofCode ⟨true, bytesPerLine⟩ indent code = rows indent 0 runs := same
  rw [width] at cut
  rw [lines]
  refine ⟨⟨runs, cut, rfl⟩, ?_, ?_⟩
  · rw [codeFrom?_rows, cut.whole]
  · rintro rfl
    rw [cut.eq_nil]
    rfl

example :
    (ofCode ⟨true, 2⟩ 1 [0x01, 0xde, 0xad]).map Piece.text =
      ["  000000  01 de\n", "  000002  ad\n"] := by
  decide +kernel

end CompiledScript.Listing
