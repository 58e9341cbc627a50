import CompiledScript.Proofs.Script.Words

/-!
# Where the text of a namespace body comes from

The body of a namespace is scanned as a text of its own, and if it is braced this is the
text of the source with its continued lines joined.  A traced text keeps for every
character the offset in the source that it comes from, and the number of bytes that
joining has taken away in front of it, at whatever level.

The offset of a character in the body, added to the offset of the body, falls short of
where the character stands by just these bytes.
-/

set_option autoImplicit false

namespace CompiledScript

/-- A character of a text that was taken from a source. -/
structure TracedChar where
  char : Char
  /-- The offset in the source that the character comes from. -/
  place : Nat
  /-- The number of bytes that joining lines has taken away in front of it. -/
  dropped : Nat
deriving DecidableEq, Inhabited, Repr

/-- A character stands in a source at the offset that it comes from. -/
def TracedChar.StandsIn (traced : TracedChar) (source : String) : Prop :=
  ∃ before after, source.toList = before ++ traced.char :: after ∧ octets before = traced.place

/-- A text of which the origin in a source is known. -/
abbrev Traced := List TracedChar

namespace Traced

open Backslash

def chars (text : Traced) : List Char := text.map TracedChar.char

@[simp] theorem chars_nil : chars [] = [] := rfl

@[simp] theorem chars_cons (first : TracedChar) (rest : Traced) :
    chars (first :: rest) = first.char :: rest.chars := rfl

/-- The characters of a source from an offset on. -/
def ofChars (offset : Nat) : List Char → Traced
  | [] => []
  | char :: rest => ⟨char, offset, 0⟩ :: ofChars (offset + char.utf8Size) rest

@[simp] theorem chars_ofChars (offset : Nat) (source : List Char) :
    (ofChars offset source).chars = source := by
  induction source generalizing offset with
  | nil => rfl
  | cons char rest ih => rw [ofChars, chars_cons, ih]

theorem dropped_ofChars (offset : Nat) (source : List Char) :
    ∀ traced ∈ ofChars offset source, traced.dropped = 0 := by
  induction source generalizing offset with
  | nil => exact nofun
  | cons char rest ih =>
    intro traced listed
    rcases List.mem_cons.mp listed with rfl | later
    · rfl
    · exact ih _ traced later

/-- The text behind a number of bytes. -/
def behind (count : Nat) : Traced → Traced
  | [] => []
  | first :: rest =>
    if count = 0 then first :: rest else behind (count - first.char.utf8Size) rest

/-- Whether a character belongs to the indentation of a continued line. -/
def isIndented (traced : TracedChar) : Bool := isIndent traced.char

/-- The text with its continued lines joined, where `run` backslashes stand directly in front of it and
joining has taken away `lost` bytes.  The space that a continued line becomes comes from the backslash
at its end. -/
def join (run lost : Nat) : Traced → Traced
  | [] => []
  | ⟨'\\', place, dropped⟩ :: ⟨'\n', placeToo, droppedToo⟩ :: rest =>
    if run % 2 = 1 then
      ⟨'\\', place, dropped + lost⟩ :: ⟨'\n', placeToo, droppedToo + lost⟩ :: join 0 lost rest
    else
      ⟨' ', place, dropped + lost⟩ ::
        join 0 (lost + 1 + (rest.takeWhile isIndented).length) (rest.dropWhile isIndented)
  | first :: rest =>
    { first with dropped := first.dropped + lost } ::
      join (if first.char = '\\' then run + 1 else 0) lost rest
termination_by text => text.length
decreasing_by
  all_goals simp only [List.length_cons]
  · omega
  · have shorter := (List.dropWhile_suffix (l := rest) isIndented).length_le
    omega
  · omega

theorem chars_dropWhile (text : Traced) :
    chars (text.dropWhile isIndented) = text.chars.dropWhile isIndent := by
  rw [chars, chars, List.dropWhile_map]
  rfl

theorem chars_join (run lost : Nat) (text : Traced) :
    chars (join run lost text) = joinLines [] run text.chars := by
  fun_induction join run lost text with
  | case1 => simp [joinLines]
  | case2 run lost place dropped placeToo droppedToo rest odd ih =>
    simp only [chars_cons]
    rw [joinLines, if_pos odd, joinLines_eq, ih]
    rfl
  | case3 run lost place dropped placeToo droppedToo rest even ih =>
    simp only [chars_cons]
    rw [joinLines, if_neg even, joinLines_eq, ih, chars_dropWhile]
    rfl
  | case4 run lost first rest other ih =>
    have otherChars : ∀ behind, first.char = '\\' → chars rest = '\n' :: behind → False := by
      intro behind backslash lineEnd
      cases rest with
      | nil => cases lineEnd
      | cons second rest =>
        rcases first with ⟨char, place, dropped⟩
        rcases second with ⟨charToo, placeToo, droppedToo⟩
        cases backslash
        cases lineEnd
        exact other _ _ _ _ _ rfl rfl
    simp only [chars_cons, dite_eq_ite] at ih ⊢
    rw [joinLines_cons otherChars, ih]
    exact (joinLines_append [first.char] [] _ (chars rest)).symm

/-- The text inside the braces of a word, of which the content is traced from behind the opening
brace on. -/
def inside (word : Word) (text : Traced) : Traced :=
  match (readBraced word.offset 0 [] (word.offset + 1) text.chars).outcome with
  | .ok content => text.take content.length
  | .error _ => []

/-- The text of a braced body of the script. -/
def content (word : Word) (text : Traced) : Traced :=
  join 0 0 (inside word (behind (word.offset + 1) text))

/-! ## How far offsets fall behind -/

/-- Every character comes from where its offset says, but for the bytes that were taken away in front
of it, if the text starts at the offset `base`. -/
def Trails (base : Nat) : Traced → Prop
  | [] => True
  | first :: rest => first.place = base + first.dropped ∧ Trails (base + first.char.utf8Size) rest

theorem trails_ofChars (offset : Nat) (source : List Char) : Trails offset (ofChars offset source) := by
  induction source generalizing offset with
  | nil => trivial
  | cons char rest ih => exact ⟨rfl, ih _⟩

theorem trails_append {base : Nat} {front back : Traced} :
    Trails base (front ++ back) ↔ Trails base front ∧ Trails (base + octets front.chars) back := by
  induction front generalizing base with
  | nil => simp [Trails]
  | cons first rest ih => simp [Trails, ih, Nat.add_assoc, and_assoc]

/-- Joining lines loses no track of the bytes that it takes away. -/
theorem trails_join {base run lost : Nat} {text : Traced} (trails : Trails (base + lost) text) :
    Trails base (join run lost text) := by
  fun_induction join run lost text generalizing base with
  | case1 => trivial
  | case2 run lost place dropped placeToo droppedToo rest odd ih =>
    obtain ⟨here, next, behind⟩ := trails
    have one : '\\'.utf8Size = 1 := rfl
    have oneToo : '\n'.utf8Size = 1 := rfl
    simp only [one, oneToo] at here next behind
    refine ⟨?_, ?_, ih ?_⟩
    · simp only
      omega
    · simp only [one]
      omega
    · simp only [one, oneToo]
      rwa [show base + 1 + 1 + lost = base + lost + 1 + 1 by omega]
  | case3 run lost place dropped placeToo droppedToo rest even ih =>
    obtain ⟨here, -, behind⟩ := trails
    have one : '\\'.utf8Size = 1 := rfl
    have oneToo : '\n'.utf8Size = 1 := rfl
    have space : ' '.utf8Size = 1 := rfl
    simp only [one, oneToo] at here behind
    have size : octets (chars (rest.takeWhile isIndented)) =
        (rest.takeWhile isIndented).length := by
      have all : (chars (rest.takeWhile isIndented)).all isIndent = true := by
        rw [chars, List.all_map]
        exact List.all_takeWhile
      rw [octets_of_kind ascii_isIndent all, chars, List.length_map]
    rw [← List.takeWhile_append_dropWhile (p := isIndented) (l := rest), trails_append] at behind
    refine ⟨?_, ih ?_⟩
    · simp only
      omega
    · simp only [space]
      have further := behind.2
      rw [size] at further
      rwa [show base + 1 + (lost + 1 + (rest.takeWhile isIndented).length) =
        base + lost + 1 + 1 + (rest.takeWhile isIndented).length by omega]
  | case4 run lost first rest other ih =>
    obtain ⟨here, behind⟩ := trails
    refine ⟨?_, ih ?_⟩
    · simp only
      omega
    · simp only
      rwa [show base + first.char.utf8Size + lost = base + lost + first.char.utf8Size by omega]

/-! ## Where characters stand in the source -/

/-- Every character stands in the source where it comes from, but for the spaces. -/
def Sited (source : String) (text : Traced) : Prop :=
  ∀ traced ∈ text, traced.char ≠ ' ' → traced.StandsIn source

theorem sited_ofChars (before source : List Char) :
    Sited (String.ofList (before ++ source)) (ofChars (octets before) source) := by
  induction source generalizing before with
  | nil => exact nofun
  | cons char rest ih =>
    intro traced listed
    rcases List.mem_cons.mp listed with rfl | later
    · exact fun _ => ⟨before, rest, String.toList_ofList, rfl⟩
    · have further := ih (before ++ [char])
      rw [octets_append, octets_cons, octets_nil, Nat.add_zero, List.append_assoc] at further
      exact further traced later

/-- Joining lines puts spaces in, and else keeps characters where they come from. -/
theorem mem_join {run lost : Nat} {text : Traced} {traced : TracedChar}
    (listed : traced ∈ join run lost text) :
    traced.char = ' ' ∨ ∃ original ∈ text,
      original.char = traced.char ∧ original.place = traced.place := by
  fun_induction join run lost text with
  | case1 => cases listed
  | case2 run lost place dropped placeToo droppedToo rest odd ih =>
    rcases List.mem_cons.mp listed with rfl | listed
    · exact .inr ⟨_, List.mem_cons_self, rfl, rfl⟩
    · rcases List.mem_cons.mp listed with rfl | listed
      · exact .inr ⟨_, List.mem_cons_of_mem _ List.mem_cons_self, rfl, rfl⟩
      · rcases ih listed with space | ⟨original, found, same⟩
        · exact .inl space
        · exact .inr ⟨original, List.mem_cons_of_mem _ (List.mem_cons_of_mem _ found), same⟩
  | case3 run lost place dropped placeToo droppedToo rest even ih =>
    rcases List.mem_cons.mp listed with rfl | listed
    · exact .inl rfl
    · rcases ih listed with space | ⟨original, found, same⟩
      · exact .inl space
      · have among := (List.dropWhile_suffix (l := rest) isIndented).subset found
        exact .inr ⟨original, List.mem_cons_of_mem _ (List.mem_cons_of_mem _ among), same⟩
  | case4 run lost first rest other ih =>
    rcases List.mem_cons.mp listed with rfl | listed
    · exact .inr ⟨first, List.mem_cons_self, rfl, rfl⟩
    · rcases ih listed with space | ⟨original, found, same⟩
      · exact .inl space
      · exact .inr ⟨original, List.mem_cons_of_mem _ found, same⟩

theorem sited_join {source : String} {text : Traced} (sited : text.Sited source)
    (run lost : Nat) : Sited source (join run lost text) := by
  intro traced listed notSpace
  rcases mem_join listed with space | ⟨original, found, char, place⟩
  · exact absurd space notSpace
  · have stands := sited original found (char ▸ notSpace)
    rwa [TracedChar.StandsIn, char, place] at stands

/-! ## Texts behind a position -/

theorem behind_append (front back : Traced) : behind (octets front.chars) (front ++ back) = back := by
  induction front with
  | nil => cases back <;> rfl
  | cons first rest ih =>
    have positive : 0 < first.char.utf8Size := first.char.utf8Size_pos
    have some_left : ¬octets (chars (first :: rest)) = 0 := by
      rw [chars_cons, octets_cons]
      omega
    rw [List.cons_append, behind, if_neg some_left, chars_cons, octets_cons,
      Nat.add_sub_cancel_left, ih]

/-- Behind some of the characters the text goes on as the characters do. -/
theorem exists_behind {text : Traced} {passed rest : List Char}
    (split : text.chars = passed ++ rest) :
    ∃ front, text = front ++ behind (octets passed) text ∧ chars front = passed ∧
      chars (behind (octets passed) text) = rest := by
  obtain ⟨front, back, rfl, rfl, rfl⟩ := List.map_eq_append_iff.mp split
  have same := behind_append front back
  rw [chars] at same
  rw [same]
  exact ⟨front, rfl, rfl, rfl⟩

/-! ## Texts without continued lines -/

/-- Where no line is continued, joining leaves the text as it is. -/
theorem join_eq {run : Nat} {text : Traced} (whole : ¬['\\', '\n'] <:+: text.chars) :
    join run 0 text = text := by
  generalize nothing : 0 = lost
  fun_induction join run lost text with
  | case1 => rfl
  | case2 run lost place dropped placeToo droppedToo rest odd ih =>
    exact absurd ⟨[], chars rest, rfl⟩ whole
  | case3 run lost place dropped placeToo droppedToo rest even ih =>
    exact absurd ⟨[], chars rest, rfl⟩ whole
  | case4 run lost first rest other ih =>
    subst nothing
    have further : ¬['\\', '\n'] <:+: chars rest :=
      fun hidden => whole (hidden.trans (List.infix_cons (List.infix_refl _)))
    simp only [dite_eq_ite] at ih
    rw [ih further trivial]
    rfl

theorem behind_suffix (count : Nat) (text : Traced) : behind count text <:+ text := by
  fun_induction behind count text with
  | case1 => exact List.suffix_refl _
  | case2 => exact List.suffix_refl _
  | case3 count first rest some_left ih => exact ih.trans (List.suffix_cons first rest)

theorem prefix_inside (word : Word) (text : Traced) : inside word text <+: text := by
  unfold inside
  split
  · exact List.take_prefix _ _
  · exact List.nil_prefix

/-- Where no line is continued, the text of a body is a part of the text around it. -/
theorem content_infix {text : Traced} (whole : ¬['\\', '\n'] <:+: text.chars) (word : Word) :
    text.content word <:+: text := by
  have part : inside word (behind (word.offset + 1) text) <:+: text :=
    (prefix_inside word _).isInfix.trans (behind_suffix _ text).isInfix
  rw [content, join_eq fun hidden => whole (hidden.trans (part.map TracedChar.char))]
  exact part

end Traced

/-! ## The text of a script -/

/-- A script of which the text comes from a source, where its start is taken to be the offset `base`. -/
structure Traced.Of (text : Traced) (source script : String) (base : Nat) : Prop where
  chars : text.chars = script.toList
  trails : text.Trails base
  sited : text.Sited source

namespace Traced.Of

variable {text : Traced} {source script : String} {base : Nat}

theorem whole (source : String) : (Traced.ofChars 0 source.toList).Of source source 0 where
  chars := chars_ofChars 0 source.toList
  trails := trails_ofChars 0 source.toList
  sited := by
    have sited := sited_ofChars [] source.toList
    rwa [List.nil_append, String.ofList_toList] at sited

/-- What stands behind a position of the script comes from the source as well. -/
theorem behind (of : text.Of source script base) {offset : Nat} {rest : List Char}
    (leads : (Cursor.start script).Leads ⟨offset, rest⟩) :
    Traced.chars (Traced.behind offset text) = rest ∧
      Trails (base + offset) (Traced.behind offset text) ∧
      Sited source (Traced.behind offset text) := by
  obtain ⟨passed, split, ends⟩ := leads
  have stands : offset = octets passed := ends.trans (Nat.zero_add _)
  obtain ⟨front, whole, before, after⟩ := exists_behind (of.chars.trans split)
  have trails := of.trails
  rw [whole, trails_append, before] at trails
  rw [stands]
  refine ⟨after, trails.2, fun traced listed => of.sited traced ?_⟩
  rw [whole]
  exact List.mem_append_right front listed

/-- The character at which a command stands comes from the source, and its offset falls short of its
place by what joining has taken away in front of it. -/
theorem command (of : text.Of source script base) {command : Command}
    (stands : command.In (.start script)) :
    ∃ mark, (Traced.behind command.offset text).head? = some mark ∧
      mark.place = base + command.offset + mark.dropped ∧ mark.StandsIn source := by
  obtain ⟨char, rest, leads, notBlank⟩ := stands.stands
  obtain ⟨chars, trails, sited⟩ := of.behind leads
  cases found : Traced.behind command.offset text with
  | nil =>
    rw [found] at chars
    cases chars
  | cons mark later =>
    rw [found] at chars trails sited
    have notSpace : mark.char ≠ ' ' := by
      rw [(List.cons.inj chars).1]
      rintro rfl
      cases notBlank
    exact ⟨mark, rfl, trails.1, sited mark List.mem_cons_self notSpace⟩

/-- The body of a namespace comes from the source if it is braced and the script around it does. -/
theorem body (of : text.Of source script base) {word : Word}
    (braced : word.BracedIn (.start script)) :
    (text.content word).Of source word.value (base + (word.offset + 1)) := by
  obtain ⟨rest, content, leads, read, value⟩ := braced
  have further : (Cursor.start script).Leads ⟨word.offset + 1, rest⟩ :=
    leads.trans ⟨['{'], rfl, rfl⟩
  obtain ⟨chars, trails, sited⟩ := of.behind further
  obtain ⟨inner, rfl, split, -⟩ := readBraced_content read
  have braces : inside word (Traced.behind (word.offset + 1) text) =
      (Traced.behind (word.offset + 1) text).take inner.length := by
    rw [inside, chars, read]
    simp
  have front : Traced.chars ((Traced.behind (word.offset + 1) text).take inner.length) = inner := by
    rw [Traced.chars, List.map_take]
    show (Traced.behind (word.offset + 1) text).chars.take inner.length = inner
    rw [chars, split, List.take_left]
  rw [← List.take_append_drop inner.length (Traced.behind (word.offset + 1) text),
    trails_append] at trails
  rw [Traced.content, braces]
  refine ⟨?_, trails_join trails.1, sited_join ?_ 0 0⟩
  · rw [chars_join, front, value, String.toList_ofList]
    simp [Backslash.collapse]
  · exact fun traced listed => sited traced (List.mem_of_mem_take listed)

end Traced.Of

end CompiledScript
