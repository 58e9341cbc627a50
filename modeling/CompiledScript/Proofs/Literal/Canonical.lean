import CompiledScript.Proofs.Literal.Recovery

/-!
# One encoding for equal literals

Equal literals are written as the same bytes.  Only maps and the number of locals
of a block make this more than a matter of going through the parts.

A map is written in the order of the bytes of its keys.  Two equal maps stage the
same bytes for corresponding keys, and within one map different keys have
different bytes, because a literal is recovered from its bytes up to equality.
So the sort leaves no choice, and it brings the staged entries of both maps into
the same order.  Canonicity and recovery are thus tied together: keys of one
level are ordered by what is recovered from the level below.

The number of locals may come from three places in a block, and it is written
unless it comes from a table of locals that is too long for a word.  Whether one
is too long is not part of equality, so such tables are excluded.
-/

set_option autoImplicit false

namespace CompiledScript

open Encoder

/-! ## Tables of locals -/

/-- The table of locals of a block, if there is one, fits in a word. -/
def Block.TableFits (block : Block) : Prop :=
  ∀ table ∈ block.localTable, table.length ≤ 4294967295

/-- The number of locals of a block whose table fits is always written. -/
theorem Block.checkedLocalCount_of_fits {block : Block} (fits : block.TableFits) :
    block.checkedLocalCount = .ok block.localCount := by
  cases checked : block.checkedLocalCount with
  | ok count => rw [localCount_of_checked checked]
  | error error =>
    obtain ⟨code, literals, auxiliaries, exceptions, maxStack, compiledLocals, localTable⟩ := block
    cases compiledLocals with
    | some count => cases checked
    | none =>
      cases localTable with
      | none => cases checked
      | some table =>
        simp only [checkedLocalCount, if_pos (fits table rfl)] at checked
        cases checked

namespace Literal

/-- The table of locals of the block in a literal fits, if there is one. -/
def TableFits : Literal → Prop
  | closure _ _ body => body.TableFits
  | block _ body => body.TableFits
  | _ => True

/-- The tables of locals of all blocks in a literal fit. -/
def TablesFit (literal : Literal) : Prop := literal.Throughout TableFits

/-- Equal well-formed literals whose tables of locals all fit. -/
def Matched (left right : Literal) : Prop := Same left right ∧ left.TablesFit ∧ right.TablesFit

/-- The parts of matched literals are matched. -/
theorem Matched.alike {left right : Literal} (matched : Matched left right) :
    Alike Matched left right := by
  obtain ⟨same, leftFits, rightFits⟩ := matched
  refine (same_iff_alike.mp same).2.2.mono fun one below other listed same => ?_
  exact ⟨same, leftFits.child below, rightFits.child listed⟩

/-- An encoder writes matched literals alike. -/
def Canonical (encodeItem : Literal → Encoder) : Prop :=
  ∀ left right, Matched left right → (encodeItem left).Entails (encodeItem right)

/-- An encoder never writes the same bytes for two literals that differ. -/
def Separates (encodeItem : Literal → Encoder) : Prop :=
  ∀ left right, left.WellFormed → right.WellFormed → ∀ bytes,
    (encodeItem left).Writes bytes → (encodeItem right).Writes bytes → Same left right

/-- What can be recovered is separated. -/
theorem Recovers.separates {decodeItem : Decoder Literal} {encodeItem : Literal → Encoder}
    (recovers : Recovers decodeItem encodeItem) : Separates encodeItem := by
  intro left right leftWell rightWell bytes one other
  obtain ⟨back, read, same⟩ := recovers left leftWell bytes one
  obtain ⟨there, readThere, alike⟩ := recovers right rightWell bytes other
  rw [readThere.unique read] at alike
  exact equalityOn_wellFormed.similar_trans _ _ _ same
    (equalityOn_wellFormed.similar_symm _ _ alike)

end Literal

variable {limits : Limits} {encodeItem : Literal → Encoder}

/-! ## Blocks -/

/-- Equal blocks are written alike if the literals of their pools are. -/
theorem Block.entails_encodeWith (canonical : Literal.Canonical encodeItem) {left right : Block}
    (alike : left.Alike Literal.Matched right) (leftFits : left.TableFits)
    (rightFits : right.TableFits) :
    (left.encodeWith limits encodeItem).Entails (right.encodeWith limits encodeItem) := by
  have literals : List.Forall₂ (fun one other => (encodeItem one).Entails (encodeItem other))
      left.literals right.literals :=
    Pairing.imp_of_mem alike.literals fun one _ other _ matched => canonical one other matched
  rw [encodeWith, encodeWith, checkedLocalCount_of_fits leftFits,
    checkedLocalCount_of_fits rightFits, alike.code, alike.auxiliaries, alike.exceptions,
    alike.maxStack, alike.localCount]
  simp only [Encoder.append_assoc]
  exact (Entails.refl _).append ((Entails.refl _).append ((Entails.table literals).append
    (Entails.refl _)))

namespace Literal

/-! ## Maps -/

/-- Staged entries with the same bytes for their keys and with matched values. -/
def StagedAlike (left right : Bytes × Literal) : Prop := left.1 = right.1 ∧ Matched left.2 right.2

/-- Corresponding entries stage the same bytes. -/
theorem staged_of_alike (canonical : Canonical encodeItem) {left right : List MapEntry}
    {staged : List (Bytes × Literal)}
    (alike : List.Forall₂ (MapEntry.Alike Matched) left right)
    (stages : List.Forall₂ (Staged encodeItem) left staged) :
    ∃ others, List.Forall₂ (Staged encodeItem) right others ∧
      List.Forall₂ StagedAlike staged others := by
  induction alike generalizing staged with
  | nil =>
    obtain _ | _ := stages
    exact ⟨[], .nil, .nil⟩
  | @cons entry other _ _ first _ ih =>
    obtain _ | @⟨_, piece, _, _, ⟨written, same⟩, rest⟩ := stages
    obtain ⟨others, stagesRest, alikeRest⟩ := ih rest
    refine ⟨(piece.1, other.value) :: others, .cons ⟨?_, rfl⟩ stagesRest,
      .cons ⟨rfl, ?_⟩ alikeRest⟩
    · exact canonical entry.key other.key first.1 piece.1 written
    · rw [same]
      exact first.2

/-- Once sorted, no two staged entries have the same bytes. -/
theorem sortStaged_strict (separates : Separates encodeItem) {entries : List MapEntry}
    (well : (map entries).WellFormed) {staged : List (Bytes × Literal)}
    (stages : List.Forall₂ (Staged encodeItem) entries staged) :
    (sortStaged staged).Pairwise fun first second => first.1 < second.1 := by
  have wellStages : List.Forall₂ (fun entry piece =>
      entry.key.WellFormed ∧ Staged encodeItem entry piece) entries staged :=
    Pairing.imp_of_mem stages fun entry found _ _ stages =>
      ⟨well.child (key_mem_children found), stages⟩
  have apart := (distinctKeys_iff fun entry found => well.child (key_mem_children found)).mp
    well.here
  refine sortStaged_ascending (Pairing.pairwise wellStages apart ?_)
  rintro first second one other ⟨firstWell, firstKey, -⟩ ⟨secondWell, secondKey, -⟩ apart same
  rw [← same] at secondKey
  exact apart (separates _ _ firstWell secondWell _ firstKey secondKey)

/-- Equal maps are written alike, whatever the order of their entries. -/
theorem entails_encodeMap (canonical : Canonical encodeItem) (separates : Separates encodeItem)
    {left middle right : List MapEntry} (leftWell : (map left).WellFormed)
    (rightWell : (map right).WellFormed)
    (alike : List.Forall₂ (MapEntry.Alike Matched) left middle) (order : middle.Perm right) :
    (encodeMap limits encodeItem left).Entails (encodeMap limits encodeItem right) := by
  intro bytes written
  obtain ⟨staged, stages, written⟩ := writes_map.mp written
  obtain ⟨others, stagesMiddle, pieces⟩ := staged_of_alike canonical alike stages
  obtain ⟨arranged, stagesRight, rearranged⟩ := Pairing.perm_right order.symm stagesMiddle
  refine writes_map.mpr ⟨arranged, stagesRight, ?_⟩
  obtain ⟨sorted, sortedPieces, sortedOrder⟩ :=
    Pairing.perm_right (sortStaged_perm staged) pieces
  have ordered : List.Forall₂ StagedAlike (sortStaged staged) (sortStaged arranged) := by
    refine Pairing.of_ordered sortedPieces
      (sortedOrder.trans (rearranged.symm.trans (sortStaged_perm arranged).symm))
      (sortStaged_strict separates leftWell stages)
      (sortStaged_strict separates rightWell stagesRight) ?_ ?_
    · rintro first second other another ⟨one, -⟩ ⟨two, -⟩ before
      rwa [← one, ← two]
    · intro first second before
      exact List.lt_asymm before
  refine Entails.table (Pairing.imp_of_mem ordered ?_) bytes written
  rintro first - second - ⟨same, matched⟩
  rw [encodeStaged, encodeStaged, same]
  exact (Entails.refl _).append (canonical _ _ matched)

/-! ## One level -/

theorem entails_encodeParameter (canonical : Canonical encodeItem) {left right : Parameter}
    (alike : left.Alike Matched right) :
    (encodeParameter limits encodeItem left).Entails
      (encodeParameter limits encodeItem right) := by
  obtain ⟨name, fallback⟩ := left
  obtain ⟨otherName, otherFallback⟩ := right
  obtain ⟨rfl, fallbacks⟩ := alike
  cases fallbacks with
  | none => exact .refl _
  | some matched => exact (Entails.refl _).append (canonical _ _ matched)

theorem entails_inside {inner : Option (Literal → Encoder)}
    {first second : (Literal → Encoder) → Encoder}
    (body : ∀ encodeItem ∈ inner, (first encodeItem).Entails (second encodeItem)) :
    (encodeInside limits inner first).Entails (encodeInside limits inner second) := by
  cases inner with
  | none => exact .refl _
  | some encodeItem => exact body encodeItem rfl

/-- Matched literals carry the same tag. -/
theorem tag_of_alike {related : Literal → Literal → Prop} {left right : Literal}
    (alike : Alike related left right) : left.tag = right.tag := by
  cases alike with
  | scalar _ | map _ _ | list _ | closure _ _ | block _ => rfl

/-- Literals are written alike if the literals one level below are. -/
theorem canonical_encodeWith {inner : Option (Literal → Encoder)}
    (canonical : ∀ encodeItem ∈ inner, Canonical encodeItem)
    (separates : ∀ encodeItem ∈ inner, Separates encodeItem) :
    Canonical (encodeWith limits inner) := by
  intro left right matched
  have alike := matched.alike
  refine Entails.append ?_ ?_
  · rw [tag_of_alike alike]
    exact .refl _
  obtain ⟨⟨leftWell, rightWell, -⟩, leftFits, rightFits⟩ := matched
  cases alike with
  | scalar _ => exact .refl _
  | map entries order =>
    exact entails_inside fun encodeItem below =>
      entails_encodeMap (canonical _ below) (separates _ below) leftWell rightWell entries order
  | list items =>
    refine entails_inside fun encodeItem below => Entails.table ?_
    exact Pairing.imp_of_mem items fun one _ other _ => canonical _ below one other
  | closure parameters body =>
    refine entails_inside fun encodeItem below => ?_
    refine ((Entails.refl _).append (Entails.table ?_)).append ?_
    · exact Pairing.imp_of_mem parameters fun one _ other _ =>
        entails_encodeParameter (canonical _ below)
    · exact Block.entails_encodeWith (canonical _ below) body leftFits.here rightFits.here
  | block body =>
    refine entails_inside fun encodeItem below => (Entails.refl _).append ?_
    exact Block.entails_encodeWith (canonical _ below) body leftFits.here rightFits.here

/-! ## All levels -/

theorem separates_within (limits : Limits) (levels : Nat) :
    Separates (encodeWithin limits levels) :=
  (recovers_within limits levels).separates

/-- Literals are written alike at every level of nesting. -/
theorem canonical_within (limits : Limits) (levels : Nat) :
    Canonical (encodeWithin limits levels) := by
  induction levels with
  | zero =>
    refine canonical_encodeWith (fun _ below => ?_) fun _ below => ?_
    · cases below
    · cases below
  | succ levels canonical =>
    refine canonical_encodeWith ?_ ?_
    · rintro _ ⟨⟩
      exact canonical
    · rintro _ ⟨⟩
      exact separates_within limits levels

end Literal

end CompiledScript
