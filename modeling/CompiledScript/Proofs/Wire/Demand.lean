import CompiledScript.Proofs.Wire.Extent
import CompiledScript.Proofs.Wire.Recovery
import CompiledScript.Proofs.Wire.Room

/-!
# Reading what was only partly written

Writing may stop early: a bound is exceeded, or the sink is full.  A decoder demands
what an encoder writes if it never makes do with less.  Where the whole output was
written it takes all of it, and where the writing failed it accepts nothing, for what
it would have to read next is missing.

Nothing is said of the bounds of the decoder.  They may be tighter than those of the
encoder, and then the decoder refuses; they may be looser, and then it gets further,
but not beyond the bytes that are there.  So the relation is kept when an encoder and
a decoder are put together part by part, and at the parts the decoder only has to ask
for the same number of bytes or items.
-/

set_option autoImplicit false

namespace CompiledScript

namespace Decoder

variable {α β : Type}

/-! ## Inputs that are used up and inputs that are refused -/

/-- Whenever the decoder accepts an input that starts with these bytes, it has taken exactly them. -/
def Uses (decoder : Decoder α) (bytes : Bytes) (property : α → Prop) : Prop :=
  ∀ rest value left, decoder (bytes ++ rest) = .ok value left → left = rest ∧ property value

/-- The decoder does not accept the input. -/
def Refuses (decoder : Decoder α) (input : Bytes) : Prop :=
  ∀ value left, decoder input ≠ .ok value left

/-- What the first decoder refuses is refused by the sequence. -/
theorem Refuses.bind {first : Decoder α} {input : Bytes} (refuses : first.Refuses input)
    (next : α → Decoder β) : (first >>= next).Refuses input := by
  intro value left accepted
  obtain ⟨middle, between, start, -⟩ := Steps.of_bind accepted
  exact refuses middle between start

namespace Uses

variable {first : Decoder α} {next : α → Decoder β} {front back : Bytes} {property : α → Prop}
  {result : β → Prop}

theorem bind (start : first.Uses front property)
    (finish : ∀ value, property value → (next value).Uses back result) :
    (first >>= next).Uses (front ++ back) result := by
  intro rest value left accepted
  rw [List.append_assoc] at accepted
  obtain ⟨middle, between, read, further⟩ := Steps.of_bind accepted
  obtain ⟨rfl, holds⟩ := start _ _ _ read
  exact finish middle holds rest value left further

/-- What the second decoder refuses is refused by the sequence. -/
theorem refuses (start : first.Uses front property)
    (finish : ∀ value, property value → (next value).Refuses back) :
    (first >>= next).Refuses (front ++ back) := by
  intro value left accepted
  obtain ⟨middle, between, read, further⟩ := Steps.of_bind accepted
  obtain ⟨rfl, holds⟩ := start _ _ _ read
  exact finish middle holds value left further

/-- A reading takes exactly what is read. -/
theorem of_reads {decoder : Decoder α} {bytes : Bytes} {value : α}
    (reads : decoder.Reads bytes value) : decoder.Uses bytes (· = value) := by
  intro rest found left accepted
  rw [reads rest] at accepted
  cases accepted
  exact ⟨rfl, rfl⟩

theorem pure {value : α} (holds : property value) : Uses (Pure.pure value) [] property := by
  intro rest found left accepted
  cases accepted
  exact ⟨rfl, holds⟩

/-- A refusal uses whatever there is, since nothing is accepted. -/
theorem throw (error : FormatError) (bytes : Bytes) :
    Uses (MonadExcept.throw error : Decoder α) bytes property := by
  intro rest found left accepted
  cases accepted

end Uses

/-! ## What is demanded -/

/-- The decoder never makes do with less than what the encoder has to write: it takes a whole output
entirely, and refuses one that was broken off. -/
structure Demands (decoder : Decoder α) (encoder : Encoder) (property : α → Prop) : Prop where
  whole : ∀ {room : Room} {bytes : Bytes}, encoder.into room = ⟨bytes, none⟩ →
    decoder.Uses bytes property
  broken : ∀ {room : Room} {bytes : Bytes} {error : FormatError},
    encoder.into room = ⟨bytes, some error⟩ → decoder.Refuses bytes

namespace Demands

variable {decoder : Decoder α} {encoder : Encoder} {property : α → Prop}

theorem weaken {weaker : α → Prop} (demands : decoder.Demands encoder property)
    (implied : ∀ value, property value → weaker value) : decoder.Demands encoder weaker where
  whole written rest value left accepted :=
    have ⟨same, holds⟩ := demands.whole written rest value left accepted
    ⟨same, implied value holds⟩
  broken := demands.broken

/-- A decoder that accepts nothing demands whatever it likes. -/
theorem of_refuses (refuses : ∀ input, decoder.Refuses input) :
    decoder.Demands encoder property where
  whole _ _ value left accepted := absurd accepted (refuses _ value left)
  broken _ := refuses _

theorem throw (error : FormatError) :
    Demands (MonadExcept.throw error : Decoder α) encoder property := by
  refine of_refuses fun input value left accepted => ?_
  cases accepted

theorem throw_bind (error : FormatError) (next : β → Decoder α) :
    Demands ((MonadExcept.throw error : Decoder β) >>= next) encoder property := by
  refine of_refuses fun input value left accepted => ?_
  cases accepted

/-- An output that breaks off at once is refused by a decoder that needs some input. -/
theorem fail {error : FormatError} (hungry : decoder.Refuses []) :
    decoder.Demands (Encoder.fail error) property where
  whole written := by cases written
  broken written := by
    cases written
    exact hungry

theorem pure {value : α} (holds : property value) :
    Demands (Pure.pure value) Encoder.nothing property where
  whole written := by
    cases written
    intro rest found left accepted
    cases accepted
    exact ⟨rfl, holds⟩
  broken written := by cases written

/-- A decoder that is decided by what it takes refuses a run of which a part is missing. -/
theorem raw {bytes : Bytes} {value : α} (reads : decoder.Reads bytes value)
    (decided : decoder.Decided) : decoder.Demands (Encoder.raw bytes) (· = value) where
  whole := by
    intro room written taken
    have same : written = bytes := by
      simp only [Encoder.raw] at taken
      split at taken
      · cases taken
        rfl
      · split at taken
        · cases taken
          rfl
        · cases taken
    rw [same]
    exact .of_reads reads
  broken := by
    intro room written error failed found left accepted
    simp only [Encoder.raw] at failed
    split at failed
    · cases failed
    · rename_i room
      split at failed
      · cases failed
      · rename_i missing
        cases failed
        have ended : decoder bytes = ending (.ok value) [] := by
          rw [← List.append_nil bytes]
          exact reads []
        obtain ⟨front, rfl, settles⟩ := decided.of_ending ended fun error same => by cases same
        rw [List.append_nil] at missing accepted
        obtain ⟨_, _, short, -⟩ := settles.needed room (Nat.lt_of_not_le missing)
        rw [short] at accepted
        cases accepted

/-- Demands are made part by part. -/
theorem bind {next : α → Decoder β} {second : Encoder} {result : β → Prop}
    (start : decoder.Demands encoder property)
    (finish : ∀ value, property value → (next value).Demands second result) :
    (decoder >>= next).Demands (encoder ++ second) result where
  whole := by
    intro room bytes written
    obtain ⟨front, back, one, other, rfl⟩ := Encoder.append_into_ok.mp written
    exact (start.whole one).bind fun value holds => (finish value holds).whole other
  broken := by
    intro room bytes error failed
    rcases begun : encoder.into room with ⟨front, _ | cause⟩
    · rw [Encoder.append_into_of_written begun] at failed
      rcases rest : second.into (room.after front.length) with ⟨back, failure⟩
      rw [rest] at failed
      cases failed
      exact (start.whole begun).refuses fun value holds => (finish value holds).broken rest
    · rw [Encoder.append_into_of_failed begun] at failed
      cases failed
      exact (start.broken begun).bind next

/-- A test of the value that was read demands nothing. -/
theorem settle {next : α → Decoder β} {result : β → Prop}
    (start : decoder.Demands encoder property)
    (quiet : ∀ value, property value → (next value).Uses [] result) :
    (decoder >>= next).Demands encoder result where
  whole := by
    intro room bytes written
    have both := (start.whole written).bind quiet
    rwa [List.append_nil] at both
  broken failed := (start.broken failed).bind next

/-- What is done with a value in the end demands nothing. -/
theorem last {next : α → β} {result : β → Prop} (start : decoder.Demands encoder property)
    (finish : ∀ value, property value → result (next value)) :
    (do return next (← decoder)).Demands encoder result :=
  start.settle fun value holds => .pure (finish value holds)

/-- A test in front of a decoder demands nothing. -/
theorem test {check : Decoder α} {next : α → Decoder β} {result : β → Prop}
    (quiet : check.Uses [] property)
    (finish : ∀ value, property value → (next value).Demands encoder result) :
    (check >>= next).Demands encoder result where
  whole written := quiet.bind fun value holds => (finish value holds).whole written
  broken failed := quiet.refuses fun value holds => (finish value holds).broken failed

end Demands

/-! ## Fields -/

theorem refuses_word32 : word32.Refuses [] := by
  intro value left accepted
  cases accepted

theorem refuses_count (what : String) (max : Nat) : (count what max).Refuses [] :=
  refuses_word32.bind _

theorem refuses_table (what : String) (max : Nat) (item : Decoder α) :
    (table what max item).Refuses [] :=
  (refuses_count what max).bind _

theorem refuses_text (limits : Limits) (what : String) : (text limits what).Refuses [] :=
  ((refuses_count what _).bind _).bind _

theorem demands_word32 (value : UInt32) : word32.Demands (Encoder.word32 value) (· = value) :=
  .raw (reads_word32 value) compositional_decided.word32

theorem demands_word64 (value : UInt64) : word64.Demands (Encoder.word64 value) (· = value) :=
  .raw (reads_word64 value) compositional_decided.word64

theorem demands_int64 (value : Int64) : int64.Demands (Encoder.int64 value) (· = value) :=
  .raw (reads_int64 value) compositional_decided.int64

theorem demands_byte (value : UInt8) : byte.Demands (Encoder.byte value) (· = value) :=
  .raw (reads_byte value) compositional_decided.byte

theorem demands_boolean (value : Bool) :
    boolean.Demands (Encoder.boolean value) (· = value) :=
  .raw (reads_boolean value) compositional_decided.boolean

/-- A length is demanded as the word that it is. -/
theorem demands_countWord (what : String) (length max : Nat) :
    word32.Demands (Encoder.count what length max) (·.toNat = length) := by
  rw [Encoder.count]
  split
  · rename_i fits
    refine (demands_word32 _).weaken fun value same => ?_
    rw [same, UInt32.toNat_ofNat']
    omega
  · exact .fail refuses_word32

/-- A length is demanded whatever the bounds on either side. -/
theorem demands_count (what other : String) (length max bound : Nat) :
    (count other bound).Demands (Encoder.count what length max) (· = length) := by
  refine (demands_countWord what length max).settle fun word same => ?_
  simp only
  split
  · exact .throw _ _
  · exact .pure same

/-- A length of zero is demanded where it is written as a plain word. -/
theorem demands_zeroCount (what : String) (bound : Nat) :
    (count what bound).Demands (Encoder.word32 0) (· = 0) :=
  demands_count "" what 0 0 bound

theorem demands_run (value : Bytes) : (run value.length).Demands (Encoder.raw value) (· = value) :=
  .raw (reads_run value) (decided_run value.length)

variable {limits others : Limits}

theorem demands_bytes (what : String) (value : Bytes) :
    (bytes others what).Demands (Encoder.bytes limits what value) (· = value) := by
  refine (demands_count what what value.length _ _).bind ?_
  rintro _ rfl
  exact demands_run value

theorem demands_text (what value : String) :
    (text others what).Demands (Encoder.text limits what value) fun _ => True := by
  refine (demands_bytes what (Bytes.ofText value)).settle fun encoded _ => ?_
  split
  · exact .pure trivial
  · exact .throw _ _

/-! ## Tables -/

section Tables

variable {item : Decoder β} {encode : α → Encoder}

/-- Items are demanded one by one, so a run of items that breaks off is refused. -/
theorem demands_times {items : List α}
    (demands : ∀ entry ∈ items, item.Demands (encode entry) fun _ => True) :
    (times items.length item).Demands (Encoder.each items encode) fun _ => True := by
  induction items with
  | nil => exact .pure trivial
  | cons entry items ih =>
    rw [List.length_cons, times_succ, Encoder.each]
    refine (demands entry List.mem_cons_self).bind fun value _ => ?_
    have others := ih fun other found => demands other (List.mem_cons_of_mem _ found)
    exact others.last fun _ _ => trivial

theorem demands_table {what other : String} {max bound : Nat} {items : List α}
    (demands : ∀ entry ∈ items, item.Demands (encode entry) fun _ => True) :
    (table other bound item).Demands (Encoder.table what max items encode) fun _ => True := by
  refine (demands_count what other items.length max bound).bind ?_
  rintro _ rfl
  exact demands_times demands

end Tables

end Decoder

end CompiledScript
