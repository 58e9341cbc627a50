import CompiledScript.Proofs.Wire.Output
import CompiledScript.Wire.Decoder

/-!
# Reading back what was written

A decoder reads a run of bytes as a value when it takes exactly this run off any
input that starts with it.  Nothing is assumed of the bytes that follow, so
readings put one behind the other are a reading again.

A decoder restores what an encoder writes when it reads every complete output as
a value with a given property.  For single fields the property is to be the value
that was written; for literals it will only be to be equal to it.
-/

set_option autoImplicit false

namespace CompiledScript

namespace Decoder

variable {α β : Type}

/-- The decoder takes exactly these bytes off every input that starts with them. -/
def Reads (decoder : Decoder α) (bytes : Bytes) (value : α) : Prop :=
  ∀ rest, decoder (bytes ++ rest) = .ok value rest

namespace Reads

theorem pure (value : α) : Reads (Pure.pure value) [] value := fun _ => rfl

/-- What has been read is handed on, and what follows it is left to the next decoder. -/
theorem handOn {first : Decoder α} {front : Bytes} {middle : α} (start : first.Reads front middle)
    (next : α → Decoder β) (rest : Bytes) : (first >>= next) (front ++ rest) = next middle rest := by
  show EStateM.bind first next _ = _
  rw [EStateM.bind, start]

/-- Readings follow one another. -/
theorem bind {first : Decoder α} {next : α → Decoder β} {front back : Bytes} {middle : α}
    {value : β} (start : first.Reads front middle) (finish : (next middle).Reads back value) :
    (first >>= next).Reads (front ++ back) value := by
  intro rest
  rw [List.append_assoc, start.handOn]
  exact finish rest

/-- What is done with a value afterwards takes no bytes. -/
theorem map {decoder : Decoder α} {bytes : Bytes} {middle : α} {next : α → Decoder β} {value : β}
    (start : decoder.Reads bytes middle) (finish : (next middle).Reads [] value) :
    (decoder >>= next).Reads bytes value := by
  have joined := start.bind finish
  rwa [List.append_nil] at joined

/-- An input is read in one way. -/
theorem unique {decoder : Decoder α} {bytes : Bytes} {first second : α}
    (one : decoder.Reads bytes first) (other : decoder.Reads bytes second) : first = second := by
  have same := (one []).symm.trans (other [])
  injection same

end Reads

/-! ## Fields of fixed width -/

theorem reads_digits {width value : Nat} (fits : value < Nat.pow 256 width) :
    (digits width).Reads (Bytes.ofNat width value) value := by
  intro rest
  have cut := Bytes.split?_append (Bytes.ofNat width value) rest
  rw [Bytes.length_ofNat] at cut
  simp only [digits, cut, Bytes.toNat_ofNat fits]

theorem reads_byte (value : UInt8) : byte.Reads [value] value := by
  have fits : value.toNat < Nat.pow 256 1 := value.toNat_lt
  have same : Bytes.ofNat 1 value.toNat = [value] := by simp [Bytes.ofNat]
  refine (same ▸ reads_digits fits).map ?_
  rw [UInt8.ofNat_toNat]
  exact .pure value

theorem reads_word16 (value : UInt16) : word16.Reads (Bytes.ofNat 2 value.toNat) value := by
  have fits : value.toNat < Nat.pow 256 2 := value.toNat_lt
  refine (reads_digits fits).map ?_
  rw [UInt16.ofNat_toNat]
  exact .pure value

theorem reads_word32 (value : UInt32) : word32.Reads (Bytes.ofNat 4 value.toNat) value := by
  have fits : value.toNat < Nat.pow 256 4 := value.toNat_lt
  refine (reads_digits fits).map ?_
  rw [UInt32.ofNat_toNat]
  exact .pure value

theorem reads_word64 (value : UInt64) : word64.Reads (Bytes.ofNat 8 value.toNat) value := by
  have fits : value.toNat < Nat.pow 256 8 := value.toNat_lt
  refine (reads_digits fits).map ?_
  rw [UInt64.ofNat_toNat]
  exact .pure value

theorem reads_int64 (value : Int64) :
    int64.Reads (Bytes.ofNat 8 value.toUInt64.toNat) value := by
  refine (reads_word64 value.toUInt64).map ?_
  rw [Int64.toInt64_toUInt64]
  exact .pure value

theorem reads_boolean (value : Bool) : boolean.Reads [if value then 1 else 0] value := by
  cases value with
  | false => exact (reads_byte 0).map (.pure false)
  | true => exact (reads_byte 1).map (.pure true)

/-! ## Lengths and what they announce -/

theorem reads_count {what : String} {length max : Nat} (small : length ≤ max)
    (word : length < 4294967296) : (count what max).Reads (Bytes.ofNat 4 length) length := by
  have same : (UInt32.ofNat length).toNat = length := by
    rw [UInt32.toNat_ofNat']
    omega
  have start := reads_word32 (UInt32.ofNat length)
  rw [same] at start
  refine start.map ?_
  simp only [same, if_neg (Nat.not_lt.mpr small)]
  exact .pure length

theorem reads_run (bytes : Bytes) : (run bytes.length).Reads bytes bytes := by
  intro rest
  simp only [run, Bytes.split?_append]

/-- Items that are read one by one are read as a list. -/
theorem reads_times {item : Decoder α} {pieces : List Bytes} {values : List α}
    (read : List.Forall₂ item.Reads pieces values) :
    (times pieces.length item).Reads pieces.flatten values := by
  induction read with
  | nil => exact .pure []
  | cons first _ ih =>
    rw [List.length_cons, times_succ]
    exact first.bind (ih.map (.pure _))

theorem reads_table {what : String} {max : Nat} {item : Decoder α} {pieces : List Bytes}
    {values : List α} (small : pieces.length ≤ max) (word : pieces.length < 4294967296)
    (read : List.Forall₂ item.Reads pieces values) :
    (table what max item).Reads (Bytes.ofNat 4 pieces.length ++ pieces.flatten) values :=
  (reads_count small word).bind (reads_times read)

/-! ## Restoring what an encoder writes -/

/-- Whatever the encoder writes is read as a value with a property. -/
def Restores (decoder : Decoder α) (encoder : Encoder) (property : α → Prop) : Prop :=
  ∀ bytes, encoder.Writes bytes → ∃ value, decoder.Reads bytes value ∧ property value

namespace Restores

variable {decoder : Decoder α} {encoder : Encoder} {property : α → Prop}

theorem weaken {weaker : α → Prop} (restores : decoder.Restores encoder property)
    (implied : ∀ value, property value → weaker value) : decoder.Restores encoder weaker := by
  intro bytes written
  obtain ⟨value, read, holds⟩ := restores bytes written
  exact ⟨value, read, implied value holds⟩

theorem fail {error : FormatError} : decoder.Restores (Encoder.fail error) property :=
  fun _ written => (Encoder.not_writes_fail written).elim

theorem pure {value : α} (holds : property value) :
    Restores (Pure.pure value) Encoder.nothing property := by
  intro bytes written
  rw [Encoder.writes_nothing.mp written]
  exact ⟨value, .pure value, holds⟩

/-- Restoring goes field by field. -/
theorem bind {next : α → Decoder β} {second : Encoder} {result : β → Prop}
    (start : decoder.Restores encoder property)
    (finish : ∀ value, property value → (next value).Restores second result) :
    (decoder >>= next).Restores (encoder ++ second) result := by
  intro bytes written
  obtain ⟨front, back, one, other, rfl⟩ := Encoder.writes_append.mp written
  obtain ⟨middle, readFront, holds⟩ := start front one
  obtain ⟨value, readBack, done⟩ := finish middle holds back other
  exact ⟨value, readFront.bind readBack, done⟩

/-- A field that is read as the value it was written from. -/
theorem exact {value : α} {next : α → Decoder β} {second : Encoder} {result : β → Prop}
    (start : decoder.Restores encoder (· = value))
    (finish : (next value).Restores second result) :
    (decoder >>= next).Restores (encoder ++ second) result := by
  refine start.bind fun back same => ?_
  rw [same]
  exact finish

/-- A field that takes no bytes. -/
theorem skip {value : α} {next : α → Decoder β} {result : β → Prop}
    (read : decoder.Reads [] value) (finish : (next value).Restores encoder result) :
    (decoder >>= next).Restores encoder result := by
  intro bytes written
  obtain ⟨back, readBack, done⟩ := finish bytes written
  exact ⟨back, read.bind readBack, done⟩

/-- The last field of a record. -/
theorem last {next : α → β} {result : β → Prop} (start : decoder.Restores encoder property)
    (finish : ∀ value, property value → result (next value)) :
    (do return next (← decoder)).Restores encoder result := by
  intro bytes written
  obtain ⟨value, read, holds⟩ := start bytes written
  exact ⟨next value, read.map (.pure _), finish value holds⟩

end Restores

theorem restores_word16 (value : UInt16) : word16.Restores (Encoder.word16 value) (· = value) := by
  intro bytes written
  rw [Encoder.writes_raw.mp written]
  exact ⟨value, reads_word16 value, rfl⟩

theorem restores_word32 (value : UInt32) : word32.Restores (Encoder.word32 value) (· = value) := by
  intro bytes written
  rw [Encoder.writes_raw.mp written]
  exact ⟨value, reads_word32 value, rfl⟩

theorem restores_word64 (value : UInt64) : word64.Restores (Encoder.word64 value) (· = value) := by
  intro bytes written
  rw [Encoder.writes_raw.mp written]
  exact ⟨value, reads_word64 value, rfl⟩

theorem restores_int64 (value : Int64) : int64.Restores (Encoder.int64 value) (· = value) := by
  intro bytes written
  rw [Encoder.writes_raw.mp written]
  exact ⟨value, reads_int64 value, rfl⟩

theorem restores_byte (value : UInt8) : byte.Restores (Encoder.byte value) (· = value) := by
  intro bytes written
  rw [Encoder.writes_raw.mp written]
  exact ⟨value, reads_byte value, rfl⟩

theorem restores_boolean (value : Bool) :
    boolean.Restores (Encoder.boolean value) (· = value) := by
  intro bytes written
  rw [Encoder.writes_raw.mp written]
  exact ⟨value, reads_boolean value, rfl⟩

theorem restores_count {what : String} {length max : Nat} :
    (count what max).Restores (Encoder.count what length max) (· = length) := by
  intro bytes written
  obtain ⟨small, word, rfl⟩ := Encoder.writes_count.mp written
  exact ⟨length, reads_count small word, rfl⟩

/-- A length of zero that is written as a plain word. -/
theorem restores_zeroCount {what : String} {max : Nat} :
    (count what max).Restores (Encoder.word32 0) (· = 0) := by
  intro bytes written
  rw [Encoder.writes_raw.mp written]
  exact ⟨0, reads_count (Nat.zero_le max) (by decide), rfl⟩

/-- A length that is read as a plain word. -/
theorem restores_countWord {what : String} {length max : Nat} :
    word32.Restores (Encoder.count what length max) (·.toNat = length) := by
  intro bytes written
  obtain ⟨-, word, rfl⟩ := Encoder.writes_count.mp written
  have same : (UInt32.ofNat length).toNat = length := by
    rw [UInt32.toNat_ofNat']
    omega
  have read := reads_word32 (UInt32.ofNat length)
  rw [same] at read
  exact ⟨UInt32.ofNat length, read, same⟩

theorem restores_run (value : Bytes) :
    (run value.length).Restores (Encoder.raw value) (· = value) := by
  intro bytes written
  rw [Encoder.writes_raw.mp written]
  exact ⟨value, reads_run value, rfl⟩

theorem restores_bytes {limits : Limits} {what : String} (value : Bytes) :
    (bytes limits what).Restores (Encoder.bytes limits what value) (· = value) :=
  restores_count.exact (restores_run value)

theorem restores_text {limits : Limits} {what : String} (value : String) :
    (text limits what).Restores (Encoder.text limits what value) (· = value) := by
  intro bytes written
  obtain ⟨encoded, read, rfl⟩ := restores_bytes (Bytes.ofText value) bytes written
  refine ⟨value, read.map ?_, rfl⟩
  rw [Bytes.text?_ofText]
  exact .pure value

/-! ## Tables -/

/-- Pieces that were written one for each item are read back one by one. -/
theorem reads_pieces {item : Decoder β} {encode : α → Encoder} {property : α → β → Prop}
    {items : List α} {pieces : List Bytes}
    (restores : ∀ entry ∈ items, item.Restores (encode entry) (property entry))
    (written : List.Forall₂ (fun entry piece => (encode entry).Writes piece) items pieces) :
    ∃ values, List.Forall₂ item.Reads pieces values ∧ List.Forall₂ property items values := by
  induction written with
  | nil => exact ⟨[], .nil, .nil⟩
  | cons first _ ih =>
    obtain ⟨value, read, holds⟩ := restores _ List.mem_cons_self _ first
    obtain ⟨values, readAll, holdAll⟩ := ih fun entry found =>
      restores entry (List.mem_cons_of_mem _ found)
    exact ⟨value :: values, .cons read readAll, .cons holds holdAll⟩

theorem restores_times {item : Decoder β} {encode : α → Encoder} {property : α → β → Prop}
    {items : List α} (restores : ∀ entry ∈ items, item.Restores (encode entry) (property entry)) :
    (times items.length item).Restores (Encoder.each items encode)
      (List.Forall₂ property items) := by
  intro bytes written
  obtain ⟨pieces, each, rfl⟩ := Encoder.writes_each.mp written
  obtain ⟨values, read, holds⟩ := reads_pieces restores each
  rw [each.length_eq]
  exact ⟨values, reads_times read, holds⟩

/-- A table is restored if each of its entries is. -/
theorem restores_table {what : String} {max : Nat} {item : Decoder β} {encode : α → Encoder}
    {property : α → β → Prop} {items : List α}
    (restores : ∀ entry ∈ items, item.Restores (encode entry) (property entry)) :
    (table what max item).Restores (Encoder.table what max items encode)
      (List.Forall₂ property items) :=
  restores_count.exact (restores_times restores)

/-- Items that are read as they were written give the list that was written. -/
theorem restores_times_exact {item : Decoder α} {encode : α → Encoder} (items : List α)
    (restores : ∀ entry ∈ items, item.Restores (encode entry) (· = entry)) :
    (times items.length item).Restores (Encoder.each items encode) (· = items) := by
  have each : (times items.length item).Restores (Encoder.each items encode)
      (List.Forall₂ (fun entry back => back = entry) items) := restores_times restores
  refine each.weaken ?_
  intro values same
  exact (List.forall₂_eq_eq_eq ▸ same.flip : values = items)

/-- A table whose entries are read as they were written is, too. -/
theorem restores_table_exact {what : String} {max : Nat} {item : Decoder α}
    {encode : α → Encoder} (items : List α)
    (restores : ∀ entry ∈ items, item.Restores (encode entry) (· = entry)) :
    (table what max item).Restores (Encoder.table what max items encode) (· = items) :=
  restores_count.exact (restores_times_exact items restores)

end Decoder

end CompiledScript
