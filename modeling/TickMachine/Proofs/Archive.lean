import TickMachine.Proofs.Newest
import TickMachine.Proofs.Readers
import TickMachine.Proofs.Timestamps

/-!
# The text of a history

A history can be read back from its text, with as many records as it holds, whatever its limit.  The
text of a timestamp keeps every nanosecond, so a history that was read back cannot be told from the
one that was written: it answers every call alike from then on.
-/

namespace TickMachine

open Json

namespace Passage

/-- What the text of a record can hold: a year of four digits, and a serial number of one word. -/
structure Storable (passage : Passage) : Prop where
  early : 0 ≤ passage.timestamp.date.year
  late : passage.timestamp.date.year ≤ 9999
  fits : ∀ serial ∈ passage.subject, serial.number < wordSize

/-- The draft of a record that is there in full. -/
def whole (passage : Passage) : Draft :=
  ⟨some passage.source, some passage.target, some passage.subject, some passage.timestamp⟩

theorem complete?_whole (passage : Passage) : passage.whole.complete? = some passage :=
  rfl

/-- A moment stands between quotes, and what stands there is read as this moment. -/
theorem timestamp_reads {passage : Passage} (storable : passage.Storable) :
    Reads (refine string Rfc3339.read?) (writePlainString (Rfc3339.write passage.timestamp))
      passage.timestamp := by
  have spells := spells_of_plain
    (Rfc3339.write_plain passage.timestamp storable.early storable.late)
  exact (string_reads spells).refine
    (Rfc3339.read?_write passage.timestamp storable.early storable.late)

/-- The members of the text of a record lead to the whole record. -/
theorem leads {passage : Passage} (storable : passage.Storable) :
    Leads fields {}
      [.compact "from" (writeOptional Kind.write passage.source),
        .compact "to" (writeOptional Kind.write passage.target),
        .compact "instance" (writeOptional Serial.write passage.subject),
        .compact "timestamp" (writePlainString (Rfc3339.write passage.timestamp))]
      passage.whole := by
  have subject : Reads (optional Serial.read) (writeOptional Serial.write passage.subject)
      passage.subject :=
    optional_reads (fun serial held => serial.reads (storable.fits serial held))
      fun _ => digits_starts _
  exact .member (.compact (plain_of_all (by decide)) rfl rfl (Kind.held_reads passage.source)) <|
    .member (.compact (plain_of_all (by decide)) rfl rfl (Kind.held_reads passage.target)) <|
    .member (.compact (plain_of_all (by decide)) rfl rfl subject) <|
    .member (.compact (plain_of_all (by decide)) rfl rfl (timestamp_reads storable)) .done

theorem reads {passage : Passage} (storable : passage.Storable) :
    Reads read passage.write passage := by
  have members := (leads storable).record_reads .none false
  rw [write, writeObject_eq]
  exact members.refine passage.complete?_whole

theorem write_starts (passage : Passage) : StartsElement passage.write :=
  ⟨'\x7b', _, rfl, by decide, by decide⟩

end Passage

namespace History

/-- The two members of a written history are read into the draft in order. -/
theorem leads {history : History} (storable : ∀ passage ∈ history.records, passage.Storable) :
    Leads fields {}
      [.compact "records" (writeList Passage.write history.records),
        .compact "limit" (writeNatural history.limit.toNat)]
      ⟨some history.records, some history.limit⟩ := by
  have records := list_reads (fun passage held => Passage.reads (storable passage held))
    fun passage _ => passage.write_starts
  exact .member (.compact (plain_of_all (by decide)) rfl rfl records) <|
    .member (.compact (plain_of_all (by decide)) rfl rfl (readWord_reads history.limit)) .done

theorem reads {history : History} (storable : ∀ passage ∈ history.records, passage.Storable) :
    Reads read history.write history := by
  have members := (leads storable).record_reads .none false
  rw [write, writeObject_eq]
  exact members.refine rfl

/-- The text of a history gives it back: its limit, and its records in their order, each with its
timestamp to the nanosecond, even if there are more of them than the limit allows.  So whatever is
called from then on, the copy answers as the history itself would. -/
theorem read_back
    (history : History)
    (storable : ∀ passage ∈ history.records, passage.Storable) :
    ∃ copy, document read history.write = .ok copy ∧
      copy.limit = history.limit ∧
      copy.records = history.records ∧
      ∀ calls, copy.useAll calls = history.useAll calls := by
  have accepted := (reads storable).document .none .none
  simp only [Blanks.none, List.nil_append, List.append_nil] at accepted
  exact ⟨history, accepted, rfl, rfl, fun _ => rfl⟩

/-! ## A history beyond its limit -/

/-- Nothing was current, and the state with the largest number became current in the last nanosecond
of a leap second on a leap day. -/
def entrance : Passage where
  source := none
  target := some ⟨255⟩
  subject := some ⟨wordSize - 1⟩
  timestamp := ⟨{ year := 0, month := 2, day := 29 },
    { hour := 23, minute := 59, second := 60, nano := 999999999 }⟩

/-- It ceased to be current a millisecond into the last second that a text can tell. -/
def departure : Passage where
  source := some ⟨255⟩
  target := none
  subject := none
  timestamp := ⟨{ year := 9999, month := 12, day := 31 },
    { hour := 23, minute := 59, second := 59, nano := 1000000 }⟩

/-- A history with two records although its limit is one. -/
def archived : History :=
  ⟨[entrance, departure], 1⟩

theorem archived_storable : ∀ passage ∈ archived.records, passage.Storable := by
  have entranceStorable : entrance.Storable := ⟨by decide, by decide, by simp [entrance, wordSize]⟩
  have departureStorable : departure.Storable := ⟨by decide, by decide, by simp [departure]⟩
  simp [archived, entranceStorable, departureStorable]

/-- Both records come back, with all the time between them, and the limit is kept at the next
record. -/
theorem read_back_archived :
    ∃ copy, document read archived.write = .ok copy ∧
      copy.records = [entrance, departure] ∧
      (copy.useAll [.path, .duration, .record entrance, .path]).1 =
        [.path [none, some ⟨255⟩, none], .duration (some (315564335998, 1000001)), .done,
          .path [none, some ⟨255⟩]] := by
  obtain ⟨copy, accepted, -, records, answers⟩ := archived.read_back archived_storable
  refine ⟨copy, accepted, records, ?_⟩
  rw [answers]
  decide

end History
end TickMachine
