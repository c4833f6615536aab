import TickMachine.Config
import TickMachine.Time.Rfc3339

/-!
# History

A bounded log of transitions, oldest first.  Recording past the limit drops the oldest records;
a limit of zero records nothing.  A history that was read from text may hold more records than its
limit until the next one is recorded.
-/

namespace TickMachine

/-- One transition.  A missing source means that no state was current before it; a missing target
and state mean that none was current after it. -/
structure Passage where
  source : Option Kind
  target : Option Kind
  /-- The state that became current. -/
  subject : Option Serial
  timestamp : Instant
deriving DecidableEq

/-- A bounded log of transitions, oldest first. -/
structure History where
  records : List Passage
  limit : UInt64
deriving DecidableEq

namespace History

/-- A history without records. -/
def empty (limit : UInt64) : History :=
  ⟨[], limit⟩

/-- Adds a record at the end and drops the oldest ones that exceed the limit. -/
def record (history : History) (passage : Passage) : History :=
  if history.limit = 0 then history
  else
    let excess := history.records.length + 1 - history.limit.toNat
    { history with records := history.records.drop excess ++ [passage] }

/-- Drops all records. -/
def clear (history : History) : History :=
  { history with records := [] }

/-- The number of records. -/
def size (history : History) : Nat :=
  history.records.length

/-- The newest record. -/
def last? (history : History) : Option Passage :=
  history.records.getLast?

/-- The kinds that were current one after the other: the source of the oldest record and the
targets of all of them. -/
def path (history : History) : List (Option Kind) :=
  (history.records.head?.map Passage.source).toList ++
    history.records.map Passage.target

/-- The time from the oldest to the newest record in seconds and nanoseconds, unless it is
negative or there are no records. -/
def duration? (history : History) : Option (Nat × Nat) := do
  let first ← history.records.head?
  let last ← history.records.getLast?
  first.timestamp.elapsed? last.timestamp

@[simp] theorem limit_record (history : History) (passage : Passage) :
    (history.record passage).limit = history.limit := by
  unfold record
  split <;> rfl

end History

/-! ## JSON text -/

namespace Passage

/-- A record that has been read in part. -/
structure Draft where
  source : Option (Option Kind) := none
  target : Option (Option Kind) := none
  subject : Option (Option Serial) := none
  timestamp : Option Instant := none

/-- The record of a draft.  Only the timestamp may not be missing. -/
def Draft.complete? (draft : Draft) : Option Passage :=
  draft.timestamp.map fun timestamp =>
    ⟨draft.source.getD none, draft.target.getD none, draft.subject.getD none, timestamp⟩

/-- The fields of a record in JSON text, in the order in which they are written. -/
def fields : List (Json.Field Draft) :=
  [.of "from" Draft.source
      (fun draft value => { draft with source := some value }) (Json.optional Kind.read),
    .of "to" Draft.target
      (fun draft value => { draft with target := some value }) (Json.optional Kind.read),
    .of "instance" Draft.subject
      (fun draft value => { draft with subject := some value }) (Json.optional Serial.read),
    .of "timestamp" Draft.timestamp
      (fun draft value => { draft with timestamp := some value })
      (Json.refine Json.string Rfc3339.read?)]

/-- Reads a record from JSON text. -/
def read (text : List Char) : Json.Reading Passage :=
  Json.refine (Json.record fields false {}) Draft.complete? text

/-- The JSON text of a record. -/
def write (passage : Passage) : List Char :=
  Json.writeObject
    [("from", Json.writeOptional Kind.write passage.source),
      ("to", Json.writeOptional Kind.write passage.target),
      ("instance", Json.writeOptional Serial.write passage.subject),
      ("timestamp", Json.writePlainString (Rfc3339.write passage.timestamp))]

end Passage

namespace History

/-- A history that has been read in part. -/
structure Draft where
  records : Option (List Passage) := none
  limit : Option UInt64 := none

/-- The history of a draft; neither field may be missing. -/
def Draft.complete? (draft : Draft) : Option History := do
  let records ← draft.records
  let limit ← draft.limit
  return ⟨records, limit⟩

/-- The fields of a history in JSON text, in the order in which they are written. -/
def fields : List (Json.Field Draft) :=
  [.of "records" Draft.records
      (fun draft value => { draft with records := some value })
      (Json.list Passage.read),
    .of "limit" Draft.limit
      (fun draft value => { draft with limit := some value }) Json.readWord]

/-- Reads a history from JSON text, as it is: it may hold more records than its limit. -/
def read (text : List Char) : Json.Reading History :=
  Json.refine (Json.record fields false {}) Draft.complete? text

/-- The JSON text of a history. -/
def write (history : History) : List Char :=
  Json.writeObject
    [("records", Json.writeList Passage.write history.records),
      ("limit", Json.writeNatural history.limit.toNat)]

end History
end TickMachine
