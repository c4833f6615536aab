import Mathlib.Data.List.DropRight
import TickMachine.History

/-!
# The newest records

A history makes room before it records: it drops the oldest record, again and again, until the next
one fits.  So after any number of records it holds the newest ones of all that it ever had, as many
as its limit allows, also if it held too many before.  A history without a limit above zero records
nothing, and what it was loaded with stays.
-/

namespace TickMachine

variable {α : Type}

/-! ## The newest elements of a list -/

theorem rtake_rtake_of_le
    (records : List α)
    {small large : Nat}
    (within : small ≤ large) :
    (records.rtake large).rtake small = records.rtake small := by
  simp only [List.rtake, List.length_drop, List.drop_drop]
  congr 1
  omega

/-- The newest elements after an addition can be told from those before it. -/
theorem rtake_concat_rtake (records : List α) (added : α) (size : Nat) :
    (records.rtake size ++ [added]).rtake size = (records ++ [added]).rtake size := by
  cases size with
  | zero => rw [List.rtake_zero, List.rtake_zero]
  | succ less =>
      rw [List.rtake_concat_succ, List.rtake_concat_succ,
        rtake_rtake_of_le records (Nat.le_succ less)]

theorem length_rtake (records : List α) (size : Nat) :
    (records.rtake size).length = min size records.length := by
  rw [List.rtake, List.length_drop]
  omega

namespace History

/-! ## Recording -/

/-- The records that are left when the oldest ones are dropped one by one until there is room for
another one. -/
def makeRoom (limit : Nat) : List Passage → List Passage
  | [] => []
  | oldest :: newer =>
      if limit ≤ (oldest :: newer).length then makeRoom limit newer else oldest :: newer

/-- One record goes in the ordinary case, and as many as are too many if the history is overfull. -/
theorem makeRoom_eq_rtake (less : Nat) (records : List Passage) :
    makeRoom (less + 1) records = records.rtake less := by
  induction records with
  | nil => simp [makeRoom]
  | cons oldest newer inductionHypothesis =>
      rw [makeRoom]
      split
      next full =>
        rw [inductionHypothesis, List.rtake, List.rtake]
        have excess : (oldest :: newer).length - less = newer.length - less + 1 := by
          rw [List.length_cons] at full ⊢
          omega
        rw [excess, List.drop_succ_cons]
      next room =>
        have excess : (oldest :: newer).length - less = 0 := by omega
        rw [List.rtake, excess, List.drop_zero]

theorem exists_limit_eq_succ {history : History} (recording : history.limit ≠ 0) :
    ∃ less, history.limit.toNat = less + 1 :=
  Nat.exists_eq_succ_of_ne_zero fun zero => recording (UInt64.toNat.inj zero)

/-- To record a transition is to make room for it and to add it at the end. -/
theorem records_record_makeRoom
    (history : History)
    (passage : Passage)
    (recording : history.limit ≠ 0) :
    (history.record passage).records =
      makeRoom history.limit.toNat history.records ++ [passage] := by
  obtain ⟨less, size⟩ := exists_limit_eq_succ recording
  have excess : history.records.length + 1 - (less + 1) = history.records.length - less := by omega
  rw [record, if_neg recording, size, makeRoom_eq_rtake, List.rtake, excess]

/-- What a history holds after a record are the newest of the old records and the new one. -/
theorem records_record_rtake
    (history : History)
    (passage : Passage)
    (recording : history.limit ≠ 0) :
    (history.record passage).records =
      (history.records ++ [passage]).rtake history.limit.toNat := by
  obtain ⟨less, size⟩ := exists_limit_eq_succ recording
  rw [records_record_makeRoom history passage recording, size, makeRoom_eq_rtake,
    List.rtake_concat_succ]

/-- Records transitions one by one. -/
def recordAll (history : History) (passages : List Passage) : History :=
  passages.foldl record history

theorem recordAll_concat (history : History) (passages : List Passage) (passage : Passage) :
    history.recordAll (passages ++ [passage]) = (history.recordAll passages).record passage :=
  List.foldl_concat ..

theorem limit_recordAll (history : History) (passages : List Passage) :
    (history.recordAll passages).limit = history.limit := by
  induction passages using List.reverseRecOn with
  | nil => rfl
  | append_singleton passages passage inductionHypothesis =>
      rw [recordAll_concat, limit_record, inductionHypothesis]

/-- After any number of records, a history holds the newest ones of all that it had and all that
were added. -/
theorem records_recordAll
    (history : History)
    {passages : List Passage}
    (nonempty : passages ≠ [])
    (recording : history.limit ≠ 0) :
    (history.recordAll passages).records =
      (history.records ++ passages).rtake history.limit.toNat := by
  induction passages using List.reverseRecOn with
  | nil => exact absurd rfl nonempty
  | append_singleton earlier passage inductionHypothesis =>
      by_cases first : earlier = []
      · rw [first]
        exact history.records_record_rtake passage recording
      · have recordingStill : (history.recordAll earlier).limit ≠ 0 :=
          history.limit_recordAll earlier ▸ recording
        rw [recordAll_concat, records_record_rtake _ passage recordingStill, limit_recordAll,
          inductionHypothesis first, rtake_concat_rtake, List.append_assoc]

/-- A history with limit zero records nothing. -/
theorem recordAll_of_zero
    (history : History)
    (passages : List Passage)
    (zero : history.limit = 0) :
    history.recordAll passages = history := by
  induction passages using List.reverseRecOn with
  | nil => rfl
  | append_singleton passages passage inductionHypothesis =>
      rw [recordAll_concat, inductionHypothesis]
      exact if_pos zero

/-! ## Sequences of calls -/

/-- A call of a history. -/
inductive Use where
  | record (passage : Passage)
  | clear
  | path
  | last
  | duration

/-- What a call answers. -/
inductive Answer where
  | done
  | path (kinds : List (Option Kind))
  | last (passage : Option Passage)
  | duration (elapsed : Option (Nat × Nat))
deriving DecidableEq

/-- Makes a call. -/
def use (history : History) : Use → Answer × History
  | .record passage => (.done, history.record passage)
  | .clear => (.done, history.clear)
  | .path => (.path history.path, history)
  | .last => (.last history.last?, history)
  | .duration => (.duration history.duration?, history)

/-- Makes calls in order. -/
def useAll (history : History) : List Use → List Answer × History
  | [] => ([], history)
  | call :: more =>
      let (answer, next) := history.use call
      let (answers, last) := next.useAll more
      (answer :: answers, last)

theorem limit_use (history : History) (call : Use) :
    (history.use call).2.limit = history.limit := by
  cases call with
  | record passage => exact limit_record history passage
  | clear | path | last | duration => rfl

theorem limit_useAll (history : History) (calls : List Use) :
    (history.useAll calls).2.limit = history.limit := by
  induction calls generalizing history with
  | nil => rfl
  | cons call more inductionHypothesis =>
      exact (inductionHypothesis (history.use call).2).trans (history.limit_use call)

/-- After any number of records, a history that records at all holds exactly the newest ones of
those that it held and those that were added, at most as many as its limit; and its path goes from
the source of the oldest of them through all their targets.  A history with limit zero stays as it
is.  And no sequence of calls changes the limit. -/
theorem newest_records_kept
    (history : History)
    (passages : List Passage)
    (nonempty : passages ≠ []) :
    (history.limit ≠ 0 →
      (history.recordAll passages).records <:+ history.records ++ passages ∧
      (history.recordAll passages).size =
        min history.limit.toNat (history.size + passages.length) ∧
      ∃ oldest newer,
        (history.recordAll passages).records = oldest :: newer ∧
        (history.recordAll passages).path =
          oldest.source :: (oldest :: newer).map Passage.target) ∧
    (history.limit = 0 → (history.recordAll passages).records = history.records) ∧
    (history.recordAll passages).limit = history.limit ∧
    ∀ calls, (history.useAll calls).2.limit = history.limit := by
  refine ⟨fun recording => ?_, fun zero => ?_, history.limit_recordAll passages,
    history.limit_useAll⟩
  · have kept := history.records_recordAll nonempty recording
    have count : (history.recordAll passages).size =
        min history.limit.toNat (history.size + passages.length) := by
      rw [size, kept, length_rtake, List.length_append, size]
    have held : (history.recordAll passages).records ≠ [] := by
      obtain ⟨less, limit⟩ := exists_limit_eq_succ recording
      have added := List.length_pos_iff.mpr nonempty
      rw [← List.length_pos_iff, ← size, count]
      omega
    obtain ⟨oldest, newer, shape⟩ := List.exists_cons_of_ne_nil held
    refine ⟨kept ▸ List.drop_suffix _ _, count, oldest, newer, shape, ?_⟩
    rw [path, shape]
    rfl
  · rw [history.recordAll_of_zero passages zero]

/-- A record from one kind to another at the start of time. -/
def passageBetween (source target : UInt8) : Passage :=
  ⟨some ⟨source⟩, some ⟨target⟩, none, .epoch⟩

/-- A history that was loaded with three records although its limit is two. -/
def overfull : History :=
  ⟨[passageBetween 1 2, passageBetween 2 3, passageBetween 3 4], 2⟩

/-- An overfull history lets two records go for the first one that is added. -/
theorem newest_records_kept_overfull :
    (overfull.recordAll [passageBetween 4 5]).records <:+
        overfull.records ++ [passageBetween 4 5] ∧
      (overfull.recordAll [passageBetween 4 5]).size = 2 ∧
      (overfull.recordAll [passageBetween 4 5]).records =
        [passageBetween 3 4, passageBetween 4 5] ∧
      ({ overfull with limit := 0 }.recordAll [passageBetween 4 5]).records =
        overfull.records := by
  obtain ⟨suffix, size, -⟩ :=
    (newest_records_kept overfull [passageBetween 4 5] (List.cons_ne_nil _ _)).1 (by decide)
  have unchanged :=
    (newest_records_kept { overfull with limit := 0 } [passageBetween 4 5]
      (List.cons_ne_nil _ _)).2.1 rfl
  exact ⟨suffix, size, by decide, unchanged⟩

end History
end TickMachine
