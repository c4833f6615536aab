import TickMachine.Proofs.Chronicle
import TickMachine.Proofs.Newest
import TickMachine.Proofs.Onward
import TickMachine.Proofs.Queue

/-!
# What the history limit does

Two machines with different history limits do the same.  No program looks at the history, so only
the records can differ: the machine with the lower limit keeps the newest ones of those that the
other one keeps.
-/

namespace TickMachine

variable {β D N α : Type}

/-! ## The newest records -/

namespace History

/-- The records of a history without their times. -/
def courses (history : History) : List (Option Kind × Option Kind × Option Serial) :=
  history.records.map Passage.course

/-- To record a transition is to add it at the end and to keep the newest records. -/
theorem courses_record
    (history : History)
    (passage : Passage)
    (recording : history.limit ≠ 0) :
    (history.record passage).courses =
      (history.courses ++ [passage.course]).rtake history.limit.toNat := by
  rw [courses, records_record_rtake history passage recording, courses, List.rtake, List.map_drop,
    List.rtake, List.map_append, List.length_append, List.length_append, List.length_map]
  rfl

/-- A history holds the newest records of another one, as many as its lower limit allows. -/
structure Truncates (history record : History) : Prop where
  within : history.limit ≤ record.limit
  newest : history.courses = record.courses.rtake history.limit.toNat

/-- What is recorded in both histories is among the newest records of both. -/
theorem Truncates.record
    {history record : History}
    (truncates : history.Truncates record)
    (source target : Option Kind)
    (subject : Option Serial)
    (now later : Instant) :
    (history.record ⟨source, target, subject, now⟩).Truncates
      (record.record ⟨source, target, subject, later⟩) := by
  have within : history.limit.toNat ≤ record.limit.toNat := truncates.within
  refine ⟨by simpa using truncates.within, ?_⟩
  rw [limit_record]
  by_cases recording : history.limit = 0
  · rw [History.record, if_pos recording, truncates.newest, recording, UInt64.toNat_zero,
      List.rtake_zero, List.rtake_zero]
  · have recordingToo : record.limit ≠ 0 := by
      intro zero
      rw [zero, UInt64.toNat_zero] at within
      exact recording (UInt64.toNat.inj (Nat.le_zero.mp within))
    rw [courses_record _ _ recording, courses_record _ _ recordingToo,
      rtake_rtake_of_le _ within, truncates.newest, rtake_concat_rtake]
    rfl

end History

/-! ## Machines with different history limits -/

/-- One machine has the lower history limit and the other one the higher limit. -/
def Likeness.truncated (small large : UInt64) : Likeness where
  same config history other record :=
    config.historyLimit = small ∧ other = { config with historyLimit := large } ∧
      history.limit = small ∧ history.Truncates record
  immediate same := (congrArg Config.immediate same.2.1 :)
  shutdown same := (congrArg Config.shutdown same.2.1 :)
  record := by
    rintro config other history record source target subject now later ⟨low, high, limit, truncates⟩
    exact ⟨low, high, (History.limit_record _ _).trans limit,
      truncates.record source target subject now later⟩

/-- Histories of different limits allow chains of the same length. -/
theorem Likeness.truncated_steady (small large : UInt64) :
    Kernel.Steady (Likeness.truncated small large) := by
  intro config other history record same
  exact (congrArg Config.chainLimit same.2.1 :)

/-- The machine with another history limit. -/
def Machine.remembering (machine : Machine β D) (limit : UInt64) : Machine β D :=
  { machine with
    config := { machine.config with historyLimit := limit }
    history := { machine.history with limit := limit } }

/-- A machine that is made with another history limit is the same except for the limit. -/
theorem Machine.make_remembering
    {id : MachineId}
    {config : Config}
    {registry : Registry β}
    {data : D}
    {machine : Machine β D}
    (made : make id config registry data = .ok machine)
    (limit : UInt64) :
    make id { config with historyLimit := limit } registry data =
      .ok (machine.remembering limit) := by
  have idle := eq_idle_of_make made
  subst idle
  unfold make Config.accept at made ⊢
  dsimp only at made ⊢
  split at made
  · nomatch made
  next accepted judged =>
    split at judged
    · nomatch judged
    next usable =>
      cases judged
      rw [if_neg usable]
      dsimp only
      split at made
      · nomatch made
      next => rfl

/-! ## Histories within their limits -/

/-- A machine keeps no more records than its configuration allows. -/
structure Machine.Within (machine : Machine β D) : Prop where
  limit : machine.history.limit = machine.config.historyLimit
  size : machine.history.size ≤ machine.config.historyLimit.toNat

/-- A step adds a record to the history or leaves it alone. -/
theorem Step.history_cases
    {conduct : Conduct β D N}
    {deeds : List Deed}
    {before after : Stage β D N}
    (step : Step conduct deeds before after) :
    after.run.machine.history = before.run.machine.history ∨
      ∃ passage, after.run.machine.history = before.run.machine.history.record passage := by
  cases step with
  | record source next => exact .inr ⟨_, rfl⟩
  | recordAgain kind subject present => exact .inr ⟨_, rfl⟩
  | recordLeaving previous => exact .inr ⟨_, rfl⟩
  | take destination request taken => exact .inl (by rw [Run.take_machine])
  | letGo | release => exact .inl (by rw [Run.released_machine])
  | pop serial below transition rest top retrieved =>
      obtain ⟨_, _, rfl⟩ := Machine.retrieve_frame retrieved
      exact .inl rfl
  | _ => exact .inl rfl

/-- No step records more than the limit allows. -/
theorem Step.within
    {conduct : Conduct β D N}
    {deeds : List Deed}
    {before after : Stage β D N}
    (step : Step conduct deeds before after)
    (within : before.run.machine.Within) :
    after.run.machine.Within := by
  obtain ⟨-, config, -⟩ := step.fixed
  constructor
  · rw [config, ← within.limit]
    obtain same | ⟨passage, recorded⟩ := step.history_cases
    · rw [same]
    · rw [recorded, History.limit_record]
  · rw [config]
    obtain same | ⟨passage, recorded⟩ := step.history_cases
    · rw [same]
      exact within.size
    · rw [recorded]
      by_cases recording : before.run.machine.history.limit = 0
      · rw [History.record, if_pos recording]
        exact within.size
      · rw [← within.limit]
        exact History.size_record_le _ passage recording

/-- A history never grows beyond its limit. -/
theorem within_lasting
    {id : MachineId}
    {config : Config}
    {registry : Registry β}
    {data : D}
    {origin : Machine β D}
    (conduct : Conduct β D N)
    (permitted : Except Interruption Reply → Prop)
    (made : Machine.make id config registry data = .ok origin) :
    Lasting conduct permitted origin (fun stage => stage.run.machine.Within) where
  step _ _ step within := step.within within
  clock _ _ within := within
  rearrange _ _ _ within := within
  refused _ _ within := within
  broken _ _ _ _ _ _ within := within
  start _ := by
    rw [Machine.eq_idle_of_make made]
    exact ⟨rfl, Nat.zero_le _⟩

/-- A machine within its own limit keeps what it would keep with a higher limit. -/
theorem Machine.Within.alike
    {run : Run β D N}
    (within : run.machine.Within)
    {limit : UInt64}
    (larger : run.machine.config.historyLimit ≤ limit)
    (now : Instant) :
    Alike (.truncated run.machine.config.historyLimit limit) run
      { run with machine := run.machine.remembering limit, now := now } := by
  have whole : run.machine.history.courses =
      run.machine.history.courses.rtake run.machine.history.limit.toNat := by
    have excess : run.machine.history.records.length - run.machine.config.historyLimit.toNat = 0 :=
      Nat.sub_eq_zero_of_le within.size
    rw [within.limit, List.rtake, History.courses, List.length_map, excess, List.drop_zero]
  refine ⟨⟨_, _, rfl, rfl, rfl, within.limit, ?_, whole⟩, rfl, rfl⟩
  rw [within.limit]
  exact larger

/-! ## Operations in a row -/

/-- Operations on runs that are alike have the same answers and leave the runs alike, whenever they
are done. -/
theorem Alike.performAll
    {likeness : Likeness}
    (steady : Kernel.Steady likeness)
    (conduct : Conduct β D N)
    {left right : Run β D N}
    (alike : Alike likeness left right)
    {early late : List (Instant × Operation β D)}
    (same : late.map Prod.snd = early.map Prod.snd) :
    (right.performAll conduct late).1 = (left.performAll conduct early).1 ∧
      Alike likeness (left.performAll conduct early).2 (right.performAll conduct late).2 := by
  induction early generalizing left right late with
  | nil =>
      cases List.map_eq_nil_iff.mp same
      exact ⟨rfl, alike⟩
  | cons first more inductionHypothesis =>
      obtain ⟨now, operation⟩ := first
      obtain ⟨⟨later, again⟩, others, rfl, repeated, rest⟩ := List.map_eq_cons_iff.mp same
      obtain rfl : again = operation := repeated
      have composed : Kernel.Composed conduct (Kernel.perform conduct again) := .perform again
      have matched := composed.agrees steady (alike.clock now later)
      unfold Run.performAll Run.perform
      generalize Kernel.perform conduct again { left with now := now } = ended,
        Kernel.perform conduct again { right with now := later } = other at matched ⊢
      cases matched with
      | ok reply stillAlike =>
          obtain ⟨answers, ends⟩ := inductionHypothesis stillAlike rest
          exact ⟨congrArg (List.cons (.ok reply)) answers, ends⟩
      | error cause stillAlike =>
          obtain ⟨answers, ends⟩ := inductionHypothesis stillAlike rest
          exact ⟨congrArg (List.cons (.error cause)) answers, ends⟩

/-- Whatever is done, a machine with a lower history limit does the same as one with a higher limit,
gives the same answers, and keeps the newest of its records. -/
theorem history_limit_truncates
    {conduct : Conduct β D N}
    {permitted : Except Interruption Reply → Prop}
    {id : MachineId}
    {config : Config}
    {registry : Registry β}
    {data : D}
    {origin : Machine β D}
    {run : Run β D N}
    (made : Machine.make id config registry data = .ok origin)
    (reached : Reachable conduct permitted origin run)
    {limit : UInt64}
    (larger : config.historyLimit ≤ limit)
    {now : Instant}
    {early late : List (Instant × Operation β D)}
    {answers lateAnswers : List (Except Interruption Reply)}
    {left right : Run β D N}
    (same : late.map Prod.snd = early.map Prod.snd)
    (short : run.performAll conduct early = (answers, left))
    (long : Run.performAll conduct
      { run with machine := run.machine.remembering limit, now := now } late =
        (lateAnswers, right)) :
    lateAnswers = answers ∧
    right.machine = { left.machine with
      config := { left.machine.config with historyLimit := limit }
      history := right.machine.history } ∧
    left.machine.history.courses =
      right.machine.history.courses.rtake config.historyLimit.toNat ∧
    (config.historyLimit = 0 → left.machine.history.records = []) ∧
    right.hands = left.hands ∧
    substance right.journal = substance left.journal := by
  have within := (within_lasting conduct permitted made).reachable reached
  obtain ⟨-, fixed, -⟩ := (fixed_lasting conduct permitted made).reachable reached
  have alike := within.alike (fixed ▸ larger) now
  rw [fixed] at alike
  obtain ⟨answered, after⟩ := alike.performAll (Likeness.truncated_steady _ _) conduct same
  rw [short, long] at answered after
  obtain ⟨_, history, shared, -, high, keeps, truncates⟩ := after.machine
  have newest := truncates.newest
  rw [keeps] at newest
  refine ⟨answered, ?_, ?_, fun zero => ?_, after.hands, after.journal⟩
  · rw [shared, high]
  · rw [shared]
    exact newest
  · rw [zero, UInt64.toNat_zero, List.rtake_zero] at newest
    exact List.map_eq_nil_iff.mp newest

/-- The run of a relay with a history limit after it has been sent through both of its kinds and
shut down. -/
def relayRemembering (limit : UInt64) : List (Except Interruption Reply) × Run Actor Meter Note :=
  Run.performAll Actor.conduct ⟨(relay true).remembering limit, ∅, #[], .epoch⟩
    [(.epoch, .switchTo (.fresh ⟨1⟩)), (.epoch, .switchTo (.fresh ⟨2⟩)), (.epoch, .shutdown)]

/-- A relay that keeps two records keeps the last two of all of them. -/
theorem history_limit_truncates_relay :
    (relayRemembering 2).2.machine.history.size = 2 ∧
      (relayRemembering 64).2.machine.history.size = 4 ∧
      (relayRemembering 2).2.machine.history.courses =
        (relayRemembering 64).2.machine.history.courses.rtake 2 := by
  have made : Machine.make ⟨1⟩ { (relay true).config with historyLimit := 2 }
      (relay true).registry .zero = .ok ((relay true).remembering 2) :=
    Machine.make_remembering (relay_made true) 2
  have reached : Reachable Actor.conduct (fun _ => True) ((relay true).remembering 2)
      ⟨(relay true).remembering 2, ∅, #[], .epoch⟩ := .start .epoch
  have larger : (2 : UInt64) ≤ 64 := by decide
  obtain ⟨-, -, newest, -⟩ := history_limit_truncates made reached larger rfl
    (Prod.eta (relayRemembering 2)).symm (Prod.eta (relayRemembering 64)).symm
  exact ⟨by decide +kernel, by decide +kernel, newest⟩

end TickMachine
