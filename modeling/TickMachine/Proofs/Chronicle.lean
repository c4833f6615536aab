import Mathlib.Data.List.Chain
import TickMachine.Proofs.Parking

/-!
# The history as an account of the run

A machine that keeps a history writes down every change of its current state.  Each record leads on
from the one before it, and the last one tells which state is current, or that none is.  A record
is written at different points of a transition: before the next state is entered, after the current
state has entered again, and after the current state has exited for good.  So the account is behind
the machine, or ahead of it, while a transition is made.
-/

namespace TickMachine

variable {β D N : Type}

/-! ## Records -/

namespace Passage

/-- Whether a record leads on from another one. -/
def LeadsOn (earlier later : Passage) : Prop :=
  earlier.target = later.source

/-- The kinds that a record leads from and to. -/
def leg (passage : Passage) : Option Kind × Option Kind :=
  (passage.source, passage.target)

end Passage

namespace History

theorem records_record
    (history : History)
    (passage : Passage)
    (recording : history.limit ≠ 0) :
    (history.record passage).records =
      history.records.drop (history.records.length + 1 - history.limit.toNat) ++ [passage] := by
  rw [record, if_neg recording]

theorem last?_record
    (history : History)
    (passage : Passage)
    (recording : history.limit ≠ 0) :
    (history.record passage).last? = some passage := by
  rw [last?, records_record history passage recording, List.getLast?_concat]

theorem records_record_ne_nil
    (history : History)
    (passage : Passage)
    (recording : history.limit ≠ 0) :
    (history.record passage).records ≠ [] := by
  rw [records_record history passage recording]
  exact List.concat_ne_nil passage _

/-- A history that has been added to is within its limit, even if it was not before. -/
theorem size_record_le
    (history : History)
    (passage : Passage)
    (recording : history.limit ≠ 0) :
    (history.record passage).size ≤ history.limit.toNat := by
  have positive : history.limit.toNat ≠ 0 := fun zero => recording (UInt64.toNat.inj zero)
  rw [size, records_record history passage recording, List.length_append, List.length_drop,
    List.length_singleton]
  omega

/-- What is left of a history without gaps has no gaps, and a record that leads on from the last one
leaves no gap either. -/
theorem linked_record
    (history : History)
    (passage : Passage)
    (recording : history.limit ≠ 0)
    (linked : history.records.IsChain Passage.LeadsOn)
    (next : ∀ last ∈ history.last?, last.target = passage.source) :
    (history.record passage).records.IsChain Passage.LeadsOn := by
  rw [records_record history passage recording]
  refine (linked.drop _).append (.singleton passage) ?_
  intro last kept _ added
  cases added
  refine next last ?_
  rw [List.getLast?_drop] at kept
  split at kept
  · nomatch kept
  · exact kept

/-- The path of a history has one kind more than the history has records. -/
theorem length_path
    (history : History)
    (begun : history.records ≠ []) :
    history.path.length = history.size + 1 := by
  obtain ⟨first, more, records⟩ := List.exists_cons_of_ne_nil begun
  simp [path, size, records]

/-- The path of a history without gaps goes along its records. -/
theorem zip_path
    (history : History)
    (linked : history.records.IsChain Passage.LeadsOn) :
    history.path.zip history.path.tail = history.records.map Passage.leg := by
  obtain ⟨records, limit⟩ := history
  dsimp only at linked
  induction records with
  | nil => rfl
  | cons first more inductionHypothesis =>
      cases more with
      | nil => rfl
      | cons second rest =>
          obtain ⟨leads, others⟩ := List.isChain_cons_cons.mp linked
          have along := inductionHypothesis others
          have joint : second.source = first.target := leads.symm
          simp only [path, List.head?_cons, Option.map_some, Option.toList_some, List.map_cons,
            List.cons_append, List.nil_append, List.tail_cons, List.zip_cons_cons] at along ⊢
          rw [joint] at along
          rw [along]
          rfl

/-- The path ends where the last record leads to. -/
theorem getLast?_path
    (history : History)
    (last : Passage)
    (ends : history.last? = some last) :
    history.path.getLast? = some last.target := by
  rw [path, List.getLast?_append, List.getLast?_map]
  change (history.last?.map Passage.target).or _ = _
  rw [ends]
  rfl

end History

/-! ## What the history tells during a call -/

/-- Where a call stands between what was current and what the history tells. -/
inductive Footing where
  /-- The history tells what is current. -/
  | level
  /-- Nothing is current, and the history still tells of the kind that was. -/
  | behind (kind : Option Kind)
  /-- Nothing is current, and the history already tells of the state to be entered. -/
  | ahead (next : Kind × Serial)

/-- Where a call stands in a phase. -/
def Phase.footing : Phase β → Footing
  | .swapping source _ _ => .behind source
  | .leaving previous => .behind (some previous.kind)
  | .entering next => .ahead next.identity
  | _ => .level

/-- Whether a record tells where a machine with the given current state stands. -/
def Footing.Told (current : Option (Kind × Serial)) (passage : Passage) : Footing → Prop
  | .level =>
      passage.target = current.map Prod.fst ∧ passage.subject = current.map Prod.snd
  | .behind kind => passage.target = kind
  | .ahead next => passage.target = some next.1 ∧ passage.subject = some next.2

namespace Stage

/-- What the history of a stage tells. -/
structure Chronicled (limit : UInt64) (stage : Stage β D N) : Prop where
  /-- The history has the given limit. -/
  limited : stage.run.machine.history.limit = limit
  /-- It keeps no more records than that. -/
  bounded : stage.run.machine.history.size ≤ limit.toNat
  /-- Its records lead on from one another. -/
  linked : stage.run.machine.history.records.IsChain Passage.LeadsOn
  /-- The last one tells where the machine stands. -/
  told : ∀ last ∈ stage.run.machine.history.last?,
    stage.phase.footing.Told (stage.run.machine.current.map Instance.identity) last
  /-- Nothing is current while a transition is under way. -/
  vacant : stage.phase.footing ≠ .level → stage.run.machine.current = none
  /-- There are records if a state was ever entered, or is just to be entered. -/
  begun : stage.run.machine.history.records = [] ↔
    stage.run.machine.everEntered = false ∧ ∀ next, stage.phase.footing ≠ .ahead next
  /-- A state that is current or leaves has been entered. -/
  unentered : stage.run.machine.everEntered = false →
    stage.run.machine.current = none ∧ ∀ kind, stage.phase.footing ≠ .behind (some kind)

namespace Chronicled

variable {limit : UInt64} {before after : Stage β D N} {phase later : Phase β}
  {batch rest : List (Request β)} {run : Run β D N}

/-- What does not touch the history or the current state leaves the account as it is. -/
theorem carry
    (chronicled : Chronicled limit before)
    (history : after.run.machine.history = before.run.machine.history)
    (entered : after.run.machine.everEntered = before.run.machine.everEntered)
    (current : after.run.machine.current.map Instance.identity =
      before.run.machine.current.map Instance.identity)
    (footing : after.phase.footing = before.phase.footing) :
    Chronicled limit after := by
  have vacancy : before.run.machine.current = none → after.run.machine.current = none := by
    intro absent
    rw [absent] at current
    exact Option.map_eq_none_iff.mp current
  exact
    { limited := by rw [history]; exact chronicled.limited
      bounded := by rw [history]; exact chronicled.bounded
      linked := by rw [history]; exact chronicled.linked
      told := by rw [history, current, footing]; exact chronicled.told
      vacant := by rw [footing]; exact vacancy ∘ chronicled.vacant
      begun := by rw [history, entered, footing]; exact chronicled.begun
      unentered := by
        rw [entered, footing]
        exact fun never => (chronicled.unentered never).imp_left vacancy }

/-- When the current state has exited, the history still tells of it. -/
theorem exited
    (chronicled : Chronicled limit before)
    (level : before.phase.footing = .level)
    (subject : Instance β)
    (present : before.run.machine.current = some subject)
    (history : after.run.machine.history = before.run.machine.history)
    (entered : after.run.machine.everEntered = before.run.machine.everEntered)
    (absent : after.run.machine.current = none)
    (behind : after.phase.footing = .behind (some subject.kind)) :
    Chronicled limit after where
  limited := by rw [history]; exact chronicled.limited
  bounded := by rw [history]; exact chronicled.bounded
  linked := by rw [history]; exact chronicled.linked
  told last ends := by
    rw [history] at ends
    have told := chronicled.told last ends
    rw [level, present] at told
    rw [behind]
    exact told.1
  vacant _ := absent
  begun := by
    rw [history, entered, behind, chronicled.begun, level]
    simp
  unentered never := by
    rw [entered] at never
    have nobody := (chronicled.unentered never).1
    rw [present] at nobody
    nomatch nobody

/-- A record that leads on from the last one keeps the account. -/
theorem recorded
    (chronicled : Chronicled limit ⟨phase, batch, run⟩)
    (recording : limit ≠ 0)
    (source target : Option Kind)
    (subject : Option Serial)
    (leads : ∀ last, phase.footing.Told (run.machine.current.map Instance.identity) last →
      last.target = source)
    (told : later.footing.Told (run.machine.current.map Instance.identity)
      ⟨source, target, subject, run.now⟩)
    (vacant : later.footing ≠ .level → run.machine.current = none)
    (entered : run.machine.everEntered = false → ∃ next, later.footing = .ahead next) :
    Chronicled limit ⟨later, rest, run.recorded source target subject⟩ := by
  have limited : run.machine.history.limit = limit := chronicled.limited
  have kept : run.machine.history.limit ≠ 0 := by rwa [limited]
  let passage : Passage := ⟨source, target, subject, run.now⟩
  have absent : run.machine.everEntered = false → run.machine.current = none := fun never => by
    obtain ⟨next, ahead⟩ := entered never
    exact vacant (by rw [ahead]; nofun)
  exact
    { limited := (run.machine.history.limit_record passage).trans limited
      bounded := limited ▸ run.machine.history.size_record_le passage kept
      linked := run.machine.history.linked_record passage kept chronicled.linked
        fun last ends => leads last (chronicled.told last ends)
      told := by
        intro last ends
        have newest : (run.machine.history.record passage).last? = some last := ends
        rw [run.machine.history.last?_record passage kept] at newest
        cases newest
        exact told
      vacant := vacant
      begun := by
        constructor
        · intro empty
          exact absurd empty (run.machine.history.records_record_ne_nil passage kept)
        · rintro ⟨never, level⟩
          obtain ⟨next, ahead⟩ := entered never
          exact absurd ahead (level next)
      unentered := by
        intro never
        refine ⟨absent never, fun kind behind => ?_⟩
        obtain ⟨next, ahead⟩ := entered never
        rw [ahead] at behind
        nomatch behind }

end Chronicled

end Stage

/-- No step leaves a gap in the history. -/
theorem Step.chronicled
    {conduct : Conduct β D N}
    {deeds : List Deed}
    {limit : UInt64}
    {before after : Stage β D N}
    (step : Step conduct deeds before after)
    (recording : limit ≠ 0)
    (orderly : before.Orderly)
    (chronicled : before.Chronicled limit) :
    after.Chronicled limit := by
  cases step with
  | pause paused =>
      exact chronicled.carry rfl rfl (Instance.map_identity_paused _ paused) rfl
  | take destination request taken =>
      refine chronicled.carry ?_ ?_ ?_ rfl <;> rw [Run.take_machine]
  | letGo | release =>
      refine chronicled.carry ?_ ?_ ?_ rfl <;> rw [Run.released_machine]
  | pop serial below transition rest top retrieved =>
      obtain ⟨_, _, rfl⟩ := Machine.retrieve_frame retrieved
      exact chronicled.carry rfl rfl rfl rfl
  | tick subject _ present | restart subject present | exitInPlace _ subject present
  | enterAgain _ subject present =>
      exact chronicled.carry rfl rfl (Run.identity_hooked _ conduct _ subject present) rfl
  | exit subject _ present | leave subject present =>
      exact chronicled.exited rfl subject present rfl rfl rfl rfl
  | vacant next absent =>
      refine ⟨chronicled.limited, chronicled.bounded, chronicled.linked, ?_, fun _ => absent,
        ?_, fun never => ⟨absent, nofun⟩⟩
      · intro last ends
        have told := chronicled.told last ends
        dsimp only at told absent
        rw [absent] at told
        exact told.1
      · have begun := chronicled.begun
        simpa [Phase.footing] using begun
  | enter next absent =>
      refine ⟨chronicled.limited, chronicled.bounded, chronicled.linked, chronicled.told,
        fun moving => absurd rfl moving, ?_, nofun⟩
      constructor
      · intro empty
        exact absurd rfl ((chronicled.begun.mp empty).2 next.identity)
      · rintro ⟨never, _⟩
        nomatch never
  | record source next =>
      refine chronicled.recorded recording source (some next.kind) (some next.serial)
        (fun _ told => told) ⟨rfl, rfl⟩ (fun _ => chronicled.vacant nofun) ?_
      exact fun _ => ⟨next.identity, rfl⟩
  | @recordAgain batch run kind subject present =>
      have same := orderly.again (kind, subject.serial) (.inl rfl)
      dsimp only at same
      refine chronicled.recorded recording (some subject.kind) (some kind) (some subject.serial)
        ?_ ?_ (fun moving => absurd rfl moving) ?_
      · intro last told
        rw [present] at told
        exact told.1
      · rw [same]
        exact ⟨rfl, rfl⟩
      · intro never
        have nobody : run.machine.current = none := (chronicled.unentered never).1
        rw [present] at nobody
        nomatch nobody
  | @recordLeaving batch run previous =>
      have absent : run.machine.current = none := chronicled.vacant nofun
      refine chronicled.recorded recording (some previous.kind) none none
        (fun _ told => told) ?_ (fun _ => absent) ?_
      · rw [absent]
        exact ⟨rfl, rfl⟩
      · exact fun never => absurd rfl ((chronicled.unentered never).2 previous.kind)
  | _ => exact chronicled.carry rfl rfl rfl rfl

/-! ## Reachable runs -/

/-- As long as no hook breaks off, the history tells the whole way of the machine. -/
theorem chronicled_lasting
    {id : MachineId}
    {config : Config}
    {registry : Registry β}
    {data : D}
    {origin : Machine β D}
    (conduct : Conduct β D N)
    (made : Machine.make id config registry data = .ok origin)
    (recording : config.historyLimit ≠ 0) :
    Lasting conduct Unbroken origin fun stage =>
      stage.Orderly ∧ stage.Chronicled config.historyLimit where
  start now := by
    refine ⟨(orderly_lasting conduct Unbroken made).start now, ?_⟩
    rw [Machine.eq_idle_of_make made]
    exact ⟨rfl, Nat.zero_le _, .nil, nofun, fun moving => absurd rfl moving, by simp [Machine.idle,
      History.empty, Phase.footing], fun _ => ⟨rfl, nofun⟩⟩
  step _ _ step held := ⟨step.orderly held.1, step.chronicled recording held.1 held.2⟩
  clock run now held :=
    ⟨(orderly_lasting conduct Unbroken made).clock run now held.1, held.2.carry rfl rfl rfl rfl⟩
  rearrange _ hands kept held :=
    ⟨held.1.rearrange hands kept, held.2.carry rfl rfl rfl rfl⟩
  refused _ _ held := ⟨held.1.end_call, held.2.carry rfl rfl rfl rfl⟩
  broken _ _ _ _ unbroken := unbroken.elim

/-- The history of a machine that keeps one is a gap-free account of the run, after every operation
and whatever it answered, as long as no hook broke off. -/
theorem history_gapless
    {id : MachineId}
    {config : Config}
    {registry : Registry β}
    {data : D}
    {origin : Machine β D}
    {conduct : Conduct β D N}
    {run : Run β D N}
    (made : Machine.make id config registry data = .ok origin)
    (recording : config.historyLimit ≠ 0)
    (reached : Reachable conduct Unbroken origin run) :
    run.machine.history.size ≤ config.historyLimit.toNat ∧
    run.machine.history.records.IsChain Passage.LeadsOn ∧
    (∀ last ∈ run.machine.history.last?,
      last.target = run.machine.currentKind ∧ last.subject = run.machine.currentSerial) ∧
    (run.machine.history.records = [] ↔ run.machine.status = .uninitialized) ∧
    (run.machine.history.records ≠ [] →
      run.machine.history.path.length = run.machine.history.size + 1 ∧
      run.machine.history.path.zip run.machine.history.path.tail =
        run.machine.history.records.map Passage.leg ∧
      run.machine.history.path.getLast? = some run.machine.currentKind) := by
  have chronicled := ((chronicled_lasting conduct made recording).reachable reached).2
  have told : ∀ last ∈ run.machine.history.last?,
      last.target = run.machine.currentKind ∧ last.subject = run.machine.currentSerial := by
    intro last ends
    have told := chronicled.told last ends
    simp only [Phase.footing, Footing.Told, Option.map_map] at told
    exact told
  refine ⟨chronicled.bounded, chronicled.linked, told, ?_, ?_⟩
  · have begun := chronicled.begun
    simp only [Phase.footing, ne_eq, reduceCtorEq, not_false_eq_true, implies_true,
      and_true] at begun
    rw [begun, Machine.status, Machine.isActive]
    cases entered : run.machine.everEntered with
    | true => cases run.machine.current <;> simp
    | false =>
        have nobody : run.machine.current = none := (chronicled.unentered entered).1
        simp [nobody]
  · intro records
    refine ⟨run.machine.history.length_path records,
      run.machine.history.zip_path chronicled.linked, ?_⟩
    have ends : run.machine.history.last? = some (run.machine.history.records.getLast records) :=
      List.getLast?_eq_some_getLast records
    rw [run.machine.history.getLast?_path _ ends, (told _ ends).1]

/-- A relay that has been shut down has gone from its first kind to none and on to its second. -/
theorem history_gapless_relay :
    ((relayStarted true).perform Actor.conduct .epoch .shutdown).2.machine.history.path.zip
        ((relayStarted true).perform Actor.conduct .epoch .shutdown).2.machine.history.path.tail =
      [(none, some ⟨1⟩), (some ⟨1⟩, none), (none, some ⟨2⟩)] := by
  have reached : Reachable Actor.conduct Unbroken (relay true)
      ((relayStarted true).perform Actor.conduct .epoch .shutdown).2 :=
    .perform _ _ (relayStarted_reachable true) (by decide +kernel)
  obtain ⟨_, _, _, _, path⟩ := history_gapless (relay_made true) (by decide) reached
  rw [(path (by decide +kernel)).2.1]
  decide +kernel

end TickMachine
