import TickMachine.Proofs.Readers
import TickMachine.Refusal

/-!
# The text of a configuration

A configuration can be read back from its text, and also from the text of any object that lists its
fields: in any order, each once, without some of those that have their default value, and with other
members in between.  A configuration whose chain limit is zero is read and then refused, and none
with such a limit is ever accepted.
-/

namespace TickMachine
namespace Config

open Json

/-! ## Fields -/

/-- A field of a configuration. -/
inductive Key where
  | immediate
  | shutdown
  | chainLimit
  | historyLimit
deriving DecidableEq

/-- The name of a field in JSON text. -/
def Key.name : Key → String
  | .immediate => "immediate_transitions"
  | .shutdown => "shutdown_state"
  | .chainLimit => "max_chained_transitions"
  | .historyLimit => "history_limit"

/-- All fields, in the order in which they are written. -/
def keys : List Key :=
  [.immediate, .shutdown, .chainLimit, .historyLimit]

/-- The JSON text of the value that a configuration has in a field. -/
def valueText (config : Config) : Key → List Char
  | .immediate => writeBoolean config.immediate
  | .shutdown => writeOptional Kind.write config.shutdown
  | .chainLimit => writeNatural config.chainLimit.toNat
  | .historyLimit => writeNatural config.historyLimit.toNat

/-- A configuration has the default value in a field. -/
def HasDefault (config : Config) : Key → Prop
  | .immediate => config.immediate = ({} : Config).immediate
  | .shutdown => config.shutdown = ({} : Config).shutdown
  | .chainLimit => config.chainLimit = ({} : Config).chainLimit
  | .historyLimit => config.historyLimit = ({} : Config).historyLimit

/-- The members of an object list some fields of a configuration, each of them once. -/
inductive Lists (config : Config) : List Member → List Key → Prop where
  | done : Lists config [] []
  /-- A member that has the name and the value of a field. -/
  | key
      {key : Key}
      {member : Member}
      {others : List Member}
      {told : List Key}
      (spells : Spells member.name key.name.toList)
      (value : member.value = config.valueText key)
      (once : key ∉ told)
      (more : Lists config others told) :
      Lists config (member :: others) (key :: told)
  /-- A well-formed member that has the name of no field. -/
  | foreign
      {name : List Char}
      {member : Member}
      {others : List Member}
      {told : List Key}
      (spells : Spells member.name name)
      (unknown : ∀ key : Key, key.name.toList ≠ name)
      (value : IsValue member.value)
      (more : Lists config others told) :
      Lists config (member :: others) told

/-- A text is an object that lists the fields of a configuration, except for some of those that have
their default value. -/
def ListedIn (config : Config) (text : List Char) : Prop :=
  ∃ (ahead inside behind : Blanks) (members : List Member) (told : List Key),
    config.Lists members told ∧
      (∀ key, key ∉ told → config.HasDefault key) ∧
      text = ahead.text ++ (objectText inside members ++ behind.text)

/-! ## Drafts -/

/-- The draft that has the values of a configuration in some fields. -/
def telling (config : Config) (told : List Key) : Draft where
  immediate := if .immediate ∈ told then some config.immediate else none
  shutdown := if .shutdown ∈ told then some config.shutdown else none
  chainLimit := if .chainLimit ∈ told then some config.chainLimit else none
  historyLimit := if .historyLimit ∈ told then some config.historyLimit else none

theorem telling_nil (config : Config) : config.telling [] = {} := by
  simp [telling]

theorem telling_congr
    (config : Config)
    {told other : List Key}
    (same : ∀ key, key ∈ told ↔ key ∈ other) :
    config.telling told = config.telling other := by
  simp [telling, same]

/-- What is left out has its default value, so the draft is that of the whole configuration. -/
theorem complete_telling
    {config : Config}
    {told : List Key}
    (rest : ∀ key, key ∉ told → config.HasDefault key) :
    (config.telling told).complete = config := by
  have immediate := rest .immediate
  have shutdown := rest .shutdown
  have chainLimit := rest .chainLimit
  have historyLimit := rest .historyLimit
  simp only [HasDefault] at immediate shutdown chainLimit historyLimit
  simp only [Draft.complete, telling]
  congr 1
  · split
    next => rfl
    next absent => exact (immediate absent).symm
  · split
    next => rfl
    next absent => exact (shutdown absent).symm
  · split
    next => rfl
    next absent => exact (chainLimit absent).symm
  · split
    next => rfl
    next absent => exact (historyLimit absent).symm

/-- The text of each setting is read back. -/
theorem valueText_reads (config : Config) :
    Reads boolean (config.valueText .immediate) config.immediate ∧
      Reads (optional Kind.read) (config.valueText .shutdown) config.shutdown ∧
      Reads readWord (config.valueText .chainLimit) config.chainLimit ∧
      Reads readWord (config.valueText .historyLimit) config.historyLimit :=
  ⟨boolean_reads _, Kind.held_reads _, readWord_reads _, readWord_reads _⟩

/-- A member that tells a field gives the draft the value of that field. -/
theorem takes_key
    {config : Config}
    {key : Key}
    {member : Member}
    {told : List Key}
    (spells : Spells member.name key.name.toList)
    (value : member.value = config.valueText key)
    (once : key ∉ told) :
    Takes fields (config.telling told) member (config.telling (key :: told)) := by
  obtain ⟨immediate, shutdown, chainLimit, historyLimit⟩ := config.valueText_reads
  cases key with
  | immediate =>
      refine .field spells rfl (by simp [Field.of, telling, once]) ?_
      simpa [value, telling] using immediate.field _ Draft.immediate _ (config.telling told)
  | shutdown =>
      refine .field spells rfl (by simp [Field.of, telling, once]) ?_
      simpa [value, telling] using shutdown.field _ Draft.shutdown _ (config.telling told)
  | chainLimit =>
      refine .field spells rfl (by simp [Field.of, telling, once]) ?_
      simpa [value, telling] using chainLimit.field _ Draft.chainLimit _ (config.telling told)
  | historyLimit =>
      refine .field spells rfl (by simp [Field.of, telling, once]) ?_
      simpa [value, telling] using historyLimit.field _ Draft.historyLimit _ (config.telling told)

/-- A member that is no field leaves every draft as it is. -/
theorem takes_foreign
    {member : Member}
    {name : List Char}
    (spells : Spells member.name name)
    (unknown : ∀ key : Key, key.name.toList ≠ name)
    (value : IsValue member.value)
    (draft : Draft) :
    Takes fields draft member draft := by
  have names : fields.map Field.name = keys.map Key.name := rfl
  refine .foreign spells (List.find?_eq_none.mpr fun field isField => ?_) value
  obtain ⟨key, -, named⟩ := List.mem_map.mp (names ▸ List.mem_map_of_mem isField)
  rw [← named, decide_eq_true_eq]
  exact unknown key

/-- Listed fields are read one after the other, each into a draft that does not have it yet. -/
theorem Lists.leads
    {config : Config}
    {members : List Member}
    {told : List Key}
    (lists : config.Lists members told)
    (before : List Key)
    (apart : ∀ key ∈ told, key ∉ before) :
    Leads fields (config.telling before) members (config.telling (told ++ before)) := by
  induction lists generalizing before with
  | done => exact .done
  | @key key member others told spells value once _ inductionHypothesis =>
      obtain ⟨new, others⟩ := List.forall_mem_cons.mp apart
      have more := inductionHypothesis (key :: before) fun other isTold => by
        rw [List.mem_cons, not_or]
        exact ⟨fun same => once (same ▸ isTold), others other isTold⟩
      have same : config.telling (told ++ key :: before) =
          config.telling (key :: told ++ before) :=
        config.telling_congr fun other => List.perm_middle.mem_iff
      exact .member (takes_key spells value new) (same ▸ more)
  | foreign spells unknown value _ inductionHypothesis =>
      exact .member (takes_foreign spells unknown value _) (inductionHypothesis before apart)

/-- An object that lists the fields of a configuration is read as this configuration. -/
theorem Lists.reads
    {config : Config}
    {members : List Member}
    {told : List Key}
    (lists : config.Lists members told)
    (rest : ∀ key, key ∉ told → config.HasDefault key)
    (inside : Blanks) :
    Reads read (objectText inside members) config := by
  have leads := lists.leads [] fun _ _ => List.not_mem_nil
  rw [telling_nil, List.append_nil] at leads
  have reads := (leads.record_reads inside true).map Draft.complete
  rwa [complete_telling rest] at reads

/-- A configuration is written as an object that lists all its fields. -/
theorem write_eq (config : Config) :
    config.write = objectText .none
      (keys.map fun key => .compact key.name (config.valueText key)) := by
  rw [write, writeObject_eq]
  rfl

/-- Any settings can be listed without blanks, in any order. -/
theorem lists_compact
    (config : Config)
    {told : List Key}
    (once : told.Nodup) :
    config.Lists (told.map fun key => .compact key.name (config.valueText key)) told := by
  induction told with
  | nil => exact .done
  | cons key others inductionHypothesis =>
      obtain ⟨new, once⟩ := List.nodup_cons.mp once
      have plain : ∀ char ∈ key.name.toList, IsPlain char :=
        plain_of_all (by cases key <;> decide)
      exact .key (spells_of_plain plain) rfl new (inductionHypothesis once)

/-- A configuration lists all of its settings when it is written. -/
theorem listedIn_write (config : Config) : config.ListedIn config.write := by
  refine ⟨.none, .none, .none, _, keys, config.lists_compact (by decide), fun key absent => ?_, ?_⟩
  · exact absurd (by cases key <;> decide) absent
  · rw [write_eq]
    simp [Blanks.none]

/-- Every text in which a configuration is listed, its own text among them, gives the configuration
back, unless its chain limit is zero: then the text is refused for this.  And whatever the text, a
configuration that is accepted has a chain limit of at least one. -/
theorem settings_read_back (config : Config) :
    (∀ text : String, text.toList = config.write ∨ config.ListedIn text.toList →
      (1 ≤ config.chainLimit → ofText text = .ok config) ∧
        (config.chainLimit = 0 → ofText text = .error .zeroChainLimit)) ∧
    ∀ (text : String) (accepted : Config),
      ofText text = .ok accepted → 1 ≤ accepted.chainLimit := by
  have zero_or_positive : ∀ limit : UInt64, limit = 0 ↔ ¬ 1 ≤ limit := by
    intro limit
    rw [UInt64.le_iff_toNat_le, ← UInt64.toNat_inj]
    simp
  constructor
  · intro text given
    have listed : config.ListedIn text.toList :=
      given.elim (fun written => written ▸ config.listedIn_write) id
    obtain ⟨ahead, inside, behind, members, told, lists, rest, shape⟩ := listed
    have reads : document read text.toList = .ok config :=
      shape ▸ (lists.reads rest inside).document ahead behind
    refine ⟨fun positive => ?_, fun zero => ?_⟩
    · rw [ofText, reads]
      exact if_neg fun zero => (zero_or_positive _).mp zero positive
    · rw [ofText, reads]
      exact if_pos zero
  · intro text accepted accepts
    rw [ofText] at accepts
    split at accepts
    next => nomatch accepts
    next found _ =>
      rw [accept] at accepts
      split at accepts
      next => nomatch accepts
      next positive =>
        cases accepts
        exact Decidable.not_not.mp fun zero => positive ((zero_or_positive _).mpr zero)

/-! ## A configuration among other things -/

/-- A configuration with default values in two fields. -/
def terse : Config :=
  { shutdown := some ⟨9⟩, historyLimit := 0 }

/-- The text of an object with the two other fields, one of them under a name with an escape, behind
a member that is no field: an array of a number and an object whose only name is half a pair. -/
def terseText : String :=
  "\x7b \"note\": [-1.5e3, \x7b\"\\ud800\": null\x7d], " ++
    "\"sh\\u0075tdown_state\" : 9,\"history_limit\":0\x7d"

/-- One space. -/
def space : Blanks :=
  ⟨[' '], List.forall_mem_singleton.mpr rfl⟩

/-- The member of the inner object. -/
def half : Member :=
  ⟨.none, ['\\', 'u', 'd', '8', '0', '0'], .none, space, ['n', 'u', 'l', 'l'], .none⟩

/-- The member that is no field. -/
def remark : Member where
  ahead := space
  name := "note".toList
  beforeColon := .none
  afterColon := space
  value := '[' :: (([] ++ (['-'] ++ (['1'] ++ (['.', '5'] ++ ['e', '3'])) ++ ([] ++ ',' ::
    (space.text ++ ('\x7b' :: (half.text ++ ['\x7d']) ++ []))))) ++ [']'])
  behind := .none

theorem remark_isValue : IsValue remark.value := by
  have half : IsPart .members half.text :=
    .lastMember (.code (.of rfl rfl rfl rfl) .nil) .null
  have number : IsNumber (['-'] ++ (['1'] ++ (['.', '5'] ++ ['e', '3']))) :=
    .of (.inr rfl) (.digits rfl (by decide) (List.forall_mem_nil _)) (.digits (.one rfl))
      (.digits (.inl rfl) (.inl rfl) (.one rfl))
  exact .array (.element .none .none (.number number) (.lastElement space .none (.object half)))

/-- The shutdown kind under a name with an escape. -/
def escaped : Member where
  ahead := space
  name := 's' :: 'h' :: '\\' :: 'u' :: (['0', '0', '7', '5'] ++ "tdown_state".toList)
  beforeColon := space
  afterColon := space
  value := ['9']
  behind := .none

theorem escaped_spells : Spells escaped.name (Key.name .shutdown).toList := by
  have spelled : (Key.name .shutdown).toList = 's' :: 'h' :: 'u' :: "tdown_state".toList := by
    decide
  have letter : IsUnit ['0', '0', '7', '5'] (((0 * 16 + 0) * 16 + 7) * 16 + 5) :=
    .of rfl rfl rfl rfl
  rw [spelled]
  exact .plain (by decide) (.plain (by decide)
    (.code letter rfl rfl (spells_of_plain (plain_of_all (by decide)))))

theorem terse_listed : terse.ListedIn terseText.toList := by
  have nine : writeNatural 9 = ['9'] := by
    rw [writeNatural, Decimal.digits]
    rfl
  have zero : writeNatural 0 = ['0'] := by
    rw [writeNatural, Decimal.digits]
    rfl
  have lists : terse.Lists [remark, escaped, .compact "history_limit" ['0']]
      [.shutdown, .historyLimit] :=
    .foreign (spells_of_plain (plain_of_all (by decide))) (fun key => by cases key <;> decide)
      remark_isValue (.key escaped_spells nine.symm (by decide)
        (.key (spells_of_plain (plain_of_all (by decide))) zero.symm (by decide) .done))
  refine ⟨.none, .none, .none, _, _, lists, fun key absent => ?_, by decide⟩
  cases key with
  | immediate | chainLimit => rfl
  | shutdown | historyLimit => exact absurd (by decide) absent

/-- The text is accepted, and it gives the configuration back.  Without a chain limit, the text of
the same configuration is refused. -/
theorem settings_read_back_terse :
    ofText terseText = .ok terse ∧ 1 ≤ terse.chainLimit ∧
      ofText (String.ofList (write { terse with chainLimit := 0 })) = .error .zeroChainLimit := by
  obtain ⟨reads, accepts⟩ := settings_read_back terse
  have accepted := (reads terseText (.inr terse_listed)).1 (by decide)
  have refused := ((settings_read_back { terse with chainLimit := 0 }).1
    (String.ofList (write { terse with chainLimit := 0 })) (.inl (String.toList_ofList))).2 rfl
  exact ⟨accepted, accepts terseText terse accepted, refused⟩

end Config
end TickMachine
