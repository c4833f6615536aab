import TickMachine.Config
import TickMachine.Proofs.Passing

/-!
# Reading what is well formed

A reader takes a value off the front of a text, whatever blanks stand before the value and whatever
follows it.  This is shown for each typed reader, up to lists and objects.  The members of an object
may stand in any order, their names may be spelled with escapes, and members that no field asks for
are passed over.
-/

namespace TickMachine
namespace Json

open Decimal

variable {α β δ : Type}

/-- A reader takes a text for a value, whatever blanks stand in front of it and whatever comes
behind. -/
def Reads (read : List Char → Reading α) (text : List Char) (value : α) : Prop :=
  ∀ (ahead : Blanks) (rest : List Char), Delimits rest →
    read (ahead.text ++ (text ++ rest)) = .ok (value, rest)

theorem Reads.here
    {read : List Char → Reading α}
    {text rest : List Char}
    {value : α}
    (reads : Reads read text value)
    (delimits : Delimits rest) :
    read (text ++ rest) = .ok (value, rest) :=
  reads .none rest delimits

theorem skipBlanks_append
    (ahead : Blanks)
    {char : Char}
    (noBlank : isBlank char = false)
    (rest : List Char) :
    skipBlanks (ahead.text ++ char :: rest) = char :: rest := by
  rw [skipBlanks, List.dropWhile_append_of_pos ahead.blank]
  exact List.dropWhile_cons_of_neg (by simp [noBlank])

/-! ## Strings -/

/-- A numeric escape that completes a character. -/
theorem stringFrom_unit
    {digits : List Char}
    {unit : Nat}
    {leading : Option Nat}
    {meaning : Char}
    {inside : Inside}
    (isUnit : IsUnit digits unit)
    (finishes : finishHex unit leading = .ok (some meaning, inside))
    (text : List Char) :
    stringFrom (.hex 4 0 leading) (digits ++ text) =
      (stringFrom inside text).map fun (tail, rest) => (meaning :: tail, rest) := by
  obtain ⟨isFirst, isSecond, isThird, isFourth⟩ := isUnit
  simp [stringFrom, isFirst, isSecond, isThird, isFourth, finishes]

/-- A numeric escape that is the first half of a pair. -/
theorem stringFrom_leading
    {digits : List Char}
    {unit : Nat}
    {inside : Inside}
    (isUnit : IsUnit digits unit)
    (finishes : finishHex unit none = .ok (none, inside))
    (text : List Char) :
    stringFrom (.hex 4 0 none) (digits ++ text) = stringFrom inside text := by
  obtain ⟨isFirst, isSecond, isThird, isFourth⟩ := isUnit
  simp [stringFrom, isFirst, isSecond, isThird, isFourth, finishes]

theorem not_isTrailing_of_isLeading {unit : Nat} (leads : isLeading unit = true) :
    isTrailing unit = false := by
  simp only [isLeading, isTrailing, Bool.and_eq_true, decide_eq_true_eq] at leads ⊢
  have low : ¬ 0xDC00 ≤ unit := by omega
  simp [low]

/-- The reader gets the string that a literal stands for. -/
theorem stringBody_of_spells
    {text chars : List Char}
    (spells : Spells text chars)
    (rest : List Char) :
    stringBody (text ++ '"' :: rest) = .ok (chars, rest) := by
  unfold stringBody
  induction spells with
  | nil => simp [stringFrom]
  | plain plain _ inductionHypothesis =>
      obtain ⟨notQuote, notBackslash, notControl⟩ := plain
      simp [stringFrom, notQuote, notBackslash, notControl, inductionHypothesis, Except.map]
  | escape known _ inductionHypothesis =>
      simp [stringFrom, ne_of_simpleEscape known, known, inductionHypothesis, Except.map]
  | @code _ _ _ unit isUnit notLeading notTrailing _ inductionHypothesis =>
      have finishes : finishHex unit none = .ok (some (Char.ofNat unit), .plain) := by
        simp [finishHex, notLeading, notTrailing]
      simp [stringFrom, isUnit.hasFourBytes, stringFrom_unit isUnit finishes, inductionHypothesis,
        Except.map]
  | @pair _ _ _ _ leading trailing isFirst leads isSecond trails _ inductionHypothesis =>
      have begins : finishHex leading none = .ok (none, .pairEscape leading) := by
        simp [finishHex, leads, not_isTrailing_of_isLeading leads]
      have finishes : finishHex trailing (some leading) =
          .ok (some (pairedChar leading trailing), .plain) := by
        simp [finishHex, trails]
      simp [stringFrom, isFirst.hasFourBytes, stringFrom_leading isFirst begins,
        isSecond.hasFourBytes, stringFrom_unit isSecond finishes, inductionHypothesis, Except.map]

/-- A text of characters that stand for themselves spells these characters. -/
theorem spells_of_plain {chars : List Char} (plain : ∀ char ∈ chars, IsPlain char) :
    Spells chars chars := by
  induction chars with
  | nil => exact .nil
  | cons char more inductionHypothesis =>
      obtain ⟨first, others⟩ := List.forall_mem_cons.mp plain
      exact .plain first (inductionHypothesis others)

/-- A literal is read as the string that it stands for. -/
theorem string_reads {text chars : List Char} (spells : Spells text chars) :
    Reads string ('"' :: (text ++ ['"'])) chars := by
  intro ahead rest _
  rw [string, List.cons_append, List.append_assoc, skipBlanks_append ahead rfl]
  exact stringBody_of_spells spells rest

/-! ## Booleans and numbers -/

theorem boolean_reads (truth : Bool) : Reads boolean (writeBoolean truth) truth := by
  intro ahead rest _
  cases truth with
  | true =>
      have skips : skipBlanks (ahead.text ++ (writeBoolean true ++ rest)) =
          't' :: (['r', 'u', 'e'] ++ rest) :=
        skipBlanks_append ahead rfl _
      simp only [boolean, skips, word_append, Except.map]
  | false =>
      have skips : skipBlanks (ahead.text ++ (writeBoolean false ++ rest)) =
          'f' :: (['a', 'l', 's', 'e'] ++ rest) :=
        skipBlanks_append ahead rfl _
      simp only [boolean, skips, word_append, Except.map]

theorem le_valueFrom (start : Nat) (digits : List Char) : start ≤ valueFrom start digits := by
  induction digits generalizing start with
  | nil => exact Nat.le_refl start
  | cons digit more inductionHypothesis =>
      calc start
          ≤ start * 10 + digitValue digit := by omega
        _ ≤ valueFrom (start * 10 + digitValue digit) more := inductionHypothesis _

/-- Digits whose value fits in a word are all kept. -/
theorem digitRun_append
    {start : Nat}
    {digits rest : List Char}
    (all : ∀ char ∈ digits, isDigit char = true)
    (fits : valueFrom start digits < wordSize)
    (delimits : Delimits rest) :
    digitRun start (digits ++ rest) = ⟨valueFrom start digits, digits.length, 0, rest⟩ := by
  induction digits generalizing start with
  | nil =>
      cases rest with
      | nil => rfl
      | cons char more =>
          have noDigit := (number_ends (delimits char rfl)).1
          simp [digitRun, noDigit, valueFrom]
  | cons digit more inductionHypothesis =>
      obtain ⟨first, others⟩ := List.forall_mem_cons.mp all
      have keeps : start * 10 + digitValue digit < wordSize :=
        Nat.lt_of_le_of_lt (le_valueFrom _ more) fits
      simp [digitRun, first, keeps, inductionHypothesis others fits, valueFrom]

theorem digitChar_ne_zero {digit : Nat} (positive : 0 < digit) (small : digit < 10) :
    digitChar digit ≠ '0' := by
  have each : ∀ below ∈ List.range 9, digitChar (below + 1) ≠ '0' := by decide
  have found := each (digit - 1) (List.mem_range.mpr (by omega))
  rwa [Nat.sub_add_cancel positive] at found

/-- The digits of a number do not start with a zero unless they are only this zero. -/
theorem digits_isWhole (number : Nat) : IsWhole (digits number) := by
  induction number using Nat.strongRecOn with
  | ind number previous =>
      rw [digits]
      split
      next small =>
        by_cases zero : number = 0
        · rw [zero]
          exact .zero
        · exact .digits (isDigit_digitChar small)
            (digitChar_ne_zero (Nat.pos_of_ne_zero zero) small) (List.forall_mem_nil _)
      next large =>
        have last := isDigit_digitChar (Nat.mod_lt number (by decide : 0 < 10))
        cases shape : digits (number / 10) with
        | nil => exact absurd shape (digits_ne_nil _)
        | cons first more =>
            have whole := previous (number / 10) (by omega)
            rw [shape] at whole
            cases whole with
            | zero =>
                have single : number / 10 = 0 := by
                  rw [← value_digits (number / 10), shape]
                  rfl
                omega
            | digits isFirst notZero others =>
                refine .digits isFirst notZero fun char member => ?_
                obtain member | member := List.mem_append.mp member
                · exact others char member
                · rw [List.mem_singleton] at member
                  exact member ▸ last

theorem afterInteger_natural
    (value kept : Nat)
    {rest : List Char}
    (delimits : Delimits rest) :
    afterInteger false ⟨value, kept, 0, rest⟩ = .ok (.natural value, rest) := by
  cases rest with
  | nil => rfl
  | cons char more =>
      obtain ⟨-, noPoint, notSmall, notLarge⟩ := number_ends (delimits char rfl)
      simp [afterInteger, isExponentMark, noPoint, notSmall, notLarge]

/-- The digits of a number stand for it, as long as it fits in a word. -/
theorem unsigned_digits
    {number : Nat}
    {rest : List Char}
    (fits : number < wordSize)
    (delimits : Delimits rest) :
    unsigned false (digits number ++ rest) = .ok (.natural number, rest) := by
  have denotes : valueFrom 0 (digits number) = number := value_digits number
  have runs := digitRun_append (fun _ => isDigit_of_mem_digits) (denotes.symm ▸ fits) delimits
  rw [denotes] at runs
  have whole := digits_isWhole number
  cases shape : digits number with
  | nil => exact absurd shape (digits_ne_nil _)
  | cons first more =>
      rw [shape] at denotes runs whole
      cases whole with
      | zero =>
          have null : number = 0 := denotes.symm
          have noDigit : rest.head?.any isDigit = false := by
            cases rest with
            | nil => rfl
            | cons char others => exact (number_ends (delimits char rfl)).1
          simp only [List.cons_append, List.nil_append, unsigned, noDigit]
          rw [null]
          exact afterInteger_natural 0 1 delimits
      | digits isFirst notZero others =>
          have begins : unsigned false (first :: (more ++ rest)) =
              afterInteger false (digitRun 0 (first :: (more ++ rest))) := by
            simp [unsigned, isFirst]
          rw [List.cons_append] at runs
          rw [List.cons_append, begins, runs]
          exact afterInteger_natural _ _ delimits

/-- A number starts with a digit. -/
theorem digits_starts (number : Nat) :
    ∃ char more, digits number = char :: more ∧ isDigit char = true := by
  cases shape : digits number with
  | nil => exact absurd shape (digits_ne_nil number)
  | cons char more =>
      exact ⟨char, more, rfl, isDigit_of_mem_digits (shape ▸ List.mem_cons_self)⟩

/-- A number below a bound is read back by a reader with this bound. -/
theorem naturalBelow_reads
    {bound number : Nat}
    (small : number < bound)
    (fits : number < wordSize) :
    Reads (naturalBelow bound) (writeNatural number) number := by
  intro ahead rest delimits
  have reads := unsigned_digits fits delimits
  obtain ⟨char, more, shape, isFirst⟩ := digits_starts number
  have noSign := ne_of_isDigit isFirst (by decide : isDigit '-' = false)
  rw [shape] at reads
  rw [naturalBelow, writeNatural, shape, List.cons_append,
    skipBlanks_append ahead (not_isBlank_of_isDigit isFirst)]
  have number : numeral (char :: (more ++ rest)) = .ok (.natural number, rest) := by
    simpa [numeral, noSign] using reads
  simp [isFirst, number, small]

/-- A reader whose value is turned into another one. -/
theorem Reads.map
    {read : List Char → Reading α}
    {text : List Char}
    {value : α}
    (reads : Reads read text value)
    (convert : α → β) :
    Reads (fun text => (read text).map fun (value, rest) => (convert value, rest)) text
      (convert value) := by
  intro ahead rest delimits
  simp only [reads ahead rest delimits, Except.map]

/-- The value of a field is stored in the draft. -/
theorem Reads.field
    {read : List Char → Reading α}
    {text : List Char}
    {value : α}
    (reads : Reads read text value)
    (name : String)
    (get : δ → Option α)
    (set : δ → α → δ)
    (draft : δ) :
    Reads ((Field.of name get set read).read draft) text (set draft value) :=
  reads.map (set draft)

theorem Reads.refine
    {read : List Char → Reading α}
    {text : List Char}
    {value : α}
    (reads : Reads read text value)
    {convert : α → Option β}
    {result : β}
    (converts : convert value = some result) :
    Reads (refine read convert) text result := by
  intro ahead rest delimits
  simp only [Json.refine, reads ahead rest delimits, converts]

/-- A number of 64 bits is read back. -/
theorem readWord_reads (number : UInt64) :
    Reads readWord (writeNatural number.toNat) number := by
  have reads := (naturalBelow_reads number.toNat_lt number.toNat_lt).map UInt64.ofNat
  rwa [UInt64.ofNat_toNat] at reads

/-- A value that may be missing is read if it is there, unless it could be taken for nothing. -/
theorem optional_reads
    {read : List Char → Reading α}
    {write : α → List Char}
    {held : Option α}
    (reads : ∀ value ∈ held, Reads read (write value) value)
    (starts : ∀ value, ∃ char more, write value = char :: more ∧ isDigit char = true) :
    Reads (optional read) (writeOptional write held) held := by
  intro ahead rest delimits
  cases held with
  | none =>
      have skips : skipBlanks (ahead.text ++ (writeOptional write none ++ rest)) =
          'n' :: (['u', 'l', 'l'] ++ rest) :=
        skipBlanks_append ahead rfl _
      simp only [optional, skips, word_append, Except.map]
  | some value =>
      have inside := reads value rfl .none rest delimits
      obtain ⟨char, more, shape, isFirst⟩ := starts value
      have notNull := ne_of_isDigit isFirst (by decide : isDigit 'n' = false)
      rw [shape] at inside
      rw [optional, writeOptional, shape, List.cons_append,
        skipBlanks_append ahead (not_isBlank_of_isDigit isFirst)]
      have found : read (char :: (more ++ rest)) = .ok (value, rest) := inside
      simp [notNull, found, Except.map]

/-! ## Lists -/

/-- What stands behind an element: the other ones, each after a comma, and then the closing. -/
def behindElement (others : List (List Char)) (closing : List Char) : List Char :=
  match others with
  | [] => closing
  | others => ',' :: (separated others ++ closing)

theorem separated_append (first : List Char) (others : List (List Char)) (closing : List Char) :
    separated (first :: others) ++ closing = first ++ behindElement others closing := by
  cases others with
  | nil => rfl
  | cons second more => simp [separated, behindElement]

theorem delimits_behindElement
    (others : List (List Char))
    {closing : List Char}
    (delimits : Delimits closing) :
    Delimits (behindElement others closing) := by
  cases others with
  | nil => exact delimits
  | cons second more => exact delimits_cons rfl

/-- Texts that are not empty are no more than the characters that they take. -/
theorem length_le_separated
    {items : List (List Char)}
    (nonempty : ∀ item ∈ items, item ≠ []) :
    items.length ≤ (separated items).length := by
  induction items with
  | nil => exact Nat.zero_le _
  | cons first others inductionHypothesis =>
      obtain ⟨here, there⟩ := List.forall_mem_cons.mp nonempty
      have rest := inductionHypothesis there
      have takes := List.length_pos_iff.mpr here
      cases others with
      | nil => exact takes
      | cons second more =>
          simp only [separated, List.length_append, List.length_cons] at rest ⊢
          omega

/-- The items behind the first one are fewer than the characters of them all. -/
theorem length_lt_separated
    {first : List Char}
    {others : List (List Char)}
    (nonempty : ∀ item ∈ first :: others, item ≠ [])
    (ahead : List Char)
    (closing : Char)
    (rest : List Char) :
    others.length < (ahead ++ (separated (first :: others) ++ closing :: rest)).length := by
  have enough := length_le_separated nonempty
  simp only [List.length_cons, List.length_append] at enough ⊢
  omega

section Lists

/-- A text that an array may go on with. -/
def StartsElement (text : List Char) : Prop :=
  ∃ char more, text = char :: more ∧ isBlank char = false ∧ char ≠ ']'

variable {read : List Char → Reading α} {write : α → List Char}

/-- The first element of an array follows its bracket. -/
theorem nextElement_first
    {first : List Char}
    (starts : StartsElement first)
    (tail : List Char) :
    nextElement true (first ++ tail) = .ok (.element (first ++ tail)) := by
  obtain ⟨char, more, rfl, noBlank, noEnd⟩ := starts
  have skips : skipBlanks (char :: (more ++ tail)) = char :: (more ++ tail) :=
    skipBlanks_append .none noBlank _
  simp [nextElement, skips]

/-- Every other element follows a comma. -/
theorem nextElement_behind
    {first : List Char}
    (starts : StartsElement first)
    (others : List (List Char))
    (closing : List Char) :
    nextElement false (behindElement (first :: others) closing) =
      .ok (.element (first ++ behindElement others closing)) := by
  obtain ⟨char, more, rfl, noBlank, noEnd⟩ := starts
  have comma : ∀ text, skipBlanks (',' :: text) = ',' :: text := skipBlanks_append .none rfl
  have skips : ∀ text, skipBlanks (char :: text) = char :: text := skipBlanks_append .none noBlank
  simp [behindElement, separated_append, nextElement, comma, skips, noEnd]

theorem elements_cons
    {fuel : Nat}
    {isFirst : Bool}
    {text tail rest : List Char}
    {first : α}
    {others : List α}
    (next : nextElement isFirst text = .ok (.element (write first ++ tail)))
    (reads : Reads read (write first) first)
    (delimits : Delimits tail)
    (goesOn : elements read fuel false tail = .ok (others, rest)) :
    elements read (fuel + 1) isFirst text = .ok (first :: others, rest) := by
  simp only [elements, next, reads.here delimits, goesOn, Except.map]

/-- The elements behind the first one. -/
theorem elements_behind
    {items : List α}
    (reads : ∀ item ∈ items, Reads read (write item) item)
    (starts : ∀ item ∈ items, StartsElement (write item))
    {fuel : Nat}
    (enough : items.length < fuel)
    (rest : List Char) :
    elements read fuel false (behindElement (items.map write) (']' :: rest)) =
      .ok (items, rest) := by
  induction items generalizing fuel with
  | nil =>
      obtain ⟨less, rfl⟩ := Nat.exists_eq_succ_of_ne_zero (Nat.ne_of_gt enough)
      rfl
  | cons first others inductionHypothesis =>
      obtain ⟨less, rfl⟩ := Nat.exists_eq_succ_of_ne_zero (Nat.ne_of_gt (Nat.zero_lt_of_lt enough))
      obtain ⟨readsFirst, readsOthers⟩ := List.forall_mem_cons.mp reads
      obtain ⟨startsFirst, startsOthers⟩ := List.forall_mem_cons.mp starts
      exact elements_cons (nextElement_behind startsFirst _ _) readsFirst
        (delimits_behindElement _ (delimits_cons rfl))
        (inductionHypothesis readsOthers startsOthers (Nat.lt_of_succ_lt_succ enough))

/-- A list is read back if all of its items are. -/
theorem list_reads
    {items : List α}
    (reads : ∀ item ∈ items, Reads read (write item) item)
    (starts : ∀ item ∈ items, StartsElement (write item)) :
    Reads (list read) (writeList write items) items := by
  intro ahead rest _
  have skips : skipBlanks (ahead.text ++ (writeList write items ++ rest)) =
      '[' :: (separated (items.map write) ++ ']' :: rest) := by
    rw [writeList, List.cons_append, List.cons_append, List.append_assoc]
    exact skipBlanks_append ahead rfl _
  rw [list, skips]
  cases items with
  | nil => rfl
  | cons first others =>
      obtain ⟨readsFirst, readsOthers⟩ := List.forall_mem_cons.mp reads
      obtain ⟨startsFirst, startsOthers⟩ := List.forall_mem_cons.mp starts
      have nonempty : ∀ item ∈ (first :: others).map write, item ≠ [] := by
        intro item member
        obtain ⟨value, isItem, rfl⟩ := List.mem_map.mp member
        obtain ⟨char, more, shape, -, -⟩ := starts value isItem
        exact shape ▸ List.cons_ne_nil char more
      rw [List.map_cons] at nonempty ⊢
      have short := length_lt_separated nonempty [] ']' rest
      rw [List.length_map, List.nil_append] at short
      rw [separated_append] at short ⊢
      exact elements_cons (nextElement_first startsFirst _) readsFirst
        (delimits_behindElement _ (delimits_cons rfl))
        (elements_behind readsOthers startsOthers short rest)

end Lists

/-! ## Objects -/

/-- The text of an object. -/
def objectText (inside : Blanks) (members : List Member) : List Char :=
  '{' :: (inside.text ++ (separated (members.map Member.text) ++ ['}']))

/-- A member of an object that is written without blanks. -/
def Member.compact (name : String) (value : List Char) : Member :=
  ⟨.none, name.toList, .none, .none, value, .none⟩

theorem writeObject_eq (members : List (String × List Char)) :
    writeObject members =
      objectText .none (members.map fun (name, value) => .compact name value) := by
  have each : ((fun member => Member.text member) ∘ fun (name, value) => .compact name value) =
      fun (name, value) => writeMember name value := by
    funext ⟨name, value⟩
    simp [Member.text, Member.compact, Blanks.none, writeMember, writePlainString]
  rw [writeObject, objectText, List.map_map, each]
  rfl

/-- What a member of an object does to a draft. -/
inductive Takes (fields : List (Field δ)) (draft : δ) (member : Member) : δ → Prop where
  /-- The member is one of the fields, and the draft does not have it yet. -/
  | field
      {field : Field δ}
      {name : List Char}
      {next : δ}
      (spells : Spells member.name name)
      (found : fields.find? (fun field => field.name.toList = name) = some field)
      (unset : field.isSet draft = false)
      (reads : Reads (field.read draft) member.value next) :
      Takes fields draft member next
  /-- No field has the name of the member. -/
  | foreign
      {name : List Char}
      (spells : Spells member.name name)
      (unknown : fields.find? (fun field => field.name.toList = name) = none)
      (value : IsValue member.value) :
      Takes fields draft member draft

/-- The members of an object lead from one draft to another. -/
inductive Leads (fields : List (Field δ)) : δ → List Member → δ → Prop where
  | done {draft : δ} : Leads fields draft [] draft
  | member
      {draft next last : δ}
      {member : Member}
      {others : List Member}
      (takes : Takes fields draft member next)
      (more : Leads fields next others last) :
      Leads fields draft (member :: others) last

/-- A member that is written without blanks gives its value to the field of its name. -/
theorem Takes.compact
    {fields : List (Field δ)}
    {draft : δ}
    {name : String}
    {get : δ → Option α}
    {set : δ → α → δ}
    {read : List Char → Reading α}
    {text : List Char}
    {value : α}
    (plain : ∀ char ∈ name.toList, IsPlain char)
    (found : fields.find? (fun field => field.name.toList = name.toList) =
      some (.of name get set read))
    (unset : get draft = none)
    (reads : Reads read text value) :
    Takes fields draft (.compact name text) (set draft value) :=
  .field (spells_of_plain plain) found (by simp [Field.of, unset])
    (reads.field name get set draft)

/-- Blanks and more blanks. -/
def Blanks.append (blanks more : Blanks) : Blanks where
  text := blanks.text ++ more.text
  blank char member := (List.mem_append.mp member).elim (blanks.blank char) (more.blank char)

/-- The text of a member behind its name. -/
def Member.behindName (member : Member) : List Char :=
  member.beforeColon.text ++ ':' ::
    (member.afterColon.text ++ (member.value ++ member.behind.text))

theorem Member.text_eq (member : Member) :
    member.text = member.ahead.text ++ '"' :: (member.name ++ '"' :: member.behindName) :=
  rfl

section Objects

variable {fields : List (Field δ)} {draft next last : δ}

theorem colon_append (ahead : Blanks) (rest : List Char) :
    colon (ahead.text ++ ':' :: rest) = .ok rest := by
  have skips : skipBlanks (ahead.text ++ ':' :: rest) = ':' :: rest := skipBlanks_append ahead rfl _
  simp [colon, skips]

/-- A member is read up to the end of its value. -/
theorem Takes.reads
    {member : Member}
    (takes : Takes fields draft member next)
    {rest : List Char}
    (delimits : Delimits rest) :
    ∃ name, Spells member.name name ∧
      Json.member fields name draft (member.behindName ++ rest) =
        .ok (next, member.behind.text ++ rest) := by
  have goesOn := member.behind.delimits delimits
  have shape : member.behindName ++ rest = member.beforeColon.text ++ ':' ::
      (member.afterColon.text ++ (member.value ++ (member.behind.text ++ rest))) := by
    simp [Member.behindName]
  rw [shape]
  cases takes with
  | @field field name _ spells found unset reads =>
      refine ⟨name, spells, ?_⟩
      simp [Json.member, found, unset, colon_append, reads member.afterColon _ goesOn]
  | @foreign name spells unknown value =>
      refine ⟨name, spells, ?_⟩
      simp only [Json.member, unknown, colon_append,
        skipValue_append value member.afterColon goesOn, Except.map]

/-- The first name of an object follows its bracket and blanks. -/
theorem nextName_first (inside : Blanks) (member : Member) (tail : List Char) :
    nextName true (inside.text ++ (member.text ++ tail)) =
      .ok (some (member.name ++ '"' :: (member.behindName ++ tail))) := by
  have skips : skipBlanks (inside.text ++ (member.text ++ tail)) =
      '"' :: (member.name ++ '"' :: (member.behindName ++ tail)) := by
    simpa [Member.text_eq, Blanks.append] using skipBlanks_append (inside.append member.ahead) rfl
      (member.name ++ '"' :: (member.behindName ++ tail))
  simp [nextName, skips]

/-- Every other name follows a comma. -/
theorem nextName_behind
    (behind : Blanks)
    (member : Member)
    (others : List (List Char))
    (closing : List Char) :
    nextName false (behind.text ++ behindElement (member.text :: others) closing) =
      .ok (some (member.name ++ '"' :: (member.behindName ++ behindElement others closing))) := by
  have comma : ∀ text, skipBlanks (behind.text ++ ',' :: text) = ',' :: text :=
    skipBlanks_append behind rfl
  have skips : ∀ text, skipBlanks (member.ahead.text ++ '"' :: text) = '"' :: text :=
    skipBlanks_append member.ahead rfl
  simp [behindElement, separated_append, nextName, comma, Member.text_eq, skips]

theorem members_cons
    {fuel : Nat}
    {isFirst : Bool}
    {member : Member}
    {text tail rest : List Char}
    (named : nextName isFirst text =
      .ok (some (member.name ++ '"' :: (member.behindName ++ tail))))
    (takes : Takes fields draft member next)
    (delimits : Delimits tail)
    (goesOn : members fields fuel false next (member.behind.text ++ tail) = .ok (last, rest)) :
    members fields (fuel + 1) isFirst draft text = .ok (last, rest) := by
  obtain ⟨name, spells, reads⟩ := takes.reads delimits
  simp only [members, named, stringBody_of_spells spells, reads, goesOn]

/-- Where an object closes, the draft is what was read. -/
theorem members_end
    (fuel : Nat)
    (isFirst : Bool)
    (draft : δ)
    (behind : Blanks)
    (rest : List Char) :
    members fields (fuel + 1) isFirst draft (behind.text ++ '}' :: rest) = .ok (draft, rest) := by
  have skips : skipBlanks (behind.text ++ '}' :: rest) = '}' :: rest :=
    skipBlanks_append behind rfl _
  simp [members, nextName, skips]

/-- The members behind the first one. -/
theorem Leads.members_behind
    {others : List Member}
    (leads : Leads fields draft others last)
    (behind : Blanks)
    {fuel : Nat}
    (enough : others.length < fuel)
    (rest : List Char) :
    members fields fuel false draft
        (behind.text ++ behindElement (others.map Member.text) ('}' :: rest)) =
      .ok (last, rest) := by
  induction leads generalizing behind fuel with
  | done =>
      obtain ⟨less, rfl⟩ := Nat.exists_eq_succ_of_ne_zero (Nat.ne_of_gt enough)
      exact members_end less false _ behind rest
  | @member _ _ _ member others takes _ inductionHypothesis =>
      obtain ⟨less, rfl⟩ := Nat.exists_eq_succ_of_ne_zero (Nat.ne_of_gt (Nat.zero_lt_of_lt enough))
      exact members_cons (nextName_behind behind member _ _) takes
        (delimits_behindElement _ (delimits_cons rfl))
        (inductionHypothesis member.behind (Nat.lt_of_succ_lt_succ enough))

/-- An object is read into the draft that its members lead to. -/
theorem Leads.record_reads
    {members : List Member}
    (leads : Leads fields draft members last)
    (inside : Blanks)
    (mayBeShort : Bool) :
    Reads (record fields mayBeShort draft) (objectText inside members) last := by
  intro ahead rest _
  have skips : skipBlanks (ahead.text ++ (objectText inside members ++ rest)) =
      '{' :: (inside.text ++ (separated (members.map Member.text) ++ '}' :: rest)) := by
    simpa [objectText] using skipBlanks_append ahead rfl
      (inside.text ++ (separated (members.map Member.text) ++ '}' :: rest))
  rw [record, skips]
  cases leads with
  | done => exact members_end _ true draft inside rest
  | @member _ _ _ first others takes more =>
      have nonempty : ∀ item ∈ (first :: others).map Member.text, item ≠ [] := by
        intro item isItem
        obtain ⟨member, -, rfl⟩ := List.mem_map.mp isItem
        simp [Member.text_eq]
      rw [List.map_cons] at nonempty ⊢
      have short := length_lt_separated nonempty inside.text '}' rest
      rw [List.length_map] at short
      rw [separated_append] at short ⊢
      exact members_cons (nextName_first inside first _) takes
        (delimits_behindElement _ (delimits_cons rfl))
        (more.members_behind first.behind short rest)

end Objects

/-! ## Documents -/

/-- A value with nothing but blanks around it is a document. -/
theorem Reads.document
    {read : List Char → Reading α}
    {text : List Char}
    {value : α}
    (reads : Reads read text value)
    (ahead behind : Blanks) :
    document read (ahead.text ++ (text ++ behind.text)) = .ok value := by
  have delimits : Delimits behind.text := by
    simpa using behind.delimits delimits_nil
  have skips : skipBlanks behind.text = [] := by
    rw [← behind.text.append_nil]
    exact List.dropWhile_append_of_pos behind.blank
  simp only [Json.document, reads ahead _ delimits, skips]

end Json

open Json

/-! ## Kinds and serial numbers -/

theorem Kind.reads (kind : Kind) : Reads Kind.read kind.write kind := by
  have fits : kind.tag.toNat < wordSize :=
    Nat.lt_trans kind.tag.toNat_lt (by decide)
  have reads := (naturalBelow_reads kind.tag.toNat_lt fits).map fun value =>
    Kind.mk (UInt8.ofNat value)
  rwa [UInt8.ofNat_toNat] at reads

/-- A kind that may be missing is read as it is. -/
theorem Kind.held_reads (held : Option Kind) :
    Reads (optional Kind.read) (writeOptional Kind.write held) held :=
  optional_reads (fun kind _ => kind.reads) fun _ => digits_starts _

theorem Serial.reads (serial : Serial) (fits : serial.number < wordSize) :
    Reads Serial.read serial.write serial :=
  (naturalBelow_reads fits fits).map Serial.mk

end TickMachine
