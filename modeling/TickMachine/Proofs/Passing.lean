import TickMachine.Proofs.Grammar

/-!
# Passing over a value

The skipper reads a well-formed value from its first character to its last and then stands as if
the value had just ended, with the same brackets open as before.  A number has no end of its own;
there the next character, which cannot belong to it, is read as it would be after the number.
-/

namespace TickMachine
namespace Json

open Decimal

/-! ## Characters -/

/-- A character behind a value cannot go on with a number. -/
theorem number_ends
    {char : Char}
    (delimiter : isDelimiter char = true) :
    isDigit char = false ∧ char ≠ '.' ∧ char ≠ 'e' ∧ char ≠ 'E' := by
  simp only [isDelimiter, isBlank, Bool.or_eq_true, decide_eq_true_eq] at delimiter
  obtain (((((rfl | rfl) | rfl) | rfl) | rfl) | rfl) | rfl := delimiter <;> decide

theorem ne_of_isDigit
    {char other : Char}
    (digit : isDigit char = true)
    (noDigit : isDigit other = false) :
    char ≠ other := by
  rintro rfl
  rw [noDigit] at digit
  nomatch digit

theorem not_isBlank_of_isDigit {char : Char} (digit : isDigit char = true) :
    isBlank char = false := by
  have tab := ne_of_isDigit digit (by decide : isDigit '\t' = false)
  have newline := ne_of_isDigit digit (by decide : isDigit '\n' = false)
  have carriage := ne_of_isDigit digit (by decide : isDigit '\r' = false)
  have space := ne_of_isDigit digit (by decide : isDigit ' ' = false)
  simp [isBlank, space, tab, newline, carriage]

theorem delimits_nil : Delimits [] := by
  simp [Delimits]

theorem delimits_cons {char : Char} {rest : List Char} (delimiter : isDelimiter char = true) :
    Delimits (char :: rest) := by
  simpa [Delimits] using delimiter

/-- Blanks in front of a text that delimits a value delimit it as well. -/
theorem Blanks.delimits (blanks : Blanks) {rest : List Char} (delimits : Delimits rest) :
    Delimits (blanks.text ++ rest) := by
  obtain ⟨text, blank⟩ := blanks
  cases text with
  | nil => exact delimits
  | cons char more =>
      exact delimits_cons (by simp [isDelimiter, blank char List.mem_cons_self])

/-! ## Steps of the skipper -/

/-- One character takes the skipper to its next stage. -/
theorem skipFrom_of_step
    {stage next : Stage}
    {brackets remaining : List Bracket}
    {char : Char}
    {text : List Char}
    (moves : step stage brackets char text = .ok (.on next remaining)) :
    skipFrom stage brackets (char :: text) = skipFrom next remaining text := by
  rw [skipFrom, moves]

/-- A step that opens and closes no bracket. -/
theorem skipFrom_on
    {stage : Stage}
    (next : Stage)
    {brackets : List Bracket}
    {char : Char}
    {text : List Char}
    (moves : step stage brackets char text = .ok (.on next brackets)) :
    skipFrom stage brackets (char :: text) = skipFrom next brackets text :=
  skipFrom_of_step moves

/-- A stage in which blanks change nothing. -/
def Stage.IsPatient (stage : Stage) (brackets : List Bracket) : Prop :=
  ∀ char text, isBlank char = true → step stage brackets char text = .ok (.on stage brackets)

theorem patient_value (brackets : List Bracket) : Stage.value.IsPatient brackets := by
  intro char text blank
  simp [step, stepValue, blank]

theorem patient_name (brackets : List Bracket) : Stage.name.IsPatient brackets := by
  intro char text blank
  simp [step, stepName, blank]

theorem patient_colon (brackets : List Bracket) : Stage.colon.IsPatient brackets := by
  intro char text blank
  simp [step, blank]

theorem patient_opened (bracket : Bracket) (below : List Bracket) :
    Stage.opened.IsPatient (bracket :: below) := by
  intro char text blank
  simp [step, stepOpened, blank]

theorem patient_done (bracket : Bracket) (below : List Bracket) :
    Stage.done.IsPatient (bracket :: below) := by
  intro char text blank
  simp [step, stepDone, blank]

/-- Blanks are passed over where they may stand. -/
theorem skipFrom_blanks
    {stage : Stage}
    {brackets : List Bracket}
    (patient : stage.IsPatient brackets)
    (blanks : Blanks)
    (rest : List Char) :
    skipFrom stage brackets (blanks.text ++ rest) = skipFrom stage brackets rest := by
  obtain ⟨text, blank⟩ := blanks
  induction text with
  | nil => rfl
  | cons char more inductionHypothesis =>
      obtain ⟨first, others⟩ := List.forall_mem_cons.mp blank
      calc skipFrom stage brackets (char :: (more ++ rest))
          = skipFrom stage brackets (more ++ rest) := skipFrom_of_step (patient _ _ first)
        _ = skipFrom stage brackets rest := inductionHypothesis others

/-! ## Words -/

theorem skipFrom_letters
    {letters : List Char}
    (nonempty : letters ≠ [])
    (brackets : List Bracket)
    (rest : List Char) :
    skipFrom (.letters letters) brackets (letters ++ rest) = skipFrom .done brackets rest := by
  induction letters with
  | nil => exact absurd rfl nonempty
  | cons letter more inductionHypothesis =>
      cases more with
      | nil => exact skipFrom_of_step (by simp [step])
      | cons second others =>
          have next : skipFrom (.letters (letter :: second :: others)) brackets
                (letter :: (second :: others ++ rest)) =
              skipFrom (.letters (second :: others)) brackets (second :: others ++ rest) :=
            skipFrom_of_step (by simp [step])
          exact next.trans (inductionHypothesis (List.cons_ne_nil _ _))

/-! ## String literals -/

theorem IsUnit.hasFourBytes
    {digits : List Char}
    {unit : Nat}
    (isUnit : IsUnit digits unit)
    (text : List Char) :
    hasFourBytes (digits ++ text) = true := by
  obtain ⟨-, -, -, -⟩ := isUnit
  rename_i first second third fourth _ _ _ _
  have one := first.utf8Size_pos
  have two := second.utf8Size_pos
  have three := third.utf8Size_pos
  have four := fourth.utf8Size_pos
  simp [Json.hasFourBytes]
  omega

theorem skipFrom_unit
    {digits : List Char}
    {unit : Nat}
    (isUnit : IsUnit digits unit)
    (isName : Bool)
    (brackets : List Bracket)
    (text : List Char) :
    skipFrom (.hex isName 4) brackets (digits ++ text) =
      skipFrom (.text isName) brackets text := by
  obtain ⟨isFirst, isSecond, isThird, isFourth⟩ := isUnit
  simp [skipFrom, step, isFirst, isSecond, isThird, isFourth]

/-- The letters of escapes do not include the one that starts a numeric escape. -/
theorem ne_of_simpleEscape
    {letter meaning : Char}
    (known : simpleEscape? letter = some meaning) :
    letter ≠ 'u' := by
  rintro rfl
  nomatch known

/-- A string literal is passed over up to its closing quote. -/
theorem skipFrom_literal
    {text : List Char}
    (literal : IsLiteral text)
    (isName : Bool)
    (brackets : List Bracket)
    (rest : List Char) :
    skipFrom (.text isName) brackets (text ++ '"' :: rest) =
      skipFrom (afterText isName) brackets rest := by
  induction literal with
  | nil => exact skipFrom_of_step (by simp [step])
  | plain plain _ inductionHypothesis =>
      obtain ⟨notQuote, notBackslash, notControl⟩ := plain
      rw [List.cons_append, ← inductionHypothesis]
      exact skipFrom_of_step (by simp [step, notQuote, notBackslash, notControl])
  | escape known _ inductionHypothesis =>
      rw [List.cons_append, List.cons_append, ← inductionHypothesis]
      refine (skipFrom_on (.escape isName) ?_).trans (skipFrom_on (.text isName) ?_)
      · simp [step]
      · simp [step, ne_of_simpleEscape known, known]
  | code isUnit _ inductionHypothesis =>
      rw [List.cons_append, List.cons_append, List.append_assoc, ← inductionHypothesis]
      refine (skipFrom_on (.escape isName) ?_).trans
        ((skipFrom_on (.hex isName 4) ?_).trans (skipFrom_unit isUnit isName brackets _))
      · simp [step]
      · simp [step, isUnit.hasFourBytes]

/-! ## Numbers -/

/-- A stage in which any number of digits may follow. -/
inductive Stage.TakesDigits : Stage → Prop where
  | whole : TakesDigits .whole
  | fraction : TakesDigits .fraction
  | exponent : TakesDigits .exponent

theorem skipFrom_digits
    {stage : Stage}
    (takes : stage.TakesDigits)
    {digits : List Char}
    (all : ∀ char ∈ digits, isDigit char = true)
    (brackets : List Bracket)
    (rest : List Char) :
    skipFrom stage brackets (digits ++ rest) = skipFrom stage brackets rest := by
  induction digits with
  | nil => rfl
  | cons digit more inductionHypothesis =>
      obtain ⟨first, others⟩ := List.forall_mem_cons.mp all
      rw [List.cons_append, ← inductionHypothesis others]
      cases takes <;> exact skipFrom_of_step (by simp [step, first])

/-- A stage that a number can end in. -/
inductive Stage.EndsNumber : Stage → Prop where
  | zero : EndsNumber .zero
  | whole : EndsNumber .whole
  | fraction : EndsNumber .fraction
  | exponent : EndsNumber .exponent

/-- Behind a number the skipper goes on as if the number had ended. -/
theorem skipFrom_number_ends
    {stage : Stage}
    (ends : stage.EndsNumber)
    (brackets : List Bracket)
    {rest : List Char}
    (delimits : Delimits rest) :
    skipFrom stage brackets rest = skipFrom .done brackets rest := by
  cases rest with
  | nil => cases ends <;> rfl
  | cons char more =>
      obtain ⟨noDigit, noPoint, notSmall, notLarge⟩ := number_ends (delimits char rfl)
      rw [skipFrom, skipFrom]
      cases ends <;>
        simp [step, stepAfterWhole, stepAfterDigits, noDigit, noPoint, notSmall, notLarge]

/-- A stage that an exponent can come after. -/
inductive Stage.BeforeExponent : Stage → Prop where
  | zero : BeforeExponent .zero
  | whole : BeforeExponent .whole
  | fraction : BeforeExponent .fraction

theorem Stage.BeforeExponent.ends {stage : Stage} (before : stage.BeforeExponent) :
    stage.EndsNumber := by
  cases before <;> constructor

/-- The exponent of a number is passed over, up to what ends the number. -/
theorem skipFrom_exponent
    {exponent : List Char}
    (isExponent : IsExponent exponent)
    {stage : Stage}
    (before : stage.BeforeExponent)
    (brackets : List Bracket)
    {rest : List Char}
    (delimits : Delimits rest) :
    skipFrom stage brackets (exponent ++ rest) = skipFrom .done brackets rest := by
  cases isExponent with
  | none => exact skipFrom_number_ends before.ends brackets delimits
  | @digits mark sign text isMark isSign digits =>
      have marked : skipFrom stage brackets (mark :: (sign ++ text) ++ rest) =
          skipFrom .exponentMark brackets (sign ++ (text ++ rest)) := by
        rw [List.cons_append, List.append_assoc]
        obtain rfl | rfl := isMark <;>
          cases before <;>
          exact skipFrom_of_step (by simp [step, stepAfterWhole, stepAfterDigits, isDigit])
      obtain ⟨first, more, rfl⟩ := List.exists_cons_of_ne_nil digits.nonempty
      obtain ⟨isFirst, others⟩ := List.forall_mem_cons.mp digits.all
      have notPlus := ne_of_isDigit isFirst (by decide : isDigit '+' = false)
      have notMinus := ne_of_isDigit isFirst (by decide : isDigit '-' = false)
      have started : skipFrom .exponentMark brackets (sign ++ (first :: more ++ rest)) =
          skipFrom .exponent brackets (more ++ rest) := by
        obtain rfl | rfl | rfl := isSign
        · exact skipFrom_on .exponent (by simp [step, isFirst, notPlus, notMinus])
        · exact (skipFrom_on .exponentSign (by simp [step])).trans
            (skipFrom_on .exponent (by simp [step, isFirst]))
        · exact (skipFrom_on .exponentSign (by simp [step])).trans
            (skipFrom_on .exponent (by simp [step, isFirst]))
      rw [marked, started, skipFrom_digits .exponent others,
        skipFrom_number_ends .exponent brackets delimits]

/-- A stage that the part of a number before the point ends in. -/
inductive Stage.EndsWhole : Stage → Prop where
  | zero : EndsWhole .zero
  | whole : EndsWhole .whole

theorem Stage.EndsWhole.beforeExponent {stage : Stage} (ends : stage.EndsWhole) :
    stage.BeforeExponent := by
  cases ends <;> constructor

/-- The fraction and the exponent of a number are passed over. -/
theorem skipFrom_fraction
    {fraction exponent : List Char}
    (isFraction : IsFraction fraction)
    (isExponent : IsExponent exponent)
    {stage : Stage}
    (ends : stage.EndsWhole)
    (brackets : List Bracket)
    {rest : List Char}
    (delimits : Delimits rest) :
    skipFrom stage brackets (fraction ++ (exponent ++ rest)) = skipFrom .done brackets rest := by
  cases isFraction with
  | none => exact skipFrom_exponent isExponent ends.beforeExponent brackets delimits
  | @digits text digits =>
      obtain ⟨first, more, rfl⟩ := List.exists_cons_of_ne_nil digits.nonempty
      obtain ⟨isFirst, others⟩ := List.forall_mem_cons.mp digits.all
      have pointed : skipFrom stage brackets ('.' :: (first :: more ++ (exponent ++ rest))) =
          skipFrom .point brackets (first :: more ++ (exponent ++ rest)) := by
        cases ends <;> exact skipFrom_on .point (by simp [step, stepAfterWhole, isDigit])
      have started : skipFrom .point brackets (first :: more ++ (exponent ++ rest)) =
          skipFrom .fraction brackets (more ++ (exponent ++ rest)) :=
        skipFrom_on .fraction (by simp [step, isFirst])
      rw [List.cons_append, pointed, started, skipFrom_digits .fraction others,
        skipFrom_exponent isExponent .fraction brackets delimits]

/-- The part of a number before the point is passed over alike with and without a sign. -/
theorem skipFrom_whole
    {whole : List Char}
    (isWhole : IsWhole whole)
    (brackets : List Bracket)
    (rest : List Char) :
    ∃ stage, Stage.EndsWhole stage ∧
      skipFrom .value brackets (whole ++ rest) = skipFrom stage brackets rest ∧
      skipFrom .sign brackets (whole ++ rest) = skipFrom stage brackets rest := by
  cases isWhole with
  | zero =>
      exact ⟨.zero, .zero, skipFrom_on .zero (by simp [step, stepValue, isBlank]),
        skipFrom_on .zero (by simp [step])⟩
  | @digits first more isFirst notZero others =>
      have noBlank := not_isBlank_of_isDigit isFirst
      have noNull := ne_of_isDigit isFirst (by decide : isDigit 'n' = false)
      have noTrue := ne_of_isDigit isFirst (by decide : isDigit 't' = false)
      have noFalse := ne_of_isDigit isFirst (by decide : isDigit 'f' = false)
      have noSign := ne_of_isDigit isFirst (by decide : isDigit '-' = false)
      have goesOn := skipFrom_digits .whole others brackets rest
      refine ⟨.whole, .whole, ?_, ?_⟩
      · refine (skipFrom_on .whole ?_).trans goesOn
        simp [step, stepValue, noBlank, noNull, noTrue, noFalse, noSign, notZero, isFirst]
      · refine (skipFrom_on .whole ?_).trans goesOn
        simp [step, notZero, isFirst]

/-- A number is passed over, up to what ends it. -/
theorem skipFrom_number
    {text : List Char}
    (number : IsNumber text)
    (brackets : List Bracket)
    {rest : List Char}
    (delimits : Delimits rest) :
    skipFrom .value brackets (text ++ rest) = skipFrom .done brackets rest := by
  obtain ⟨isSign, isWhole, isFraction, isExponent⟩ := number
  rename_i sign whole fraction exponent
  obtain ⟨stage, ends, unsigned, signed⟩ :=
    skipFrom_whole isWhole brackets (fraction ++ (exponent ++ rest))
  have goesOn := skipFrom_fraction isFraction isExponent ends brackets delimits
  simp only [List.append_assoc]
  obtain rfl | rfl := isSign
  · exact unsigned.trans goesOn
  · have minus : skipFrom .value brackets ('-' :: (whole ++ (fraction ++ (exponent ++ rest)))) =
        skipFrom .sign brackets (whole ++ (fraction ++ (exponent ++ rest))) :=
      skipFrom_on .sign (by simp [step, stepValue, isBlank])
    exact minus.trans (signed.trans goesOn)

/-! ## Arrays and objects -/

/-- A value does not start with a blank, and not with what would end an array. -/
theorem IsNumber.starts {text : List Char} (number : IsNumber text) :
    ∃ char more, text = char :: more ∧ isBlank char = false ∧ char ≠ ']' := by
  obtain ⟨rfl | rfl, isWhole, -, -⟩ := number
  · obtain - | ⟨isFirst, -, -⟩ := isWhole
    · exact ⟨'0', _, rfl, rfl, by decide⟩
    · exact ⟨_, _, rfl, not_isBlank_of_isDigit isFirst,
        ne_of_isDigit isFirst (by decide : isDigit ']' = false)⟩
  · exact ⟨'-', _, rfl, rfl, by decide⟩

/-- Every value starts with neither a blank nor the end of an array. -/
theorem IsPart.starts {text : List Char} (value : IsValue text) :
    ∃ char more, text = char :: more ∧ isBlank char = false ∧ char ≠ ']' := by
  cases value with
  | null => exact ⟨_, _, rfl, rfl, by decide⟩
  | boolean truth => cases truth <;> exact ⟨_, _, rfl, rfl, by decide⟩
  | number number => exact number.starts
  | literal | emptyArray | array | emptyObject | object => exact ⟨_, _, rfl, rfl, by decide⟩

/-- The character that opens a bracket. -/
def Bracket.opening : Bracket → Char
  | .array => '['
  | .object => '{'

/-- A bracket that opens is put on top of those that are open. -/
theorem skipFrom_opening (bracket : Bracket) (brackets : List Bracket) (text : List Char) :
    skipFrom .value brackets (bracket.opening :: text) =
      skipFrom .opened (bracket :: brackets) text :=
  skipFrom_of_step
    (by cases bracket <;> simp [step, stepValue, isBlank, isDigit, Bracket.opening])

/-- A comma leads to the next item of the innermost bracket. -/
theorem skipFrom_comma (bracket : Bracket) (below : List Bracket) (text : List Char) :
    skipFrom .done (bracket :: below) (',' :: text) =
      skipFrom bracket.item (bracket :: below) text :=
  skipFrom_on bracket.item (by simp [step, stepDone, isBlank])

/-- A bracket that closes ends the innermost value. -/
theorem skipFrom_closing (bracket : Bracket) (below : List Bracket) (text : List Char) :
    skipFrom .done (bracket :: below) (bracket.closing :: text) = skipFrom .done below text :=
  skipFrom_of_step (by cases bracket <;> simp [step, stepDone, isBlank, Bracket.closing])

theorem skipFrom_empty
    (bracket : Bracket)
    (inside : Blanks)
    (below : List Bracket)
    (text : List Char) :
    skipFrom .value below (bracket.opening :: (inside.text ++ bracket.closing :: text)) =
      skipFrom .done below text := by
  rw [skipFrom_opening, skipFrom_blanks (patient_opened _ _)]
  exact skipFrom_of_step
    (by cases bracket <;> simp [step, stepOpened, isBlank, Bracket.closing])

theorem skipFrom_opened_array
    {text : List Char}
    (elements : IsPart .elements text)
    (below : List Bracket)
    (rest : List Char) :
    skipFrom .opened (.array :: below) (text ++ rest) =
      skipFrom .value (.array :: below) (text ++ rest) := by
  have first : ∀ (ahead : Blanks) (value others : List Char), IsValue value →
      skipFrom .opened (.array :: below) (ahead.text ++ (value ++ others)) =
        skipFrom .value (.array :: below) (ahead.text ++ (value ++ others)) := by
    intro ahead value others isValue
    obtain ⟨char, more, rfl, noBlank, noEnd⟩ := isValue.starts
    rw [skipFrom_blanks (patient_opened _ _), skipFrom_blanks (patient_value _),
      List.cons_append, skipFrom, skipFrom]
    simp [step, stepOpened, Bracket.closing, noBlank, noEnd]
  cases elements with
  | lastElement ahead behind value => simpa using first ahead _ (behind.text ++ rest) value
  | @element ahead behind _ others value more =>
      simpa using first ahead _ (behind.text ++ ',' :: (others ++ rest)) value

theorem skipFrom_opened_object
    {text : List Char}
    (members : IsPart .members text)
    (below : List Bracket)
    (rest : List Char) :
    skipFrom .opened (.object :: below) (text ++ rest) =
      skipFrom .name (.object :: below) (text ++ rest) := by
  have first : ∀ (ahead : Blanks) (others : List Char),
      skipFrom .opened (.object :: below) (ahead.text ++ '"' :: others) =
        skipFrom .name (.object :: below) (ahead.text ++ '"' :: others) := by
    intro ahead others
    rw [skipFrom_blanks (patient_opened _ _), skipFrom_blanks (patient_name _), skipFrom, skipFrom]
    simp [step, stepOpened, stepName, Bracket.closing, isBlank]
  cases members with
  | lastMember => simpa [Member.text] using first _ _
  | member => simpa [Member.text] using first _ _

/-- What passing over a text of a role means. -/
def Passes : Role → List Char → Prop
  | .value, text => ∀ brackets rest, Delimits rest →
      skipFrom .value brackets (text ++ rest) = skipFrom .done brackets rest
  | .elements, text => ∀ below rest,
      skipFrom .value (.array :: below) (text ++ ']' :: rest) = skipFrom .done below rest
  | .members, text => ∀ below rest,
      skipFrom .name (.object :: below) (text ++ '}' :: rest) = skipFrom .done below rest

/-- An element is passed over together with the blanks around it. -/
theorem Passes.padded
    {text : List Char}
    (passes : Passes .value text)
    (ahead behind : Blanks)
    (bracket : Bracket)
    (below : List Bracket)
    {rest : List Char}
    (delimits : Delimits rest) :
    skipFrom .value (bracket :: below) (ahead.text ++ (text ++ (behind.text ++ rest))) =
      skipFrom .done (bracket :: below) rest := by
  rw [skipFrom_blanks (patient_value _), passes _ _ (behind.delimits delimits),
    skipFrom_blanks (patient_done _ _)]

/-- A member is passed over together with the blanks around its parts. -/
theorem Passes.member
    {member : Member}
    (name : IsLiteral member.name)
    (passes : Passes .value member.value)
    (below : List Bracket)
    {rest : List Char}
    (delimits : Delimits rest) :
    skipFrom .name (.object :: below) (member.text ++ rest) =
      skipFrom .done (.object :: below) rest := by
  have quote (text : List Char) : skipFrom .name (.object :: below) ('"' :: text) =
      skipFrom (.text true) (.object :: below) text :=
    skipFrom_on (.text true) (by simp [step, stepName, isBlank])
  have colon (text : List Char) : skipFrom .colon (.object :: below) (':' :: text) =
      skipFrom .value (.object :: below) text :=
    skipFrom_on .value (by simp [step, isBlank])
  simp only [Member.text, List.append_assoc, List.cons_append]
  rw [skipFrom_blanks (patient_name _), quote, skipFrom_literal name, afterText, if_pos rfl,
    skipFrom_blanks (patient_colon _), colon, passes.padded _ _ _ _ delimits]

/-- Every value is passed over, to any depth. -/
theorem IsPart.passes {role : Role} {text : List Char} (part : IsPart role text) :
    Passes role text := by
  induction part with
  | null =>
      intro brackets rest _
      refine (skipFrom_on (.letters ['u', 'l', 'l']) ?_).trans
        (skipFrom_letters (List.cons_ne_nil _ _) brackets rest)
      simp [step, stepValue, isBlank]
  | boolean truth =>
      intro brackets rest _
      cases truth with
      | true =>
          refine (skipFrom_on (.letters ['r', 'u', 'e']) ?_).trans
            (skipFrom_letters (List.cons_ne_nil _ _) brackets rest)
          simp [step, stepValue, isBlank]
      | false =>
          refine (skipFrom_on (.letters ['a', 'l', 's', 'e']) ?_).trans
            (skipFrom_letters (List.cons_ne_nil _ _) brackets rest)
          simp [step, stepValue, isBlank]
  | number number => exact fun brackets rest delimits => skipFrom_number number brackets delimits
  | @literal text literal =>
      intro brackets rest _
      rw [List.cons_append, List.append_assoc]
      refine (skipFrom_on (.text false) ?_).trans (skipFrom_literal literal false brackets rest)
      simp [step, stepValue, isBlank, isDigit]
  | emptyArray inside =>
      intro brackets rest _
      rw [List.cons_append, List.append_assoc]
      exact skipFrom_empty .array inside brackets rest
  | array elements passes =>
      intro brackets rest _
      rw [List.cons_append, List.append_assoc]
      refine (skipFrom_opening .array brackets _).trans ?_
      rw [skipFrom_opened_array elements]
      exact passes brackets rest
  | emptyObject inside =>
      intro brackets rest _
      rw [List.cons_append, List.append_assoc]
      exact skipFrom_empty .object inside brackets rest
  | object members passes =>
      intro brackets rest _
      rw [List.cons_append, List.append_assoc]
      refine (skipFrom_opening .object brackets _).trans ?_
      rw [skipFrom_opened_object members]
      exact passes brackets rest
  | lastElement ahead behind _ passes =>
      intro below rest
      simp only [List.append_assoc]
      rw [passes.padded _ _ _ _ (delimits_cons rfl)]
      exact skipFrom_closing .array below rest
  | element ahead behind _ _ passes others =>
      intro below rest
      simp only [List.append_assoc, List.cons_append]
      rw [passes.padded _ _ _ _ (delimits_cons rfl), skipFrom_comma]
      exact others below rest
  | lastMember name _ passes =>
      intro below rest
      rw [passes.member name below (delimits_cons rfl)]
      exact skipFrom_closing .object below rest
  | member name _ _ passes others =>
      intro below rest
      rw [List.append_assoc, List.cons_append, passes.member name below (delimits_cons rfl),
        skipFrom_comma]
      exact others below rest

/-- The text after a well-formed value is what follows the value. -/
theorem skipValue_append
    {text : List Char}
    (value : IsValue text)
    (ahead : Blanks)
    {rest : List Char}
    (delimits : Delimits rest) :
    skipValue (ahead.text ++ (text ++ rest)) = .ok rest := by
  have ends : skipFrom .done [] rest = .ok rest := by
    cases rest with
    | nil => rfl
    | cons char more => rw [skipFrom, step, stepDone]
  rw [skipValue, skipFrom_blanks (patient_value _), value.passes _ _ delimits, ends]

end Json
end TickMachine
