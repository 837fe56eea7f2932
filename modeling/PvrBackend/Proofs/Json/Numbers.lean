import PvrBackend.Json.Reader
import PvrBackend.Proofs.Decimal.Digits
import PvrBackend.Proofs.Decimal.Shortest

/-!
# Numbers are read back

The text of a number is a literal, and the literal is read again whatever ends the value
behind it. Whole numbers come back as they were. A floating-point number comes back as a
floating-point number, which may differ in its last bit, since reading rounds more than
once; `Number.blur` forgets which one it is.
-/

namespace PvrBackend.Json

open Decimal (Binary64 Magnitude Digits Scientific)

/-! ### Literals -/

/-- A fraction as it is written. -/
def fractionChars : Option (List Char) → List Char
  | none => []
  | some ds => '.' :: ds

/-- An exponent as it is written. -/
def exponentChars : Option (Bool × List Char) → List Char
  | none => []
  | some (down, ds) => 'e' :: (if down then '-' else '+') :: ds

/-- A literal as it is written. -/
def Literal.chars (n : Literal) : List Char :=
  (if n.negative then ['-'] else []) ++ n.whole ++ fractionChars n.fraction ++
    exponentChars n.exponent

/-- The literals that the grammar allows. -/
structure Literal.Proper (n : Literal) : Prop where
  whole : Digits n.whole
  leading : n.whole = ['0'] ∨ n.whole.head? ≠ some '0'
  fraction : ∀ ds, n.fraction = some ds → Digits ds
  exponent : ∀ down ds, n.exponent = some (down, ds) → Digits ds

/-- What can stand behind a value: nothing, or the end of an item, a member or a line. -/
inductive Ends : List Char → Prop where
  | nil : Ends []
  | comma (rest : List Char) : Ends (',' :: rest)
  | bracket (rest : List Char) : Ends (']' :: rest)
  | brace (rest : List Char) : Ends ('}' :: rest)
  | line (rest : List Char) : Ends ('\n' :: rest)

/-- Behind a value no number goes on. -/
theorem Ends.stop {rest : List Char} (ends : Ends rest) :
    ∀ c ∈ rest.head?, c.isDigit = false ∧ c ≠ '.' ∧ ¬ (c = 'e' ∨ c = 'E') := by
  cases ends with
  | nil => exact fun _ member => nomatch member
  | _ =>
      intro c member
      obtain rfl := Option.some.inj member
      decide

namespace Document

theorem spanDigits_append {ds rest : List Char} (digits : ∀ c ∈ ds, c.isDigit = true)
    (stop : ∀ c ∈ rest.head?, c.isDigit = false) : spanDigits (ds ++ rest) = (ds, rest) := by
  rw [spanDigits, Decimal.takeWhile_isDigit_append digits stop,
    Decimal.dropWhile_isDigit_append digits stop]

theorem readWhole_append {ds rest : List Char} (digits : Digits ds)
    (leading : ds = ['0'] ∨ ds.head? ≠ some '0') (stop : ∀ c ∈ rest.head?, c.isDigit = false) :
    readWhole (ds ++ rest) = some (ds, rest) := by
  rw [readWhole, spanDigits_append digits.all stop]
  split
  next none => exact absurd (Prod.mk.inj none).1 digits.ne_nil
  next zero =>
    obtain ⟨rfl, rfl⟩ := Prod.mk.inj zero
    rfl
  next other zeros =>
    obtain ⟨rfl, rfl⟩ := Prod.mk.inj zeros
    rcases leading with zero | nonzero
    · exact absurd (List.cons.inj zero).2 other
    · exact absurd rfl nonzero
  next many =>
    obtain ⟨rfl, rfl⟩ := Prod.mk.inj many
    rfl

theorem readFraction_append {fraction : Option (List Char)} {rest : List Char}
    (digits : ∀ ds, fraction = some ds → Digits ds)
    (stop : ∀ c ∈ rest.head?, c.isDigit = false ∧ c ≠ '.') :
    readFraction (fractionChars fraction ++ rest) = some (fraction, rest) := by
  cases fraction with
  | none =>
      rw [fractionChars, List.nil_append]
      cases rest with
      | nil => rfl
      | cons c rest =>
          have point : c ≠ '.' := (stop c rfl).2
          rw [readFraction]
          simpa using point
  | some ds =>
      have proper := digits ds rfl
      rw [fractionChars, List.cons_append, readFraction,
        spanDigits_append proper.all fun c member => (stop c member).1]
      split
      next none => exact absurd (Prod.mk.inj none).1 proper.ne_nil
      next some =>
        obtain ⟨rfl, rfl⟩ := Prod.mk.inj some
        rfl

theorem readExponent_append {exponent : Option (Bool × List Char)} {rest : List Char}
    (digits : ∀ down ds, exponent = some (down, ds) → Digits ds) (ends : Ends rest) :
    readExponent (exponentChars exponent ++ rest) = some (exponent, rest) := by
  match exponent, digits with
  | none, _ =>
      rw [exponentChars, List.nil_append]
      cases rest with
      | nil => rfl
      | cons c rest => rw [readExponent, if_neg (ends.stop c rfl).2.2]
  | some (down, ds), digits =>
      have proper := digits down ds rfl
      have sign : readSign ((if down then '-' else '+') :: (ds ++ rest)) = (down, ds ++ rest) := by
        cases down <;> rfl
      rw [exponentChars, List.cons_append, List.cons_append, readExponent, if_pos (.inl rfl), sign]
      dsimp only
      rw [spanDigits_append proper.all fun c member => (ends.stop c member).1]
      split
      next none => exact absurd (Prod.mk.inj none).1 proper.ne_nil
      next some =>
        obtain ⟨rfl, rfl⟩ := Prod.mk.inj some
        rfl

theorem stop_exponent (exponent : Option (Bool × List Char)) {rest : List Char} (ends : Ends rest) :
    ∀ c ∈ (exponentChars exponent ++ rest).head?, c.isDigit = false ∧ c ≠ '.' := by
  match exponent with
  | none => exact fun c member => ⟨(ends.stop c member).1, (ends.stop c member).2.1⟩
  | some (down, ds) =>
      intro c member
      obtain rfl := Option.some.inj member
      decide

theorem stop_fraction (fraction : Option (List Char)) {rest : List Char}
    (stop : ∀ c ∈ rest.head?, c.isDigit = false) :
    ∀ c ∈ (fractionChars fraction ++ rest).head?, c.isDigit = false := by
  cases fraction with
  | none => exact stop
  | some ds =>
      intro c member
      obtain rfl := Option.some.inj member
      decide

/-- The rest of a number, once its sign is read. -/
def readUnsigned (negative : Bool) (cs : List Char) : Option (Literal × List Char) := do
  let (whole, cs) ← readWhole cs
  let (fraction, cs) ← readFraction cs
  let (exponent, cs) ← readExponent cs
  pure (⟨negative, whole, fraction, exponent⟩, cs)

theorem readLiteral_of_ne {c : Char} (h : c ≠ '-') (cs : List Char) :
    readLiteral (c :: cs) = readUnsigned false (c :: cs) := by
  rw [readLiteral]
  · rfl
  · intro rest minus
    exact h (List.cons.inj minus).1

theorem readUnsigned_chars {n : Literal} (proper : n.Proper) {rest : List Char} (ends : Ends rest) :
    readUnsigned n.negative (n.whole ++ (fractionChars n.fraction ++
      (exponentChars n.exponent ++ rest))) = some (n, rest) := by
  have stop := stop_exponent n.exponent ends
  have first := readWhole_append proper.whole proper.leading
    (stop_fraction n.fraction fun c member => (stop c member).1)
  have second := readFraction_append proper.fraction stop
  have third := readExponent_append proper.exponent ends
  rw [readUnsigned, first]
  simp only [Option.bind_eq_bind, Option.bind_some, second, third]
  rfl

/-- A literal is read back. -/
theorem readLiteral_chars {n : Literal} (proper : n.Proper) {rest : List Char} (ends : Ends rest) :
    readLiteral (n.chars ++ rest) = some (n, rest) := by
  have unsigned := readUnsigned_chars proper ends
  rw [Literal.chars, List.append_assoc, List.append_assoc, List.append_assoc]
  cases sign : n.negative with
  | true =>
      rw [sign] at unsigned
      exact unsigned
  | false =>
      rw [sign] at unsigned
      obtain ⟨d, ds, whole⟩ := List.exists_cons_of_ne_nil proper.whole.ne_nil
      have digit : d.isDigit = true := proper.whole.all d (whole ▸ List.mem_cons_self)
      have plus : d ≠ '-' := by
        rintro rfl
        exact absurd digit (by decide)
      rw [whole] at unsigned ⊢
      exact (readLiteral_of_ne plus _).trans unsigned

end Document

/-! ### The number of a literal -/

/-- The numbers that are read: whole ones within 64 bits, and canonical ones. -/
def Number.InRange : Number → Prop
  | .int n => -0x8000000000000000 ≤ n ∧ n < 0x10000000000000000
  | .float x => x.magnitude.Canonical

theorem absorb_lt {significand : Nat} (fits : significand < UInt64.size) (ds : List Char) :
    (absorb significand ds).1 < UInt64.size := by
  induction ds generalizing significand with
  | nil => exact fits
  | cons d ds ih =>
      rw [absorb]
      dsimp only
      split
      next longer => exact ih longer
      next => exact fits

/-- Digits are all taken in if their value fits. -/
theorem absorb_of_lt {significand : Nat} {ds : List Char}
    (fits : Nat.ofDigitChars 10 ds significand < UInt64.size) :
    absorb significand ds = (Nat.ofDigitChars 10 ds significand, ds.length) := by
  induction ds generalizing significand with
  | nil => rfl
  | cons d ds ih =>
      rw [Nat.ofDigitChars_cons, mul_comm] at fits
      rw [absorb, Nat.ofDigitChars_cons, mul_comm 10]
      dsimp only
      rw [if_pos (lt_of_le_of_lt (Decimal.le_ofDigitChars _ _) fits), ih fits]
      rfl

theorem ofParts_eq (negative : Bool) (significand : Nat) (power : Int) :
    ofParts negative significand power =
      (Magnitude.ofDecimal? significand power).map fun m => .float ⟨negative, m⟩ := by
  rw [ofParts, Magnitude.ofDecimal?]
  cases Magnitude.nearest? significand 1 0 with
  | none => rfl
  | some start =>
      simp only [Option.bind_eq_bind, Option.bind_some]
      cases start.scale? power <;> rfl

theorem inRange_of_ofParts {negative : Bool} {significand : Nat} {power : Int} {x : Number}
    (read : ofParts negative significand power = some x) : x.InRange := by
  rw [ofParts_eq] at read
  obtain ⟨m, magnitude, rfl⟩ := Option.map_eq_some_iff.mp read
  exact Magnitude.canonical_of_ofDecimal? magnitude

/-- Every number that is read is in range. -/
theorem Literal.inRange_of_number? {n : Literal} {x : Number} (read : n.number? = some x) :
    x.InRange := by
  have fits := absorb_lt (by decide : 0 < UInt64.size) n.whole
  rw [number?] at read
  generalize absorb 0 n.whole = absorbed at read fits
  obtain ⟨significand, taken⟩ := absorbed
  dsimp only at read fits
  have size : UInt64.size = 0x10000000000000000 := rfl
  split at read
  next =>
    split at read
    · obtain rfl := Option.some.inj read
      exact ⟨by omega, by omega⟩
    · split at read
      next bounds =>
        obtain rfl := Option.some.inj read
        exact ⟨by omega, by omega⟩
      next => exact inRange_of_ofParts read
  next =>
    split at read
    next => exact inRange_of_ofParts read
    next down ds _ =>
      split at read
      · exact inRange_of_ofParts read
      · split at read
        · obtain rfl := Option.some.inj read
          exact Magnitude.canonical_zero
        · cases read

theorem absorb_whole {whole ds : List Char} (fits : Decimal.value (whole ++ ds) < UInt64.size) :
    absorb 0 whole = (Decimal.value whole, whole.length) ∧
      absorb (Decimal.value whole) ds = (Decimal.value (whole ++ ds), ds.length) := by
  rw [Decimal.value_append] at fits ⊢
  exact ⟨absorb_of_lt ((Decimal.le_ofDigitChars ds _).trans_lt fits), absorb_of_lt fits⟩

theorem number?_whole (negative : Bool) {whole : List Char}
    (fits : Decimal.value whole < UInt64.size) :
    Literal.number? ⟨negative, whole, none, none⟩ =
      if negative = false then some (.int (Decimal.value whole))
      else if 0 < Decimal.value whole ∧ Decimal.value whole ≤ 0x8000000000000000 then
        some (.int (-(Decimal.value whole : Int)))
      else ofParts negative (Decimal.value whole) 0 := by
  have absorbed : absorb 0 whole = (Decimal.value whole, whole.length) := absorb_of_lt fits
  rw [Literal.number?]
  cases negative <;> simp [absorbed]

theorem number?_fraction (negative : Bool) {whole ds : List Char}
    (fits : Decimal.value (whole ++ ds) < UInt64.size) :
    Literal.number? ⟨negative, whole, some ds, none⟩ =
      ofParts negative (Decimal.value (whole ++ ds)) (-(ds.length : Int)) := by
  obtain ⟨first, second⟩ := absorb_whole fits
  rw [Literal.number?]
  simp only [first, Option.getD_some, second, sub_self, zero_sub]

theorem number?_exponent (negative : Bool) {whole : List Char} {fraction : Option (List Char)}
    {down : Bool} {ds : List Char}
    (fits : Decimal.value (whole ++ fraction.getD []) < UInt64.size)
    (shift : Decimal.value ds ≤ exponentLimit) :
    Literal.number? ⟨negative, whole, fraction, some (down, ds)⟩ =
      ofParts negative (Decimal.value (whole ++ fraction.getD []))
        (-((fraction.getD []).length : Int) +
          if down then -(Decimal.value ds : Int) else Decimal.value ds) := by
  obtain ⟨first, second⟩ := absorb_whole fits
  rw [Literal.number?]
  simp only [first, second, sub_self, zero_sub, if_pos shift]
  cases down <;> rfl

/-! ### Texts of numbers -/

theorem exists_float {negative : Bool} {significand : Nat} {power : Int}
    (read : ∃ m, Magnitude.ofDecimal? significand power = some m) :
    ∃ x, ofParts negative significand power = some (.float x) := by
  obtain ⟨m, magnitude⟩ := read
  exact ⟨⟨negative, m⟩, by rw [ofParts_eq, magnitude]; rfl⟩

theorem leading_append {ds : List Char} (leading : ds = ['0'] ∨ ds.head? ≠ some '0')
    (ne_nil : ds ≠ []) {es : List Char} (alone : ds = ['0'] → es = []) :
    ds ++ es = ['0'] ∨ (ds ++ es).head? ≠ some '0' := by
  rcases leading with zero | other
  · exact .inl (by rw [alone zero, zero]; rfl)
  · exact .inr (by rwa [List.head?_append_of_ne_nil _ ne_nil])

/-- A literal that stands for a decimal, and that is read as a floating-point number. -/
structure Writes (n : Literal) (s : Scientific) : Prop where
  proper : n.Proper
  chars : n.chars = (if n.negative then ['-'] else []) ++ (s.text layout).toList
  float : ∃ x, n.number? = some (.float x)

/-- The power of ten of the leading digit. -/
def leadingPower (s : Scientific) : Int := (Decimal.digits s.digits).length + s.power - 1

theorem toList_text (s : Scientific) : (s.text layout).toList =
    if -5 ≤ leadingPower s ∧ leadingPower s < 16 then
      if 0 ≤ s.power then
        Decimal.digits s.digits ++ List.replicate s.power.toNat '0' ++ ['.', '0']
      else if 0 ≤ leadingPower s then
        (Decimal.digits s.digits).take ((leadingPower s).toNat + 1) ++
          '.' :: (Decimal.digits s.digits).drop ((leadingPower s).toNat + 1)
      else '0' :: '.' :: List.replicate (-leadingPower s - 1).toNat '0' ++ Decimal.digits s.digits
    else
      (Decimal.digits s.digits).take 1 ++
        (if (Decimal.digits s.digits).length = 1 then []
          else '.' :: (Decimal.digits s.digits).drop 1) ++
        'e' :: (if leadingPower s < 0 then ['-'] else ['+']) ++
        Decimal.digits (leadingPower s).natAbs := by
  rw [Scientific.text, String.toList_ofList]
  rfl

/-- What is known of the decimals that are written. -/
structure Short (s : Scientific) : Prop where
  fits : s.digits < 0x1000000000000000
  zero : s.digits = 0 → s.power = 0
  least : -400 ≤ s.power
  greatest : s.power ≤ 400
  read : ∃ m, Magnitude.ofDecimal? s.digits s.power = some m

namespace Short

variable {s : Scientific} (short : Short s) (negative : Bool)

theorem leading (s : Scientific) :
    Decimal.digits s.digits = ['0'] ∨ (Decimal.digits s.digits).head? ≠ some '0' := by
  rcases Nat.eq_zero_or_pos s.digits with zero | pos
  · rw [zero]
    exact .inl (by decide)
  · exact .inr (Decimal.head?_digits_ne pos)

include short

theorem digits_lt : s.digits < UInt64.size := short.fits.trans (by decide)

omit short in
theorem writes_of (whole : List Char) (fraction : Option (List Char))
    (exponent : Option (Bool × List Char))
    (chars : (s.text layout).toList = whole ++ (fractionChars fraction ++ exponentChars exponent))
    (proper : (⟨negative, whole, fraction, exponent⟩ : Literal).Proper)
    (float : ∃ x, Literal.number? ⟨negative, whole, fraction, exponent⟩ = some (.float x)) :
    ∃ n : Literal, n.negative = negative ∧ Writes n s := by
  refine ⟨⟨negative, whole, fraction, exponent⟩, rfl, proper, ?_, float⟩
  rw [Literal.chars, chars, List.append_assoc, List.append_assoc]

/-- A whole number that is written out ends in a point and a zero. -/
theorem writes_whole (low : -5 ≤ leadingPower s) (high : leadingPower s < 16)
    (nonneg : 0 ≤ s.power) : ∃ n : Literal, n.negative = negative ∧ Writes n s := by
  have digits := Decimal.digits_digits s.digits
  have whole : Digits (Decimal.digits s.digits ++ List.replicate s.power.toNat '0') :=
    digits.append Decimal.isDigit_zeros
  have fits : Decimal.value (Decimal.digits s.digits ++ List.replicate s.power.toNat '0' ++ ['0']) <
      UInt64.size := by
    refine (Decimal.value_lt (whole.append Decimal.digits_zero.all).all).trans_le ?_
    refine (Nat.pow_le_pow_right (by decide) ?_).trans (by decide : 10 ^ 17 ≤ UInt64.size)
    rw [leadingPower] at high
    simp only [List.length_append, List.length_replicate, List.length_cons, List.length_nil]
    omega
  refine writes_of negative _ (some ['0']) none ?_
    ⟨whole, leading_append (leading s) digits.ne_nil fun alone => ?_, ?_, nofun⟩ ?_
  · rw [toList_text, if_pos ⟨low, high⟩, if_pos nonneg]
    rfl
  · have zero : s.digits = 0 := by rw [← Decimal.value_digits s.digits, alone]; rfl
    rw [short.zero zero, Int.toNat_zero, List.replicate_zero]
  · rintro ds ⟨⟩
    exact Decimal.digits_zero
  · rw [number?_fraction negative fits]
    exact exists_float (Magnitude.exists_ofDecimal?_of_nonpos fits.le (by decide))

/-- A point within the digits. -/
theorem writes_point (high : leadingPower s < 16) (fraction : s.power < 0)
    (one_le : 0 ≤ leadingPower s) : ∃ n : Literal, n.negative = negative ∧ Writes n s := by
  have digits := Decimal.digits_digits s.digits
  have length : (Decimal.digits s.digits).length = leadingPower s + 1 - s.power := by
    rw [leadingPower]
    omega
  generalize place_eq : (leadingPower s).toNat + 1 = place
  have parts : Decimal.value ((Decimal.digits s.digits).take place ++
      (Decimal.digits s.digits).drop place) = s.digits := by
    rw [List.take_append_drop, Decimal.value_digits]
  have fits := short.digits_lt
  refine writes_of negative ((Decimal.digits s.digits).take place)
    (some ((Decimal.digits s.digits).drop place)) none ?_ ⟨?_, .inr ?_, ?_, nofun⟩ ?_
  · rw [toList_text, if_pos ⟨by omega, high⟩, if_neg (by omega), if_pos one_le, place_eq,
      fractionChars, exponentChars, List.append_nil]
  · exact digits.sublist (List.take_sublist _ _) (by
      rw [Ne, List.take_eq_nil_iff, not_or]
      exact ⟨by omega, digits.ne_nil⟩)
  · rcases leading s with zero | other
    · rw [zero] at length
      simp only [List.length_cons, List.length_nil] at length
      omega
    · rwa [List.head?_take, if_neg (by omega)]
  · rintro ds ⟨⟩
    exact digits.sublist (List.drop_sublist _ _) (by
      rw [Ne, List.drop_eq_nil_iff]
      omega)
  · rw [← parts] at fits
    rw [number?_fraction negative fits, parts]
    exact exists_float (Magnitude.exists_ofDecimal?_of_nonpos short.digits_lt.le (by omega))

/-- Zeros behind the point. -/
theorem writes_zeros (low : -5 ≤ leadingPower s) (fraction : s.power < 0)
    (less : leadingPower s < 0) : ∃ n : Literal, n.negative = negative ∧ Writes n s := by
  have digits := Decimal.digits_digits s.digits
  generalize zeros_eq : (-leadingPower s - 1).toNat = zeros
  have parts : Decimal.value (['0'] ++ (List.replicate zeros '0' ++ Decimal.digits s.digits)) =
      s.digits := by
    rw [show ['0'] = List.replicate 1 '0' by rfl, Decimal.value_zeros_append,
      Decimal.value_zeros_append, Decimal.value_digits]
  have fits := short.digits_lt
  refine writes_of negative ['0'] (some (List.replicate zeros '0' ++ Decimal.digits s.digits)) none
    ?_ ⟨⟨nofun, by simp⟩, .inl rfl, ?_, nofun⟩ ?_
  · rw [toList_text, if_pos ⟨low, by omega⟩, if_neg (by omega), if_neg (by omega), zeros_eq]
    simp [fractionChars, exponentChars]
  · rintro ds ⟨⟩
    refine ⟨List.append_ne_nil_of_right_ne_nil _ digits.ne_nil, fun c member => ?_⟩
    rcases List.mem_append.mp member with zero | digit
    · exact Decimal.isDigit_zeros c zero
    · exact digits.all c digit
  · rw [← parts] at fits
    rw [number?_fraction negative fits, parts]
    exact exists_float (Magnitude.exists_ofDecimal?_of_nonpos short.digits_lt.le (by omega))

omit short in
/-- Behind the first digit a point is written only if there are more digits. -/
theorem exists_fraction {ds : List Char} (digits : Digits ds) :
    ∃ fraction : Option (List Char),
      (if ds.length = 1 then [] else '.' :: ds.drop 1) = fractionChars fraction ∧
      fraction.getD [] = ds.drop 1 ∧ ∀ es, fraction = some es → Digits es := by
  by_cases one : ds.length = 1
  · exact ⟨none, if_pos one, (List.drop_eq_nil_of_le one.le).symm, nofun⟩
  · refine ⟨some (ds.drop 1), if_neg one, rfl, ?_⟩
    rintro es ⟨⟩
    refine digits.sublist (List.drop_sublist _ _) ?_
    rw [Ne, List.drop_eq_nil_iff]
    have := List.length_pos_iff.mpr digits.ne_nil
    omega

/-- An exponent. -/
theorem writes_exponent (far : ¬ (-5 ≤ leadingPower s ∧ leadingPower s < 16)) :
    ∃ n : Literal, n.negative = negative ∧ Writes n s := by
  have digits := Decimal.digits_digits s.digits
  have length := Decimal.length_digits_le (n := s.digits) (by decide : 0 < 19)
    (short.fits.trans (by decide))
  have least := short.least
  have greatest := short.greatest
  obtain ⟨fraction, written, rest, proper⟩ := exists_fraction digits
  have parts : Decimal.value ((Decimal.digits s.digits).take 1 ++ fraction.getD []) = s.digits := by
    rw [rest, List.take_append_drop, Decimal.value_digits]
  have fits := short.digits_lt
  refine writes_of negative ((Decimal.digits s.digits).take 1) fraction
    (some (decide (leadingPower s < 0), Decimal.digits (leadingPower s).natAbs)) ?_
    ⟨?_, ?_, proper, ?_⟩ ?_
  · rw [toList_text, if_neg far, written, exponentChars]
    by_cases less : leadingPower s < 0 <;> simp [less]
  · refine digits.sublist (List.take_sublist _ _) ?_
    rw [Ne, List.take_eq_nil_iff, not_or]
    exact ⟨one_ne_zero, digits.ne_nil⟩
  · rcases leading s with zero | other
    · exact .inl (by rw [zero]; rfl)
    · exact .inr (by rwa [List.head?_take, if_neg one_ne_zero])
  · rintro down ds ⟨⟩
    exact Decimal.digits_digits _
  · have power : -((fraction.getD []).length : Int) +
        (if decide (leadingPower s < 0) = true then -((leadingPower s).natAbs : Int)
          else (leadingPower s).natAbs) = s.power := by
      have count := List.length_pos_iff.mpr digits.ne_nil
      rw [rest, List.length_drop]
      simp only [decide_eq_true_eq]
      have value : leadingPower s = (Decimal.digits s.digits).length + s.power - 1 := rfl
      split <;> omega
    have shift : (leadingPower s).natAbs ≤ exponentLimit := by
      rw [leadingPower, exponentLimit]
      omega
    rw [← parts] at fits
    rw [number?_exponent negative fits (by rwa [Decimal.value_digits]), parts,
      Decimal.value_digits, power]
    exact exists_float short.read

/-- A decimal is written as a literal of either sign. -/
theorem exists_writes : ∃ n : Literal, n.negative = negative ∧ Writes n s := by
  by_cases near : -5 ≤ leadingPower s ∧ leadingPower s < 16
  · obtain ⟨low, high⟩ := near
    rcases lt_or_ge s.power 0 with fraction | whole
    · rcases lt_or_ge (leadingPower s) 0 with less | one_le
      · exact short.writes_zeros negative low fraction less
      · exact short.writes_point negative high fraction one_le
    · exact short.writes_whole negative low high whole
  · exact short.writes_exponent negative near

end Short

/-- A number with every floating-point number made the same. -/
def Number.blur : Number → Number
  | .int n => .int n
  | .float _ => .float ⟨false, Magnitude.zero⟩

/-- The decimals that numbers are written as. -/
theorem short_shortest {a : Magnitude} (canonical : a.Canonical) : Short a.shortest := by
  have read := Magnitude.exists_ofDecimal?_shortest canonical
  rcases Nat.eq_zero_or_pos a.mantissa with none | positive
  · rw [Magnitude.shortest, if_pos none] at read ⊢
    exact ⟨by decide, fun _ => rfl, by decide, by decide, read⟩
  · obtain ⟨digit, fits, least, greatest, -⟩ := Magnitude.shortest_spec canonical positive
    exact ⟨fits, fun zero => absurd zero digit.ne', least, greatest, read⟩

/-- A number in range is written as a literal that is read as the number again, apart
from the last digits of a floating-point number. -/
theorem Number.exists_literal {n : Number} (range : n.InRange) :
    ∃ l : Literal, l.Proper ∧ n.text.toList = l.chars ∧
      ∃ n', l.number? = some n' ∧ n'.blur = n.blur := by
  match n, range with
  | .float x, canonical =>
      obtain ⟨l, sign, writes⟩ := (short_shortest canonical).exists_writes x.negative
      obtain ⟨y, number⟩ := writes.float
      refine ⟨l, writes.proper, ?_, .float y, number, rfl⟩
      rw [writes.chars, sign, Number.text, Binary64.text, String.toList_append]
      cases x.negative <;> rfl
  | .int (.ofNat k), range =>
      have fits : k < UInt64.size := by
        have bound : (k : Int) < 0x10000000000000000 := range.2
        have size : UInt64.size = 0x10000000000000000 := rfl
        omega
      refine ⟨⟨false, Decimal.digits k, none, none⟩,
        ⟨Decimal.digits_digits k, Short.leading ⟨k, 0⟩, nofun, nofun⟩, ?_, .int k, ?_, rfl⟩
      · simp [Number.text, Decimal.intText, Decimal.natText, Literal.chars, fractionChars,
          exponentChars]
      · have read := number?_whole false ((Decimal.value_digits k).trans_lt fits)
        rw [Decimal.value_digits, if_pos rfl] at read
        exact read
  | .int (.negSucc k), range =>
      have fits : k + 1 ≤ 0x8000000000000000 := by
        have bound : -0x8000000000000000 ≤ Int.negSucc k := range.1
        omega
      refine ⟨⟨true, Decimal.digits (k + 1), none, none⟩,
        ⟨Decimal.digits_digits _, Short.leading ⟨k + 1, 0⟩, nofun, nofun⟩, ?_, .int (.negSucc k),
        ?_, rfl⟩
      · simp [Number.text, Decimal.intText, Decimal.natText, Literal.chars, fractionChars,
          exponentChars]
      · have read := number?_whole true ((Decimal.value_digits (k + 1)).trans_lt
          (fits.trans_lt (by decide)))
        rw [Decimal.value_digits, if_neg (by simp), if_pos ⟨k.succ_pos, fits⟩] at read
        exact read

end PvrBackend.Json
