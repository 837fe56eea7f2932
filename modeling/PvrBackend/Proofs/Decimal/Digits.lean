import PvrBackend.Decimal.Numeral

/-!
# Digits

How many digits a number has and with which it starts, how the values of parts of digits
add up, and what a reader that takes digits leaves.
-/

namespace PvrBackend.Decimal

/-- A number with at least one digit, as it stands in a text. -/
structure Digits (ds : List Char) : Prop where
  ne_nil : ds ≠ []
  all : ∀ c ∈ ds, c.isDigit = true

theorem digits_digits (n : Nat) : Digits (digits n) := ⟨digits_ne_nil n, fun _ => digits_isDigit⟩

theorem isDigit_zeros {n : Nat} : ∀ c ∈ List.replicate n '0', c.isDigit = true := by
  intro c member
  rw [List.eq_of_mem_replicate member]
  decide

theorem digits_zero : Digits ['0'] := ⟨nofun, isDigit_zeros (n := 1)⟩

theorem Digits.append {ds es : List Char} (h : Digits ds) (h' : ∀ c ∈ es, c.isDigit = true) :
    Digits (ds ++ es) :=
  ⟨List.append_ne_nil_of_left_ne_nil h.ne_nil _, fun c member =>
    (List.mem_append.mp member).elim (h.all c) (h' c)⟩

theorem Digits.sublist {ds es : List Char} (h : Digits ds) (part : es.Sublist ds)
    (ne_nil : es ≠ []) : Digits es :=
  ⟨ne_nil, fun c member => h.all c (part.subset member)⟩

theorem takeWhile_isDigit_append {ds : List Char} (digits : ∀ c ∈ ds, c.isDigit = true)
    {rest : List Char} (stop : ∀ c ∈ rest.head?, c.isDigit = false) :
    (ds ++ rest).takeWhile Char.isDigit = ds := by
  rw [List.takeWhile_append_of_pos digits]
  cases rest with
  | nil => exact List.append_nil ds
  | cons c rest => rw [List.takeWhile_cons_of_neg (by simp [stop c rfl]), List.append_nil]

theorem dropWhile_isDigit_append {ds : List Char} (digits : ∀ c ∈ ds, c.isDigit = true)
    {rest : List Char} (stop : ∀ c ∈ rest.head?, c.isDigit = false) :
    (ds ++ rest).dropWhile Char.isDigit = rest := by
  rw [List.dropWhile_append_of_pos digits]
  cases rest with
  | nil => rfl
  | cons c rest => rw [List.dropWhile_cons_of_neg (by simp [stop c rfl])]

/-! ### Values -/

theorem le_ofDigitChars (ds : List Char) (n : Nat) : n ≤ Nat.ofDigitChars 10 ds n := by
  induction ds generalizing n with
  | nil => exact Nat.le_refl n
  | cons d ds ih =>
      rw [Nat.ofDigitChars_cons]
      exact Nat.le_trans (by omega) (ih _)

theorem value_append (ds es : List Char) : value (ds ++ es) = Nat.ofDigitChars 10 es (value ds) :=
  Nat.ofDigitChars_append 0

theorem value_zeros (n : Nat) : value (List.replicate n '0') = 0 := by
  rw [value, Nat.ofDigitChars_replicate_zero, Nat.mul_zero]

theorem value_zeros_append (n : Nat) (ds : List Char) :
    value (List.replicate n '0' ++ ds) = value ds := by
  rw [value_append, value_zeros, value]

theorem toNat_sub_lt {c : Char} (digit : c.isDigit = true) : c.toNat - '0'.toNat < 10 := by
  simp only [Char.isDigit, Bool.and_eq_true, decide_eq_true_eq, UInt32.le_iff_toNat_le] at digit
  have high : c.toNat ≤ 57 := digit.2
  have zero : '0'.toNat = 48 := rfl
  omega

theorem value_lt {ds : List Char} (digits : ∀ c ∈ ds, c.isDigit = true) :
    value ds < Nat.pow 10 ds.length := by
  induction ds with
  | nil => decide
  | cons d ds ih =>
      have first := toNat_sub_lt (digits d List.mem_cons_self)
      have rest := ih fun c member => digits c (List.mem_cons_of_mem d member)
      rw [value, Nat.ofDigitChars_cons, Nat.ofDigitChars_eq_ofDigitChars_zero, Nat.mul_zero,
        Nat.zero_add, List.length_cons, Nat.pow_eq, Nat.pow_succ]
      have scaled : 10 ^ ds.length * (d.toNat - '0'.toNat) ≤ 10 ^ ds.length * 9 :=
        Nat.mul_le_mul_left _ (by omega)
      rw [value, Nat.pow_eq] at rest
      omega

/-! ### Length and leading digit -/

theorem length_digits_le {width n : Nat} (pos : 0 < width) (h : n < Nat.pow 10 width) :
    (digits n).length ≤ width :=
  (Nat.length_toDigits_le_iff (by decide) pos).mpr h

/-- Only zero is written with a zero in front. -/
theorem head?_digits_ne {n : Nat} (pos : 0 < n) : (digits n).head? ≠ some '0' := by
  intro zero
  obtain ⟨ds, written⟩ := List.head?_eq_some_iff.mp zero
  have same : value ds = n := by
    rw [← value_digits n, written]
    exact (value_zeros_append 1 ds).symm
  have digit : ∀ c ∈ ds, c.isDigit = true := fun c member =>
    digits_isDigit (written ▸ List.mem_cons_of_mem _ member)
  cases ds with
  | nil => exact Nat.ne_of_gt pos same.symm
  | cons d ds =>
      -- the rest alone has the value, so all of it takes one digit less
      have shorter := value_lt digit
      rw [same] at shorter
      have longer := length_digits_le (Nat.succ_pos _) shorter
      rw [written, List.length_cons] at longer
      exact Nat.not_succ_le_self _ longer

end PvrBackend.Decimal
