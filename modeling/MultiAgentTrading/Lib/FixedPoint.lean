import MultiAgentTrading.Lib.JsonRoundTrip

/-!
# Numbers with a fixed number of decimals

A number written with its sign and a fixed number of digits after the point is a JSON number, and is read back as the
number it writes.
-/

namespace FixedPoint

/-- The digits of a number, with zeros in front up to a number of places. -/
def padded (places n : ℕ) : Text :=
  List.replicate (places - (Nat.toDigits 10 n).length) '0' ++ Nat.toDigits 10 n

/-- `n` units of the last of some places. -/
def text (negative : Bool) (places n : ℕ) : Text :=
  Decimal.signText negative ++ (Nat.toDigits 10 (n / 10 ^ places) ++ '.' :: padded places (n % 10 ^ places))

variable {places n : ℕ}

private theorem isDigit_of_mem {m : ℕ} {c : Char} (h : c ∈ Nat.toDigits 10 m) : c.isDigit = true :=
  Nat.isDigit_of_mem_toDigits (by decide) (by decide) h

private theorem isDigit_of_mem_padded {c : Char} (h : c ∈ padded places n) : c.isDigit = true := by
  rcases List.mem_append.1 h with h | h
  · rw [(List.mem_replicate.1 h).2]
    decide
  · exact isDigit_of_mem h

private theorem length_padded (hplaces : 0 < places) (h : n < 10 ^ places) : (padded places n).length = places := by
  have hle : (Nat.toDigits 10 n).length ≤ places := (Nat.length_toDigits_le_iff (by decide) hplaces).2 h
  rw [padded, List.length_append, List.length_replicate]
  omega

private theorem natOf_padded : Decimal.natOf (padded places n) = n := by
  unfold Decimal.natOf padded
  rw [Nat.ofDigitChars_append, Nat.ofDigitChars_replicate_zero, Nat.mul_zero]
  exact Nat.ofDigitChars_ten_toDigits

/-- The digits before and after the point write the number of units. -/
private theorem natOf_digits (hplaces : 0 < places) :
    Decimal.natOf (Nat.toDigits 10 (n / 10 ^ places) ++ padded places (n % 10 ^ places)) = n := by
  have hlt : n % 10 ^ places < 10 ^ places := Nat.mod_lt _ (by positivity)
  have hpadded : Nat.ofDigitChars 10 (padded places (n % 10 ^ places)) 0 = n % 10 ^ places := natOf_padded
  unfold Decimal.natOf
  rw [Nat.ofDigitChars_append, Nat.ofDigitChars_ten_toDigits, Nat.ofDigitChars_eq_ofDigitChars_zero, hpadded,
    length_padded hplaces hlt]
  exact Nat.div_add_mod n (10 ^ places)

theorem parse_text (hplaces : 0 < places) (negative : Bool) :
    Decimal.parse (text negative places n) = some (.finite negative n (-places)) := by
  have hlt : n % 10 ^ places < 10 ^ places := Nat.mod_lt _ (by positivity)
  rw [text, Decimal.parse_point negative (fun c hc => isDigit_of_mem hc) (fun c hc => isDigit_of_mem_padded hc)
    Nat.toDigits_ne_nil, natOf_digits hplaces, length_padded hplaces hlt]

/-! ### As JSON -/

private theorem takeWhile_digits {digits rest : Text} (hdigits : ∀ c ∈ digits, c.isDigit = true)
    (hrest : ∀ c ∈ rest.head?, c.isDigit = false) :
    (digits ++ rest).takeWhile Char.isDigit = digits ∧ (digits ++ rest).dropWhile Char.isDigit = rest := by
  have hend : rest.takeWhile Char.isDigit = [] ∧ rest.dropWhile Char.isDigit = rest := by
    cases rest with
    | nil => exact ⟨rfl, rfl⟩
    | cons c rest =>
      have hc := hrest c rfl
      exact ⟨List.takeWhile_cons_of_neg (by simp [hc]), List.dropWhile_cons_of_neg (by simp [hc])⟩
  rw [List.takeWhile_append_of_pos hdigits, List.dropWhile_append_of_pos hdigits, hend.1, hend.2, List.append_nil]
  exact ⟨rfl, rfl⟩

/-- The digits of an integer part are those a JSON number has. -/
private theorem integer_digits (m : ℕ) :
    (if (Nat.toDigits 10 m).head? = some '0' then ['0'] else Nat.toDigits 10 m) = Nat.toDigits 10 m := by
  rcases Nat.eq_zero_or_pos m with rfl | hpos
  · rfl
  · rw [if_neg (Json.head?_toDigits hpos)]

private theorem readNumber_text {F : FloatText} (hF : F.value = FloatText.decimal.value) (hplaces : 0 < places)
    (negative : Bool) {rest : Text} (hrest : Json.Ends rest) :
    Json.readNumber F (text negative places n ++ rest) =
      some (.float (.finite negative n (-places)), rest) := by
  have hnodigit : ∀ c ∈ rest.head?, c.isDigit = false := by
    intro c hc
    rcases hrest c hc with rfl | rfl | rfl <;> rfl
  have hlt : n % 10 ^ places < 10 ^ places := Nat.mod_lt _ (by positivity)
  have hne : padded places (n % 10 ^ places) ≠ [] := by
    intro hnil
    have hlength := length_padded hplaces hlt
    rw [hnil, List.length_nil] at hlength
    omega
  have hdigits : ∀ c ∈ padded places (n % 10 ^ places), c.isDigit = true := fun c hc => isDigit_of_mem_padded hc
  obtain ⟨hfrac, hafter⟩ := takeWhile_digits hdigits hnodigit
  have hfraction : Json.readFraction ('.' :: (padded places (n % 10 ^ places) ++ rest)) =
      ('.' :: padded places (n % 10 ^ places), rest) := by
    simp only [Json.readFraction]
    rw [hfrac, hafter, if_neg hne]
  have hpoint : ∀ c ∈ ('.' :: (padded places (n % 10 ^ places) ++ rest)).head?, c.isDigit = false := by simp
  have hints : ∀ c ∈ Nat.toDigits 10 (n / 10 ^ places), c.isDigit = true := fun c hc => isDigit_of_mem hc
  obtain ⟨hint, -⟩ := takeWhile_digits hints hpoint
  have hhead : (text negative places n ++ rest).head? = some '-' ↔ negative = true := by
    cases negative with
    | true => simp [text, Decimal.signText]
    | false =>
      obtain ⟨c, t, hct⟩ := List.exists_cons_of_ne_nil (Nat.toDigits_ne_nil (n := n / 10 ^ places) (b := 10))
      have hc : c.isDigit = true := isDigit_of_mem (m := n / 10 ^ places) (hct ▸ List.mem_cons_self)
      have hne : c ≠ '-' := by
        rintro rfl
        exact absurd hc (by decide)
      simp [text, Decimal.signText, hct, hne]
  have hunsigned : (if (text negative places n ++ rest).head? = some '-' then (text negative places n ++ rest).tail
      else text negative places n ++ rest) =
        Nat.toDigits 10 (n / 10 ^ places) ++ '.' :: (padded places (n % 10 ^ places) ++ rest) := by
    simp only [hhead]
    cases negative <;> simp [text, Decimal.signText]
  have hvalue : F.value (text negative places n) = .finite negative n (-places) := by
    rw [hF]
    show (Decimal.parse (text negative places n)).getD _ = _
    rw [parse_text hplaces, Option.getD_some]
  have htext : (if (text negative places n ++ rest).head? = some '-' then ['-'] else []) ++
      Nat.toDigits 10 (n / 10 ^ places) ++ '.' :: padded places (n % 10 ^ places) ++ [] = text negative places n := by
    simp only [hhead]
    cases negative <;> simp [text, Decimal.signText]
  unfold Json.readNumber
  simp only [hunsigned, hint, integer_digits, List.drop_left, hfraction, Json.readExponent_of_ends hrest, htext, hvalue]
  rw [if_neg Nat.toDigits_ne_nil, if_neg (by simp)]

/-- A number with a fixed number of decimals is read back before anything that may follow a value. -/
theorem readValue_text {F : FloatText} (hF : F.value = FloatText.decimal.value) (hplaces : 0 < places)
    (negative : Bool) {fuel : ℕ} {rest : Text} (hrest : Json.Ends rest) :
    Json.readValue F (fuel + 1) (Json.skip (text negative places n ++ rest)) =
      some (.float (.finite negative n (-places)), rest) := by
  rw [← readNumber_text hF hplaces negative hrest]
  obtain ⟨c, t, hct⟩ := List.exists_cons_of_ne_nil (Nat.toDigits_ne_nil (n := n / 10 ^ places) (b := 10))
  have hc : c.isDigit = true := isDigit_of_mem (m := n / 10 ^ places) (hct ▸ List.mem_cons_self)
  cases negative with
  | true =>
    have hI : c ≠ 'I' := by
      rintro rfl
      exact absurd hc (by decide)
    rw [text, hct]
    exact Json.readValue_skip_of_number (.inl ⟨rfl, by simpa using hI⟩)
  | false =>
    rw [text, hct]
    exact Json.readValue_skip_of_number (.inr hc)

/-- Floats written with a point, and with a digit after it. -/
def pointed : FloatText where
  value := FloatText.decimal.value
  repr
    | .finite negative n e =>
      if e < 0 then text negative (-e).toNat n else text negative 1 (n * 10 ^ (e.toNat + 1))
    | d => d.toText

theorem readsBefore_pointed (hplaces : 0 < places) (negative : Bool) :
    Json.ReadsBefore pointed (.float (.finite negative n (-places))) := by
  intro fuel rest _ hrest
  have hrepr : pointed.repr (.finite negative n (-places)) = text negative places n := by
    show (if (-places : ℤ) < 0 then text negative (- -(places : ℤ)).toNat n else _) = _
    rw [if_pos (by omega), neg_neg, Int.toNat_natCast]
  have hvalue : pointed.value = FloatText.decimal.value := rfl
  rw [Json.dumps, hrepr]
  exact readValue_text hvalue hplaces negative hrest

end FixedPoint
