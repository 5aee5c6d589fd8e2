import MultiAgentTrading.Lib.Rounding
import Mathlib.Algebra.Ring.Subring.Defs
import Mathlib.Tactic.Ring

/-!
# Decimal numbers and their text

A decimal number is a sign, a coefficient and a power of ten, or it is infinite or not a number.  `toText` is its
scientific string and `parse` reads a numeric string: blanks around it and underscores do not count, and a number may
have a point and an exponent.  `parse_toText` is the round trip; it keeps the exponent and the sign of zero.  The
values of the finite numbers are the ring `decimals`, which rounding to a decimal unit does not leave.
-/

/-- A decimal floating-point number. -/
inductive Decimal
  | finite (negative : Bool) (coefficient : ℕ) (exponent : ℤ)
  | infinity (negative : Bool)
  | nan (negative signaling : Bool) (payload : ℕ)
  deriving DecidableEq

namespace Decimal

/-- A signaling NaN, which most operations raise on. -/
def isSignaling : Decimal → Bool
  | .nan _ signaling _ => signaling
  | _ => false

/-! ### Text -/

def signText (negative : Bool) : List Char := if negative then ['-'] else []

/-- The exponent after the digits, if it is not zero. -/
def exponentText (e : ℤ) : List Char :=
  if e = 0 then [] else 'E' :: (if e < 0 then '-' else '+') :: Nat.toDigits 10 e.natAbs

/-- The digits with the point after `dotPlace` of them, as what stands before the point and what stands from it on. -/
def pointed (digits : List Char) (dotPlace : ℤ) : List Char × List Char :=
  if dotPlace ≤ 0 then (['0'], '.' :: (List.replicate (-dotPlace).toNat '0' ++ digits))
  else if digits.length ≤ dotPlace then (digits ++ List.replicate (dotPlace - digits.length).toNat '0', [])
  else (digits.take dotPlace.toNat, '.' :: digits.drop dotPlace.toNat)

/-- Where the point stands: scientific notation for positive exponents and for very small numbers. -/
def dotPlace (exponent leftDigits : ℤ) : ℤ := if exponent ≤ 0 ∧ -6 < leftDigits then leftDigits else 1

def toText : Decimal → List Char
  | .finite negative coefficient exponent =>
    let digits := Nat.toDigits 10 coefficient
    let leftDigits : ℤ := exponent + digits.length
    let place := dotPlace exponent leftDigits
    let parts := pointed digits place
    signText negative ++ (parts.1 ++ (parts.2 ++ exponentText (leftDigits - place)))
  | .infinity negative => signText negative ++ ['I', 'n', 'f', 'i', 'n', 'i', 't', 'y']
  | .nan negative signaling payload =>
    signText negative ++ ((if signaling then ['s'] else []) ++ (['N', 'a', 'N'] ++
      if payload = 0 then [] else Nat.toDigits 10 payload))

/-! ### Reading -/

def isBlank (c : Char) : Bool :=
  let n := c.toNat
  (9 ≤ n && n ≤ 13) || (28 ≤ n && n ≤ 32) || n = 0x85 || n = 0xa0 || n = 0x1680 || (0x2000 ≤ n && n ≤ 0x200a) ||
    n = 0x2028 || n = 0x2029 || n = 0x202f || n = 0x205f || n = 0x3000

/-- The text without the blanks around it and without underscores. -/
def clean (t : List Char) : List Char :=
  (((t.dropWhile isBlank).reverse.dropWhile isBlank).reverse).filter fun c => c ≠ '_'

def natOf (digits : List Char) : ℕ := Nat.ofDigitChars 10 digits 0

/-- A run of digits, none for any other text. -/
def digits? (t : List Char) : Option ℕ := if t.all Char.isDigit then some (natOf t) else none

/-- An exponent: a sign if any, and at least one digit. -/
def exponent? : List Char → Option ℤ
  | '-' :: t => if t = [] then none else (digits? t).map fun n : ℕ => -(n : ℤ)
  | '+' :: t => if t = [] then none else (digits? t).map fun n : ℕ => (n : ℤ)
  | t => if t = [] then none else (digits? t).map fun n : ℕ => (n : ℤ)

/-- The digits after the point, if there is one, and what is left. -/
def fraction : List Char → List Char × List Char
  | '.' :: t => (t.takeWhile Char.isDigit, t.dropWhile Char.isDigit)
  | t => ([], t)

def parseFinite (negative : Bool) (t : List Char) : Option Decimal :=
  let int := t.takeWhile Char.isDigit
  let frac := (fraction (t.dropWhile Char.isDigit)).1
  let number (exponent : ℤ) : Decimal := .finite negative (natOf (int ++ frac)) (exponent - frac.length)
  if int = [] ∧ frac = [] then none
  else
    match (fraction (t.dropWhile Char.isDigit)).2 with
    | [] => some (number 0)
    | c :: t => if c = 'E' ∨ c = 'e' then (exponent? t).map number else none

/-- An infinity or a NaN, in any case of letters. -/
def parseSpecial (negative : Bool) (t : List Char) : Option Decimal :=
  match t.map Char.toLower with
  | ['i', 'n', 'f'] => some (.infinity negative)
  | ['i', 'n', 'f', 'i', 'n', 'i', 't', 'y'] => some (.infinity negative)
  | 'n' :: 'a' :: 'n' :: payload => (digits? payload).map (.nan negative false)
  | 's' :: 'n' :: 'a' :: 'n' :: payload => (digits? payload).map (.nan negative true)
  | _ => none

def parseUnsigned (negative : Bool) : List Char → Option Decimal
  | [] => none
  | c :: t => if c.isDigit ∨ c = '.' then parseFinite negative (c :: t) else parseSpecial negative (c :: t)

def parse (t : List Char) : Option Decimal :=
  match clean t with
  | '-' :: t => parseUnsigned true t
  | '+' :: t => parseUnsigned false t
  | t => parseUnsigned false t

/-! ### The round trip -/

/-- Letters and digits of numbers: what is neither blank nor an underscore. -/
private def Plain (c : Char) : Prop := isBlank c = false ∧ c ≠ '_'

private instance (c : Char) : Decidable (Plain c) := inferInstanceAs (Decidable (_ ∧ _))

private theorem plain_of_isDigit {c : Char} (h : c.isDigit = true) : Plain c := by
  simp only [Char.isDigit, Bool.and_eq_true, decide_eq_true_eq, UInt32.le_iff_toNat_le] at h
  have hlow : 48 ≤ c.toNat := h.1
  have hhigh : c.toNat ≤ 57 := h.2
  constructor
  · unfold isBlank
    simp only [Bool.or_eq_false_iff, Bool.and_eq_false_iff, decide_eq_false_iff_not]
    omega
  · rintro rfl
    exact absurd hhigh (by decide)

private theorem clean_eq {t : List Char} (h : ∀ c ∈ t, Plain c) : clean t = t := by
  have hdrop : ∀ l : List Char, (∀ c ∈ l, Plain c) → l.dropWhile isBlank = l := by
    intro l hl
    cases l with
    | nil => rfl
    | cons c l => rw [List.dropWhile_cons_of_neg (by simp [(hl c List.mem_cons_self).1])]
  unfold clean
  rw [hdrop t h, hdrop t.reverse (fun c hc => h c (List.mem_reverse.1 hc)), List.reverse_reverse]
  exact List.filter_eq_self.2 fun c hc => decide_eq_true (h c hc).2

private theorem isDigit_of_mem_toDigits {n : ℕ} {c : Char} (h : c ∈ Nat.toDigits 10 n) : c.isDigit = true :=
  Nat.isDigit_of_mem_toDigits (by decide) (by decide) h

private theorem natOf_toDigits (n : ℕ) : natOf (Nat.toDigits 10 n) = n := Nat.ofDigitChars_ten_toDigits

/-- Leading zeros do not count. -/
private theorem natOf_replicate_append (k : ℕ) (digits : List Char) :
    natOf (List.replicate k '0' ++ digits) = natOf digits := by
  unfold natOf
  rw [Nat.ofDigitChars_append, Nat.ofDigitChars_replicate_zero, Nat.mul_zero]

private theorem digits?_toDigits (n : ℕ) : digits? (Nat.toDigits 10 n) = some n := by
  unfold digits?
  rw [if_pos (List.all_eq_true.2 fun c hc => isDigit_of_mem_toDigits hc), natOf_toDigits]

/-- A run of digits ends where something else begins. -/
private theorem span_digits {digits rest : List Char} (hdigits : ∀ c ∈ digits, c.isDigit = true)
    (hrest : ∀ c ∈ rest.head?, c.isDigit = false) :
    (digits ++ rest).takeWhile Char.isDigit = digits ∧ (digits ++ rest).dropWhile Char.isDigit = rest := by
  have htail : rest.takeWhile Char.isDigit = [] ∧ rest.dropWhile Char.isDigit = rest := by
    cases rest with
    | nil => exact ⟨rfl, rfl⟩
    | cons c rest =>
      have hc : ¬ c.isDigit = true := by rw [hrest c rfl]; decide
      exact ⟨List.takeWhile_cons_of_neg hc, List.dropWhile_cons_of_neg hc⟩
  rw [List.takeWhile_append_of_pos hdigits, List.dropWhile_append_of_pos hdigits, htail.1, htail.2, List.append_nil]
  exact ⟨rfl, rfl⟩

private theorem exponent?_toDigits (e : ℤ) :
    exponent? ((if e < 0 then '-' else '+') :: Nat.toDigits 10 e.natAbs) = some e := by
  have hne : Nat.toDigits 10 e.natAbs ≠ [] := Nat.toDigits_ne_nil
  by_cases he : e < 0
  · rw [if_pos he, exponent?, if_neg hne, digits?_toDigits, Option.map_some, Int.natCast_natAbs, abs_of_neg he, neg_neg]
  · rw [if_neg he, exponent?, if_neg hne, digits?_toDigits, Option.map_some, Int.natCast_natAbs,
      abs_of_nonneg (not_lt.1 he)]

/-- What follows the digits: nothing, or an exponent. -/
private theorem head_exponentText (e : ℤ) : ∀ c ∈ (exponentText e).head?, c.isDigit = false := by
  unfold exponentText
  split
  · intro c hc
    cases hc
  · intro c hc
    cases hc
    decide

private theorem plain_of_mem_exponentText {e : ℤ} {c : Char} (h : c ∈ exponentText e) : Plain c := by
  unfold exponentText at h
  split at h
  case isTrue => exact absurd h List.not_mem_nil
  case isFalse =>
    rcases List.mem_cons.1 h with rfl | h
    · exact ⟨by decide, by decide⟩
    · rcases List.mem_cons.1 h with rfl | h
      · split
        · exact ⟨by decide, by decide⟩
        · exact ⟨by decide, by decide⟩
      · exact plain_of_isDigit (isDigit_of_mem_toDigits h)

/-- Digits, perhaps a point with more digits, and an exponent are read as the number they write. -/
private theorem parseFinite_parts (negative : Bool) {int frac : List Char} (e : ℤ)
    (hint : ∀ c ∈ int, c.isDigit = true) (hfrac : ∀ c ∈ frac, c.isDigit = true) (hne : int ≠ []) (point : Bool)
    (hpoint : point = false → frac = []) :
    parseFinite negative (int ++ ((if point then '.' :: frac else []) ++ exponentText e)) =
      some (.finite negative (natOf (int ++ frac)) (e - frac.length)) := by
  have hexponent := head_exponentText e
  have hrest : ∀ c ∈ ((if point then '.' :: frac else []) ++ exponentText e).head?, c.isDigit = false := by
    cases point with
    | false => exact hexponent
    | true =>
      intro c hc
      cases hc
      decide
  obtain ⟨htake, hdrop⟩ := span_digits hint hrest
  obtain ⟨hfracTake, hfracDrop⟩ := span_digits hfrac hexponent
  have hafter : fraction ((if point then '.' :: frac else []) ++ exponentText e) = (frac, exponentText e) := by
    cases point with
    | true =>
      show ((frac ++ exponentText e).takeWhile Char.isDigit, (frac ++ exponentText e).dropWhile Char.isDigit) = _
      rw [hfracTake, hfracDrop]
    | false =>
      rw [hpoint rfl]
      unfold exponentText
      by_cases he : e = 0
      · rw [if_pos he]
        rfl
      · rw [if_neg he]
        rfl
  unfold parseFinite
  rw [htake, hdrop, hafter]
  dsimp only
  rw [if_neg fun h => hne h.1]
  by_cases he : e = 0
  · rw [exponentText, if_pos he, he]
  · rw [exponentText, if_neg he]
    dsimp only
    rw [if_pos (.inl rfl), exponent?_toDigits, Option.map_some]

/-- Pointing digits at a place up to their end keeps the number they write; what stands after the point is as long as
the distance to the end. -/
private theorem pointed_spec {digits : List Char} {place : ℤ} (hdigits : ∀ c ∈ digits, c.isDigit = true)
    (hne : digits ≠ []) (hplace : place ≤ digits.length) :
    ∃ int frac point, pointed digits place = (int, if point then '.' :: frac else []) ∧
      (∀ c ∈ int, c.isDigit = true) ∧ (∀ c ∈ frac, c.isDigit = true) ∧ int ≠ [] ∧ (point = false → frac = []) ∧
      natOf (int ++ frac) = natOf digits ∧ (frac.length : ℤ) = digits.length - place := by
  have hzeros : ∀ k, ∀ c ∈ List.replicate k '0', c.isDigit = true := by
    intro k c hc
    rw [(List.mem_replicate.1 hc).2]
    decide
  unfold pointed
  by_cases hlow : place ≤ 0
  · rw [if_pos hlow]
    refine ⟨['0'], List.replicate (-place).toNat '0' ++ digits, true, rfl, hzeros 1, ?_, by simp, by simp, ?_, ?_⟩
    · intro c hc
      rcases List.mem_append.1 hc with hc | hc
      · exact hzeros _ c hc
      · exact hdigits c hc
    · rw [show ['0'] = List.replicate 1 '0' from rfl, natOf_replicate_append, natOf_replicate_append]
    · rw [List.length_append, List.length_replicate]
      omega
  · rw [if_neg hlow]
    by_cases hend : (digits.length : ℤ) ≤ place
    · have hsame : (place - digits.length).toNat = 0 := by omega
      rw [if_pos hend, hsame, List.replicate_zero, List.append_nil]
      refine ⟨digits, [], false, rfl, hdigits, by simp, hne, fun _ => rfl, by rw [List.append_nil], ?_⟩
      rw [List.length_nil]
      omega
    · rw [if_neg hend]
      refine ⟨digits.take place.toNat, digits.drop place.toNat, true, rfl, ?_, ?_, ?_, by simp, ?_, ?_⟩
      · exact fun c hc => hdigits c (List.mem_of_mem_take hc)
      · exact fun c hc => hdigits c (List.mem_of_mem_drop hc)
      · have hlength : (digits.take place.toNat).length ≠ 0 := by
          rw [List.length_take]
          omega
        exact fun h => hlength (by rw [h]; rfl)
      · rw [List.take_append_drop]
      · rw [List.length_drop]
        omega

/-- The unsigned text of a finite number: it begins with a digit, has no blank, and is read back. -/
private theorem finite_text (negative : Bool) (coefficient : ℕ) (exponent : ℤ) :
    ∃ c t, (Decimal.finite negative coefficient exponent).toText = signText negative ++ c :: t ∧ c.isDigit = true ∧
      (∀ x ∈ c :: t, Plain x) ∧ parseFinite negative (c :: t) = some (.finite negative coefficient exponent) := by
  have hdigits : ∀ c ∈ Nat.toDigits 10 coefficient, c.isDigit = true := fun c hc => isDigit_of_mem_toDigits hc
  have hne : Nat.toDigits 10 coefficient ≠ [] := Nat.toDigits_ne_nil
  have hlength : 0 < (Nat.toDigits 10 coefficient).length := List.length_pos_iff.2 hne
  obtain ⟨place, hplaceEq⟩ : ∃ place, dotPlace exponent (exponent + (Nat.toDigits 10 coefficient).length) = place :=
    ⟨_, rfl⟩
  have hplace : place ≤ (Nat.toDigits 10 coefficient).length := by
    rw [← hplaceEq, dotPlace]
    split <;> omega
  obtain ⟨int, frac, point, hparts, hint, hfrac, hnil, hpoint, hvalue, hfracLength⟩ :=
    pointed_spec hdigits hne hplace
  obtain ⟨e, he⟩ : ∃ e, exponent + ((Nat.toDigits 10 coefficient).length : ℤ) - place = e := ⟨_, rfl⟩
  have htext : (Decimal.finite negative coefficient exponent).toText =
      signText negative ++ (int ++ ((if point then '.' :: frac else []) ++ exponentText e)) := by
    simp only [toText]
    rw [hplaceEq, hparts, he]
  have hread := parseFinite_parts negative e hint hfrac hnil point hpoint
  rw [hvalue, natOf_toDigits, hfracLength, ← he, show exponent + ((Nat.toDigits 10 coefficient).length : ℤ) - place -
    ((Nat.toDigits 10 coefficient).length - place) = exponent by omega, he] at hread
  have hplain : ∀ x ∈ int ++ ((if point then '.' :: frac else []) ++ exponentText e), Plain x := by
    intro x hx
    rcases List.mem_append.1 hx with hx | hx
    · exact plain_of_isDigit (hint x hx)
    · rcases List.mem_append.1 hx with hx | hx
      · cases point with
        | false => exact absurd hx List.not_mem_nil
        | true =>
          rcases List.mem_cons.1 hx with rfl | hx
          · exact ⟨by decide, by decide⟩
          · exact plain_of_isDigit (hfrac x hx)
      · exact plain_of_mem_exponentText hx
  cases int with
  | nil => exact absurd rfl hnil
  | cons c int => exact ⟨c, _, htext, hint c List.mem_cons_self, hplain, hread⟩

private theorem plain_of_mem_signText {negative : Bool} {c : Char} (h : c ∈ signText negative) : Plain c := by
  cases negative with
  | false => exact absurd h List.not_mem_nil
  | true =>
    obtain rfl := List.mem_singleton.1 h
    exact ⟨by decide, by decide⟩

/-- A sign in front of a text that begins with none. -/
private theorem parse_signed {negative : Bool} {c : Char} {t : List Char} (hplain : ∀ x ∈ c :: t, Plain x)
    (hc : c ≠ '-' ∧ c ≠ '+') : parse (signText negative ++ c :: t) = parseUnsigned negative (c :: t) := by
  have hclean : clean (signText negative ++ c :: t) = signText negative ++ c :: t :=
    clean_eq fun x hx => (List.mem_append.1 hx).elim plain_of_mem_signText (hplain x)
  unfold parse
  rw [hclean]
  cases negative with
  | true => rfl
  | false =>
    show (match c :: t with
      | '-' :: t => parseUnsigned true t
      | '+' :: t => parseUnsigned false t
      | t => parseUnsigned false t) = _
    split
    case h_1 h => exact absurd (List.cons.inj h).1 hc.1
    case h_2 h => exact absurd (List.cons.inj h).1 hc.2
    case h_3 => rfl

private theorem digits?_payload (payload : ℕ) :
    digits? ((if payload = 0 then [] else Nat.toDigits 10 payload).map Char.toLower) = some payload := by
  have hlower : ∀ c : Char, c.isDigit = true → c.toLower = c := by
    intro c hc
    simp only [Char.isDigit, Bool.and_eq_true, decide_eq_true_eq, UInt32.le_iff_toNat_le] at hc
    have hhigh : c.toNat ≤ 57 := hc.2
    unfold Char.toLower
    rw [dif_neg]
    rintro ⟨hle, -⟩
    have : 65 ≤ c.toNat := by simpa [UInt32.le_iff_toNat_le] using hle
    omega
  split
  case isTrue h =>
    rw [h]
    rfl
  case isFalse =>
    rw [List.map_congr_left fun c hc => hlower c (isDigit_of_mem_toDigits hc), List.map_id'', digits?_toDigits]
    exact fun c => rfl

/-- A number is read back from its text, with its exponent and the sign of zero. -/
theorem parse_toText (d : Decimal) : parse d.toText = some d := by
  cases d with
  | finite negative coefficient exponent =>
    obtain ⟨c, t, htext, hc, hplain, hread⟩ := finite_text negative coefficient exponent
    have hsign : c ≠ '-' ∧ c ≠ '+' := by
      constructor <;> rintro rfl <;> exact absurd hc (by decide)
    rw [htext, parse_signed hplain hsign, parseUnsigned, if_pos (.inl hc), hread]
  | infinity negative =>
    have hplain : ∀ c ∈ ['I', 'n', 'f', 'i', 'n', 'i', 't', 'y'], Plain c := by
      simp only [List.forall_mem_cons]
      exact ⟨by decide, by decide, by decide, by decide, by decide, by decide, by decide, by decide,
        fun _ h => absurd h List.not_mem_nil⟩
    rw [toText, parse_signed hplain (by decide)]
    rfl
  | nan negative signaling payload =>
    have hpayload : ∀ c ∈ (if payload = 0 then [] else Nat.toDigits 10 payload), Plain c := by
      intro c hc
      split at hc
      · exact absurd hc List.not_mem_nil
      · exact plain_of_isDigit (isDigit_of_mem_toDigits hc)
    cases signaling with
    | false =>
      have hplain : ∀ c ∈ 'N' :: 'a' :: 'N' :: (if payload = 0 then [] else Nat.toDigits 10 payload), Plain c := by
        simp only [List.forall_mem_cons]
        exact ⟨by decide, by decide, by decide, hpayload⟩
      refine (parse_signed hplain (by decide)).trans ?_
      show Option.map _ (digits? _) = _
      rw [digits?_payload]
      rfl
    | true =>
      have hplain : ∀ c ∈ 's' :: 'N' :: 'a' :: 'N' :: (if payload = 0 then [] else Nat.toDigits 10 payload),
          Plain c := by
        simp only [List.forall_mem_cons]
        exact ⟨by decide, by decide, by decide, by decide, hpayload⟩
      refine (parse_signed hplain (by decide)).trans ?_
      show Option.map _ (digits? _) = _
      rw [digits?_payload]
      rfl

/-- Digits with a point between them are read as the number they write. -/
theorem parse_point (negative : Bool) {int frac : List Char} (hint : ∀ c ∈ int, c.isDigit = true)
    (hfrac : ∀ c ∈ frac, c.isDigit = true) (hne : int ≠ []) :
    parse (signText negative ++ (int ++ '.' :: frac)) =
      some (.finite negative (natOf (int ++ frac)) (-frac.length)) := by
  have hread : parseFinite negative (int ++ '.' :: frac) =
      some (.finite negative (natOf (int ++ frac)) (-frac.length)) := by
    have hparts := parseFinite_parts negative 0 hint hfrac hne true (by simp)
    rwa [show exponentText 0 = [] from rfl, if_pos rfl, List.append_nil, zero_sub] at hparts
  have hplain : ∀ c ∈ int ++ '.' :: frac, Plain c := by
    intro c hc
    rcases List.mem_append.1 hc with hc | hc
    · exact plain_of_isDigit (hint c hc)
    · rcases List.mem_cons.1 hc with rfl | hc
      · exact ⟨by decide, by decide⟩
      · exact plain_of_isDigit (hfrac c hc)
  cases int with
  | nil => exact absurd rfl hne
  | cons c int =>
    have hc : c.isDigit = true := hint c List.mem_cons_self
    have hsign : c ≠ '-' ∧ c ≠ '+' := by
      constructor <;> (rintro rfl; exact absurd hc (by decide))
    rw [List.cons_append] at hplain hread ⊢
    rw [parse_signed hplain hsign, parseUnsigned, if_pos (.inl hc), hread]

example : parse "  -1_0.50e+3 ".toList = some (.finite true 1050 1) := by decide
example : (finite true 1050 1).toText = "-1.050E+4".toList := by decide

/-! ### Values -/

/-- The value of a finite number. -/
def toRat : Decimal → Option ℚ
  | .finite negative coefficient exponent =>
    some ((if negative then -(coefficient : ℚ) else coefficient) * 10 ^ exponent)
  | _ => none

/-- The rational numbers that have finitely many decimal digits. -/
def decimals : Subring ℚ where
  carrier := {q | ∃ (n : ℤ) (k : ℕ), q * 10 ^ k = n}
  zero_mem' := ⟨0, 0, by simp⟩
  one_mem' := ⟨1, 0, by simp⟩
  add_mem' := by
    rintro p q ⟨n, k, hp⟩ ⟨m, l, hq⟩
    refine ⟨n * 10 ^ l + m * 10 ^ k, k + l, ?_⟩
    push_cast
    rw [← hp, ← hq]
    ring
  mul_mem' := by
    rintro p q ⟨n, k, hp⟩ ⟨m, l, hq⟩
    refine ⟨n * m, k + l, ?_⟩
    push_cast
    rw [← hp, ← hq]
    ring
  neg_mem' := by
    rintro q ⟨n, k, hq⟩
    exact ⟨-n, k, by push_cast; rw [← hq]; ring⟩

/-- The rational numbers with finitely many digits are the values of the decimal numbers. -/
theorem mem_decimals_iff_toRat {q : ℚ} : q ∈ decimals ↔ ∃ d : Decimal, d.toRat = some q := by
  have hten : (10 : ℚ) ≠ 0 := by norm_num
  constructor
  · rintro ⟨n, k, hq⟩
    refine ⟨.finite (decide (n < 0)) n.natAbs (-k), ?_⟩
    have hsign : (if decide (n < 0) then -((n.natAbs : ℕ) : ℚ) else (n.natAbs : ℕ)) = n := by
      rw [Nat.cast_natAbs]
      by_cases hn : n < 0
      · rw [if_pos (decide_eq_true hn), abs_of_neg hn]
        push_cast
        ring
      · rw [if_neg (by simpa using hn), abs_of_nonneg (not_lt.1 hn)]
    rw [toRat, hsign, ← hq, zpow_neg, zpow_natCast, mul_inv_cancel_right₀ (pow_ne_zero k hten)]
  · rintro ⟨d, hd⟩
    cases d with
    | finite negative coefficient exponent =>
      obtain rfl := Option.some.inj hd
      refine ⟨(if negative then -(coefficient : ℤ) else coefficient) * 10 ^ exponent.toNat, (-exponent).toNat, ?_⟩
      have hpow : (10 : ℚ) ^ exponent * 10 ^ (-exponent).toNat = 10 ^ exponent.toNat := by
        rw [← zpow_natCast, ← zpow_natCast, ← zpow_add₀ hten]
        congr 1
        omega
      rw [mul_assoc, hpow]
      cases negative <;> simp
    | infinity negative => cases hd
    | nan negative signaling payload => cases hd

theorem quantizeDown_mem_decimals {u : ℚ} (hu : u ∈ decimals) (x : ℚ) : Rounding.quantizeDown u x ∈ decimals :=
  mul_mem (intCast_mem _ _) hu

end Decimal
