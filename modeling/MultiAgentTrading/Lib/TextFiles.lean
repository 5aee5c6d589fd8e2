import MultiAgentTrading.Lib.Json
import Mathlib.Data.List.DropRight

/-!
# Text files and numbered names

What a text file gives when it is read: `universalNewlines` turns every way to end a line into a line feed, and `strip`
drops the blanks at both ends.  Both keep beginnings, so what has been written of a text is read as a beginning of what
the whole text is read as (`readBack_begins`).

A number at the end of a name is told from what precedes it by a mark that is not a digit (`append_mark_inj`), and the
digits of a number do not begin those of its successor (`not_toDigits_prefix_succ`).
-/

namespace TextFiles

/-! ### Reading -/

/-- Line ends as they are read: `\r` and `\r\n` stand for `\n`. -/
def newlinesFrom (afterReturn : Bool) : Text → Text
  | [] => []
  | c :: t =>
    if c = '\r' then '\n' :: newlinesFrom true t
    else if c = '\n' ∧ afterReturn then newlinesFrom false t
    else c :: newlinesFrom false t

def universalNewlines (t : Text) : Text := newlinesFrom false t

def strip (t : Text) : Text := (t.dropWhile Decimal.isBlank).rdropWhile Decimal.isBlank

/-- The text of a file, without the blanks around it. -/
def readBack (t : Text) : Text := strip (universalNewlines t)

private theorem newlinesFrom_begins {t l : Text} (h : t <+: l) (afterReturn : Bool) :
    newlinesFrom afterReturn t <+: newlinesFrom afterReturn l := by
  induction t generalizing l afterReturn with
  | nil => exact List.nil_prefix
  | cons c t ih =>
    obtain ⟨rest, rfl⟩ := h
    have htail : t <+: t ++ rest := List.prefix_append t rest
    rw [List.cons_append, newlinesFrom, newlinesFrom]
    split
    · exact List.cons_prefix_cons.2 ⟨rfl, ih htail true⟩
    · split
      · exact ih htail false
      · exact List.cons_prefix_cons.2 ⟨rfl, ih htail false⟩

private theorem newlinesFrom_append {a b : Text} (hb : b.head? ≠ some '\n') (afterReturn : Bool) :
    newlinesFrom afterReturn (a ++ b) = newlinesFrom afterReturn a ++ newlinesFrom false b := by
  induction a generalizing afterReturn with
  | nil =>
    cases b with
    | nil => rfl
    | cons c b =>
      have hc : c ≠ '\n' := fun h => hb (congrArg some h)
      simp only [List.nil_append, newlinesFrom, hc, false_and, if_false]
  | cons c a ih =>
    rw [List.cons_append, newlinesFrom, newlinesFrom]
    split
    · rw [ih true, List.cons_append]
    · split
      · exact ih false
      · rw [ih false, List.cons_append]

/-- What begins a text is read as a beginning of what the text is read as. -/
theorem universalNewlines_begins {t l : Text} (h : t <+: l) : universalNewlines t <+: universalNewlines l :=
  newlinesFrom_begins h false

theorem universalNewlines_append {a b : Text} (hb : b.head? ≠ some '\n') :
    universalNewlines (a ++ b) = universalNewlines a ++ universalNewlines b :=
  newlinesFrom_append hb false

theorem universalNewlines_of_not_mem {t : Text} (h : '\r' ∉ t) : universalNewlines t = t := by
  induction t with
  | nil => rfl
  | cons c t ih =>
    rw [List.mem_cons, not_or] at h
    have hrest : newlinesFrom false t = t := ih h.2
    rw [universalNewlines, newlinesFrom, if_neg (Ne.symm h.1), if_neg (by simp), hrest]

theorem not_mem_universalNewlines (t : Text) : '\r' ∉ universalNewlines t := by
  have hall : ∀ afterReturn, '\r' ∉ newlinesFrom afterReturn t := by
    induction t with
    | nil => simp [newlinesFrom]
    | cons c t ih =>
      intro afterReturn
      rw [newlinesFrom]
      split
      · simp [ih true]
      case isFalse hc =>
        split
        · exact ih false
        · simp [ih false, Ne.symm hc]
  exact hall false

/-- With no blank in front, only the end of a text is stripped. -/
private theorem strip_eq_rdropWhile {c : Char} {l t : Text} (hc : Decimal.isBlank c = false) (h : t <+: c :: l) :
    strip t = t.rdropWhile Decimal.isBlank := by
  cases t with
  | nil => rfl
  | cons x t =>
    rw [strip, (List.cons_prefix_cons.1 h).1, List.dropWhile_cons_of_neg (by simp [hc])]

/-- The beginning of a text is read back as a beginning of what the text is read as. -/
theorem readBack_begins {c : Char} {l l' t : Text} (hc : Decimal.isBlank c = false)
    (hl : universalNewlines l = c :: l') (h : t <+: l) : readBack t <+: universalNewlines l := by
  have hread := universalNewlines_begins h
  rw [readBack, strip_eq_rdropWhile hc (hl ▸ hread)]
  have hstripped : (universalNewlines t).rdropWhile Decimal.isBlank <+: universalNewlines t :=
    List.rdropWhile_prefix _ _
  exact hstripped.trans hread

/-- Between characters that are not blank, nothing is stripped. -/
theorem strip_of_not_blank {c x : Char} {l : Text} (hc : Decimal.isBlank c = false) (hx : Decimal.isBlank x = false) :
    strip (c :: (l ++ [x])) = c :: (l ++ [x]) := by
  rw [strip_eq_rdropWhile hc (List.prefix_refl _), ← List.cons_append, List.rdropWhile_concat_neg _ _ _ (by simp [hx])]

/-! ### Numbered names -/

/-- The last mark of a text parts it in one way only. -/
theorem append_mark_inj {α : Type*} {mark : α} {l k r s : List α} (hr : mark ∉ r) (hs : mark ∉ s)
    (h : l ++ mark :: r = k ++ mark :: s) : l = k ∧ r = s := by
  rcases List.append_eq_append_iff.1 h with ⟨m, rfl, hm⟩ | ⟨m, rfl, hm⟩
  · cases m with
    | nil => exact ⟨(List.append_nil l).symm, (List.cons.inj hm).2⟩
    | cons x m => exact absurd ((List.cons.inj hm).2 ▸ List.mem_append_right m List.mem_cons_self) hr
  · cases m with
    | nil => exact ⟨List.append_nil k, (List.cons.inj hm).2.symm⟩
    | cons x m => exact absurd ((List.cons.inj hm).2 ▸ List.mem_append_right m List.mem_cons_self) hs

theorem isDigit_of_mem_toDigits {n : ℕ} {c : Char} (h : c ∈ Nat.toDigits 10 n) : c.isDigit = true :=
  Nat.isDigit_of_mem_toDigits (by decide) (by decide) h

theorem toDigits_injective {m n : ℕ} (h : Nat.toDigits 10 m = Nat.toDigits 10 n) : m = n := by
  rw [← Nat.ofDigitChars_ten_toDigits (n := m), h, Nat.ofDigitChars_ten_toDigits]

/-- The digits of a number do not begin those of its successor: one digit more is ten times as much. -/
theorem not_toDigits_prefix_succ {m : ℕ} (hm : 0 < m) : ¬Nat.toDigits 10 m <+: Nat.toDigits 10 (m + 1) := by
  rintro ⟨rest, hrest⟩
  have hvalue := congrArg (fun t => Nat.ofDigitChars 10 t 0) hrest
  simp only [Nat.ofDigitChars_append, Nat.ofDigitChars_ten_toDigits] at hvalue
  rw [Nat.ofDigitChars_eq_ofDigitChars_zero] at hvalue
  cases rest with
  | nil => simp at hvalue
  | cons c rest =>
    have hpow : 10 ≤ 10 ^ (c :: rest).length := by
      simpa using Nat.pow_le_pow_right (show 0 < 10 by decide) (show 1 ≤ (c :: rest).length by simp)
    have hlarge : 10 * m ≤ 10 ^ (c :: rest).length * m := Nat.mul_le_mul_right m hpow
    omega

end TextFiles
