import Mathlib.Data.List.Basic

/-!
# Substring search

`find? needle l` is where a list first occurs in another, and `after? needle l` what follows it there.  In a text whose
marks are known, as the quotes of a document are, a needle between two marks is only found between two neighbouring
marks: the search goes from segment to segment (`after?_marked`), and what is searched for in a document can be decided
by its segments.
-/

namespace Scan

variable {α : Type*} [DecidableEq α]

/-- The position of the first occurrence. -/
def find? (needle : List α) : List α → Option ℕ
  | [] => if needle = [] then some 0 else none
  | x :: l => if needle <+: x :: l then some 0 else (find? needle l).map (· + 1)

/-- What follows the first occurrence. -/
def after? (needle l : List α) : Option (List α) := (find? needle l).map fun i => l.drop (i + needle.length)

theorem find?_of_prefix {needle l : List α} (h : needle <+: l) : find? needle l = some 0 := by
  cases l with
  | nil => exact if_pos (List.prefix_nil.1 h)
  | cons x l => exact if_pos h

theorem after?_append (needle rest : List α) : after? needle (needle ++ rest) = some rest := by
  rw [after?, find?_of_prefix (List.prefix_append needle rest), Option.map_some, Nat.zero_add, List.drop_left]

theorem after?_nil {needle : List α} (h : needle ≠ []) : after? needle [] = none := by
  rw [after?, find?, if_neg h, Option.map_none]

/-- Where the needle does not begin the search goes on. -/
theorem after?_cons {needle : List α} {x : α} {l : List α} (h : ¬needle <+: x :: l) :
    after? needle (x :: l) = after? needle l := by
  rw [after?, find?, if_neg h, after?]
  cases find? needle l with
  | none => rfl
  | some i => rw [Option.map_some, Option.map_some, Option.map_some, Nat.add_right_comm, List.drop_succ_cons]

/-- What does not contain the first element of the needle is passed over. -/
theorem after?_append_of_not_mem {mark : α} {needle : List α} {l : List α} (h : mark ∉ l) (rest : List α) :
    after? (mark :: needle) (l ++ rest) = after? (mark :: needle) rest := by
  induction l with
  | nil => rfl
  | cons x l ih =>
    rw [List.mem_cons, not_or] at h
    rw [List.cons_append, after?_cons, ih h.2]
    exact fun hstarts => h.1 (List.cons_prefix_cons.1 hstarts).1

/-- The first mark is where what precedes it ends. -/
theorem find?_mark {mark : α} {l : List α} (h : mark ∉ l) (rest : List α) :
    find? [mark] (l ++ mark :: rest) = some l.length := by
  induction l with
  | nil => exact find?_of_prefix ⟨rest, rfl⟩
  | cons x l ih =>
    rw [List.mem_cons, not_or] at h
    rw [List.cons_append, find?, if_neg, ih h.2, Option.map_some, List.length_cons]
    exact fun hstarts => h.1 (List.cons_prefix_cons.1 hstarts).1

omit [DecidableEq α] in
/-- Two lists that agree up to a mark that neither has before. -/
theorem prefix_mark_iff {mark : α} {key l : List α} (hkey : mark ∉ key) (hl : mark ∉ l) (needle rest : List α) :
    key ++ mark :: needle <+: l ++ mark :: rest ↔ key = l ∧ needle <+: rest := by
  induction key generalizing l with
  | nil =>
    cases l with
    | nil => simp
    | cons x l =>
      rw [List.mem_cons, not_or] at hl
      simp [hl.1]
  | cons y key ih =>
    rw [List.mem_cons, not_or] at hkey
    cases l with
    | nil => simp [Ne.symm hkey.1]
    | cons x l =>
      rw [List.mem_cons, not_or] at hl
      rw [List.cons_append, List.cons_append, List.cons_prefix_cons, ih hkey.2 hl.2, List.cons.injEq, and_assoc]

/-! ### Segments between marks -/

/-- Every segment after a mark. -/
def marked (mark : α) (segments : List (List α)) : List α := segments.flatMap fun s => mark :: s

omit [DecidableEq α] in
@[simp] theorem marked_nil (mark : α) : marked mark [] = [] := rfl

omit [DecidableEq α] in
theorem marked_cons (mark : α) (s : List α) (segments : List (List α)) :
    marked mark (s :: segments) = mark :: (s ++ marked mark segments) := rfl

/-- Search for a segment whose next segment begins with `x`, and give what follows that `x`. -/
def scan (mark x : α) (key : List α) : List (List α) → Option (List α)
  | s :: t :: rest =>
    if s = key ∧ t.head? = some x then some (t.tail ++ marked mark rest) else scan mark x key (t :: rest)
  | _ => none

theorem scan_hit {mark x : α} {s : List α} (t : List α) (rest : List (List α)) :
    scan mark x s (s :: (x :: t) :: rest) = some (t ++ marked mark rest) := if_pos ⟨rfl, rfl⟩

/-- A segment is passed over if it is another, or if the next one does not begin with `x`. -/
theorem scan_miss {mark x : α} {key s : List α} {rest : List (List α)}
    (h : s = key → ∀ t, rest.head? = some t → t.head? ≠ some x) :
    scan mark x key (s :: rest) = scan mark x key rest := by
  cases rest with
  | nil => rfl
  | cons t rest => exact if_neg fun hfound => h hfound.1 t rfl hfound.2

omit [DecidableEq α] in
/-- The first element after a mark is in the segment there. -/
private theorem singleton_prefix_iff {mark x : α} (hx : x ≠ mark) (t : List α) (rest : List (List α)) :
    [x] <+: t ++ marked mark rest ↔ t.head? = some x := by
  cases t with
  | nil =>
    cases rest with
    | nil => simp
    | cons u rest => simp [marked_cons, hx]
  | cons y t => simp [eq_comm]

/-- A needle between two marks, and what it ends with, is searched for segment by segment. -/
theorem after?_marked {mark x : α} (hx : x ≠ mark) {key : List α} (hkey : mark ∉ key) {segments : List (List α)}
    (h : ∀ s ∈ segments, mark ∉ s) :
    after? (mark :: (key ++ [mark, x])) (marked mark segments) = scan mark x key segments := by
  induction segments with
  | nil => exact after?_nil (List.cons_ne_nil _ _)
  | cons s segments ih =>
    obtain ⟨hs, hrest⟩ := List.forall_mem_cons.1 h
    have hnext : ¬mark :: (key ++ [mark, x]) <+: marked mark (s :: segments) →
        after? (mark :: (key ++ [mark, x])) (marked mark (s :: segments)) = scan mark x key segments := by
      intro hno
      rw [marked_cons] at hno ⊢
      rw [after?_cons hno, after?_append_of_not_mem hs]
      exact ih hrest
    cases segments with
    | nil =>
      refine (hnext fun hstarts => ?_).trans rfl
      rw [marked_cons, marked_nil, List.append_nil] at hstarts
      have htail := (List.cons_prefix_cons.1 hstarts).2
      exact hs (htail.subset (List.mem_append_right _ List.mem_cons_self))
    | cons t rest =>
      have hiff : mark :: (key ++ [mark, x]) <+: marked mark (s :: t :: rest) ↔ s = key ∧ t.head? = some x := by
        rw [marked_cons, marked_cons, List.cons_prefix_cons, prefix_mark_iff hkey hs [x], singleton_prefix_iff hx,
          eq_comm (a := key)]
        exact and_iff_right rfl
      by_cases hfound : s = key ∧ t.head? = some x
      · obtain ⟨rfl, ht⟩ := hfound
        have hsplit : marked mark (s :: t :: rest) = mark :: (s ++ [mark, x]) ++ (t.tail ++ marked mark rest) := by
          rw [marked_cons, marked_cons, ← List.cons_head?_tail ht]
          simp
        rw [hsplit, after?_append, scan, if_pos ⟨rfl, ht⟩]
      · rw [hnext (mt hiff.1 hfound), scan, if_neg hfound]

end Scan
