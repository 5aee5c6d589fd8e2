import MultiAgentTrading.Lib.Dict

/-!
# Bounded memories

A memory that drops its oldest element past a cap.  As a list it is `keep n` of all that was ever appended, whatever
was dropped in between (`keep_keep_append`), and it still has every element that fewer than `n` others came after
(`mem_keep`).  `put` is the same for a dictionary that is written one new key at a time.
-/

namespace Recent

variable {α β : Type*}

/-- The newest `n` elements of a list. -/
def keep (n : ℕ) (l : List α) : List α := l.drop (l.length - n)

theorem keep_of_length_le {n : ℕ} {l : List α} (h : l.length ≤ n) : keep n l = l := by
  rw [keep, Nat.sub_eq_zero_of_le h, List.drop_zero]

theorem length_keep_le (n : ℕ) (l : List α) : (keep n l).length ≤ n := by
  rw [keep, List.length_drop]
  omega

theorem keep_subset (n : ℕ) (l : List α) : keep n l ⊆ l := List.drop_subset _ _

theorem keep_zero (l : List α) : keep 0 l = [] := List.drop_length

/-- The newest element is kept. -/
theorem getLast?_keep {n : ℕ} (h : 0 < n) (l : List α) : (keep n l).getLast? = l.getLast? := by
  rw [keep, List.getLast?_drop]
  split
  case isTrue hlen =>
    have hnil : l.length = 0 := by omega
    rw [List.eq_nil_of_length_eq_zero hnil, List.getLast?_nil]
  case isFalse => rfl

theorem map_keep (f : α → β) (n : ℕ) (l : List α) : (keep n l).map f = keep n (l.map f) := by
  rw [keep, keep, List.map_drop, List.length_map]

/-- What was dropped before would be dropped now. -/
theorem keep_keep_append (n : ℕ) (l m : List α) : keep n (keep n l ++ m) = keep n (l ++ m) := by
  have hdrop : keep n l ++ m = (l ++ m).drop (l.length - n) := by
    rw [keep, List.drop_append_of_le_length (Nat.sub_le _ _)]
  rw [hdrop, keep, keep, List.drop_drop, List.length_drop, List.length_append]
  congr 1
  omega

/-- What is older than the newest `n` does not matter. -/
theorem keep_append_of_le {n : ℕ} {l m : List α} (h : n ≤ m.length) : keep n (l ++ m) = keep n m := by
  have hdrop : (l ++ m).length - n = l.length + (m.length - n) := by
    rw [List.length_append]
    omega
  rw [keep, hdrop, List.drop_append, List.drop_of_length_le (Nat.le_add_right _ _), List.nil_append,
    Nat.add_sub_cancel_left]
  rfl

/-- What comes after takes its own room. -/
theorem keep_append {n : ℕ} (l : List α) {m : List α} (h : m.length ≤ n) :
    keep n (l ++ m) = keep (n - m.length) l ++ m := by
  have hdrop : (l ++ m).length - n = l.length - (n - m.length) := by
    rw [List.length_append]
    omega
  rw [keep, hdrop, List.drop_append_of_le_length (Nat.sub_le _ _)]
  rfl

/-- A longer memory has all that a shorter one has. -/
theorem keep_subset_keep {m n : ℕ} (h : m ≤ n) (l : List α) : keep m l ⊆ keep n l :=
  (List.drop_sublist_drop_left l (Nat.sub_le_sub_left h l.length)).subset

/-- An element is kept as long as fewer than `n` others have come after it. -/
theorem mem_keep {n : ℕ} {x : α} {before after : List α} (h : after.length < n) :
    x ∈ keep n (before ++ x :: after) := by
  have hle : (before ++ x :: after).length - n ≤ before.length := by
    rw [List.length_append, List.length_cons]
    omega
  rw [keep, List.drop_append_of_le_length hle]
  exact List.mem_append_right _ List.mem_cons_self

variable [DecidableEq α]

/-- The number of elements after the last occurrence of `x`. -/
def since (x : α) (l : List α) : ℕ := (l.reverse.takeWhile fun y => y ≠ x).length

theorem exists_since {x : α} {l : List α} (h : x ∈ l) :
    ∃ before after, l = before ++ x :: after ∧ x ∉ after ∧ since x l = after.length := by
  induction l using List.reverseRecOn with
  | nil => cases h
  | append_singleton l y ih =>
    by_cases hy : y = x
    · subst hy
      exact ⟨l, [], rfl, List.not_mem_nil, by simp [since]⟩
    · have hx : x ∈ l := by
        rcases List.mem_append.1 h with hl | hlast
        · exact hl
        · exact absurd (List.mem_singleton.1 hlast).symm hy
      obtain ⟨before, after, rfl, hnot, hcount⟩ := ih hx
      refine ⟨before, after ++ [y], by simp, ?_, ?_⟩
      · rw [List.mem_append, List.mem_singleton, not_or]
        exact ⟨hnot, Ne.symm hy⟩
      · rw [since] at hcount
        rw [since, List.reverse_append, List.reverse_singleton, List.singleton_append,
          List.takeWhile_cons_of_pos (by simpa using hy), List.length_cons, hcount, List.length_append]
        rfl

/-- An element is kept exactly as long as fewer than `n` others have come after its last occurrence. -/
theorem mem_keep_iff_since {n : ℕ} {x : α} {l : List α} (h : x ∈ l) (older : List α) :
    x ∈ keep n (older ++ l) ↔ since x l < n := by
  obtain ⟨before, after, rfl, hnot, hcount⟩ := exists_since h
  rw [hcount, ← List.append_assoc]
  constructor
  · intro hmem
    by_contra hle
    rw [List.append_cons, keep_append_of_le (not_lt.1 hle)] at hmem
    exact hnot (keep_subset n after hmem)
  · exact mem_keep

/-- Write a key, and drop the oldest one past the cap. -/
def put (n : ℕ) (d : Dict α β) (a : α) (b : β) : Dict α β :=
  if n < (d.set a b).size then (d.set a b).popFirst else d.set a b

theorem mem_keys_of_put {n : ℕ} {d : Dict α β} {a a' : α} {b : β} (h : a' ∈ (put n d a b).keys) :
    a' = a ∨ a' ∈ d.keys := by
  have hset : a' ∈ (d.set a b).keys := by
    unfold put at h
    split at h
    case isTrue => exact Dict.mem_keys_of_popFirst h
    case isFalse => exact h
  exact Dict.mem_keys_set.1 hset

/-- What is kept is the new value, or was kept before. -/
theorem get?_of_put {n : ℕ} {d : Dict α β} {a a' : α} {b b' : β} (h : (put n d a b).get? a' = some b') :
    b' = b ∨ d.get? a' = some b' := by
  have hset : (d.set a b).get? a' = some b' := by
    unfold put at h
    split at h
    case isTrue => exact Dict.get?_of_popFirst h
    case isFalse => exact h
  rw [Dict.get?_set] at hset
  split at hset
  case isTrue => exact .inl (Option.some.inj hset).symm
  case isFalse => exact .inr hset

theorem size_put_le {n : ℕ} {d : Dict α β} (h : d.size ≤ n) (a : α) (b : β) : (put n d a b).size ≤ n := by
  have hset := Dict.size_set_le d a b
  unfold put
  split
  case isTrue hfull =>
    show (d.set a b).entries.tail.length ≤ n
    rw [List.length_tail]
    unfold Dict.size at hset h
    omega
  case isFalse hroom => exact not_lt.1 hroom

/-- Writing a new key appends it to what is kept. -/
theorem entries_put {n : ℕ} {d : Dict α β} {log : List (α × β)} (hd : d.entries = keep n log) {a : α}
    (ha : d.get? a = none) (b : β) : (put n d a b).entries = keep n (log ++ [(a, b)]) := by
  have hnew : a ∉ d.entries.map Prod.fst := Dict.get?_eq_none_iff.1 ha
  have hset : (d.set a b).entries = d.entries ++ [(a, b)] := by
    unfold Dict.set
    rw [dif_neg hnew]
  have hsize : (d.set a b).size = d.entries.length + 1 := by
    rw [Dict.size, hset, List.length_append]
    rfl
  have hlen := length_keep_le n log
  rw [← hd] at hlen
  rw [← keep_keep_append, ← hd, ← hset]
  unfold put
  split
  case isTrue hfull =>
    have hone : (d.set a b).entries.length - n = 1 := by
      rw [← Dict.size]
      omega
    show (d.set a b).entries.tail = _
    rw [keep, hone, List.drop_one]
  case isFalse hroom => exact (keep_of_length_le (not_lt.1 hroom)).symm

end Recent
