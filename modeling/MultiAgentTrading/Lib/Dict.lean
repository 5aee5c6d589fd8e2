import Mathlib.Data.List.Nodup
import Mathlib.Data.List.Induction
import Mathlib.Algebra.BigOperators.Group.List.Basic
import Mathlib.Algebra.Group.Basic
import Mathlib.Algebra.Order.BigOperators.Group.List
import Mathlib.Tactic.Abel

/-!
# Insertion-ordered dictionaries

A `Dict` is the list of its entries, oldest key first, with the keys pairwise distinct.  Writing an existing key
replaces its value in place, writing a new one appends, and `popFirst` drops the oldest entry; `ofList` writes the
pairs of a list.  Lookups are read off the entries through `mem_entries`; the `append` lemmas compare a dictionary with
one that has older entries in front; `total` adds up a quantity over the values, and the `total` lemmas say how it moves
with each write, as the `prod` lemmas do for a product.
-/

/-- A dictionary that keeps the order in which its keys were first written. -/
@[ext] structure Dict (α β : Type*) where
  entries : List (α × β)
  nodup : (entries.map Prod.fst).Nodup
  deriving DecidableEq

namespace Dict

variable {α β : Type*}

def empty : Dict α β := ⟨[], List.nodup_nil⟩

def keys (d : Dict α β) : List α := d.entries.map Prod.fst

def values (d : Dict α β) : List β := d.entries.map Prod.snd

def size (d : Dict α β) : ℕ := d.entries.length

/-- Drop the oldest entry. -/
def popFirst (d : Dict α β) : Dict α β :=
  ⟨d.entries.tail, by rw [List.map_tail]; exact d.nodup.tail⟩

/-- The sum of a quantity over the values. -/
def total {M : Type*} [AddCommGroup M] (f : β → M) (d : Dict α β) : M := (d.entries.map fun p => f p.2).sum

/-- The product of a quantity over the values. -/
def prod {M : Type*} [CommMonoid M] (f : β → M) (d : Dict α β) : M := (d.entries.map fun p => f p.2).prod

variable [DecidableEq α]

def get? (d : Dict α β) (a : α) : Option β := (d.entries.find? fun p => p.1 = a).map Prod.snd

def contains (d : Dict α β) (a : α) : Bool := (d.get? a).isSome

private def replaceIn (a : α) (b : β) (l : List (α × β)) : List (α × β) :=
  l.map fun p => if p.1 = a then (a, b) else p

private theorem map_fst_replaceIn (a : α) (b : β) (l : List (α × β)) :
    (replaceIn a b l).map Prod.fst = l.map Prod.fst := by
  rw [replaceIn, List.map_map]
  refine List.map_congr_left fun p _ => ?_
  by_cases h : p.1 = a <;> simp [h]

omit [DecidableEq α] in
private theorem nodup_append_new {a : α} {b : β} {l : List (α × β)} (hl : (l.map Prod.fst).Nodup)
    (ha : a ∉ l.map Prod.fst) : ((l ++ [(a, b)]).map Prod.fst).Nodup := by
  rw [List.map_append]
  refine hl.append (by simp) ?_
  intro x hx hx'
  simp only [List.map_cons, List.map_nil, List.mem_singleton] at hx'
  exact ha (hx' ▸ hx)

/-- Write a value: in place for an existing key, at the end for a new one. -/
def set (d : Dict α β) (a : α) (b : β) : Dict α β :=
  if h : a ∈ d.entries.map Prod.fst then ⟨replaceIn a b d.entries, by rw [map_fst_replaceIn]; exact d.nodup⟩
  else ⟨d.entries ++ [(a, b)], nodup_append_new d.nodup h⟩

/-- Remove a key. -/
def erase (d : Dict α β) (a : α) : Dict α β :=
  ⟨d.entries.filter fun p => p.1 ≠ a, (List.filter_sublist.map Prod.fst).nodup d.nodup⟩

/-- Write the pairs of a list one after the other: of equal keys the last one counts. -/
def ofList (l : List (α × β)) : Dict α β := l.foldl (fun d p => d.set p.1 p.2) empty

/-! ### Lookups -/

omit [DecidableEq α] in
private theorem eq_of_mem {d : Dict α β} {p q : α × β} (hp : p ∈ d.entries) (hq : q ∈ d.entries) (h : p.1 = q.1) :
    p = q :=
  List.inj_on_of_nodup_map d.nodup hp hq h

/-- The entries are the pairs that a lookup returns. -/
theorem mem_entries {d : Dict α β} {a : α} {b : β} : (a, b) ∈ d.entries ↔ d.get? a = some b := by
  constructor
  · intro h
    obtain ⟨p, hp⟩ : ∃ p, d.entries.find? (fun p => p.1 = a) = some p :=
      Option.isSome_iff_exists.1 (List.find?_isSome.2 ⟨(a, b), h, by simp⟩)
    have hpa : p.1 = a := by simpa using List.find?_some hp
    rw [get?, hp, eq_of_mem (List.mem_of_find?_eq_some hp) h hpa]
    rfl
  · intro h
    obtain ⟨p, hp, hb⟩ := Option.map_eq_some_iff.1 h
    have hpa : p.1 = a := by simpa using List.find?_some hp
    have := List.mem_of_find?_eq_some hp
    rwa [← hpa, ← hb]

private theorem get?_congr {d d' : Dict α β} {a a' : α} (h : ∀ b, (a, b) ∈ d.entries ↔ (a', b) ∈ d'.entries) :
    d.get? a = d'.get? a' := by
  ext b
  rw [← mem_entries, ← mem_entries]
  exact h b

@[simp] theorem get?_empty (a : α) : (empty : Dict α β).get? a = none := rfl

theorem mem_keys {d : Dict α β} {a : α} : a ∈ d.keys ↔ ∃ b, d.get? a = some b := by
  simp only [keys, List.mem_map, Prod.exists, ← mem_entries, exists_and_right, exists_eq_right]

theorem get?_eq_none_iff {d : Dict α β} {a : α} : d.get? a = none ↔ a ∉ d.keys := by
  rw [mem_keys, Option.eq_none_iff_forall_ne_some]
  push Not
  rfl

theorem contains_iff {d : Dict α β} {a : α} : d.contains a = true ↔ a ∈ d.keys := by
  rw [contains, Option.isSome_iff_exists, mem_keys]

private theorem mem_set {d : Dict α β} {a a' : α} {b b' : β} :
    (a', b') ∈ (d.set a b).entries ↔ (a' = a ∧ b' = b) ∨ (a' ≠ a ∧ (a', b') ∈ d.entries) := by
  unfold set
  split
  case isTrue h =>
    obtain ⟨p, hp, hpa⟩ := List.mem_map.1 h
    simp only [replaceIn, List.mem_map]
    constructor
    · rintro ⟨q, hq, he⟩
      by_cases hqa : q.1 = a
      · rw [if_pos hqa] at he
        simp only [Prod.mk.injEq] at he
        exact .inl ⟨he.1.symm, he.2.symm⟩
      · rw [if_neg hqa] at he
        subst he
        exact .inr ⟨hqa, hq⟩
    · rintro (⟨rfl, rfl⟩ | ⟨hne, hm⟩)
      · exact ⟨p, hp, if_pos hpa⟩
      · exact ⟨(a', b'), hm, if_neg hne⟩
  case isFalse h =>
    rw [List.mem_append, List.mem_singleton, Prod.mk.injEq, or_comm]
    refine or_congr_right ⟨fun hm => ⟨?_, hm⟩, And.right⟩
    rintro rfl
    exact h (List.mem_map.2 ⟨_, hm, rfl⟩)

private theorem mem_erase {d : Dict α β} {a a' : α} {b' : β} :
    (a', b') ∈ (d.erase a).entries ↔ a' ≠ a ∧ (a', b') ∈ d.entries := by
  simp [erase, and_comm]

@[simp] theorem get?_set_self (d : Dict α β) (a : α) (b : β) : (d.set a b).get? a = some b :=
  mem_entries.1 (mem_set.2 (.inl ⟨rfl, rfl⟩))

theorem get?_set_of_ne {a a' : α} (h : a' ≠ a) (d : Dict α β) (b : β) : (d.set a b).get? a' = d.get? a' :=
  get?_congr fun b' => by simp [mem_set, h]

theorem get?_set (d : Dict α β) (a a' : α) (b : β) :
    (d.set a b).get? a' = if a' = a then some b else d.get? a' := by
  split
  case isTrue h => rw [h, get?_set_self]
  case isFalse h => exact get?_set_of_ne h d b

@[simp] theorem get?_erase_self (d : Dict α β) (a : α) : (d.erase a).get? a = none := by
  rw [Option.eq_none_iff_forall_ne_some]
  intro b h
  exact (mem_erase.1 (mem_entries.2 h)).1 rfl

theorem get?_erase_of_ne {a a' : α} (h : a' ≠ a) (d : Dict α β) : (d.erase a).get? a' = d.get? a' :=
  get?_congr fun b' => by simp [mem_erase, h]

theorem get?_erase (d : Dict α β) (a a' : α) : (d.erase a).get? a' = if a' = a then none else d.get? a' := by
  split
  case isTrue h => rw [h, get?_erase_self]
  case isFalse h => exact get?_erase_of_ne h d

/-- Writing what is there changes nothing. -/
theorem set_of_get? {d : Dict α β} {a : α} {b : β} (h : d.get? a = some b) : d.set a b = d := by
  have hmem : (a, b) ∈ d.entries := mem_entries.2 h
  have hkey : a ∈ d.entries.map Prod.fst := List.mem_map.2 ⟨(a, b), hmem, rfl⟩
  refine Dict.ext ?_
  unfold set
  rw [dif_pos hkey]
  have hsame : ∀ p ∈ d.entries, (if p.1 = a then (a, b) else p) = id p := by
    intro p hp
    split
    case isTrue ha => exact (eq_of_mem hp hmem ha).symm
    case isFalse => rfl
  exact (List.map_congr_left hsame).trans (List.map_id d.entries)

theorem mem_keys_set {d : Dict α β} {a a' : α} {b : β} : a' ∈ (d.set a b).keys ↔ a' = a ∨ a' ∈ d.keys := by
  rw [mem_keys, mem_keys, get?_set]
  split <;> simp_all

theorem keys_set_of_mem {d : Dict α β} {a : α} {b : β} (h : a ∈ d.keys) : (d.set a b).keys = d.keys := by
  have hset : d.set a b = ⟨replaceIn a b d.entries, by rw [map_fst_replaceIn]; exact d.nodup⟩ := dif_pos h
  rw [hset]
  exact map_fst_replaceIn a b d.entries

theorem keys_set_of_not_mem {d : Dict α β} {a : α} {b : β} (h : a ∉ d.keys) : (d.set a b).keys = d.keys ++ [a] := by
  have hset : d.set a b = ⟨d.entries ++ [(a, b)], nodup_append_new d.nodup h⟩ := dif_neg h
  rw [hset]
  exact List.map_append

theorem mem_keys_erase {d : Dict α β} {a a' : α} : a' ∈ (d.erase a).keys ↔ a' ≠ a ∧ a' ∈ d.keys := by
  rw [mem_keys, mem_keys, get?_erase]
  split <;> simp_all

omit [DecidableEq α] in
/-- Dropping the oldest entry makes nothing new appear. -/
theorem mem_keys_of_popFirst {d : Dict α β} {a : α} (h : a ∈ d.popFirst.keys) : a ∈ d.keys := by
  obtain ⟨p, hp, rfl⟩ := List.mem_map.1 h
  exact List.mem_map.2 ⟨p, List.mem_of_mem_tail hp, rfl⟩

theorem get?_of_popFirst {d : Dict α β} {a : α} {b : β} (h : d.popFirst.get? a = some b) : d.get? a = some b :=
  mem_entries.1 (List.mem_of_mem_tail (mem_entries.2 h))

private theorem ofList_concat (l : List (α × β)) (p : α × β) : ofList (l ++ [p]) = (ofList l).set p.1 p.2 := by
  rw [ofList, List.foldl_append]
  rfl

/-- Pairs with distinct keys are the entries of the dictionary made of them. -/
theorem entries_ofList {l : List (α × β)} (h : (l.map Prod.fst).Nodup) : (ofList l).entries = l := by
  induction l using List.reverseRecOn with
  | nil => rfl
  | append_singleton l p ih =>
    rw [List.map_append, List.nodup_append] at h
    have hl := ih h.1
    have hnew : p.1 ∉ (ofList l).entries.map Prod.fst := by
      rw [hl]
      exact fun hp => h.2.2 p.1 hp p.1 List.mem_cons_self rfl
    rw [ofList_concat, set, dif_neg hnew]
    show (ofList l).entries ++ [p] = _
    rw [hl]

theorem ofList_entries (d : Dict α β) : ofList d.entries = d := Dict.ext (entries_ofList d.nodup)

/-! ### Iteration -/

/-- A loop over the items: the size when it began, and how many items it has had. -/
structure Iter where
  used : ℕ
  pos : ℕ
  deriving DecidableEq

def iter (d : Dict α β) : Iter := ⟨d.size, 0⟩

/-- What the loop still has to come to, none if keys have been added since it began.  Nothing may have been erased. -/
def Iter.rest (it : Iter) (d : Dict α β) : Option (List (α × β)) :=
  if d.size = it.used then some (d.entries.drop it.pos) else none

omit [DecidableEq α] in
theorem size_eq_length_keys (d : Dict α β) : d.size = d.keys.length := (List.length_map _).symm

omit [DecidableEq α] in
theorem map_fst_rest {it : Iter} {d : Dict α β} {l : List (α × β)} (h : it.rest d = some l) :
    l.map Prod.fst = d.keys.drop it.pos := by
  obtain ⟨-, heq⟩ := Option.ite_none_right_eq_some.1 h
  cases heq
  exact List.map_drop

/-! ### Entries -/

theorem size_set_le (d : Dict α β) (a : α) (b : β) : (d.set a b).size ≤ d.size + 1 := by
  unfold set
  split
  · exact (List.length_map _).trans_le (Nat.le_succ _)
  · exact (List.length_append).le

/-- Writing a key that is not among the older entries writes it among the newer ones. -/
theorem entries_set_append {d e : Dict α β} {old : List (α × β)} (h : d.entries = old ++ e.entries) {a : α}
    (ha : ∀ p ∈ old, p.1 ≠ a) (b : β) : (d.set a b).entries = old ++ (e.set a b).entries := by
  have hmem : a ∈ d.entries.map Prod.fst ↔ a ∈ e.entries.map Prod.fst := by
    rw [h, List.map_append, List.mem_append, or_iff_right]
    rintro hold
    obtain ⟨p, hp, hpa⟩ := List.mem_map.1 hold
    exact ha p hp hpa
  unfold set
  by_cases hnew : a ∈ e.entries.map Prod.fst
  · rw [dif_pos (hmem.2 hnew), dif_pos hnew]
    show replaceIn a b d.entries = old ++ replaceIn a b e.entries
    have hold : replaceIn a b old = old := by
      have hsame : ∀ p ∈ old, (if p.1 = a then (a, b) else p) = p := fun p hp => if_neg (ha p hp)
      exact (List.map_congr_left hsame).trans (List.map_id' old)
    rw [h]
    unfold replaceIn at hold ⊢
    rw [List.map_append, hold]
  · rw [dif_neg (mt hmem.1 hnew), dif_neg hnew]
    show d.entries ++ [(a, b)] = old ++ (e.entries ++ [(a, b)])
    rw [h, List.append_assoc]

/-- A lookup that is not among the older entries finds what it finds among the newer ones. -/
theorem get?_append {d e : Dict α β} {old : List (α × β)} (h : d.entries = old ++ e.entries) {a : α}
    (ha : ∀ p ∈ old, p.1 ≠ a) : d.get? a = e.get? a := by
  unfold get?
  rw [h, List.find?_append, List.find?_eq_none.2 fun p hp => by simpa using ha p hp, Option.none_or]

/-! ### Sums over the values -/

omit [DecidableEq α] in
private theorem entries_nodup (d : Dict α β) : d.entries.Nodup := d.nodup.of_map

private theorem nodup_cons_erase (d : Dict α β) (a : α) (b : β) : ((a, b) :: (d.erase a).entries).Nodup :=
  List.nodup_cons.2 ⟨fun h => (mem_erase.1 h).1 rfl, entries_nodup _⟩

private theorem entries_perm {d : Dict α β} {a : α} {c : β} (h : d.get? a = some c) :
    d.entries.Perm ((a, c) :: (d.erase a).entries) := by
  refine (List.perm_ext_iff_of_nodup (entries_nodup d) (nodup_cons_erase d a c)).2 fun p => ?_
  obtain ⟨a', b'⟩ := p
  rw [List.mem_cons, mem_erase, mem_entries, Prod.mk.injEq]
  by_cases ha : a' = a
  · subst ha
    simp [h, eq_comm]
  · simp [ha]

private theorem set_entries_perm (d : Dict α β) (a : α) (b : β) :
    (d.set a b).entries.Perm ((a, b) :: (d.erase a).entries) := by
  refine (List.perm_ext_iff_of_nodup (entries_nodup _) (nodup_cons_erase d a b)).2 fun p => ?_
  obtain ⟨a', b'⟩ := p
  rw [List.mem_cons, mem_erase, mem_set, Prod.mk.injEq]

theorem erase_of_none {d : Dict α β} {a : α} (h : d.get? a = none) : d.erase a = d := by
  have ha : a ∉ d.entries.map Prod.fst := get?_eq_none_iff.1 h
  obtain ⟨l, hl⟩ := d
  rw [erase, mk.injEq, List.filter_eq_self]
  intro p hp
  refine decide_eq_true fun hpa => ha ?_
  rw [← hpa]
  exact List.mem_map.2 ⟨p, hp, rfl⟩

section Total

variable {M : Type*} [AddCommGroup M]

omit [DecidableEq α] in
@[simp] theorem total_empty (f : β → M) : (empty : Dict α β).total f = 0 := rfl

/-- Removing a key takes its value out of the sum. -/
theorem total_erase_of_some {d : Dict α β} {a : α} {c : β} (h : d.get? a = some c) (f : β → M) :
    (d.erase a).total f = d.total f - f c := by
  have hp := ((entries_perm h).map fun p => f p.2).sum_eq
  rw [List.map_cons, List.sum_cons] at hp
  rw [total, total, hp]
  abel

private theorem total_set (d : Dict α β) (a : α) (f : β → M) (b : β) :
    (d.set a b).total f = (d.erase a).total f + f b := by
  have hp := ((set_entries_perm d a b).map fun p => f p.2).sum_eq
  rw [List.map_cons, List.sum_cons] at hp
  rw [total, total, hp]
  abel

/-- Writing a new key adds its value. -/
theorem total_set_of_none {d : Dict α β} {a : α} (h : d.get? a = none) (f : β → M) (b : β) :
    (d.set a b).total f = d.total f + f b := by
  rw [total_set, erase_of_none h]

/-- Writing an existing key replaces its value in the sum. -/
theorem total_set_of_some {d : Dict α β} {a : α} {c : β} (h : d.get? a = some c) (f : β → M) (b : β) :
    (d.set a b).total f = d.total f + f b - f c := by
  rw [total_set, total_erase_of_some h]
  abel

/-- The sum of nonnegative values is nonnegative. -/
theorem total_nonneg [PartialOrder M] [IsOrderedAddMonoid M] {d : Dict α β} {f : β → M}
    (h : ∀ a b, d.get? a = some b → 0 ≤ f b) : 0 ≤ d.total f := by
  refine List.sum_nonneg fun x hx => ?_
  obtain ⟨⟨a, b⟩, hmem, rfl⟩ := List.mem_map.1 hx
  exact h a b (mem_entries.1 hmem)

end Total

/-! ### Products over the values -/

section Prod

variable {M : Type*} [CommMonoid M]

omit [DecidableEq α] in
@[simp] theorem prod_empty (f : β → M) : (empty : Dict α β).prod f = 1 := rfl

/-- A new key multiplies the product by its value. -/
theorem prod_set_of_none {d : Dict α β} {a : α} (h : d.get? a = none) (f : β → M) (b : β) :
    (d.set a b).prod f = d.prod f * f b := by
  have hp := ((set_entries_perm d a b).map fun p => f p.2).prod_eq
  rw [List.map_cons, List.prod_cons, erase_of_none h] at hp
  rw [prod, prod, hp, mul_comm]

/-- A value that grows by a factor multiplies the product by it. -/
theorem prod_set_of_some {d : Dict α β} {a : α} {c b : β} (h : d.get? a = some c) {f : β → M} {m : M}
    (hf : f b = f c * m) : (d.set a b).prod f = d.prod f * m := by
  have hp := ((set_entries_perm d a b).map fun p => f p.2).prod_eq
  have hp' := ((entries_perm h).map fun p => f p.2).prod_eq
  rw [List.map_cons, List.prod_cons] at hp hp'
  rw [prod, prod, hp, hp', hf, mul_right_comm]

end Prod

end Dict
