import MultiAgentTrading.Lib.Json

/-!
# Reading back what has been read

A value that was read from a text is read again from the text it is written as (`readsBefore_of_loads`), if the floats
are: `Faithful` is what is asked of them.  A number is read up to what ends it, so unlike a string or an object it is
only read back before something that may follow a value.
-/

namespace Json

variable {F : FloatText} {v : Json}

/-- What may follow a value. -/
def Ends (rest : Text) : Prop := ∀ c ∈ rest.head?, c = ',' ∨ c = ']' ∨ c = '}'

/-- A value is read back from its text before anything that may follow it. -/
def ReadsBefore (F : FloatText) (v : Json) : Prop :=
  ∀ n rest, (dumps F v).length ≤ n → Ends rest → readValue F (n + 1) (skip (dumps F v ++ rest)) = some (v, rest)

theorem ends_nil : Ends [] := by simp [Ends]
theorem ends_comma (t : Text) : Ends (',' :: t) := by simp [Ends]
theorem ends_bracket (t : Text) : Ends (']' :: t) := by simp [Ends]
theorem ends_brace (t : Text) : Ends ('}' :: t) := by simp [Ends]

/-- No exponent begins with what ends a value. -/
theorem readExponent_of_ends {rest : Text} (h : Ends rest) : readExponent rest = ([], rest) := by
  cases rest with
  | nil => rfl
  | cons c rest =>
    have hc : c ≠ 'e' ∧ c ≠ 'E' := by rcases h c rfl with rfl | rfl | rfl <;> decide
    unfold readExponent
    split <;> simp_all

theorem Reads.readsBefore (h : Reads F v) : ReadsBefore F v := fun n rest hn _ => h n rest hn

theorem ReadsBefore.loads_dumps (h : ReadsBefore F v) : loads F (dumps F v) = some v := by
  have hread := h (dumps F v).length [] le_rfl ends_nil
  rw [List.append_nil] at hread
  rw [loads, hread]
  rfl

theorem readsBefore_int (k : ℤ) : ReadsBefore F (.int k) := by
  intro n rest _ hrest
  have hends : EndsInt rest := by
    intro c hc
    rcases hrest c hc with rfl | rfl | rfl <;> decide
  exact readValue_dumpsInt hends

theorem readsBefore_null : ReadsBefore F .null := fun _ _ _ _ => rfl

theorem readsBefore_bool (b : Bool) : ReadsBefore F (.bool b) := by
  intro n rest _ _
  cases b <;> rfl

/-! ### Arrays -/

/-- An item that another one follows. -/
theorem readItems_comma {read : Text → Option (Json × Text)} {n : ℕ} {t rest : Text}
    (hv : read t = some (v, ',' :: rest)) :
    readItems read (n + 1) t = (readItems read n (skip rest)).map fun r => (v :: r.1, r.2) := by
  rw [readItems, hv]
  rfl

theorem readItems_end {read : Text → Option (Json × Text)} {n : ℕ} {t rest : Text}
    (hv : read t = some (v, ']' :: rest)) : readItems read (n + 1) t = some ([v], rest) := by
  rw [readItems, hv]
  rfl

private theorem readItems_dumps {m : ℕ} {items : List Json} (hne : items ≠ [])
    (hreads : ∀ v ∈ items, ReadsBefore F v) (hm : (dumpsItems F items).length ≤ m) {n : ℕ}
    (hn : (dumpsItems F items).length ≤ n) (rest : Text) :
    readItems (readValue F (m + 1)) (n + 1) (skip (dumpsItems F items ++ ']' :: rest)) = some (items, rest) := by
  induction items generalizing n with
  | nil => exact absurd rfl hne
  | cons v items ih =>
    have hv : ReadsBefore F v := hreads v List.mem_cons_self
    cases items with
    | nil => exact readItems_end (hv m _ hm (ends_bracket rest))
    | cons w items =>
      have hitems : ∀ v ∈ w :: items, ReadsBefore F v := fun v hv => hreads v (List.mem_cons_of_mem _ hv)
      rw [dumpsItems] at hm hn
      simp only [List.length_append, List.length_cons] at hm hn
      have hfirst := hv m (',' :: ' ' :: (dumpsItems F (w :: items) ++ ']' :: rest)) (by omega) (ends_comma _)
      obtain ⟨n, rfl⟩ : ∃ n', n = n' + 1 := ⟨n - 1, by omega⟩
      rw [dumpsItems, List.append_assoc, List.cons_append, List.cons_append, readItems_comma hfirst]
      show (readItems _ (n + 1) (skip (dumpsItems F (w :: items) ++ ']' :: rest))).map _ = _
      rw [ih (List.cons_ne_nil w items) hitems (by omega) (by omega)]
      rfl

/-- No value begins with a closing bracket. -/
private theorem readValue_bracket (n : ℕ) (t : Text) : readValue F n (']' :: t) = none := by
  cases n <;> rfl

/-- An array is read if its items are. -/
theorem readValue_array {m : ℕ} {t rest : Text} {items : List Json}
    (h : readItems (readValue F (m + 1)) (m + 1) (skip t) = some (items, rest)) :
    readValue F (m + 2) (skip ('[' :: t)) = some (.arr items, rest) := by
  have hskip : skip ('[' :: t) = '[' :: t := rfl
  rw [hskip, readValue]
  split
  · next t ht =>
    rw [ht, readItems, readValue_bracket] at h
    exact absurd h (by simp)
  · rw [h]
    rfl

theorem readsBefore_arr {items : List Json} (hreads : ∀ v ∈ items, ReadsBefore F v) : ReadsBefore F (.arr items) := by
  intro n rest hn _
  rw [dumps, List.length_cons, List.length_append, List.length_singleton] at hn
  obtain ⟨m, rfl⟩ : ∃ m, n = m + 1 := ⟨n - 1, by omega⟩
  cases items with
  | nil => rfl
  | cons v items =>
    have hread := readItems_dumps (List.cons_ne_nil v items) hreads (m := m) (by omega) (n := m) (by omega) rest
    rw [dumps, List.cons_append, List.append_assoc, List.singleton_append]
    exact readValue_array hread

/-! ### Objects -/

/-- A character is written as at least one. -/
private theorem length_key_le (k : Text) : k.length < (dumpsStr k).length := by
  have hone : ∀ c, 1 ≤ (escapeChar c).length := by
    intro c
    unfold escapeChar escapeUnit
    dsimp only
    split_ifs <;> simp
  have hall : k.length ≤ (k.flatMap escapeChar).length := by
    induction k with
    | nil => exact Nat.le_refl _
    | cons c k ih =>
      have hc := hone c
      rw [List.flatMap_cons, List.length_append, List.length_cons]
      omega
  rw [dumpsStr, List.length_cons, List.length_append, List.length_singleton]
  omega

private theorem readFields_written {m : ℕ} {fields : List (Text × Json)} (hne : fields ≠ [])
    (hreads : ∀ p ∈ fields, ReadsBefore F p.2) (hm : (dumpsFields F fields).length ≤ m) {n : ℕ}
    (hn : (dumpsFields F fields).length ≤ n) (rest : Text) :
    readFields (readValue F (m + 1)) (n + 1) (dumpsFields F fields ++ '}' :: rest) = some (fields, rest) := by
  induction fields generalizing n with
  | nil => exact absurd rfl hne
  | cons p fields ih =>
    obtain ⟨k, v⟩ := p
    have hk := length_key_le k
    have hv : ReadsBefore F v := hreads (k, v) List.mem_cons_self
    cases fields with
    | nil =>
      simp only [dumpsFields, List.length_append, List.length_cons] at hm hn
      rw [dumpsFields, List.append_assoc, List.cons_append, List.cons_append]
      exact readFields_last (by omega) (hv m _ (by omega) (ends_brace rest))
    | cons q fields =>
      have hfields : ∀ p ∈ q :: fields, ReadsBefore F p.2 := fun p hp => hreads p (List.mem_cons_of_mem _ hp)
      rw [dumpsFields] at hm hn
      simp only [List.length_append, List.length_cons] at hm hn
      have hfirst : readValue F (m + 1)
          (skip (' ' :: (dumps F v ++ ',' :: ' ' :: (dumpsFields F (q :: fields) ++ '}' :: rest)))) =
            some (v, ',' :: ' ' :: (dumpsFields F (q :: fields) ++ '}' :: rest)) :=
        hv m _ (by omega) (ends_comma _)
      have hskip : skip (' ' :: (dumpsFields F (q :: fields) ++ '}' :: rest)) =
          dumpsFields F (q :: fields) ++ '}' :: rest := by
        obtain ⟨k', v'⟩ := q
        cases fields <;> rfl
      obtain ⟨n, rfl⟩ : ∃ n', n = n' + 1 := ⟨n - 1, by omega⟩
      rw [dumpsFields, List.append_assoc, List.cons_append, List.cons_append, List.append_assoc, List.cons_append,
        List.cons_append, readFields_comma (by omega) hfirst, hskip,
        ih (List.cons_ne_nil q fields) hfields (by omega) (by omega)]
      rfl

theorem readsBefore_obj {fields : List (Text × Json)} (hnodup : (fields.map Prod.fst).Nodup)
    (hreads : ∀ p ∈ fields, ReadsBefore F p.2) : ReadsBefore F (.obj fields) := by
  intro n rest hn _
  rw [dumps, List.length_cons, List.length_append, List.length_singleton] at hn
  obtain ⟨m, rfl⟩ : ∃ m, n = m + 1 := ⟨n - 1, by omega⟩
  cases fields with
  | nil => rfl
  | cons p fields =>
    have hread := readFields_written (List.cons_ne_nil p fields) hreads (m := m) (by omega) (n := m) (by omega) rest
    obtain ⟨t, ht⟩ : ∃ t, dumpsFields F (p :: fields) = '"' :: t := by
      obtain ⟨k, v⟩ := p
      cases fields <;> exact ⟨_, rfl⟩
    rw [dumps, List.cons_append, List.append_assoc, List.singleton_append]
    rw [ht] at hread ⊢
    show (readFields (readValue F (m + 1)) (m + 1) ('"' :: t ++ '}' :: rest)).map _ = _
    rw [hread, Option.map_some, Dict.entries_ofList hnodup]

/-! ### What is read can be written -/

/-- The floats that are read are read back from how they are written, and so are the three that are no literals. -/
structure Faithful (F : FloatText) : Prop where
  value : ∀ t, ReadsBefore F (.float (F.value t))
  nan : ReadsBefore F (.float (.nan false false 0))
  infinity : ∀ negative, ReadsBefore F (.float (.infinity negative))

private theorem readsBefore_of_readNumber (hF : Faithful F) {t r : Text} (h : readNumber F t = some (v, r)) :
    ReadsBefore F v := by
  unfold readNumber at h
  rcases ite_eq_iff.mp h with ⟨-, h⟩ | ⟨-, h⟩
  · exact absurd h (by simp)
  · rcases ite_eq_iff.mp h with ⟨-, h⟩ | ⟨-, h⟩
    · obtain ⟨rfl, -⟩ := Prod.mk.inj (Option.some.inj h)
      exact readsBefore_int _
    · obtain ⟨rfl, -⟩ := Prod.mk.inj (Option.some.inj h)
      exact hF.value _

section Parts

variable {read : Text → Option (Json × Text)} {P : Json → Prop}

private theorem forall_of_readItems (hread : ∀ t v r, read t = some (v, r) → P v) {n : ℕ} {t r : Text} {vs : List Json}
    (h : readItems read n t = some (vs, r)) : ∀ v ∈ vs, P v := by
  induction n generalizing t vs r with
  | zero => exact absurd h (by simp [readItems])
  | succ n ih =>
    rw [readItems] at h
    obtain ⟨⟨w, s⟩, hw, h⟩ := Option.bind_eq_some_iff.mp h
    have hPw : P w := hread t w s hw
    split at h
    · obtain ⟨rfl, -⟩ := Prod.mk.inj (Option.some.inj h)
      simpa using hPw
    · obtain ⟨⟨ws, u⟩, hws, heq⟩ := Option.map_eq_some_iff.mp h
      obtain ⟨rfl, -⟩ := Prod.mk.inj heq
      have htail := ih hws
      simpa using ⟨hPw, htail⟩
    · exact absurd h (by simp)

private theorem forall_of_readFields (hread : ∀ t v r, read t = some (v, r) → P v) {n : ℕ} {t r : Text}
    {ps : List (Text × Json)} (h : readFields read n t = some (ps, r)) : ∀ p ∈ ps, P p.2 := by
  induction n generalizing t ps r with
  | zero => exact absurd h (by simp [readFields])
  | succ n ih =>
    unfold readFields at h
    split at h
    · next hn =>
      obtain rfl := Nat.succ.inj hn
      obtain ⟨⟨k, s⟩, -, h⟩ := Option.bind_eq_some_iff.mp h
      obtain ⟨⟨w, s'⟩, hw, h⟩ := Option.bind_eq_some_iff.mp h
      have hPw : P w := by
        unfold readField at hw
        split at hw
        · exact hread _ _ _ hw
        · exact absurd hw (by simp)
      split at h
      · obtain ⟨rfl, -⟩ := Prod.mk.inj (Option.some.inj h)
        simpa using hPw
      · obtain ⟨⟨ws, u⟩, hws, heq⟩ := Option.map_eq_some_iff.mp h
        obtain ⟨rfl, -⟩ := Prod.mk.inj heq
        have htail := ih hws
        exact List.forall_mem_cons.mpr ⟨hPw, htail⟩
      · exact absurd h (by simp)
    · exact absurd h (by simp)

end Parts

private theorem mem_of_mem_ofList {l : List (Text × Json)} {p : Text × Json} (h : p ∈ (Dict.ofList l).entries) :
    p ∈ l := by
  have hfold : ∀ (l : List (Text × Json)) (d : Dict Text Json),
      p ∈ (l.foldl (fun d q => d.set q.1 q.2) d).entries → p ∈ d.entries ∨ p ∈ l := by
    intro l
    induction l with
    | nil => exact fun d hp => .inl hp
    | cons q l ih =>
      intro d hp
      rcases ih _ hp with hp | hp
      · rw [show p = (p.1, p.2) from rfl, Dict.mem_entries, Dict.get?_set] at hp
        split at hp
        · next heq =>
          have hq : p = q := Prod.ext heq (Option.some.inj hp).symm
          exact .inr (hq ▸ List.mem_cons_self)
        · exact .inl (Dict.mem_entries.mpr hp)
      · exact .inr (List.mem_cons_of_mem _ hp)
  exact (hfold l Dict.empty h).resolve_left (by simp [Dict.empty])

/-- What has been read is read back from how it is written. -/
private theorem readsBefore_of_readValue (hF : Faithful F) {n : ℕ} {t r : Text} (h : readValue F n t = some (v, r)) :
    ReadsBefore F v := by
  induction n generalizing t v r with
  | zero => exact absurd h (by simp [readValue])
  | succ n ih =>
    unfold readValue at h
    split at h
    · -- a string
      obtain ⟨⟨w, s⟩, -, heq⟩ := Option.map_eq_some_iff.mp h
      obtain ⟨rfl, -⟩ := Prod.mk.inj heq
      exact (reads_str w).readsBefore
    · next hn =>
      obtain rfl := Nat.succ.inj hn
      split at h
      · obtain ⟨rfl, -⟩ := Prod.mk.inj (Option.some.inj h)
        exact readsBefore_obj List.nodup_nil (by simp)
      · obtain ⟨⟨ps, s⟩, hps, heq⟩ := Option.map_eq_some_iff.mp h
        obtain ⟨rfl, -⟩ := Prod.mk.inj heq
        have hfields := forall_of_readFields (fun _ _ _ => ih) hps
        exact readsBefore_obj (Dict.ofList ps).nodup fun p hp => hfields p (mem_of_mem_ofList hp)
    · next hn =>
      obtain rfl := Nat.succ.inj hn
      split at h
      · obtain ⟨rfl, -⟩ := Prod.mk.inj (Option.some.inj h)
        exact readsBefore_arr (by simp)
      · obtain ⟨⟨vs, s⟩, hvs, heq⟩ := Option.map_eq_some_iff.mp h
        obtain ⟨rfl, -⟩ := Prod.mk.inj heq
        exact readsBefore_arr (forall_of_readItems (fun _ _ _ => ih) hvs)
    · obtain ⟨rfl, -⟩ := Prod.mk.inj (Option.some.inj h)
      exact readsBefore_null
    · obtain ⟨rfl, -⟩ := Prod.mk.inj (Option.some.inj h)
      exact readsBefore_bool true
    · obtain ⟨rfl, -⟩ := Prod.mk.inj (Option.some.inj h)
      exact readsBefore_bool false
    · obtain ⟨rfl, -⟩ := Prod.mk.inj (Option.some.inj h)
      exact hF.nan
    · obtain ⟨rfl, -⟩ := Prod.mk.inj (Option.some.inj h)
      exact hF.infinity false
    · obtain ⟨rfl, -⟩ := Prod.mk.inj (Option.some.inj h)
      exact hF.infinity true
    · exact readsBefore_of_readNumber hF h
    · exact absurd h (by simp)

/-- A value that was read from a text is read again from the text it is written as. -/
theorem readsBefore_of_loads (hF : Faithful F) {t : Text} (h : loads F t = some v) : ReadsBefore F v := by
  obtain ⟨⟨w, r⟩, hread, h⟩ := Option.bind_eq_some_iff.mp h
  obtain ⟨-, h⟩ : _ ∧ some w = some v := by simpa using h
  obtain rfl := Option.some.inj h
  exact readsBefore_of_readValue hF hread

end Json
