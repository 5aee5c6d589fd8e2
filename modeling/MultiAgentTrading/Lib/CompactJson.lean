import MultiAgentTrading.Lib.JsonRoundTrip

/-!
# Texts put together by hand

Objects and arrays made of the texts of their parts, without blanks.  Such a text reads as the object or the array of
what the texts of the parts read as (`readsAs_object`, `readsAs_array`).
-/

namespace Json

variable {F : FloatText}

/-- A text reads as a value before anything that may follow one. -/
def ReadsAs (F : FloatText) (t : Text) (v : Json) : Prop :=
  ∀ n rest, t.length ≤ n → Ends rest → readValue F (n + 1) (skip (t ++ rest)) = some (v, rest)

def joinFields : List (Text × Text) → Text
  | [] => []
  | [(k, t)] => '"' :: (k ++ '"' :: ':' :: t)
  | (k, t) :: p :: ps => '"' :: (k ++ '"' :: ':' :: (t ++ ',' :: joinFields (p :: ps)))

def objectText (fields : List (Text × Text)) : Text := '{' :: (joinFields fields ++ ['}'])

def joinItems : List Text → Text
  | [] => []
  | [t] => t
  | t :: u :: us => t ++ ',' :: joinItems (u :: us)

def arrayText (items : List Text) : Text := '[' :: (joinItems items ++ [']'])

theorem joinItems_cons (t : Text) (items : List Text) : joinItems (t :: items) = t ++ items.flatMap (',' :: ·) := by
  induction items generalizing t with
  | nil => simp [joinItems]
  | cons u items ih => rw [joinItems, ih, List.flatMap_cons, List.cons_append]

theorem ReadsAs.loads {t : Text} {v : Json} (h : ReadsAs F t v) : loads F t = some v := by
  have hread := h t.length [] le_rfl ends_nil
  rw [List.append_nil] at hread
  rw [Json.loads, hread]
  rfl

/-! ### Objects -/

private theorem readFields_join {m : ℕ} {fields : List (Text × Text × Json)} (hne : fields ≠ [])
    (hkeys : ∀ p ∈ fields, dumpsStr p.1 = '"' :: (p.1 ++ ['"'])) (hreads : ∀ p ∈ fields, ReadsAs F p.2.1 p.2.2)
    (hm : (joinFields (fields.map fun p => (p.1, p.2.1))).length ≤ m) {n : ℕ}
    (hn : (joinFields (fields.map fun p => (p.1, p.2.1))).length ≤ n) (rest : Text) :
    readFields (readValue F (m + 1)) (n + 1) (joinFields (fields.map fun p => (p.1, p.2.1)) ++ '}' :: rest) =
      some (fields.map fun p => (p.1, p.2.2), rest) := by
  induction fields generalizing n with
  | nil => exact absurd rfl hne
  | cons p fields ih =>
    obtain ⟨k, t, v⟩ := p
    have hk : dumpsStr k = '"' :: (k ++ ['"']) := hkeys (k, t, v) List.mem_cons_self
    have hv : ReadsAs F t v := hreads (k, t, v) List.mem_cons_self
    cases fields with
    | nil =>
      simp only [List.map_cons, List.map_nil, joinFields, List.length_cons, List.length_append] at hm hn
      have hkey : '"' :: (k ++ '"' :: ':' :: t) ++ '}' :: rest = dumpsStr k ++ ':' :: (t ++ '}' :: rest) := by
        rw [hk]
        simp
      rw [List.map_cons, List.map_nil, joinFields, hkey]
      exact readFields_last (by omega) (hv m _ (by omega) (ends_brace rest))
    | cons q fields =>
      have hkeys' : ∀ p ∈ q :: fields, dumpsStr p.1 = '"' :: (p.1 ++ ['"']) := fun p hp =>
        hkeys p (List.mem_cons_of_mem _ hp)
      have hreads' : ∀ p ∈ q :: fields, ReadsAs F p.2.1 p.2.2 := fun p hp => hreads p (List.mem_cons_of_mem _ hp)
      have htail := ih (List.cons_ne_nil q fields) hkeys' hreads'
      simp only [List.map_cons, joinFields, List.length_cons, List.length_append] at hm hn htail ⊢
      set rest' := joinFields ((q.1, q.2.1) :: fields.map fun p => (p.1, p.2.1)) with hrest'
      have hkey : '"' :: (k ++ '"' :: ':' :: (t ++ ',' :: rest')) ++ '}' :: rest =
          dumpsStr k ++ ':' :: (t ++ ',' :: (rest' ++ '}' :: rest)) := by
        rw [hk]
        simp
      have hskip : skip (rest' ++ '}' :: rest) = rest' ++ '}' :: rest := by
        cases fields <;> rfl
      obtain ⟨n, rfl⟩ : ∃ n', n = n' + 1 := ⟨n - 1, by omega⟩
      rw [hkey, readFields_comma (by omega) (hv m _ (by omega) (ends_comma _)), hskip, htail (by omega) (by omega)]
      rfl

/-- An object whose keys are written as they are. -/
theorem readsAs_object (fields : List (Text × Text × Json))
    (hkeys : ∀ p ∈ fields, dumpsStr p.1 = '"' :: (p.1 ++ ['"'])) (hreads : ∀ p ∈ fields, ReadsAs F p.2.1 p.2.2)
    (hnodup : (fields.map Prod.fst).Nodup) :
    ReadsAs F (objectText (fields.map fun p => (p.1, p.2.1))) (.obj (fields.map fun p => (p.1, p.2.2))) := by
  intro n rest hn _
  rw [objectText, List.length_cons, List.length_append, List.length_singleton] at hn
  obtain ⟨m, rfl⟩ : ∃ m, n = m + 1 := ⟨n - 1, by omega⟩
  cases hfields : fields with
  | nil => rfl
  | cons p ps =>
    have hread := readFields_join (hfields ▸ List.cons_ne_nil p ps : fields ≠ []) hkeys hreads (m := m) (by omega)
      (n := m) (by omega) rest
    have hdistinct : ((fields.map fun p => (p.1, p.2.2)).map Prod.fst).Nodup := by
      rw [List.map_map]
      exact hnodup
    have hstart : ∃ t, joinFields (fields.map fun p => (p.1, p.2.1)) = '"' :: t := by
      rw [hfields]
      cases ps <;> exact ⟨_, rfl⟩
    obtain ⟨t, ht⟩ := hstart
    rw [← hfields, objectText, List.cons_append, List.append_assoc, List.singleton_append]
    rw [ht] at hread ⊢
    show (readFields (readValue F (m + 1)) (m + 1) (skip ('"' :: t ++ '}' :: rest))).map _ = _
    have hskip : skip ('"' :: t ++ '}' :: rest) = '"' :: t ++ '}' :: rest := rfl
    rw [hskip, hread, Option.map_some, Dict.entries_ofList hdistinct]

/-! ### Arrays -/

private theorem readItems_join {m : ℕ} {items : List (Text × Json)} (hne : items ≠ [])
    (hreads : ∀ p ∈ items, ReadsAs F p.1 p.2) (hm : (joinItems (items.map Prod.fst)).length ≤ m) {n : ℕ}
    (hn : (joinItems (items.map Prod.fst)).length ≤ n) (rest : Text) :
    readItems (readValue F (m + 1)) (n + 1) (skip (joinItems (items.map Prod.fst) ++ ']' :: rest)) =
      some (items.map Prod.snd, rest) := by
  induction items generalizing n with
  | nil => exact absurd rfl hne
  | cons p items ih =>
    obtain ⟨t, v⟩ := p
    have hv : ReadsAs F t v := hreads (t, v) List.mem_cons_self
    cases items with
    | nil => exact readItems_end (hv m _ hm (ends_bracket rest))
    | cons q items =>
      have hitems : ∀ p ∈ q :: items, ReadsAs F p.1 p.2 := fun p hp => hreads p (List.mem_cons_of_mem _ hp)
      have htail := ih (List.cons_ne_nil q items) hitems
      simp only [List.map_cons, joinItems, List.length_cons, List.length_append] at hm hn htail ⊢
      set rest' := joinItems (q.1 :: items.map Prod.fst) with hrest'
      obtain ⟨n, rfl⟩ : ∃ n', n = n' + 1 := ⟨n - 1, by omega⟩
      have hfirst := hv m (',' :: (rest' ++ ']' :: rest)) (by omega) (ends_comma _)
      rw [List.append_assoc, List.cons_append, readItems_comma hfirst, htail (by omega) (by omega)]
      rfl

theorem readsAs_array (items : List (Text × Json)) (hreads : ∀ p ∈ items, ReadsAs F p.1 p.2) :
    ReadsAs F (arrayText (items.map Prod.fst)) (.arr (items.map Prod.snd)) := by
  intro n rest hn _
  rw [arrayText, List.length_cons, List.length_append, List.length_singleton] at hn
  obtain ⟨m, rfl⟩ : ∃ m, n = m + 1 := ⟨n - 1, by omega⟩
  cases hitems : items with
  | nil => rfl
  | cons p ps =>
    have hread := readItems_join (hitems ▸ List.cons_ne_nil p ps : items ≠ []) hreads (m := m) (by omega) (n := m)
      (by omega) rest
    rw [← hitems, arrayText, List.cons_append, List.append_assoc, List.singleton_append]
    exact readValue_array hread

end Json
