import MultiAgentTrading.TechnicalAnalysis.ModelRegistry

/-!
# Whose model a lookup finds

A run of saves numbers the models of each normalised name together, so that a pair gets the model of its own last save
exactly if no later save is for another pair with the same normalised name (`latest_is_own_iff`).  A carriage return
in a timeframe is a second way to another pair's model, since the pointer is read back with a line feed in its place.
The paths returned are always new.
-/

namespace MultiAgentTrading

namespace ModelRegistry

variable {M : Type*} (lower : Text → Text) (formats : Formats M)

/-- The lookup finds the model of the pair's own last save, and nothing if there was none. -/
def GetsOwn (s : Registry M) (pair : Pair) : Prop :=
  getLatestPath lower s.directory pair = ((s.saved.filter fun x => x.1.pair = pair).getLast?).map Prod.snd

/-- The last save under the normalised name of a pair is for the pair itself, and the name is read back as it is or
the name it is read back as has had fewer saves. -/
structure SavedLast (calls : List (SaveCall M)) (pair : Pair) : Prop where
  own : ∀ c ∈ (calls.filter fun c => normalise lower c.pair = normalise lower pair).getLast?, c.pair = pair
  readBack : count lower calls (normalise lower pair) = 0 ∨
    TextFiles.universalNewlines (normalise lower pair) = normalise lower pair ∨
    count lower calls (TextFiles.universalNewlines (normalise lower pair)) < count lower calls (normalise lower pair)

private theorem Numbered.length_under {s : Registry M} (stem : Text) :
    (s.under lower stem).length = count lower (s.saved.map Prod.fst) stem := by
  rw [count, List.countP_map, List.countP_eq_length_filter]
  rfl

/-- The last save under a stem has the last version, and those before it have earlier ones. -/
private theorem Numbered.paths_concat {s : Registry M} (hs : Numbered lower s) {stem : Text}
    {init : List (SaveCall M × Text)} {x : SaveCall M × Text} (h : s.under lower stem = init ++ [x]) :
    x.2 = modelFile (baseName stem (count lower (s.saved.map Prod.fst) stem)) ∧
      ∀ y ∈ init, ∃ v < count lower (s.saved.map Prod.fst) stem, y.2 = modelFile (baseName stem v) := by
  have hlength : count lower (s.saved.map Prod.fst) stem = init.length + 1 := by
    rw [← Numbered.length_under, h, List.length_append, List.length_singleton]
  have hpaths := hs.paths stem
  rw [h, hlength, List.range'_concat, List.map_append, List.map_append] at hpaths
  obtain ⟨hinit, hlast⟩ := List.append_inj' hpaths rfl
  constructor
  · rw [hlength]
    simpa [Nat.add_comm] using hlast
  · intro y hy
    have hmem : y.2 ∈ init.map Prod.snd := List.mem_map_of_mem hy
    rw [hinit] at hmem
    obtain ⟨v, hv, hpath⟩ := List.mem_map.1 hmem
    have hbounds := List.mem_range'_1.1 hv
    exact ⟨v, by omega, hpath.symm⟩

private theorem nodup_paths_step {s s' : Registry M} {c : SaveCall M} (hs : Numbered lower s)
    (hnodup : (s.saved.map Prod.snd).Nodup) (h : step lower formats s c = some s') :
    (s'.saved.map Prod.snd).Nodup := by
  rw [step_cases lower formats h, List.map_append]
  refine hnodup.append (List.nodup_singleton _) fun path hold hnew => ?_
  obtain ⟨x, hx, rfl⟩ := List.mem_map.1 hold
  have hunder : x ∈ s.under lower (normalise lower x.1.pair) := List.mem_filter.2 ⟨hx, by simp⟩
  have hmem := List.mem_map_of_mem (f := Prod.snd) hunder
  rw [hs.paths] at hmem
  obtain ⟨v, hv, hpath⟩ := List.mem_map.1 hmem
  have hlast : x.2 = modelFile (newBase lower s.directory c) := List.mem_singleton.1 hnew
  rw [← hpath, hs.holds.newBase_eq] at hlast
  obtain ⟨hstem, rfl⟩ := baseName_inj (modelFile_injective hlast)
  rw [hstem, List.mem_range'_1] at hv
  omega

private theorem nodup_paths_run {calls : List (SaveCall M)} {s : Registry M}
    (h : Runs.exec (step lower formats) Registry.new calls = some s) : (s.saved.map Prod.snd).Nodup :=
  (Runs.exec_invariant (fun s => Numbered lower s ∧ (s.saved.map Prod.snd).Nodup)
    (fun _ _ _ hs hstep => ⟨hs.1.step lower formats hstep, nodup_paths_step lower formats hs.1 hs.2 hstep⟩)
    ⟨numbered_new lower, List.nodup_nil⟩ h).2

private theorem filter_saved (s : Registry M) (pair : Pair) :
    (s.saved.filter fun x => x.1.pair = pair) =
      (s.under lower (normalise lower pair)).filter fun x => x.1.pair = pair := by
  rw [Registry.under, List.filter_filter]
  refine List.filter_congr fun x _ => ?_
  by_cases hx : x.1.pair = pair <;> simp [hx]

private theorem filter_calls (s : Registry M) (stem : Text) :
    (s.saved.map Prod.fst).filter (fun c => normalise lower c.pair = stem) = (s.under lower stem).map Prod.fst :=
  List.filter_map

/-- A stem that is found again is read back as it is, or what it is read back as has fewer versions. -/
private theorem foundStem_eq_iff {n : Text → ℕ} {stem : Text} :
    foundStem n stem = stem ↔
      TextFiles.universalNewlines stem = stem ∨ n (TextFiles.universalNewlines stem) < n stem := by
  rw [foundStem]
  split
  case isTrue hle => rw [or_iff_left (by omega)]
  case isFalse hlt => simp [show n (TextFiles.universalNewlines stem) < n stem by omega]

/-- The lookup finds the last version under the stem of the pair, whoever saved it. -/
private theorem Numbered.getsOwn_iff {s : Registry M} (hs : Numbered lower s) (pair : Pair) :
    GetsOwn lower s pair ↔ SavedLast lower (s.saved.map Prod.fst) pair := by
  have hlength := Numbered.length_under lower (s := s) (normalise lower pair)
  rw [GetsOwn, filter_saved lower, hs.holds.getLatestPath_eq]
  rcases List.eq_nil_or_concat' (s.under lower (normalise lower pair)) with hnil | ⟨init, x, hconcat⟩
  · -- nothing is saved under the stem
    have hzero : count lower (s.saved.map Prod.fst) (normalise lower pair) = 0 := by
      rw [← hlength, hnil, List.length_nil]
    rw [if_pos hzero, hnil]
    refine ⟨fun _ => ⟨fun c hc => ?_, .inl hzero⟩, fun _ => rfl⟩
    rw [filter_calls, hnil] at hc
    cases hc
  · have hpos : count lower (s.saved.map Prod.fst) (normalise lower pair) ≠ 0 := by
      rw [← hlength, hconcat, List.length_append, List.length_singleton]
      exact Nat.succ_ne_zero _
    obtain ⟨hlast, hbefore⟩ := hs.paths_concat lower hconcat
    have hown : (∀ c ∈ ((s.saved.map Prod.fst).filter fun c =>
        normalise lower c.pair = normalise lower pair).getLast?, c.pair = pair) ↔ x.1.pair = pair := by
      rw [filter_calls, hconcat]
      simp
    rw [if_neg hpos, hconcat, List.filter_append]
    by_cases hpair : x.1.pair = pair
    · -- its own model is the last one, and it is found if its stem is read back
      have hcall : ([x].filter fun x => x.1.pair = pair) = [x] := by simp [hpair]
      rw [hcall, List.getLast?_concat, Option.map_some, hlast, Option.some_inj]
      constructor
      · intro h
        have hstem := foundStem_eq_iff.1 (baseName_inj (modelFile_injective h)).1
        exact ⟨hown.2 hpair, .inr hstem⟩
      · intro h
        rw [foundStem_eq_iff.2 (h.readBack.resolve_left hpos)]
    · -- the last model is another pair's
      have hcall : ([x].filter fun x => x.1.pair = pair) = [] := by simp [hpair]
      rw [hcall, List.append_nil]
      refine ⟨fun h => ?_, fun h => absurd (hown.1 h.own) hpair⟩
      obtain ⟨y, hy, hpath⟩ := Option.map_eq_some_iff.1 h.symm
      obtain ⟨v, hv, hpath'⟩ := hbefore y (List.mem_of_mem_filter (List.mem_of_getLast? hy))
      have hversion := (baseName_inj (modelFile_injective (hpath.symm.trans hpath'))).2
      omega

/-- After every run of saves a pair gets the model of its own last save exactly if that save is the last under its
normalised name; no path is returned twice. -/
theorem latest_is_own_iff {calls : List (SaveCall M)} {s : Registry M}
    (h : Runs.exec (step lower formats) Registry.new calls = some s) :
    (∀ pair, GetsOwn lower s pair ↔ SavedLast lower calls pair) ∧ (s.saved.map Prod.snd).Nodup := by
  refine ⟨fun pair => ?_, nodup_paths_run lower formats h⟩
  have hiff := (numbered_run lower formats h).getsOwn_iff lower pair
  rwa [calls_run lower formats h, show Registry.new.saved.map Prod.fst = ([] : List (SaveCall M)) from rfl,
    List.nil_append] at hiff

/-! ### Minutes and months -/

/-- `str.lower` of an ASCII text. -/
def asciiLower (t : Text) : Text := t.map Char.toLower

/-- A model that is saved as its text. -/
def textFormats : Formats Text := ⟨id, FloatText.decimal⟩

def minutePair : Pair := ⟨"BTC/USDT".toList, "1m".toList⟩

def monthPair : Pair := ⟨"BTC/USDT".toList, "1M".toList⟩

def minuteSave : SaveCall Text :=
  ⟨"minutes".toList, Dict.empty, ["rsi_14".toList], minutePair, "2024-01-01T00:00:00+00:00".toList⟩

def monthSave : SaveCall Text :=
  ⟨"months".toList, Dict.empty, ["rsi_14".toList], monthPair, "2024-01-02T00:00:00+00:00".toList⟩

def hourPair : Pair := ⟨"ETH/USDT".toList, "1h".toList⟩

def hourSave : SaveCall Text :=
  ⟨"hours".toList, Dict.empty, ["rsi_14".toList], hourPair, "2024-01-02T00:00:00+00:00".toList⟩

/-- Minutes of one symbol, hours of another, and the minutes again. -/
def twoPairs : List (SaveCall Text) :=
  [minuteSave, hourSave, { minuteSave with model := "newer".toList }]

theorem latest_is_own_iff_twoPairs : ∃ s, Runs.exec (step asciiLower textFormats) Registry.new twoPairs = some s ∧
    GetsOwn asciiLower s minutePair ∧ GetsOwn asciiLower s hourPair ∧ ¬GetsOwn asciiLower s monthPair ∧
      (s.saved.map Prod.snd).Nodup := by
  obtain ⟨s, hs⟩ := Option.isSome_iff_exists.1
    (show (Runs.exec (step asciiLower textFormats) Registry.new twoPairs).isSome = true by decide +kernel)
  obtain ⟨hiff, hnodup⟩ := latest_is_own_iff asciiLower textFormats hs
  refine ⟨s, hs, (hiff minutePair).2 ⟨by decide +kernel, by decide +kernel⟩,
    (hiff hourPair).2 ⟨by decide +kernel, by decide +kernel⟩, fun hown => ?_, hnodup⟩
  exact absurd ((hiff monthPair).1 hown).own (by decide +kernel)

/-- The model of the months is what a lookup for the minutes finds. -/
theorem minute_gets_month_model : ∃ s,
    Runs.exec (step asciiLower textFormats) Registry.new [minuteSave, monthSave] = some s ∧
    s.saved.map Prod.snd = ["btc_usdt_1m_v1.joblib".toList, "btc_usdt_1m_v2.joblib".toList] ∧
    getLatestPath asciiLower s.directory minutePair = some "btc_usdt_1m_v2.joblib".toList ∧
    ¬GetsOwn asciiLower s minutePair := by
  obtain ⟨s, hs⟩ := Option.isSome_iff_exists.1
    (show (Runs.exec (step asciiLower textFormats) Registry.new [minuteSave, monthSave]).isSome = true by
      decide +kernel)
  have heval : (Runs.exec (step asciiLower textFormats) Registry.new [minuteSave, monthSave]).map (fun s =>
      (s.saved.map Prod.snd, getLatestPath asciiLower s.directory minutePair,
        ((s.saved.filter fun x => x.1.pair = minutePair).getLast?).map Prod.snd)) =
      some (["btc_usdt_1m_v1.joblib".toList, "btc_usdt_1m_v2.joblib".toList], some "btc_usdt_1m_v2.joblib".toList,
        some "btc_usdt_1m_v1.joblib".toList) := by decide +kernel
  rw [hs, Option.map_some, Option.some_inj, Prod.mk.injEq, Prod.mk.injEq] at heval
  obtain ⟨hpaths, hfound, hown⟩ := heval
  refine ⟨s, hs, hpaths, hfound, fun hgets => ?_⟩
  rw [GetsOwn, hfound, hown] at hgets
  exact absurd hgets (by decide +kernel)

end ModelRegistry

end MultiAgentTrading
