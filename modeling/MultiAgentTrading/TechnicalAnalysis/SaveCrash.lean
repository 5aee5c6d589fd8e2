import MultiAgentTrading.TechnicalAnalysis.ModelPairs

/-!
# A crash inside a save

The pointer is written last so that it never names a half-written model, but a lookup also scans the directory, and the
pointer's text may itself be cut.  `crash_harmless_iff` says which crash points are harmless: before the pointer is
begun, those where it names a model already, where nothing has been written or where the three files are complete; after
that, those where the text so far names no older model.
-/

namespace MultiAgentTrading

namespace ModelRegistry

variable {M : Type*} (lower : Text → Text) (formats : Formats M)

/-- What a call has written up to a crash point; with a name that cannot be stored it raises before the first file. -/
def written (d : Directory) (c : SaveCall M) (p : Writes.CrashPoint) : List (Text × Text) :=
  if storable (normalise lower c.pair) then Writes.cut (filesOf lower formats d c) p else []

/-- The directory after a crash inside the call. -/
def crashedSave (d : Directory) (c : SaveCall M) (p : Writes.CrashPoint) : Directory :=
  Writes.writeAll d (written lower formats d c p)

/-- A lookup after the crash finds what it found before, nothing if nothing was saved, or the new model if it and its
sidecars are complete. -/
def CrashHarmless (s : Registry M) (c : SaveCall M) (p : Writes.CrashPoint) : Prop :=
  getLatestPath lower (crashedSave lower formats s.directory c p) c.pair = getLatestPath lower s.directory c.pair ∨
  ((∀ x ∈ s.saved, x.1.pair ≠ c.pair) ∧
    getLatestPath lower (crashedSave lower formats s.directory c p) c.pair = none) ∨
  (getLatestPath lower (crashedSave lower formats s.directory c p) c.pair =
      some (modelFile (newBase lower s.directory c)) ∧
    ∀ f ∈ modelFiles lower formats s.directory c,
      (crashedSave lower formats s.directory c p).get? f.1 = some f.2)

/-- What has been written of the pointer names no model that was there; and if the pointer has not been begun, it names
a model, or the new model and its sidecars are complete, or nothing has been written. -/
structure CutSafely (d : Directory) (c : SaveCall M) (p : Writes.CrashPoint) : Prop where
  pointer : ∀ text, (latestPointer (normalise lower c.pair), text) ∈ written lower formats d c p →
    modelFile (TextFiles.readBack text) ∉ d.keys
  files : (∀ text, (latestPointer (normalise lower c.pair), text) ∉ written lower formats d c p) →
    (pointed d (normalise lower c.pair)).isSome = true ∨
    (∀ f ∈ modelFiles lower formats d c, f ∈ written lower formats d c p) ∨ written lower formats d c p = []

variable {d : Directory} {n : Text → ℕ}

/-! ### The directory after the crash -/

private theorem written_eq_cut {c : SaveCall M} {p : Writes.CrashPoint} (h : written lower formats d c p ≠ []) :
    written lower formats d c p = Writes.cut (filesOf lower formats d c) p := by
  rw [written] at h ⊢
  split
  · rfl
  case isFalse hstorable => exact absurd (if_neg hstorable) h

private theorem nodup_written (c : SaveCall M) (p : Writes.CrashPoint) :
    ((written lower formats d c p).map Prod.fst).Nodup := by
  rw [written]
  split
  · exact Writes.nodup_cut (nodup_filesOf lower formats c) p
  · exact List.nodup_nil

/-- A file of the call that was not there is complete exactly if it was written whole. -/
private theorem Holds.complete_iff (h : Holds d n) (c : SaveCall M) (p : Writes.CrashPoint) :
    (∀ f ∈ modelFiles lower formats d c, (crashedSave lower formats d c p).get? f.1 = some f.2) ↔
      ∀ f ∈ modelFiles lower formats d c, f ∈ written lower formats d c p := by
  have hmodel : modelFile (newBase lower d c) ∉ d.keys := by
    rw [h.newBase_eq, h.models.mem_iff]
    omega
  have hnew : ∀ f ∈ modelFiles lower formats d c, f.1 ∉ d.keys := by
    intro f hf hmem
    simp only [modelFiles, List.mem_cons, List.not_mem_nil, or_false] at hf
    rcases hf with rfl | rfl | rfl
    · exact hmodel hmem
    · exact hmodel (h.sidecars _ (.inl hmem))
    · exact hmodel (h.sidecars _ (.inr hmem))
  refine forall₂_congr fun f hf => ⟨fun hget => ?_, Writes.get?_writeAll_of_mem (nodup_written lower formats c p)⟩
  by_cases hwritten : written lower formats d c p = []
  · rw [crashedSave, hwritten] at hget
    exact absurd (Dict.mem_keys.2 ⟨_, hget⟩) (hnew f hf)
  · rw [crashedSave, written_eq_cut lower formats hwritten] at hget
    rw [written_eq_cut lower formats hwritten]
    exact (Writes.get?_crashed_iff (nodup_filesOf lower formats c) (hnew f hf) p).1 hget

/-- As soon as anything is written, the new model file is there, complete or not. -/
private theorem Holds.models_crashed (h : Holds d n) {c : SaveCall M} {p : Writes.CrashPoint}
    (hwritten : written lower formats d c p ≠ []) :
    Models (crashedSave lower formats d c p) (bump n (normalise lower c.pair)) := by
  have hcut := written_eq_cut lower formats hwritten
  have hfirst : modelFile (newBase lower d c) ∈ (written lower formats d c p).map Prod.fst := by
    rw [hcut] at hwritten ⊢
    exact Writes.first_mem_cut hwritten
  have hnew := h.newBase_eq lower c
  have hmodels := h.models.writeAll (normalise lower c.pair) (written lower formats d c p)
    fun name hmem hname => by
      rw [hcut] at hmem
      exact not_endsLikeModel_of_mem_filesOf lower formats
        ((Writes.begun_in_order _ p).subset hmem) (by rwa [hnew])
  rw [hnew] at hfirst
  rwa [if_pos hfirst] at hmodels

/-- Without a pointer to a model, a lookup finds the new model file as soon as it is there. -/
private theorem Holds.getLatestPath_crashed (h : Holds d n) {c : SaveCall M} {p : Writes.CrashPoint}
    (hwritten : written lower formats d c p ≠ [])
    (hpointed : pointed (crashedSave lower formats d c p) (normalise lower c.pair) = none) :
    getLatestPath lower (crashedSave lower formats d c p) c.pair = some (modelFile (newBase lower d c)) := by
  rw [getLatestPath_of_scan lower (h.models_crashed lower formats hwritten) hpointed, h.newBase_eq]
  simp [bump]

/-- The new model is not what a lookup found before. -/
private theorem Holds.getLatestPath_ne_new (h : Holds d n) (c : SaveCall M) :
    getLatestPath lower d c.pair ≠ some (modelFile (newBase lower d c)) := by
  rw [h.getLatestPath_eq, h.newBase_eq]
  split
  · exact Option.some_ne_none _ |>.symm
  · intro heq
    have hversion := (baseName_inj (modelFile_injective (Option.some.inj heq))).2
    omega

/-! ### Before the pointer is begun -/

/-- The pointer names what it named. -/
private theorem Holds.pointed_crashed (h : Holds d n) {c : SaveCall M} {p : Writes.CrashPoint}
    (hwritten : written lower formats d c p ≠ [])
    (hbegun : ∀ text, (latestPointer (normalise lower c.pair), text) ∉ written lower formats d c p) :
    pointed (crashedSave lower formats d c p) (normalise lower c.pair) = pointed d (normalise lower c.pair) := by
  have hmodels := h.models_crashed lower formats hwritten
  have hget : (crashedSave lower formats d c p).get? (latestPointer (normalise lower c.pair)) =
      d.get? (latestPointer (normalise lower c.pair)) := by
    refine Writes.get?_writeAll_of_not_mem fun hmem => ?_
    obtain ⟨f, hf, hname⟩ := List.mem_map.1 hmem
    exact hbegun f.2 (hname ▸ hf)
  have hpointer := h.pointers (normalise lower c.pair)
  by_cases hzero : n (normalise lower c.pair) = 0
  · rw [if_pos hzero] at hpointer
    rw [pointed_of_none hpointer, pointed_of_none (hget.trans hpointer)]
  · rw [if_neg hzero] at hpointer
    rw [pointed_of_text hpointer, pointed_of_text (hget.trans hpointer), readBack_baseName]
    -- the stem that the pointer is read with gains no version, unless it is the stem itself
    have hsame : modelFile (baseName (TextFiles.universalNewlines (normalise lower c.pair))
          (n (normalise lower c.pair))) ∈ (crashedSave lower formats d c p).keys ↔
        modelFile (baseName (TextFiles.universalNewlines (normalise lower c.pair))
          (n (normalise lower c.pair))) ∈ d.keys := by
      rw [hmodels.mem_iff, h.models.mem_iff, bump]
      split
      case isTrue hstem =>
        rw [hstem]
        omega
      case isFalse => exact Iff.rfl
    simp only [hsame]

private theorem crashHarmless_iff_of_not_begun {s : Registry M} (h : Holds s.directory n) {c : SaveCall M}
    {p : Writes.CrashPoint} (hwritten : written lower formats s.directory c p ≠ [])
    (hbegun : ∀ text, (latestPointer (normalise lower c.pair), text) ∉ written lower formats s.directory c p) :
    CrashHarmless lower formats s c p ↔ (pointed s.directory (normalise lower c.pair)).isSome = true ∨
      ∀ f ∈ modelFiles lower formats s.directory c, f ∈ written lower formats s.directory c p := by
  have hpointed := h.pointed_crashed lower formats hwritten hbegun
  cases hbefore : pointed s.directory (normalise lower c.pair) with
  | some path =>
    rw [hbefore] at hpointed
    refine iff_of_true (.inl ?_) (.inl rfl)
    rw [getLatestPath_of_pointed lower hpointed, getLatestPath_of_pointed lower hbefore]
  | none =>
    rw [hbefore] at hpointed
    have hafter := h.getLatestPath_crashed lower formats hwritten hpointed
    have hold := h.getLatestPath_ne_new lower c
    rw [CrashHarmless, hafter, ← h.complete_iff lower formats c p, or_iff_right (Ne.symm hold), or_iff_right
      (fun hnone => Option.some_ne_none _ hnone.2), and_iff_right rfl, or_iff_right (by simp)]

/-! ### Once the pointer is begun -/

/-- The files before the pointer are complete, and the pointer holds a beginning of the new base name. -/
private theorem spec_of_begun {c : SaveCall M} {p : Writes.CrashPoint} {text : Text}
    (hbegun : (latestPointer (normalise lower c.pair), text) ∈ written lower formats d c p) :
    (∀ f ∈ modelFiles lower formats d c, f ∈ written lower formats d c p) ∧ text <+: newBase lower d c := by
  have hcut := written_eq_cut lower formats (List.ne_nil_of_mem hbegun)
  rw [hcut] at hbegun ⊢
  constructor
  · have hnodup := nodup_filesOf lower formats (d := d) c
    rw [filesOf, List.map_append, List.nodup_append] at hnodup
    refine fun f hf => Writes.subset_cut_of_last_mem (fun hmem => ?_) (List.mem_map.2 ⟨_, hbegun, rfl⟩) hf
    exact hnodup.2.2 _ hmem _ List.mem_cons_self rfl
  · obtain ⟨g, hg, hname, htext⟩ := Writes.exists_of_mem_cut hbegun
    have hlast : (latestPointer (normalise lower c.pair), newBase lower d c) ∈ filesOf lower formats d c := by
      simp [filesOf]
    have heq := List.inj_on_of_nodup_map (nodup_filesOf lower formats c) hg hlast hname.symm
    rw [heq] at htext
    exact htext

/-- The beginning of the new base name is not read as the base name of the model that a lookup finds. -/
private theorem readBack_ne_found {pair : Pair} (hpos : n (normalise lower pair) ≠ 0) {text : Text}
    (htext : text <+: baseName (normalise lower pair) (n (normalise lower pair) + 1)) :
    TextFiles.readBack text ≠ baseName (foundStem n (normalise lower pair)) (n (normalise lower pair)) := by
  intro heq
  have hread := readBack_begins_baseName lower pair _ htext
  rw [heq, foundStem] at hread
  split at hread
  case isTrue =>
    rw [baseName, baseName, List.prefix_append_right_inj, List.cons_prefix_cons, List.cons_prefix_cons] at hread
    exact TextFiles.not_toDigits_prefix_succ (Nat.pos_of_ne_zero hpos) hread.2.2
  case isFalse hlt =>
    -- the stem holds a carriage return, what is read back does not
    have hreturn : '\r' ∈ normalise lower pair := by
      by_contra hnone
      rw [TextFiles.universalNewlines_of_not_mem hnone] at hlt
      exact hlt le_rfl
    rw [← universalNewlines_baseName] at hread
    exact TextFiles.not_mem_universalNewlines _ (hread.subset (List.mem_append_left _ hreturn))

private theorem crashHarmless_iff_of_begun {s : Registry M} (h : Holds s.directory n) {c : SaveCall M}
    {p : Writes.CrashPoint} {text : Text}
    (hbegun : (latestPointer (normalise lower c.pair), text) ∈ written lower formats s.directory c p) :
    CrashHarmless lower formats s c p ↔ modelFile (TextFiles.readBack text) ∉ s.directory.keys := by
  have hwritten := List.ne_nil_of_mem hbegun
  obtain ⟨hcomplete, htext⟩ := spec_of_begun lower formats hbegun
  have hget : (crashedSave lower formats s.directory c p).get? (latestPointer (normalise lower c.pair)) = some text :=
    Writes.get?_writeAll_of_mem (nodup_written lower formats c p) hbegun
  have hpointed := pointed_of_text hget
  constructor
  · intro hharmless hold
    have hkept : modelFile (TextFiles.readBack text) ∈ (crashedSave lower formats s.directory c p).keys :=
      Writes.mem_keys_writeAll.2 (.inr hold)
    rw [if_pos hkept] at hpointed
    rw [CrashHarmless, getLatestPath_of_pointed lower hpointed] at hharmless
    rcases hharmless with hsame | ⟨-, hnone⟩ | ⟨hnew, -⟩
    · rw [h.getLatestPath_eq] at hsame
      split at hsame
      · cases hsame
      case isFalse hpos =>
        rw [h.newBase_eq] at htext
        exact readBack_ne_found lower hpos htext (modelFile_injective (Option.some.inj hsame))
    · cases hnone
    · rw [Option.some.inj hnew, h.newBase_eq, h.models.mem_iff] at hold
      omega
  · intro hold
    refine .inr (.inr ⟨?_, (h.complete_iff lower formats c p).2 hcomplete⟩)
    split at hpointed
    case isTrue hkept =>
      rw [getLatestPath_of_pointed lower hpointed]
      -- the only model file that is there and was not is the new one
      obtain ⟨stem, v, hv, hbase⟩ := (h.models_crashed lower formats hwritten).modelFile_mem_iff.1 hkept
      rw [h.models.modelFile_mem_iff] at hold
      have hlast := (le_bump_iff.1 hv.2).resolve_left fun hle => hold ⟨stem, v, ⟨hv.1, hle⟩, hbase⟩
      rw [hbase, hlast.1, hlast.2, h.newBase_eq]
    case isFalse => exact h.getLatestPath_crashed lower formats hwritten hpointed

/-! ### Every crash point -/

/-- After every run of saves, the harmless crash points of a further save are those that cut it safely. -/
theorem crash_harmless_iff {calls : List (SaveCall M)} {s : Registry M}
    (h : Runs.exec (step lower formats) Registry.new calls = some s) (c : SaveCall M) (p : Writes.CrashPoint) :
    CrashHarmless lower formats s c p ↔ CutSafely lower formats s.directory c p := by
  have hholds := (numbered_run lower formats h).holds
  by_cases hwritten : written lower formats s.directory c p = []
  · have hsame : crashedSave lower formats s.directory c p = s.directory := by
      rw [crashedSave, hwritten]
      rfl
    refine iff_of_true (.inl (by rw [hsame])) ⟨fun text hmem => ?_, fun _ => .inr (.inr hwritten)⟩
    rw [hwritten] at hmem
    cases hmem
  · by_cases hbegun : ∃ text, (latestPointer (normalise lower c.pair), text) ∈ written lower formats s.directory c p
    · obtain ⟨text, htext⟩ := hbegun
      rw [crashHarmless_iff_of_begun lower formats hholds htext]
      constructor
      · intro hnew
        refine ⟨fun text' htext' => ?_, fun hnone => absurd htext (hnone text)⟩
        have heq := List.inj_on_of_nodup_map (nodup_written lower formats c p) htext' htext rfl
        rwa [(Prod.mk.inj heq).2]
      · exact fun hsafe => hsafe.pointer text htext
    · have hnone : ∀ text, (latestPointer (normalise lower c.pair), text) ∉ written lower formats s.directory c p :=
        fun text htext => hbegun ⟨text, htext⟩
      rw [crashHarmless_iff_of_not_begun lower formats hholds hwritten hnone]
      constructor
      · exact fun hfiles =>
          ⟨fun text htext => absurd htext (hnone text), fun _ => hfiles.imp_right .inl⟩
      · exact fun hsafe => (hsafe.files hnone).imp_right fun hfiles => hfiles.resolve_right hwritten

/-- A crash in the metrics of the second save leaves the first model in place. -/
theorem crash_harmless_iff_secondSave : ∃ s,
    Runs.exec (step asciiLower textFormats) Registry.new [minuteSave] = some s ∧
    CrashHarmless asciiLower textFormats s minuteSave (.during 1 2) := by
  obtain ⟨s, hs⟩ := Option.isSome_iff_exists.1
    (show (Runs.exec (step asciiLower textFormats) Registry.new [minuteSave]).isSome = true by decide +kernel)
  have heval : (Runs.exec (step asciiLower textFormats) Registry.new [minuteSave]).map (fun s =>
      ((written asciiLower textFormats s.directory minuteSave (.during 1 2)).map Prod.fst,
        (pointed s.directory (normalise asciiLower minutePair)).isSome)) =
      some (["btc_usdt_1m_v2.joblib".toList, "btc_usdt_1m_v2_metrics.json".toList], true) := by decide +kernel
  rw [hs, Option.map_some, Option.some_inj, Prod.mk.injEq] at heval
  refine ⟨s, hs, (crash_harmless_iff asciiLower textFormats hs minuteSave (.during 1 2)).2
    ⟨fun text htext => ?_, fun _ => .inl heval.2⟩⟩
  have hname := List.mem_map_of_mem (f := Prod.fst) htext
  rw [heval.1] at hname
  exact absurd hname (show latestPointer (normalise asciiLower minutePair) ∉ _ by decide +kernel)

/-- A crash in the model file of the first save: the lookup finds the three characters that were written. -/
theorem half_written_model_found :
    getLatestPath asciiLower
        (crashedSave asciiLower textFormats (Registry.new : Registry Text).directory minuteSave (.during 0 3))
        minutePair = some "btc_usdt_1m_v1.joblib".toList ∧
      (crashedSave asciiLower textFormats (Registry.new : Registry Text).directory minuteSave (.during 0 3)).get?
        "btc_usdt_1m_v1.joblib".toList = some "min".toList ∧
      ¬CrashHarmless asciiLower textFormats Registry.new minuteSave (.during 0 3) := by
  have hfound : getLatestPath asciiLower
      (crashedSave asciiLower textFormats (Registry.new : Registry Text).directory minuteSave (.during 0 3))
      minutePair = some "btc_usdt_1m_v1.joblib".toList := by decide +kernel
  have hcontents : (crashedSave asciiLower textFormats (Registry.new : Registry Text).directory minuteSave
      (.during 0 3)).get? "btc_usdt_1m_v1.joblib".toList = some "min".toList := by decide +kernel
  have hbefore : getLatestPath asciiLower (Registry.new : Registry Text).directory minutePair = none := by
    decide +kernel
  refine ⟨hfound, hcontents, ?_⟩
  rintro (hsame | ⟨-, hnone⟩ | ⟨-, hcomplete⟩)
  · exact absurd (hfound.symm.trans (hsame.trans hbefore)) (by simp)
  · exact absurd (hfound.symm.trans hnone) (by simp)
  · have hmodel := hcomplete ("btc_usdt_1m_v1.joblib".toList, "minutes".toList)
      (List.mem_of_mem_head? (by decide +kernel))
    exact absurd (hcontents.symm.trans hmodel) (by decide +kernel)

end ModelRegistry

end MultiAgentTrading
