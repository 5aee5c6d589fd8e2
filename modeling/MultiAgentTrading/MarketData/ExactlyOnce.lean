import MultiAgentTrading.MarketData.Feed

/-!
# Every candle is published once

The polls of one symbol and timeframe return the three newest rows, and a warm-up before them any number.  The
normaliser remembers 200 timestamps, so its memory may reach back less far than the warm-up; `emit_spec` says what it
passes on when a batch is ascending and newer than what it has forgotten.  `Covered` is what a run keeps so that this
is the case for the next response: of the three newest rows, all up to the last published one are published.
-/

namespace MultiAgentTrading

/-! ### A batch that reaches back no further than the memory -/

namespace OHLCVNormaliser

/-- A batch in ascending order, each of whose candles is remembered or newer than all that is remembered: exactly those
that are not remembered pass, and the memory keeps the newest timestamps. -/
private theorem emit_spec {key : String × String} {n : OHLCVNormaliser} {cs : List OHLCVCandle}
    (hsorted : cs.Pairwise fun c c' => c.timestamp < c'.timestamp)
    (hcs : ∀ c ∈ cs, c.timestamp ∈ n.seenFor key ∨ ∀ t ∈ n.seenFor key, t < c.timestamp)
    (hn : (n.seenFor key).length ≤ dedupBufferSize) :
    (emit key n cs).1 = cs.filter (fun c => c.timestamp ∉ n.seenFor key) ∧
      (emit key n cs).2.seenFor key =
        Recent.keep dedupBufferSize (n.seenFor key ++ (emit key n cs).1.map OHLCVCandle.timestamp) := by
  induction cs generalizing n with
  | nil => exact ⟨rfl, by simp [emit, Recent.keep_of_length_le hn]⟩
  | cons c cs ih =>
    rw [List.pairwise_cons] at hsorted
    obtain ⟨hnext, hsorted⟩ := hsorted
    have hrest := fun c' hc' => hcs c' (List.mem_cons_of_mem _ hc')
    unfold emit
    by_cases hdup : c.timestamp ∈ n.seenFor key
    · have hc : n.isDuplicate key c = true := decide_eq_true hdup
      obtain ⟨hout, hseen⟩ := ih hsorted hrest hn
      rw [if_pos hc, List.filter_cons_of_neg (by simpa using hdup)]
      exact ⟨hout, hseen⟩
    · have hc : ¬n.isDuplicate key c = true := fun hc => hdup (of_decide_eq_true hc)
      have hnew : ∀ t ∈ n.seenFor key, t < c.timestamp := (hcs c List.mem_cons_self).resolve_left hdup
      have hrecord := seenFor_record n key key c
      rw [if_pos rfl] at hrecord
      -- every later candle is newer than all that is remembered now
      have hlater : ∀ c' ∈ cs, ∀ t ∈ (n.record key c).seenFor key, t < c'.timestamp := by
        intro c' hc' t ht
        rw [hrecord] at ht
        rcases List.mem_append.1 (Recent.keep_subset _ _ ht) with hold | hlast
        · exact (hnew t hold).trans (hnext c' hc')
        · rw [List.mem_singleton.1 hlast]
          exact hnext c' hc'
      obtain ⟨hout, hseen⟩ := ih (n := n.record key c) hsorted (fun c' hc' => .inr (hlater c' hc'))
        (hrecord ▸ Recent.length_keep_le _ _)
      have hall : cs.filter (fun c' => c'.timestamp ∉ (n.record key c).seenFor key) =
          cs.filter fun c' => c'.timestamp ∉ n.seenFor key := by
        refine List.filter_congr fun c' hc' => ?_
        have hnow : c'.timestamp ∉ (n.record key c).seenFor key := fun hmem => lt_irrefl _ (hlater c' hc' _ hmem)
        have hthen : c'.timestamp ∉ n.seenFor key := fun hmem => lt_asymm (hnew _ hmem) (hnext c' hc')
        simp [hnow, hthen]
      rw [if_neg hc, List.filter_cons_of_pos (by simpa using hdup), ← hall, ← hout]
      refine ⟨rfl, ?_⟩
      show (emit key (n.record key c) cs).2.seenFor key = _
      rw [hseen, hrecord, Recent.keep_keep_append, List.append_assoc]
      rfl

end OHLCVNormaliser

namespace CandleHistory

variable {key : String × String} (h : CandleHistory key)

theorem closeTime_strictMono : StrictMono h.closeTime := fun _ _ hlt =>
  add_lt_add_left (h.openTime_strictMono hlt) _

/-- A row appears once its period has begun. -/
theorem lt_begun_iff {k : ℕ} {t : ℚ} : k < h.begun t ↔ h.openTime k ≤ t := by
  have hfloor : (k : ℤ) ≤ ⌊(t - h.origin) / h.period⌋ ↔ h.openTime k ≤ t := by
    rw [Int.le_floor, le_div_iff₀ h.period_pos]
    unfold openTime
    constructor <;> intro hle <;> push_cast at * <;> linarith
  rw [← hfloor, begun]
  omega

theorem begun_mono : Monotone h.begun := by
  intro t t' hle
  by_contra hlt
  rw [not_le] at hlt
  exact absurd ((h.lt_begun_iff.1 hlt).trans hle) (mt h.lt_begun_iff.2 (lt_irrefl _))

theorem mem_newest {limit : ℕ} {t : ℚ} {k : ℕ} : k ∈ h.newest limit t ↔ h.begun t ≤ k + limit ∧ k < h.begun t := by
  rw [newest, Recent.keep, List.length_range, List.mem_drop_iff_getElem]
  constructor
  · rintro ⟨j, hj, rfl⟩
    rw [List.length_range] at hj
    rw [List.getElem_range]
    omega
  · rintro ⟨hle, hlt⟩
    refine ⟨k - (h.begun t - limit), ?_, ?_⟩
    · rw [List.length_range]
      omega
    · rw [List.getElem_range]
      omega

theorem sorted_newest (limit : ℕ) (t : ℚ) : (h.newest limit t).Pairwise (· < ·) :=
  List.pairwise_lt_range.sublist (List.drop_sublist _ _)

end CandleHistory

namespace Feed

variable {x : Exchange}

/-! ### Contiguous responses -/

/-- The fetches of a symbol and timeframe are a warm-up of at least three rows, then polls of three, of the newest rows
each, at nondecreasing times; a response can have its rows in any order. -/
structure PolledFor (x : Exchange) (key : String × String) (fetches : List Fetch) : Prop where
  sorted : (fetches.filter fun f => f.key = key).Pairwise fun f f' => f.responseTime ≤ f'.responseTime
  processed : ∀ f ∈ fetches, f.key = key → f.responseTime ≤ f.processedAt
  warmUp : ∀ f ∈ (fetches.filter fun f => f.key = key).head?, ∃ limit, 3 ≤ limit ∧
    f.rows.Perm ((x key).newest limit f.responseTime)
  polls : ∀ f ∈ (fetches.filter fun f => f.key = key).tail, f.rows.Perm ((x key).newest 3 f.responseTime)

private theorem batch_eq {f : Fetch} (hknown : (timeframeSecondsTable.get? f.key.2).isSome = true) {rows : List ℕ}
    (hrows : f.rows.Perm rows) (hsorted : rows.Pairwise (· < ·)) :
    f.batch x = (rows.filter fun k => (x f.key).closeTime k ≤ f.processedAt).map fun k =>
      (x f.key).row k f.responseTime := by
  have htime : ∀ k, ((x f.key).row k f.responseTime).timestamp = (x f.key).openTime k := fun k =>
    (x f.key).row_timestamp k f.responseTime
  have hkept : f.keptRows x = f.rows.filter fun k => (x f.key).closeTime k ≤ f.processedAt :=
    List.filter_congr fun k _ => decide_eq_decide.2 (Fetch.keeps_iff hknown)
  rw [Fetch.batch, Fetch.closedCandles_candles, hkept]
  have hperm := (hrows.filter fun k => (x f.key).closeTime k ≤ f.processedAt).map fun k =>
    (x f.key).row k f.responseTime
  have hsort := List.pairwise_insertionSort (fun c c' : OHLCVCandle => c.timestamp ≤ c'.timestamp)
    ((f.rows.filter fun k => (x f.key).closeTime k ≤ f.processedAt).map fun k => (x f.key).row k f.responseTime)
  refine List.Perm.eq_of_pairwise ?_ hsort ?_ ((List.perm_insertionSort _ _).trans hperm)
  · intro c c' hc hc' hle hge
    obtain ⟨k, -, rfl⟩ := List.mem_map.1 ((List.mem_insertionSort _).1 hc)
    obtain ⟨k', -, rfl⟩ := List.mem_map.1 hc'
    rw [htime, htime] at hle hge
    rw [(x f.key).openTime_strictMono.injective (le_antisymm hle hge)]
  · rw [List.pairwise_map]
    refine (hsorted.sublist List.filter_sublist).imp fun hlt => ?_
    rw [htime, htime]
    exact ((x f.key).openTime_strictMono hlt).le

/-- In an ascending list with no element from `k + 3` on, at most two come after `k`. -/
private theorem few_after {rows : List ℕ} (hsorted : rows.Pairwise (· < ·)) {k : ℕ} (hk : k ∈ rows)
    (hlast : ∀ m ∈ rows, m < k + 3) : ∃ before after, rows = before ++ k :: after ∧ after.length ≤ 2 := by
  obtain ⟨before, after, rfl⟩ := List.append_of_mem hk
  refine ⟨before, after, rfl, ?_⟩
  have hafter := (List.pairwise_append.1 hsorted).2.1
  rw [List.pairwise_cons] at hafter
  have hnodup : after.Nodup := hafter.2.imp ne_of_lt
  have hsub : after ⊆ [k + 1, k + 2] := by
    intro m hm
    have hgt := hafter.1 m hm
    have hlt := hlast m (List.mem_append_right _ (List.mem_cons_of_mem _ hm))
    have hm : m = k + 1 ∨ m = k + 2 := by omega
    simpa using hm
  exact (List.subperm_of_subset hnodup hsub).length_le

/-- What a run keeps: the published rows are ascending and the memory has the newest of them; they had begun at the last
response, and of the three newest rows at it all up to the last published one are published. -/
structure Covered (x : Exchange) (key : String × String) (fetches : List Fetch) (s : Feed) (rows : List ℕ) : Prop where
  timestamps : ((s.publishedFor key).map fun p => p.candle.timestamp) = rows.map (x key).openTime
  sorted : rows.Pairwise (· < ·)
  seen : s.seen key = Recent.keep dedupBufferSize (rows.map (x key).openTime)
  begun : ∀ t, (∀ f ∈ fetches, f.key = key → f.responseTime ≤ t) → ∀ k ∈ rows, k < (x key).begun t
  gapless : ∀ t, (∀ f ∈ fetches, f.key = key → f.responseTime ≤ t) →
    ∀ k m, (x key).begun t ≤ k + 3 → m ∈ rows → k ≤ m → k ∈ rows

/-- What is assumed of one more response: its rows are the newest ones, three of them, or more if nothing has been
published. -/
private structure Continues (x : Exchange) (fetches : List Fetch) (rows : List ℕ) (f : Fetch) (limit : ℕ) : Prop where
  known : (timeframeSecondsTable.get? f.key.2).isSome = true
  last : ∀ f' ∈ fetches, f'.key = f.key → f'.responseTime ≤ f.responseTime
  limit_ge : 3 ≤ limit
  perm : f.rows.Perm ((x f.key).newest limit f.responseTime)
  first : limit = 3 ∨ rows = []

/-- The rows of a response that have closed, in ascending order. -/
private def closedNewest (x : Exchange) (f : Fetch) (limit : ℕ) : List ℕ :=
  ((x f.key).newest limit f.responseTime).filter fun k => (x f.key).closeTime k ≤ f.processedAt

private theorem mem_closedNewest {f : Fetch} {limit k : ℕ} : k ∈ closedNewest x f limit ↔
    k ∈ (x f.key).newest limit f.responseTime ∧ (x f.key).closeTime k ≤ f.processedAt := by
  simp [closedNewest]

private theorem sorted_closedNewest (x : Exchange) (f : Fetch) (limit : ℕ) :
    (closedNewest x f limit).Pairwise (· < ·) :=
  ((x f.key).sorted_newest _ _).sublist List.filter_sublist

/-- A row of the response is published exactly if it is remembered, and is newer than all published ones otherwise. -/
private theorem Covered.seen_iff {f : Fetch} {fetches : List Fetch} {s : Feed} {rows : List ℕ} {limit : ℕ}
    (h : Covered x f.key fetches s rows) (hf : Continues x fetches rows f limit) {k : ℕ}
    (hk : k ∈ (x f.key).newest limit f.responseTime) :
    ((x f.key).openTime k ∈ s.seen f.key ↔ k ∈ rows) ∧ (k ∉ rows → ∀ m ∈ rows, m < k) := by
  obtain ⟨hle, hlt⟩ := (x f.key).mem_newest.1 hk
  refine ⟨⟨fun hmem => ?_, fun hmem => ?_⟩, fun hnot m hm => ?_⟩
  · rw [h.seen] at hmem
    obtain ⟨m, hm, he⟩ := List.mem_map.1 (Recent.keep_subset _ _ hmem)
    rwa [← (x f.key).openTime_strictMono.injective he]
  · obtain rfl : limit = 3 := hf.first.resolve_right (List.ne_nil_of_mem hmem)
    have hend : ∀ m ∈ rows, m < k + 3 := fun m hm => (h.begun _ hf.last m hm).trans_le hle
    obtain ⟨before, after, hsplit, hfew⟩ := few_after h.sorted hmem hend
    rw [h.seen, hsplit, List.map_append, List.map_cons]
    refine Recent.mem_keep ?_
    rw [List.length_map, dedupBufferSize]
    omega
  · obtain rfl : limit = 3 := hf.first.resolve_right (List.ne_nil_of_mem hm)
    by_contra hge
    exact hnot (h.gapless _ hf.last k m hle hm (not_lt.1 hge))

/-- Exactly the closed rows that were not published are passed on. -/
private theorem Covered.emit {f : Fetch} {fetches : List Fetch} {s : Feed} {rows : List ℕ} {limit : ℕ}
    (h : Covered x f.key fetches s rows) (hf : Continues x fetches rows f limit) :
    (OHLCVNormaliser.emit f.key s.normaliser (f.batch x)).1.map OHLCVCandle.timestamp =
        ((closedNewest x f limit).filter fun k => k ∉ rows).map (x f.key).openTime ∧
      (s.process x f).seen f.key = Recent.keep dedupBufferSize
        ((rows ++ (closedNewest x f limit).filter fun k => k ∉ rows).map (x f.key).openTime) := by
  have hmono := (x f.key).openTime_strictMono
  have htime : ∀ k, ((x f.key).row k f.responseTime).timestamp = (x f.key).openTime k := fun k =>
    (x f.key).row_timestamp k f.responseTime
  have hbatch : f.batch x = (closedNewest x f limit).map fun k => (x f.key).row k f.responseTime :=
    batch_eq hf.known hf.perm ((x f.key).sorted_newest _ _)
  have hsorted : (f.batch x).Pairwise fun c c' => c.timestamp < c'.timestamp := by
    rw [hbatch, List.pairwise_map]
    refine (sorted_closedNewest x f limit).imp fun hlt => ?_
    rw [htime, htime]
    exact hmono hlt
  have hremembered : ∀ c ∈ f.batch x, c.timestamp ∈ s.seen f.key ∨ ∀ t ∈ s.seen f.key, t < c.timestamp := by
    intro c hc
    rw [hbatch] at hc
    obtain ⟨k, hk, rfl⟩ := List.mem_map.1 hc
    obtain ⟨hiff, hnewer⟩ := h.seen_iff hf (mem_closedNewest.1 hk).1
    rw [htime]
    by_cases hmem : k ∈ rows
    · exact .inl (hiff.2 hmem)
    · refine .inr fun t ht => ?_
      rw [h.seen] at ht
      obtain ⟨m, hm, rfl⟩ := List.mem_map.1 (Recent.keep_subset _ _ ht)
      exact hmono (hnewer hmem m hm)
  have hlength : (s.seen f.key).length ≤ dedupBufferSize := by
    rw [h.seen]
    exact Recent.length_keep_le _ _
  obtain ⟨hout, hmemory⟩ := OHLCVNormaliser.emit_spec hsorted hremembered hlength
  have hstamps : (OHLCVNormaliser.emit f.key s.normaliser (f.batch x)).1.map OHLCVCandle.timestamp =
      ((closedNewest x f limit).filter fun k => k ∉ rows).map (x f.key).openTime := by
    rw [hout, hbatch, List.filter_map, List.map_map]
    have hsame : (closedNewest x f limit).filter
        ((fun c : OHLCVCandle => decide (c.timestamp ∉ s.normaliser.seenFor f.key)) ∘
          fun k => (x f.key).row k f.responseTime) = (closedNewest x f limit).filter fun k => k ∉ rows := by
      refine List.filter_congr fun k hk => ?_
      have hiff := not_congr (h.seen_iff hf (mem_closedNewest.1 hk).1).1
      rw [Function.comp_apply, htime]
      exact decide_eq_decide.2 hiff
    rw [hsame]
    exact List.map_congr_left fun k _ => htime k
  refine ⟨hstamps, ?_⟩
  rw [seen_process, hmemory, hstamps, List.map_append]
  show Recent.keep _ (s.seen f.key ++ _) = _
  rw [h.seen, Recent.keep_keep_append]

private theorem Covered.process {f : Fetch} {fetches : List Fetch} {s : Feed} {rows : List ℕ} {limit : ℕ}
    (h : Covered x f.key fetches s rows) (hf : Continues x fetches rows f limit) :
    Covered x f.key (fetches ++ [f]) (s.process x f)
      (rows ++ (closedNewest x f limit).filter fun k => k ∉ rows) := by
  obtain ⟨hstamps, hseen⟩ := h.emit hf
  have hold : ∀ t, (∀ f' ∈ fetches ++ [f], f'.key = f.key → f'.responseTime ≤ t) →
      (∀ f' ∈ fetches, f'.key = f.key → f'.responseTime ≤ t) ∧ (x f.key).begun f.responseTime ≤ (x f.key).begun t :=
    fun t ht => ⟨fun f' hf' => ht f' (List.mem_append_left _ hf'),
      (x f.key).begun_mono (ht f (List.mem_append_right _ (List.mem_singleton_self f)) rfl)⟩
  have hnew : ∀ {k}, k ∈ (closedNewest x f limit).filter (fun k => k ∉ rows) ↔
      k ∈ closedNewest x f limit ∧ k ∉ rows := by simp
  refine ⟨?_, ?_, hseen, ?_, ?_⟩
  · rw [publishedFor_process, List.map_append, h.timestamps, List.map_append, ← hstamps, List.map_map]
    rfl
  · rw [List.pairwise_append]
    refine ⟨h.sorted, (sorted_closedNewest x f limit).sublist List.filter_sublist, fun m hm k hk => ?_⟩
    obtain ⟨hk, hnot⟩ := hnew.1 hk
    exact (h.seen_iff hf (mem_closedNewest.1 hk).1).2 hnot m hm
  · intro t ht k hk
    rcases List.mem_append.1 hk with hk | hk
    · exact h.begun t (hold t ht).1 k hk
    · have hin := (mem_closedNewest.1 (hnew.1 hk).1).1
      exact ((x f.key).mem_newest.1 hin).2.trans_le (hold t ht).2
  · intro t ht k m hk hm hle
    rcases List.mem_append.1 hm with hm | hm
    · exact List.mem_append_left _ (h.gapless t (hold t ht).1 k m hk hm hle)
    · -- a newest row below a closed one is closed too
      obtain ⟨hin, hend⟩ := mem_closedNewest.1 (hnew.1 hm).1
      have hlimit := hf.limit_ge
      have hbegun := (hold t ht).2
      have hmlt := ((x f.key).mem_newest.1 hin).2
      have hkclosed : k ∈ closedNewest x f limit := mem_closedNewest.2
        ⟨(x f.key).mem_newest.2 ⟨by omega, by omega⟩, ((x f.key).closeTime_strictMono.monotone hle).trans hend⟩
      by_cases hk' : k ∈ rows
      · exact List.mem_append_left _ hk'
      · exact List.mem_append_right _ (hnew.2 ⟨hkclosed, hk'⟩)

/-- Fetches of other symbols and timeframes do not matter. -/
private theorem Covered.process_of_ne {key : String × String} {f : Fetch} {fetches : List Fetch} {s : Feed}
    {rows : List ℕ} (h : Covered x key fetches s rows) (hne : f.key ≠ key) :
    Covered x key (fetches ++ [f]) (s.process x f) rows := by
  obtain ⟨hseen, hpublished⟩ := s.process_of_ne (x := x) hne
  have hsub : ∀ t, (∀ f' ∈ fetches ++ [f], f'.key = key → f'.responseTime ≤ t) →
      ∀ f' ∈ fetches, f'.key = key → f'.responseTime ≤ t := fun t ht f' hf' => ht f' (List.mem_append_left _ hf')
  exact ⟨hpublished ▸ h.timestamps, h.sorted, hseen ▸ h.seen, fun t ht => h.begun t (hsub t ht),
    fun t ht => h.gapless t (hsub t ht)⟩

/-- The fetches before the last one are polled too. -/
private theorem PolledFor.init {key : String × String} {fetches : List Fetch} {f : Fetch}
    (h : PolledFor x key (fetches ++ [f])) : PolledFor x key fetches := by
  obtain ⟨hsorted, hprocessed, hwarm, hpolls⟩ := h
  rw [List.filter_append] at hsorted hwarm hpolls
  refine ⟨(List.pairwise_append.1 hsorted).1, fun f' hf' => hprocessed f' (List.mem_append_left _ hf'), ?_, ?_⟩
  · intro w hw
    refine hwarm w ?_
    rw [List.head?_append, Option.mem_def.1 hw]
    rfl
  · intro p hp
    refine hpolls p ?_
    rw [List.tail_append_of_ne_nil (List.ne_nil_of_mem (List.mem_of_mem_tail hp))]
    exact List.mem_append_left _ hp

/-- The last fetch continues what the ones before have published. -/
private theorem PolledFor.continues {fetches : List Fetch} {f : Fetch} (h : PolledFor x f.key (fetches ++ [f]))
    (hknown : (timeframeSecondsTable.get? f.key.2).isSome = true) {rows : List ℕ}
    (hempty : (∀ f' ∈ fetches, f'.key ≠ f.key) → rows = []) : ∃ limit, Continues x fetches rows f limit := by
  obtain ⟨hsorted, -, hwarm, hpolls⟩ := h
  have hlast : [f].filter (fun f' => f'.key = f.key) = [f] := by simp
  rw [List.filter_append, hlast] at hsorted hwarm hpolls
  have hle : ∀ f' ∈ fetches, f'.key = f.key → f'.responseTime ≤ f.responseTime := fun f' hf' hkey =>
    (List.pairwise_append.1 hsorted).2.2 f' (List.mem_filter.2 ⟨hf', decide_eq_true hkey⟩) f List.mem_cons_self
  cases hown : fetches.filter fun f' => f'.key = f.key with
  | nil =>
    have hfirst : ∀ f' ∈ fetches, f'.key ≠ f.key := fun f' hf' => by
      simpa using List.filter_eq_nil_iff.1 hown f' hf'
    rw [hown] at hwarm
    obtain ⟨limit, hlimit, hperm⟩ := hwarm f rfl
    exact ⟨limit, hknown, hle, hlimit, hperm, .inr (hempty hfirst)⟩
  | cons w rest =>
    rw [hown] at hpolls
    refine ⟨3, hknown, hle, le_rfl, hpolls f ?_, .inl rfl⟩
    exact List.mem_append_right _ List.mem_cons_self

private theorem covered_run {key : String × String} (hknown : (timeframeSecondsTable.get? key.2).isSome = true)
    {fetches : List Fetch} (h : PolledFor x key fetches) :
    ∃ rows, Covered x key fetches (run x fetches) rows ∧ ((∀ f ∈ fetches, f.key ≠ key) → rows = []) := by
  induction fetches using List.reverseRecOn with
  | nil =>
    have hseen := (Recent.keep_of_length_le (l := ([] : List ℚ)) (Nat.zero_le dedupBufferSize)).symm
    exact ⟨[], ⟨rfl, List.Pairwise.nil, hseen, by simp, by simp⟩, fun _ => rfl⟩
  | append_singleton fetches f ih =>
    obtain ⟨rows, hcovered, hempty⟩ := ih h.init
    rw [run_concat]
    by_cases hkey : f.key = key
    · subst hkey
      obtain ⟨limit, hf⟩ := h.continues hknown hempty
      exact ⟨_, hcovered.process hf, fun hnone => absurd rfl (hnone f (by simp))⟩
    · exact ⟨rows, hcovered.process_of_ne hkey, fun hnone => hempty fun f' hf' =>
        hnone f' (List.mem_append_left _ hf')⟩

end Feed

/-- The candle feed.  For a symbol and timeframe that is fetched as `PolledFor` says, among any others, the published
candles are strictly increasing in time, each had closed when it was processed, and every candle that was closed when
some response was processed has been published exactly once. -/
theorem candles_published_once (x : Exchange) {key : String × String} {fetches : List Fetch}
    (hknown : (timeframeSecondsTable.get? key.2).isSome = true) (h : Feed.PolledFor x key fetches) :
    let published := (Feed.run x fetches).publishedFor key
    (published.Pairwise fun p p' => p.candle.timestamp < p'.candle.timestamp) ∧
      (∀ p ∈ published, p.candle.closedAt ≤ p.fetch.processedAt) ∧
      ∀ f ∈ fetches, f.key = key → ∀ k ∈ f.rows, (x key).closeTime k ≤ f.processedAt →
        published.countP (fun p => p.candle.timestamp = (x key).openTime k) = 1 := by
  intro published
  obtain ⟨rows, hcovered, -⟩ := Feed.covered_run hknown h
  obtain ⟨horigin, -, hkept⟩ := Feed.sourced_run x key fetches
  have hmono := (x key).openTime_strictMono
  refine ⟨?_, ?_, ?_⟩
  · have hstamps : (published.map fun p => p.candle.timestamp).Pairwise (· < ·) := by
      rw [hcovered.timestamps, List.pairwise_map]
      exact hcovered.sorted.imp fun hlt => hmono hlt
    exact List.pairwise_map.1 hstamps
  · intro p hp
    obtain ⟨-, hkey, k, hk, hrow⟩ := horigin p hp
    have hframe : p.candle.timeframe = p.fetch.key.2 := by
      rw [hrow]
      exact congrArg Prod.snd ((x p.fetch.key).row_key k _)
    rw [← hkey] at hknown
    rw [OHLCVCandle.closedAt, hframe, hrow, (x p.fetch.key).row_timestamp, ← (x p.fetch.key).period_known hknown]
    exact (Fetch.keeps_iff hknown).1 (Fetch.mem_keptRows.1 hk).2
  · intro f hf hkey k hk hend
    subst hkey
    have hkeeps : f.Keeps x k := (Fetch.keeps_iff hknown).2 hend
    obtain ⟨p, hp, ht⟩ := hkept f hf rfl k (Fetch.mem_keptRows.2 ⟨hk, hkeeps⟩)
    have hcount : published.countP (fun p => p.candle.timestamp = (x f.key).openTime k) =
        (rows.map (x f.key).openTime).count ((x f.key).openTime k) := by
      rw [← hcovered.timestamps, List.count, List.countP_map]
      rfl
    rw [hcount]
    refine List.count_eq_one_of_mem (List.Nodup.map hmono.injective (hcovered.sorted.imp ne_of_lt)) ?_
    rw [← hcovered.timestamps]
    exact List.mem_map.2 ⟨p, hp, ht⟩

/-- A warm-up of five rows and two polls, of which the second has a row more. -/
def warmUpAndPolls : List Fetch :=
  [⟨("BTC/USDT", "1m"), [0, 1, 2, 3, 4], 250, 251⟩, ⟨("BTC/USDT", "1m"), [4, 3, 2], 260, 261⟩,
    ⟨("BTC/USDT", "1m"), [3, 4, 5], 310, 311⟩]

theorem candles_published_once_warmUpAndPolls :
    let published := (Feed.run steadyExchange warmUpAndPolls).publishedFor ("BTC/USDT", "1m")
    (published.map fun p => p.candle.timestamp) = [0, 60, 120, 180, 240] ∧
      published.countP (fun p => p.candle.timestamp = (steadyExchange ("BTC/USDT", "1m")).openTime 4) = 1 := by
  have hpolled : Feed.PolledFor steadyExchange ("BTC/USDT", "1m") warmUpAndPolls :=
    { sorted := by decide +kernel
      processed := by decide +kernel
      warmUp := by
        rintro f hf
        obtain rfl : warmUpAndPolls.head (by decide) = f := Option.some.inj hf
        exact ⟨5, by decide, by decide +kernel⟩
      polls := by decide +kernel }
  have hlast : (⟨("BTC/USDT", "1m"), [3, 4, 5], 310, 311⟩ : Fetch) ∈ warmUpAndPolls := by simp [warmUpAndPolls]
  have honce := (candles_published_once steadyExchange (by decide) hpolled).2.2
  exact ⟨by decide +kernel, honce _ hlast rfl 4 (by decide) (by decide +kernel)⟩

end MultiAgentTrading
