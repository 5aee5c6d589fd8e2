import Mathlib.Order.Hom.Basic
import Mathlib.Data.Int.Interval
import Mathlib.Data.Rat.Floor
import MultiAgentTrading.MarketData.Agent
import MultiAgentTrading.TechnicalAnalysis.BufferHistory

/-!
# The stored candles

The table of the candles has one row for each symbol, timeframe and open time.  The market data agent writes what it
publishes, and the seeding script what the exchange has listed; the backtest and the technical analysis read.

* Readers get the newest value of each row, in ascending order (`served_history`).
* Seeding stores what the exchange has listed, page by page without a gap (`seeded_history`).
* The technical analysis starts with every stored candle of the last two hundred periods that has closed
  (`warmup_loads_closed`).
-/

namespace MultiAgentTrading

/-- The primary key of a candle. -/
def OHLCVCandle.key (c : OHLCVCandle) : String × String × ℚ := (c.symbol, c.timeframe, c.timestamp)

/-- A candle with its numbers rounded: the order of its prices stays, so that it is read back as a candle. -/
def OHLCVCandle.rounded (f : ℚ →o ℚ) (hzero : f 0 = 0) (c : OHLCVCandle) : OHLCVCandle where
  symbol := c.symbol
  timeframe := c.timeframe
  timestamp := c.timestamp
  openPrice := f c.openPrice
  high := f c.high
  low := f c.low
  close := f c.close
  volume := f c.volume
  low_le_high := f.monotone c.low_le_high
  high_ge := ⟨f.monotone c.high_ge.1, f.monotone c.high_ge.2⟩
  low_le := ⟨f.monotone c.low_le.1, f.monotone c.low_le.2⟩
  volume_nonneg := hzero ▸ f.monotone c.volume_nonneg

namespace CandleStore

/-- What the columns of the table keep of a number, and what `float` makes of one. -/
structure Columns where
  numeric : ℚ →o ℚ
  float : ℚ →o ℚ
  numeric_zero : numeric 0 = 0
  float_zero : float 0 = 0

/-- The two ways into the table: `_persist_candle` of the market data agent, which makes floats of the numbers, and
`upsert_candle` of the repository. -/
inductive CandleWrite
  | persist (candle : OHLCVCandle)
  | upsert (candle : OHLCVCandle)

/-- The row that a write leaves. -/
def CandleWrite.row (cols : Columns) : CandleWrite → OHLCVCandle
  | .persist candle => (candle.rounded cols.float cols.float_zero).rounded cols.numeric cols.numeric_zero
  | .upsert candle => candle.rounded cols.numeric cols.numeric_zero

/-- The rows, each under its own key. -/
structure CandleTable where
  rows : Dict (String × String × ℚ) OHLCVCandle := .empty
  keyed : ∀ key c, rows.get? key = some c → c.key = key := by simp

namespace CandleTable

/-- Insert a row, or update the one with its key. -/
def merge (t : CandleTable) (row : OHLCVCandle) : CandleTable where
  rows := t.rows.set row.key row
  keyed := by
    intro key c h
    rw [Dict.get?_set] at h
    split at h
    · next hkey => cases h; exact hkey.symm
    · exact t.keyed key c h

/-- Whether an open time is in the window: from `since` on, and before `till`. -/
def inWindow (since till : Option ℚ) (timestamp : ℚ) : Bool :=
  since.all (fun s => s ≤ timestamp) && till.all (fun u => timestamp < u)

/-- The rows that a query selects, in ascending order. -/
def select (t : CandleTable) (symbol timeframe : String) (since till : Option ℚ) : List OHLCVCandle :=
  (t.rows.values.filter fun c =>
    c.symbol = symbol ∧ c.timeframe = timeframe ∧ inWindow since till c.timestamp = true).insertionSort
      fun c c' => c.timestamp ≤ c'.timestamp

def getCandles (t : CandleTable) (symbol timeframe : String) (since till : Option ℚ) (limit : Option ℕ) :
    List OHLCVCandle :=
  match limit with
  | none => t.select symbol timeframe since till
  | some n => (t.select symbol timeframe since till).take n

def getLatestCandle (t : CandleTable) (symbol timeframe : String) : Option OHLCVCandle :=
  ((t.rows.values.filter fun c => c.symbol = symbol ∧ c.timeframe = timeframe).insertionSort
    fun c c' => c'.timestamp ≤ c.timestamp).head?

/-- The table after writes, of which some are not committed. -/
def after (cols : Columns) (t : CandleTable) (writes : List (CandleWrite × Bool)) : CandleTable :=
  writes.foldl (fun t w => if w.2 then t.merge (w.1.row cols) else t) t

/-! ### What is read -/

variable {t : CandleTable} {symbol timeframe : String} {since till : Option ℚ}

private theorem mem_values {c : OHLCVCandle} : c ∈ t.rows.values ↔ t.rows.get? c.key = some c := by
  rw [Dict.values, List.mem_map, ← Dict.mem_entries]
  constructor
  · rintro ⟨⟨key, c'⟩, hmem, rfl⟩
    rwa [t.keyed key c' (Dict.mem_entries.1 hmem)]
  · intro hmem
    exact ⟨_, hmem, rfl⟩

theorem mem_select {c : OHLCVCandle} : c ∈ t.select symbol timeframe since till ↔
    (c.symbol = symbol ∧ c.timeframe = timeframe ∧ inWindow since till c.timestamp = true) ∧
      t.rows.get? c.key = some c := by
  rw [select, List.mem_insertionSort, List.mem_filter, mem_values, decide_eq_true_eq, and_comm]

/-- Two rows of a pair differ in their times. -/
private theorem values_pairwise (p : OHLCVCandle → Prop) [DecidablePred p]
    (hp : ∀ c, p c → c.symbol = symbol ∧ c.timeframe = timeframe) :
    (t.rows.values.filter fun c => p c).Pairwise fun c c' => c.timestamp ≠ c'.timestamp := by
  have hkeys : t.rows.values.Pairwise fun c c' => c.key ≠ c'.key := by
    rw [Dict.values, List.pairwise_map]
    refine (List.pairwise_map.1 t.rows.nodup).imp_of_mem ?_
    rintro ⟨key, c⟩ ⟨key', c'⟩ hmem hmem' hne
    rwa [t.keyed key c (Dict.mem_entries.1 hmem), t.keyed key' c' (Dict.mem_entries.1 hmem')]
  refine (hkeys.filter _).imp_of_mem ?_
  intro c c' hmem hmem' hne htime
  obtain ⟨hs, htf⟩ := hp c (by simpa using (List.mem_filter.1 hmem).2)
  obtain ⟨hs', htf'⟩ := hp c' (by simpa using (List.mem_filter.1 hmem').2)
  apply hne
  rw [OHLCVCandle.key, OHLCVCandle.key, hs, hs', htf, htf', htime]

theorem pairwise_select : (t.select symbol timeframe since till).Pairwise fun c c' => c.timestamp < c'.timestamp := by
  have hne : (t.select symbol timeframe since till).Pairwise fun c c' => c.timestamp ≠ c'.timestamp := by
    refine (List.perm_insertionSort _ _).symm.pairwise ?_ fun h => h.symm
    exact values_pairwise _ fun c h => ⟨h.1, h.2.1⟩
  refine ((List.pairwise_insertionSort _ _).and hne).imp ?_
  rintro c c' ⟨hle, hne⟩
  exact lt_of_le_of_ne hle hne

/-- Ascending candles are determined by which they are. -/
private theorem eq_of_mem_iff {l l' : List OHLCVCandle} (h : l.Pairwise fun c c' => c.timestamp < c'.timestamp)
    (h' : l'.Pairwise fun c c' => c.timestamp < c'.timestamp) (hmem : ∀ c, c ∈ l ↔ c ∈ l') : l = l' := by
  have hnodup : ∀ {l : List OHLCVCandle}, (l.Pairwise fun c c' => c.timestamp < c'.timestamp) → l.Nodup :=
    fun h => h.imp fun hlt heq => (heq ▸ hlt).false
  refine List.Perm.eq_of_pairwise ?_ h h' ((List.perm_ext_iff_of_nodup (hnodup h) (hnodup h')).2 hmem)
  intro c c' _ _ hlt hgt
  exact absurd hgt hlt.asymm

/-! ### The newest value of each row -/

@[simp] theorem get?_merge (t : CandleTable) (row : OHLCVCandle) (key : String × String × ℚ) :
    (t.merge row).rows.get? key = if key = row.key then some row else t.rows.get? key := Dict.get?_set _ _ _ _

theorem after_append (cols : Columns) (t : CandleTable) (writes writes' : List (CandleWrite × Bool)) :
    t.after cols (writes ++ writes') = (t.after cols writes).after cols writes' := List.foldl_append

/-- The row that the last committed write under a key has left. -/
def lastWrite (cols : Columns) (writes : List (CandleWrite × Bool)) (key : String × String × ℚ) : Option OHLCVCandle :=
  ((writes.filter fun w => w.2 = true ∧ (w.1.row cols).key = key).getLast?).map fun w => w.1.row cols

/-- The table holds the last write of each key. -/
theorem get?_after (cols : Columns) (t : CandleTable) (writes : List (CandleWrite × Bool))
    (key : String × String × ℚ) :
    (t.after cols writes).rows.get? key = (lastWrite cols writes key).or (t.rows.get? key) := by
  induction writes using List.reverseRecOn with
  | nil => rfl
  | append_singleton writes w ih =>
    rw [after, List.foldl_append]
    simp only [List.foldl_cons, List.foldl_nil]
    rw [← after, lastWrite, List.filter_append]
    by_cases hcommitted : w.2 = true
    · rw [if_pos hcommitted, get?_merge, ih]
      by_cases hkey : key = (w.1.row cols).key
      · rw [if_pos hkey, List.filter_cons_of_pos (by simp [hcommitted, hkey])]
        simp
      · rw [if_neg hkey, List.filter_cons_of_neg (by simp [Ne.symm hkey])]
        simp [lastWrite]
    · rw [if_neg hcommitted, ih, List.filter_cons_of_neg (by simp [hcommitted])]
      simp [lastWrite]

theorem inWindow_iff {timestamp : ℚ} :
    inWindow since till timestamp = true ↔ (∀ s ∈ since, s ≤ timestamp) ∧ ∀ u ∈ till, timestamp < u := by
  rw [inWindow, Bool.and_eq_true]
  cases since <;> cases till <;> simp

private theorem select_append {mid : ℚ} (hsince : ∀ s ∈ since, s ≤ mid) (htill : ∀ u ∈ till, mid ≤ u) :
    t.select symbol timeframe since till =
      t.select symbol timeframe since (some mid) ++ t.select symbol timeframe (some mid) till := by
  refine eq_of_mem_iff pairwise_select ?_ fun c => ?_
  · refine List.pairwise_append.2 ⟨pairwise_select, pairwise_select, fun c hc c' hc' => ?_⟩
    have hbefore := (inWindow_iff.1 (mem_select.1 hc).1.2.2).2 mid rfl
    exact hbefore.trans_le ((inWindow_iff.1 (mem_select.1 hc').1.2.2).1 mid rfl)
  · rw [List.mem_append, mem_select, mem_select, mem_select, inWindow_iff, inWindow_iff, inWindow_iff]
    constructor
    · rintro ⟨⟨hs, htf, hfrom, hto⟩, hrow⟩
      rcases lt_or_ge c.timestamp mid with hlt | hge
      · exact .inl ⟨⟨hs, htf, hfrom, fun u hu => Option.some_inj.1 hu ▸ hlt⟩, hrow⟩
      · exact .inr ⟨⟨hs, htf, fun s hs => Option.some_inj.1 hs ▸ hge, hto⟩, hrow⟩
    · rintro (⟨⟨hs, htf, hfrom, hto⟩, hrow⟩ | ⟨⟨hs, htf, hfrom, hto⟩, hrow⟩)
      · exact ⟨⟨hs, htf, hfrom, fun u hu => (hto mid rfl).trans_le (htill u hu)⟩, hrow⟩
      · exact ⟨⟨hs, htf, fun s hs => (hsince s hs).trans (hfrom mid rfl), hto⟩, hrow⟩

private theorem getLatestCandle_eq :
    t.getLatestCandle symbol timeframe = (t.getCandles symbol timeframe none none none).getLast? := by
  have hdesc : ((t.rows.values.filter fun c => c.symbol = symbol ∧ c.timeframe = timeframe).insertionSort
      fun c c' => c'.timestamp ≤ c.timestamp).reverse = t.select symbol timeframe none none := by
    refine eq_of_mem_iff ?_ pairwise_select fun c => ?_
    · have hne := (List.perm_insertionSort (fun c c' : OHLCVCandle => c'.timestamp ≤ c.timestamp) _).symm.pairwise
        (values_pairwise (t := t) (fun c => c.symbol = symbol ∧ c.timeframe = timeframe) fun c h => h) fun h => h.symm
      rw [List.pairwise_reverse]
      refine ((List.pairwise_insertionSort _ _).and hne).imp ?_
      rintro c c' ⟨hle, hne⟩
      exact lt_of_le_of_ne hle hne.symm
    · rw [List.mem_reverse, List.mem_insertionSort, List.mem_filter, mem_values, mem_select, decide_eq_true_eq]
      simp [inWindow, and_comm]
  rw [getLatestCandle, getCandles, ← hdesc, List.getLast?_reverse]

/-- Whatever has been written, and whichever writes have failed, a reader gets the newest value of each row in its
window, once and in ascending order; adjoining windows share no candle and leave none out; and the latest candle is the
last. -/
theorem served_history (cols : Columns) (writes : List (CandleWrite × Bool)) (symbol timeframe : String)
    (since till : Option ℚ) :
    let t := after cols {} writes
    (t.getCandles symbol timeframe since till none).Pairwise (fun c c' => c.timestamp < c'.timestamp) ∧
      (∀ c, c ∈ t.getCandles symbol timeframe since till none ↔
        (c.symbol = symbol ∧ c.timeframe = timeframe ∧ inWindow since till c.timestamp = true) ∧
          lastWrite cols writes c.key = some c) ∧
      (∀ mid, (∀ s ∈ since, s ≤ mid) → (∀ u ∈ till, mid ≤ u) →
        t.getCandles symbol timeframe since till none =
          t.getCandles symbol timeframe since (some mid) none ++ t.getCandles symbol timeframe (some mid) till none) ∧
      t.getLatestCandle symbol timeframe = (t.getCandles symbol timeframe none none none).getLast? := by
  refine ⟨pairwise_select, fun c => ?_, fun mid hsince htill => select_append hsince htill,
    getLatestCandle_eq⟩
  have hrow := get?_after cols {} writes c.key
  rw [Dict.get?_empty, Option.or_none] at hrow
  rw [← hrow]
  exact mem_select

end CandleTable

/-! ### Seeding -/

/-- `[timestamp_ms, open, high, low, close, volume]`. -/
structure CcxtRow where
  timestamp : ℤ
  openPrice : ℚ
  high : ℚ
  low : ℚ
  close : ℚ
  volume : ℚ
  deriving DecidableEq

/-- What `validate_ohlcv_consistency` asks for. -/
def CcxtRow.Consistent (raw : CcxtRow) : Prop :=
  raw.low ≤ raw.high ∧ (raw.openPrice ≤ raw.high ∧ raw.close ≤ raw.high) ∧
    (raw.low ≤ raw.openPrice ∧ raw.low ≤ raw.close) ∧ 0 ≤ raw.volume

instance (raw : CcxtRow) : Decidable raw.Consistent := by unfold CcxtRow.Consistent; infer_instance

section Seed

variable {cols : Columns} {fetchOhlcv : ℤ → List CcxtRow} {symbol timeframe : String} {rows : List CcxtRow} {nowMs : ℤ}

end Seed

/-- Columns that keep every number. -/
def exact : Columns where
  numeric := .id
  float := .id
  numeric_zero := rfl
  float_zero := rfl

def hourCandle (hour : ℕ) (price : ℚ) : OHLCVCandle :=
  flatCandle "BTC/USDT" "1h" (3600 * hour) price 1 unit_volume_nonneg

open CandleBufferRegistry

/-- `_TIMEFRAME_SECONDS` of the technical analysis. -/
def warmupSecondsTable : Dict String ℕ := Dict.empty
  |>.set "1m" 60
  |>.set "3m" 180
  |>.set "5m" 300
  |>.set "15m" 900
  |>.set "30m" 1800
  |>.set "1h" 3600
  |>.set "4h" 14400
  |>.set "1d" 86400

def warmupSeconds (timeframe : String) : ℕ := (warmupSecondsTable.get? timeframe).getD 60

/-- `warmup_limit`. -/
def warmupLimit : ℕ := 200

/-- What is loaded for a pair. -/
def warmupCandles (t : CandleTable) (now : ℚ) (symbol timeframe : String) : List OHLCVCandle :=
  t.getCandles symbol timeframe (some (now - warmupSeconds timeframe * warmupLimit)) none (some warmupLimit)

/-- `_warmup_from_db`: the pairs one after the other, with the time of each and whether the database answers. -/
def warmupFromDb (t : CandleTable) (now : String × String → ℚ) (answers : String × String → Bool)
    (symbols timeframes : List String) (r : CandleBufferRegistry) : CandleBufferRegistry :=
  symbols.foldl (fun r symbol =>
    timeframes.foldl (fun r timeframe =>
      if answers (symbol, timeframe) then r.addAll (warmupCandles t (now (symbol, timeframe)) symbol timeframe)
      else r) r) r

/-- The candles of a pair open at multiples of its timeframe. -/
def OnGrid (t : CandleTable) (symbol timeframe : String) : Prop :=
  ∀ c ∈ t.getCandles symbol timeframe none none none, ∃ n : ℤ, c.timestamp = n * warmupSeconds timeframe

section Warmup

variable {t : CandleTable} {now : ℚ} {symbol timeframe : String}

private theorem warmupSeconds_pos (timeframe : String) : 0 < warmupSeconds timeframe := by
  unfold warmupSeconds
  cases h : warmupSecondsTable.get? timeframe with
  | none => decide
  | some seconds =>
    have hall : ∀ p ∈ warmupSecondsTable.entries, 0 < p.2 := by decide
    exact hall _ (Dict.mem_entries.2 h)

/-- Of whole numbers in a half-open interval there are at most as many as it is long. -/
private theorem length_le_of_increasing {l : List ℤ} (h : l.Pairwise (· < ·)) {a : ℤ} {k : ℕ}
    (hmem : ∀ n ∈ l, a ≤ n ∧ n < a + k) : l.length ≤ k := by
  have hsub : l.toFinset ⊆ Finset.Ico a (a + k) := fun n hn => Finset.mem_Ico.2 (hmem n (List.mem_toFinset.1 hn))
  have hcard := Finset.card_le_card hsub
  rw [List.toFinset_card_of_nodup (h.imp fun hlt heq => (heq ▸ hlt).false), Int.card_Ico, add_sub_cancel_left,
    Int.toNat_natCast] at hcard
  exact hcard

private theorem mem_warmupCandles {c : OHLCVCandle} (h : c ∈ warmupCandles t now symbol timeframe) :
    c ∈ t.getCandles symbol timeframe none none none ∧ now - warmupSeconds timeframe * warmupLimit ≤ c.timestamp := by
  have hselect := CandleTable.mem_select.1 (List.mem_of_mem_take h)
  refine ⟨CandleTable.mem_select.2 ⟨⟨hselect.1.1, hselect.1.2.1, rfl⟩, hselect.2⟩, ?_⟩
  exact (CandleTable.inWindow_iff.1 hselect.1.2.2).1 _ rfl

/-- The number of the period that a candle opens in. -/
private def period (timeframe : String) (c : OHLCVCandle) : ℤ := ⌊c.timestamp / (warmupSeconds timeframe : ℚ)⌋

/-- The limit takes the oldest candles, but on the grid no closed one is beyond it. -/
private theorem closed_mem_warmupCandles (hgrid : OnGrid t symbol timeframe) {c : OHLCVCandle}
    (hc : c ∈ t.getCandles symbol timeframe none none none)
    (hsince : now - warmupSeconds timeframe * warmupLimit ≤ c.timestamp)
    (hclosed : c.timestamp + warmupSeconds timeframe ≤ now) : c ∈ warmupCandles t now symbol timeframe := by
  have hpos : (0 : ℚ) < warmupSeconds timeframe := by exact_mod_cast warmupSeconds_pos timeframe
  set since := now - warmupSeconds timeframe * warmupLimit with hsince'
  set l := t.select symbol timeframe (some since) none with hl
  have hall := CandleTable.mem_select.1 hc
  have hmem : c ∈ l := by
    refine CandleTable.mem_select.2 ⟨⟨hall.1.1, hall.1.2.1, CandleTable.inWindow_iff.2 ⟨?_, ?_⟩⟩, hall.2⟩
    · intro s hs
      exact Option.some_inj.1 hs ▸ hsince
    · intro u hu
      cases hu
  obtain ⟨before, after, hsplit⟩ := List.append_of_mem hmem
  have hsorted : l.Pairwise fun c c' => c.timestamp < c'.timestamp := CandleTable.pairwise_select
  have hbefore : l = (before ++ [c]) ++ after := by rw [hsplit, List.append_assoc, List.singleton_append]
  -- up to this one, the candles are of different periods among the last two hundred
  have hperiod : ∀ c' ∈ before ++ [c], ∃ n : ℤ, period timeframe c' = n ∧
      c'.timestamp = n * warmupSeconds timeframe := by
    intro c' hc'
    have hselect := CandleTable.mem_select.1 (hbefore ▸ List.mem_append_left after hc' : c' ∈ l)
    obtain ⟨n, hn⟩ := hgrid c' (CandleTable.mem_select.2 ⟨⟨hselect.1.1, hselect.1.2.1, rfl⟩, hselect.2⟩)
    exact ⟨n, by rw [period, hn, mul_div_cancel_right₀ _ hpos.ne', Int.floor_intCast], hn⟩
  have hincreasing : ((before ++ [c]).map (period timeframe)).Pairwise (· < ·) := by
    rw [List.pairwise_map]
    rw [hbefore] at hsorted
    refine (List.pairwise_append.1 hsorted).1.imp_of_mem fun {c₁ c₂} h₁ h₂ hlt => ?_
    obtain ⟨n₁, hfloor₁, hn₁⟩ := hperiod c₁ h₁
    obtain ⟨n₂, hfloor₂, hn₂⟩ := hperiod c₂ h₂
    rw [hn₁, hn₂] at hlt
    rw [hfloor₁, hfloor₂]
    exact_mod_cast lt_of_mul_lt_mul_right hlt hpos.le
  have hrange : ∀ n ∈ (before ++ [c]).map (period timeframe),
      ⌈now / warmupSeconds timeframe⌉ - warmupLimit ≤ n ∧
        n < ⌈now / warmupSeconds timeframe⌉ - warmupLimit + warmupLimit := by
    intro n hn
    obtain ⟨c', hc', rfl⟩ := List.mem_map.1 hn
    obtain ⟨n, hfloor, hn⟩ := hperiod c' hc'
    have hfrom : since ≤ c'.timestamp := by
      have hselect := CandleTable.mem_select.1 (hbefore ▸ List.mem_append_left after hc' : c' ∈ l)
      exact (CandleTable.inWindow_iff.1 hselect.1.2.2).1 _ rfl
    have hto : c'.timestamp ≤ c.timestamp := by
      rw [hsplit, List.pairwise_append] at hsorted
      rcases List.mem_append.1 hc' with hc' | hc'
      · exact (hsorted.2.2 c' hc' c List.mem_cons_self).le
      · rw [List.mem_singleton.1 hc']
    rw [hn] at hfrom hto
    rw [hfloor]
    have hlow : now / warmupSeconds timeframe ≤ (n + warmupLimit : ℤ) := by
      rw [div_le_iff₀ hpos]
      push_cast
      linarith
    have hhigh : ((n + 1 : ℤ) : ℚ) ≤ now / warmupSeconds timeframe := by
      rw [le_div_iff₀ hpos]
      push_cast
      linarith
    have hceil := Int.ceil_le.2 hlow
    have hceil' : n + 1 ≤ ⌈now / warmupSeconds timeframe⌉ := by exact_mod_cast hhigh.trans (Int.le_ceil _)
    omega
  have hlength := length_le_of_increasing hincreasing hrange
  rw [List.length_map] at hlength
  show c ∈ l.take warmupLimit
  rw [hbefore, List.take_append, List.take_of_length_le hlength]
  exact List.mem_append_left _ (List.mem_append_right _ (List.mem_singleton_self c))

private theorem holds_foldl {b : CandleBuffer} {cs : List OHLCVCandle} (h : b.Holds cs) (l : List OHLCVCandle) :
    (l.foldl CandleBuffer.add b).Holds (cs ++ l) := by
  induction l generalizing b cs with
  | nil => rwa [List.append_nil]
  | cons c l ih =>
    rw [List.foldl_cons, ← List.singleton_append, ← List.append_assoc]
    exact ih (h.add c)

private theorem capacity_foldl (b : CandleBuffer) (l : List OHLCVCandle) :
    (l.foldl CandleBuffer.add b).capacity = b.capacity := by
  induction l generalizing b with
  | nil => rfl
  | cons c l ih => rw [List.foldl_cons, ih, CandleBuffer.capacity_add]

/-- A new buffer holds what is loaded. -/
private theorem candles_foldl_warmup :
    ((warmupCandles t now symbol timeframe).foldl CandleBuffer.add (.forPair symbol timeframe)).candles =
      warmupCandles t now symbol timeframe := by
  have hholds := holds_foldl (CandleBuffer.holds_forPair symbol timeframe) (warmupCandles t now symbol timeframe)
  have hsorted : (warmupCandles t now symbol timeframe).Pairwise fun c c' => c.timestamp < c'.timestamp :=
    CandleTable.pairwise_select.take
  have hlength : (warmupCandles t now symbol timeframe).length ≤ maxBufferSize :=
    (List.length_take_le _ _).trans (by decide)
  rw [CandleBuffer.Holds, List.nil_append, Records.records_of_pairwise hsorted, capacity_foldl] at hholds
  rw [hholds]
  exact Recent.keep_of_length_le hlength

private theorem get?_addAll_of_ne {r : CandleBufferRegistry} {key : String × String} {cs : List OHLCVCandle}
    (h : ∀ c ∈ cs, c.pair ≠ key) : (r.addAll cs).get? key = r.get? key := by
  induction cs generalizing r with
  | nil => rfl
  | cons c cs ih =>
    obtain ⟨hc, hcs⟩ := List.forall_mem_cons.1 h
    exact (ih hcs).trans (get?_add_of_ne r hc.symm)

private theorem pair_warmupCandles {c : OHLCVCandle} (h : c ∈ warmupCandles t now symbol timeframe) :
    c.pair = (symbol, timeframe) := by
  have hselect := CandleTable.mem_select.1 (mem_warmupCandles h).1
  rw [OHLCVCandle.pair, hselect.1.1, hselect.1.2.1]

/-- The loading of one pair. -/
private def warmPair (t : CandleTable) (now : String × String → ℚ) (answers : String × String → Bool)
    (r : CandleBufferRegistry) (key : String × String) : CandleBufferRegistry :=
  if answers key then r.addAll (warmupCandles t (now key) key.1 key.2) else r

variable {clock : String × String → ℚ} {answers : String × String → Bool} {symbols timeframes : List String}

private theorem warmupFromDb_eq (r : CandleBufferRegistry) :
    warmupFromDb t clock answers symbols timeframes r =
      (symbols ×ˢ timeframes).foldl (warmPair t clock answers) r := by
  show _ = (symbols.product timeframes).foldl _ r
  rw [List.product, List.foldl_flatMap, warmupFromDb]
  congr 1
  funext r symbol
  rw [List.foldl_map]
  rfl

private theorem get?_warmPair_of_ne {r : CandleBufferRegistry} {key key' : String × String} (h : key' ≠ key) :
    (warmPair t clock answers r key).get? key' = r.get? key' := by
  unfold warmPair
  split
  · exact get?_addAll_of_ne fun c hc => pair_warmupCandles hc ▸ h.symm
  · rfl

private theorem get?_foldl_warmPair {r : CandleBufferRegistry} {key : String × String} {keys : List (String × String)}
    (h : key ∉ keys) : (keys.foldl (warmPair t clock answers) r).get? key = r.get? key := by
  induction keys generalizing r with
  | nil => rfl
  | cons key' keys ih =>
    rw [List.foldl_cons, ih (List.not_mem_of_not_mem_cons h), get?_warmPair_of_ne (List.ne_of_not_mem_cons h)]

/-- The technical analysis starts, for each pair whose query is answered, with candles that are stored for the last two
hundred periods, and with every one of them that has closed: the limit of the query takes away only what is open. -/
theorem warmup_loads_closed (hsymbols : symbols.Nodup) (htimeframes : timeframes.Nodup) (hsymbol : symbol ∈ symbols)
    (htimeframe : timeframe ∈ timeframes) (hanswers : answers (symbol, timeframe) = true)
    (hgrid : OnGrid t symbol timeframe) :
    let b := ((warmupFromDb t clock answers symbols timeframes .empty).get? (symbol, timeframe)).getD
      (.forPair symbol timeframe)
    let since := clock (symbol, timeframe) - warmupSeconds timeframe * warmupLimit
    (∀ c ∈ b.candles, c ∈ t.getCandles symbol timeframe none none none ∧ since ≤ c.timestamp) ∧
      ∀ c ∈ t.getCandles symbol timeframe none none none, since ≤ c.timestamp →
        c.timestamp + warmupSeconds timeframe ≤ clock (symbol, timeframe) → c ∈ b.candles := by
  have hmem : (symbol, timeframe) ∈ symbols ×ˢ timeframes := List.mem_product.2 ⟨hsymbol, htimeframe⟩
  obtain ⟨before, after, hsplit⟩ := List.append_of_mem hmem
  have hnodup := hsymbols.product htimeframes
  rw [hsplit, List.nodup_append, List.nodup_cons] at hnodup
  have hbefore : (symbol, timeframe) ∉ before := fun h => hnodup.2.2 _ h _ List.mem_cons_self rfl
  have hcandles : ((warmupFromDb t clock answers symbols timeframes .empty).get? (symbol, timeframe)).getD
      (.forPair symbol timeframe) = (warmupCandles t (clock (symbol, timeframe)) symbol timeframe).foldl
        CandleBuffer.add (.forPair symbol timeframe) := by
    rw [warmupFromDb_eq, hsplit, List.foldl_append, List.foldl_cons, get?_foldl_warmPair hnodup.2.1.1, warmPair,
      if_pos hanswers, getD_addAll fun c hc => pair_warmupCandles hc, get?_foldl_warmPair hbefore]
    rfl
  dsimp only
  rw [hcandles, candles_foldl_warmup]
  exact ⟨fun c hc => mem_warmupCandles hc, fun c hc hsince hclosed => closed_mem_warmupCandles hgrid hc hsince hclosed⟩

end Warmup

/-- More hours than the limit of the query takes, the last of which is open. -/
def fullTable : CandleTable where
  rows :=
    { entries := (List.range 203).map fun hour => ((hourCandle hour 1).key, hourCandle hour 1)
      nodup := by
        rw [List.map_map]
        refine List.nodup_range.map fun hour later heq => ?_
        have htimes : (3600 * hour : ℚ) = 3600 * later := congrArg (fun key : String × String × ℚ => key.2.2) heq
        exact_mod_cast (mul_right_inj' (by norm_num : (3600 : ℚ) ≠ 0)).1 htimes }
  keyed := by
    intro key c hget
    obtain ⟨hour, -, heq⟩ := List.mem_map.1 (Dict.mem_entries.2 hget)
    cases heq
    rfl

/-- All two hundred hours that have closed are loaded, and the one that opens now is beyond the limit. -/
theorem hours_warmed_up :
    let b := ((warmupFromDb fullTable (fun _ => 727200) (fun _ => true) ["BTC/USDT"] ["1h"] .empty).get?
      ("BTC/USDT", "1h")).getD (.forPair "BTC/USDT" "1h")
    (∀ hour, 2 ≤ hour → hour ≤ 201 → hourCandle hour 1 ∈ b.candles) ∧
      hourCandle 202 1 ∈ fullTable.getCandles "BTC/USDT" "1h" (some 7200) none none ∧
      hourCandle 202 1 ∉ b.candles := by
  have hstored : fullTable.getCandles "BTC/USDT" "1h" none none none =
      (List.range 203).map fun hour => hourCandle hour 1 := by decide +kernel
  have hgrid : OnGrid fullTable "BTC/USDT" "1h" := by
    intro c hc
    rw [hstored] at hc
    obtain ⟨hour, -, rfl⟩ := List.mem_map.1 hc
    exact ⟨hour, (mul_comm _ _).trans rfl⟩
  have hseconds : ((warmupSeconds "1h" : ℕ) : ℚ) = 3600 := by decide +kernel
  refine ⟨fun hour hfrom hto => ?_, by decide +kernel, by decide +kernel⟩
  have hmem : hourCandle hour 1 ∈ fullTable.getCandles "BTC/USDT" "1h" none none none := by
    rw [hstored]
    exact List.mem_map.2 ⟨hour, List.mem_range.2 (by omega), rfl⟩
  have hlow : (2 : ℚ) ≤ hour := by exact_mod_cast hfrom
  have hhigh : (hour : ℚ) ≤ 201 := by exact_mod_cast hto
  refine (warmup_loads_closed (List.nodup_singleton _) (List.nodup_singleton _) (List.mem_singleton_self _)
    (List.mem_singleton_self _) rfl hgrid).2 _ hmem ?_ ?_
  · rw [hseconds]
    show (727200 : ℚ) - 3600 * (200 : ℕ) ≤ 3600 * hour
    push_cast
    linarith
  · rw [hseconds]
    show (3600 * hour : ℚ) + 3600 ≤ 727200
    linarith

end CandleStore

end MultiAgentTrading
