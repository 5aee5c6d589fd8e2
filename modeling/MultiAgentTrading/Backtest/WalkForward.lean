import MultiAgentTrading.TechnicalAnalysis.FeatureEngineer
import MultiAgentTrading.TechnicalAnalysis.LabelGenerator
import Mathlib.Data.List.MinMax

/-!
# The walk-forward model

The decider that retrains on an expanding window: features and labels are computed once for the whole history, and a
call at bar `i` trains on the rows whose label window has closed by `i`.  The classifier and its calibration are
parameters, as functions of their inputs that may raise.  `AgreesTo` relates two models whose histories agree up to a
bar; calls at bars up to it keep the relation and give the same answers.
-/

namespace MultiAgentTrading

variable {F : Type} [Field F] [LinearOrder F] {M E : Type}

structure WalkForwardParams (F : Type) [Field F] where
  horizon : ℤ := 10
  threshold : F := ((1 / 100 : ℚ) : F)
  initialTrain : ℤ := 200
  retrainEvery : ℤ := 30
  minTrainSamples : ℤ := 120
  directionalThreshold : F := ((2 / 5 : ℚ) : F)
  calibrate : Bool := false

/-- The classifier: fitted on rows, classes and sample weights, calibrated on rows and classes, and asked for the
probabilities of a row. -/
structure Learner (F M E : Type) where
  fit : List (List F) → List ℕ → List F → Except E M
  calibrate : M → List (List F) → List ℕ → Except E M
  predictProba : M → List F → Except E (List F)

/-- What a call can raise: what the classifier raises, or `np.vectorize` and `np.argmax` on nothing. -/
inductive DecideError (E : Type)
  | learner (error : E)
  | noSamples
  | noProbabilities
  deriving DecidableEq

/-- `_WalkForwardModel`: `featureRows` is `X_full` and `labels` is `y_full`. -/
structure WalkForwardModel (F M : Type) [Field F] where
  wf : WalkForwardParams F
  featureRows : List (List F)
  labels : List (Option ForwardLabel)
  model : Option M := none
  lastTrain : ℤ := -10 ^ 9
  retrains : ℕ := 0

namespace WalkForwardModel

/-- The bar of the first row. -/
def start : ℕ := FeatureEngineer.minBarsRequired - 1

def new (math : MathFunctions F) (candles : List OHLCVCandle) (wf : WalkForwardParams F) :
    Except LabelError (WalkForwardModel F M) := do
  let arr := FeatureEngineer.toArrays candles
  let gen ← LabelGenerator.new wf.horizon wf.threshold
  return {
    wf := wf
    featureRows := (FeatureEngineer.buildFeatureMatrix math arr).1
    labels := gen.generate arr.closes }

def rowForBar (m : WalkForwardModel F M) (bar : ℕ) : Option ℕ :=
  let r : ℤ := bar - start
  if 0 ≤ r ∧ r < m.featureRows.length then some r.toNat else none

/-- The rows and labels that a call at bar `i` trains on, the rows without a label dropped. -/
def trainingSamples (m : WalkForwardModel F M) (i : ℕ) : List (List F × ForwardLabel) :=
  -- labels must be fully realised by bar `i`
  let bMax : ℤ := i - m.wf.horizon
  let lastRow := bMax - start
  let X := m.featureRows.take (lastRow + 1).toNat
  let y := (m.labels.take (bMax + 1).toNat).drop start
  (X.zip y).filterMap fun sample => sample.2.map fun label => (sample.1, label)

/-- The weight of every sample: the inverse frequency of its class. -/
def sampleWeight (yCls : List ℕ) : List F :=
  let counts := (List.range 3).map fun c => yCls.count c
  let inv : List F := counts.map fun n => if 0 < n then (counts.sum : F) / ((3 * n : ℕ) : F) else 0
  yCls.map fun c => inv.getD c 0

/-- Fit the classifier; a calibration on the latest fifth replaces it unless it raises. -/
def train (learner : Learner F M E) (wf : WalkForwardParams F) (X : List (List F)) (yCls : List ℕ) : Except E M := do
  let weights := sampleWeight yCls
  let model ← learner.fit X yCls weights
  if wf.calibrate ∧ 200 ≤ X.length then
    let cut := X.length * 4 / 5
    let calibrated : Except E M := do
      let base ← learner.fit (X.take cut) (yCls.take cut) (weights.take cut)
      learner.calibrate base (X.drop cut) (yCls.drop cut)
    match calibrated with
    | .ok cal => return cal
    | .error _ => return model
  return model

def maybeRetrain (learner : Learner F M E) (m : WalkForwardModel F M) (i : ℕ) :
    Except (DecideError E) (WalkForwardModel F M) :=
  if m.model.isSome ∧ (i : ℤ) - m.lastTrain < m.wf.retrainEvery then .ok m
  else if (i : ℤ) - m.wf.horizon - start < 0 then .ok m
  else
    let samples := m.trainingSamples i
    let yCls := samples.map fun sample => sample.2.toClass
    if (samples.length : ℤ) < m.wf.minTrainSamples then .ok m
    else if samples.length = 0 then .error .noSamples
    else if yCls.dedup.length < 2 then .ok m
    else
      match train learner m.wf (samples.map Prod.fst) yCls with
      | .error e => .error (.learner e)
      | .ok model => .ok { m with model := some model, lastTrain := i, retrains := m.retrains + 1 }

/-- `np.argmax`: the first index of the largest element. -/
def argmax (l : List F) : Option ℕ := (List.range l.length).argmax fun i => l.getD i 0

/-- The order for the class that a fitted model finds most probable, if it is probable enough. -/
def predict (learner : Learner F M E) (wf : WalkForwardParams F) (model : M) (row : List F) :
    Except (DecideError E) (Option OrderSide) :=
  match learner.predictProba model row with
  | .error e => .error (.learner e)
  | .ok proba =>
    match argmax proba with
    | none => .error .noProbabilities
    | some cls =>
      if proba.getD cls 0 < wf.directionalThreshold then .ok none
      else if cls = 2 then .ok (some .buy)
      else if cls = 0 then .ok (some .sell)
      else .ok none

/-- A call at bar `i`: its answer, and the model after it.  A call that raises in training leaves the model as it is. -/
def decide (learner : Learner F M E) (m : WalkForwardModel F M) (i : ℕ) :
    Except (DecideError E) (Option OrderSide) × WalkForwardModel F M :=
  if (i : ℤ) < m.wf.initialTrain then (.ok none, m)
  else
    match m.maybeRetrain learner i with
    | .error e => (.error e, m)
    | .ok trained =>
      match trained.model, trained.rowForBar i with
      | some model, some r => (predict learner trained.wf model (trained.featureRows.getD r []), trained)
      | _, _ => (.ok none, trained)

/-- The model after a sequence of calls. -/
def after (learner : Learner F M E) (m : WalkForwardModel F M) (calls : List ℕ) : WalkForwardModel F M :=
  calls.foldl (fun m i => (m.decide learner i).2) m

/-! ### What a call sees -/

/-- Two models that differ at most in what their histories hold after bar `i`. -/
structure AgreesTo (i : ℕ) (m m' : WalkForwardModel F M) : Prop where
  wf : m'.wf = m.wf
  model : m'.model = m.model
  lastTrain : m'.lastTrain = m.lastTrain
  retrains : m'.retrains = m.retrains
  horizon_pos : 1 ≤ m.wf.horizon
  rows : m'.featureRows.take (i + 1 - start) = m.featureRows.take (i + 1 - start)
  labels : ∀ bar : ℕ, bar + m.wf.horizon ≤ i → m'.labels[bar]? = m.labels[bar]?

private theorem getElem?_of_take_eq {α : Type} {l l' : List α} {n k : ℕ} (h : l'.take n = l.take n) (hk : k < n) :
    l'[k]? = l[k]? := by
  rw [← List.getElem?_take_of_lt hk, h, List.getElem?_take_of_lt hk]

namespace AgreesTo

variable {i j : ℕ} {m m' : WalkForwardModel F M}

omit [LinearOrder F]

/-- The rows and labels that a call trains on are realised by the bar of the call. -/
theorem trainingSamples (h : AgreesTo i m m') (hj : j ≤ i) : m'.trainingSamples j = m.trainingSamples j := by
  have hpos := h.horizon_pos
  unfold WalkForwardModel.trainingSamples
  dsimp only
  rw [h.wf]
  have hrows : m'.featureRows.take (j - m.wf.horizon - start + 1).toNat =
      m.featureRows.take (j - m.wf.horizon - start + 1).toNat := by
    have hle : (j - m.wf.horizon - start + 1).toNat ≤ i + 1 - start := by omega
    rw [← Nat.min_eq_left hle, ← List.take_take, h.rows, List.take_take]
  have hlabels : m'.labels.take (j - m.wf.horizon + 1).toNat = m.labels.take (j - m.wf.horizon + 1).toNat := by
    apply List.ext_getElem?
    intro bar
    rw [List.getElem?_take, List.getElem?_take]
    split
    case isTrue hbar => exact h.labels bar (by omega)
    case isFalse => rfl
  rw [hrows, hlabels]

theorem rowForBar (h : AgreesTo i m m') (hj : j ≤ i) : m'.rowForBar j = m.rowForBar j := by
  have hlength := congrArg List.length h.rows
  rw [List.length_take, List.length_take] at hlength
  unfold WalkForwardModel.rowForBar
  dsimp only
  congr 1
  rw [eq_iff_iff]
  constructor <;> rintro ⟨hstart, hlt⟩ <;> refine ⟨hstart, ?_⟩ <;> omega

theorem row (h : AgreesTo i m m') (hj : j ≤ i) {r : ℕ} (hr : m.rowForBar j = some r) :
    m'.featureRows.getD r [] = m.featureRows.getD r [] := by
  have hlt : r < i + 1 - start := by
    unfold WalkForwardModel.rowForBar at hr
    dsimp only at hr
    split at hr
    case isTrue hbar =>
      obtain rfl := Option.some.inj hr
      omega
    case isFalse => cases hr
  rw [List.getD_eq_getElem?_getD, List.getD_eq_getElem?_getD, getElem?_of_take_eq h.rows hlt]

end AgreesTo

omit [LinearOrder F] in
/-- The retraining at a bar up to `i` raises on both models, or leaves them in agreement. -/
theorem AgreesTo.maybeRetrain {i j : ℕ} {m m' : WalkForwardModel F M} (h : AgreesTo i m m') (hj : j ≤ i)
    (learner : Learner F M E) :
    match m.maybeRetrain learner j, m'.maybeRetrain learner j with
    | .error e, .error e' => e' = e
    | .ok t, .ok t' => AgreesTo i t t'
    | _, _ => False := by
  unfold WalkForwardModel.maybeRetrain
  rw [h.wf, h.model, h.lastTrain, h.trainingSamples hj]
  split_ifs
  · exact h
  · exact h
  · dsimp only
    split_ifs
    · exact h
    · rfl
    · exact h
    · cases train learner m.wf ((m.trainingSamples j).map Prod.fst)
        ((m.trainingSamples j).map fun sample => sample.2.toClass) with
      | error e => rfl
      | ok model => exact ⟨rfl, rfl, rfl, congrArg (· + 1) h.retrains, h.horizon_pos, h.rows, h.labels⟩

/-- A call at a bar up to `i` gives the same answer on both models and leaves them in agreement. -/
theorem AgreesTo.decide {i j : ℕ} {m m' : WalkForwardModel F M} (h : AgreesTo i m m') (hj : j ≤ i)
    (learner : Learner F M E) :
    (m'.decide learner j).1 = (m.decide learner j).1 ∧ AgreesTo i (m.decide learner j).2 (m'.decide learner j).2 := by
  have hretrain := h.maybeRetrain hj learner
  unfold WalkForwardModel.decide
  rw [h.wf]
  split
  case isTrue => exact ⟨rfl, h⟩
  case isFalse =>
    split at hretrain
    case h_1 e e' he he' =>
      rw [he, he', hretrain]
      exact ⟨rfl, h⟩
    case h_2 t t' ht ht' =>
      rw [ht, ht']
      dsimp only
      rw [hretrain.model, hretrain.rowForBar hj, hretrain.wf]
      cases hmodel : t.model with
      | none => exact ⟨rfl, hretrain⟩
      | some model =>
        cases hrow : t.rowForBar j with
        | none => exact ⟨rfl, hretrain⟩
        | some r => exact ⟨by dsimp only; rw [hretrain.row hj hrow], hretrain⟩
    case h_3 => exact hretrain.elim

/-- A sequence of calls at bars up to `i` leaves the models in agreement. -/
theorem AgreesTo.after {i : ℕ} {m m' : WalkForwardModel F M} (h : AgreesTo i m m') (learner : Learner F M E)
    {calls : List ℕ} (hcalls : ∀ j ∈ calls, j ≤ i) : AgreesTo i (m.after learner calls) (m'.after learner calls) := by
  induction calls generalizing m m' with
  | nil => exact h
  | cons j calls ih =>
    exact ih (h.decide (hcalls j List.mem_cons_self) learner).2 fun k hk => hcalls k (List.mem_cons_of_mem j hk)

/-- Histories that agree up to bar `i` give models that do. -/
theorem agreesTo_new {math : MathFunctions F} {cs cs' : List OHLCVCandle} {wf : WalkForwardParams F} {i : ℕ}
    (h : cs.take (i + 1) = cs'.take (i + 1)) {m m' : WalkForwardModel F M} (hm : new math cs wf = .ok m)
    (hm' : new math cs' wf = .ok m') : AgreesTo i m m' := by
  unfold new at hm hm'
  cases hgen : LabelGenerator.new wf.horizon wf.threshold with
  | error e => rw [hgen] at hm; cases hm
  | ok gen =>
    rw [hgen] at hm hm'
    cases hm
    cases hm'
    have hhorizon : gen.horizon = wf.horizon := (LabelGenerator.eq_of_new hgen).1
    refine ⟨rfl, rfl, rfl, rfl, hhorizon ▸ gen.horizon_pos, ?_, ?_⟩
    · have hrows := congrArg (fun l => (FeatureEngineer.buildFeatureMatrix math (FeatureEngineer.toArrays l)).1) h
      simp only [FeatureEngineer.buildFeatureMatrix_take] at hrows
      exact hrows.symm
    · intro bar hbar
      have hpos := gen.horizon_pos
      have hrealised : (bar : ℤ) + wf.horizon ≤ i := hbar
      have hclose : ∀ k ≤ i, ((FeatureEngineer.toArrays cs' : PriceArrays F).closes)[k]? =
          ((FeatureEngineer.toArrays cs : PriceArrays F).closes)[k]? := by
        intro k hk
        simp only [FeatureEngineer.toArrays, List.getElem?_map]
        rw [getElem?_of_take_eq h.symm (Nat.lt_succ_of_le hk)]
      simp only [LabelGenerator.getElem?_generate]
      rw [hclose bar (by omega), hclose (bar + gen.horizon.toNat) (by omega)]

/-- Whether a model can be built does not depend on the history. -/
private theorem new_cases (math : MathFunctions F) (wf : WalkForwardParams F) :
    (∃ e, ∀ cs, (new math cs wf : Except LabelError (WalkForwardModel F M)) = .error e) ∨
      ∀ cs, ∃ m : WalkForwardModel F M, new math cs wf = .ok m := by
  unfold new
  cases LabelGenerator.new wf.horizon wf.threshold with
  | error e => exact .inl ⟨e, fun _ => rfl⟩
  | ok gen => exact .inr fun _ => ⟨_, rfl⟩

/-- Every sample is the row of a bar whose label window closes by the bar of the call, with the label of that bar. -/
theorem trainingSamples_past {math : MathFunctions F} {cs : List OHLCVCandle} {wf : WalkForwardParams F}
    {m : WalkForwardModel F M} (hm : new math cs wf = .ok m) {j : ℕ} {sample : List F × ForwardLabel}
    (hsample : sample ∈ m.trainingSamples j) :
    ∃ bar present future, start ≤ bar ∧ (bar : ℤ) + wf.horizon ≤ j ∧ cs[bar]? = some present ∧
      cs[bar + wf.horizon.toNat]? = some future ∧
      sample = (FeatureEngineer.featuresAt math cs bar,
        LabelGenerator.label wf.threshold (present.close : F) (future.close : F)) := by
  unfold new at hm
  cases hgen : LabelGenerator.new wf.horizon wf.threshold with
  | error e => rw [hgen] at hm; cases hm
  | ok gen =>
    rw [hgen] at hm
    cases hm
    obtain ⟨hhorizon, hthreshold⟩ := LabelGenerator.eq_of_new hgen
    obtain ⟨⟨x, y⟩, hzip, hy⟩ := List.mem_filterMap.1 hsample
    obtain ⟨label, rfl, rfl⟩ := Option.map_eq_some_iff.1 hy
    obtain ⟨k, hk⟩ := List.mem_iff_getElem?.1 hzip
    obtain ⟨hx, hlabel⟩ := List.getElem?_zip_eq_some.1 hk
    -- row `k` is that of bar `start + k`
    have hrow : x = FeatureEngineer.featuresAt math cs (start + k) := by
      rw [FeatureEngineer.buildFeatureMatrix_eq, List.getElem?_take] at hx
      split at hx
      case isFalse => cases hx
      case isTrue =>
        rw [List.getElem?_map] at hx
        obtain ⟨bar, hbar, rfl⟩ := Option.map_eq_some_iff.1 hx
        obtain ⟨hlt, rfl⟩ := List.getElem?_eq_some_iff.1 hbar
        rw [List.getElem_range', Nat.one_mul]
        rfl
    -- and label `k` is that of the same bar, with the two closes it comes from
    rw [List.getElem?_drop, List.getElem?_take] at hlabel
    split at hlabel
    case isFalse => cases hlabel
    case isTrue hrealised =>
      rw [LabelGenerator.getElem?_generate] at hlabel
      obtain ⟨present, hpresent, hsome⟩ := Option.map_eq_some_iff.1 hlabel
      obtain ⟨future, hfuture, rfl⟩ := Option.map_eq_some_iff.1 hsome
      simp only [FeatureEngineer.toArrays, List.getElem?_map] at hpresent hfuture
      obtain ⟨candle, hcandle, rfl⟩ := Option.map_eq_some_iff.1 hpresent
      obtain ⟨later, hlater, rfl⟩ := Option.map_eq_some_iff.1 hfuture
      rw [hhorizon] at hlater
      refine ⟨start + k, candle, later, Nat.le_add_right _ _, ?_, hcandle, hlater, ?_⟩
      · have hbound : start + k < ((j : ℤ) - wf.horizon + 1).toNat := hrealised
        omega
      · rw [hrow, hthreshold]

/-- What a call leaves as it is: the parameters and the history. -/
structure SameHistory (m m' : WalkForwardModel F M) : Prop where
  wf : m'.wf = m.wf
  rows : m'.featureRows = m.featureRows
  labels : m'.labels = m.labels

omit [LinearOrder F] in
private theorem sameHistory_maybeRetrain {learner : Learner F M E} {m t : WalkForwardModel F M} {i : ℕ}
    (h : m.maybeRetrain learner i = .ok t) : SameHistory m t := by
  unfold maybeRetrain at h
  dsimp only at h
  split_ifs at h
  · cases h; exact ⟨rfl, rfl, rfl⟩
  · cases h; exact ⟨rfl, rfl, rfl⟩
  · cases h; exact ⟨rfl, rfl, rfl⟩
  · cases h; exact ⟨rfl, rfl, rfl⟩
  · split at h
    · cases h
    · cases h; exact ⟨rfl, rfl, rfl⟩

private theorem sameHistory_decide (learner : Learner F M E) (m : WalkForwardModel F M) (i : ℕ) :
    SameHistory m (m.decide learner i).2 := by
  unfold decide
  split
  case isTrue => exact ⟨rfl, rfl, rfl⟩
  case isFalse =>
    cases hretrain : m.maybeRetrain learner i with
    | error e => exact ⟨rfl, rfl, rfl⟩
    | ok trained =>
      dsimp only
      split
      · exact sameHistory_maybeRetrain hretrain
      · exact sameHistory_maybeRetrain hretrain

private theorem sameHistory_after (learner : Learner F M E) (m : WalkForwardModel F M) (calls : List ℕ) :
    SameHistory m (m.after learner calls) := by
  induction calls generalizing m with
  | nil => exact ⟨rfl, rfl, rfl⟩
  | cons i calls ih =>
    have hcall := sameHistory_decide learner m i
    have hrest := ih (m.decide learner i).2
    exact ⟨hrest.wf.trans hcall.wf, hrest.rows.trans hcall.rows, hrest.labels.trans hcall.labels⟩

omit [LinearOrder F] in
private theorem SameHistory.trainingSamples {m m' : WalkForwardModel F M} (h : SameHistory m m') (i : ℕ) :
    m'.trainingSamples i = m.trainingSamples i := by
  unfold WalkForwardModel.trainingSamples
  rw [h.wf, h.rows, h.labels]

end WalkForwardModel

open WalkForwardModel

/-- Walk-forward training sees only the past.  For any two histories that agree on the bars up to `i`, after the same
calls at bars up to `i` the call at `i` gives the same answer; and whatever a call trains on is the row of a bar whose
label compares two closes at or before the bar of the call. -/
theorem walk_forward_sees_past (math : MathFunctions F) (learner : Learner F M E) (wf : WalkForwardParams F)
    {cs cs' : List OHLCVCandle} {i : ℕ} (h : cs.take (i + 1) = cs'.take (i + 1)) {calls : List ℕ}
    (hcalls : ∀ j ∈ calls, j ≤ i) :
    ((new math cs wf : Except LabelError (WalkForwardModel F M)).map fun m =>
        ((m.after learner calls).decide learner i).1) =
      ((new math cs' wf : Except LabelError (WalkForwardModel F M)).map fun m =>
        ((m.after learner calls).decide learner i).1) ∧
    ∀ m : WalkForwardModel F M, new math cs wf = .ok m → ∀ earlier j later, calls ++ [i] = earlier ++ j :: later →
      ∀ sample ∈ (m.after learner earlier).trainingSamples j,
        ∃ bar present future, start ≤ bar ∧ (bar : ℤ) + wf.horizon ≤ j ∧ cs[bar]? = some present ∧
          cs[bar + wf.horizon.toNat]? = some future ∧
          sample = (FeatureEngineer.featuresAt math cs bar,
            LabelGenerator.label wf.threshold (present.close : F) (future.close : F)) := by
  constructor
  · rcases new_cases (M := M) math wf with ⟨e, herror⟩ | hok
    · rw [herror cs, herror cs']
    · obtain ⟨m, hm⟩ := hok cs
      obtain ⟨m', hm'⟩ := hok cs'
      have hagree : AgreesTo i (m.after learner calls) (m'.after learner calls) :=
        (agreesTo_new h hm hm').after learner hcalls
      rw [hm, hm']
      exact congrArg Except.ok (hagree.decide le_rfl learner).1.symm
  · intro m hm earlier j later _ sample hsample
    rw [(sameHistory_after learner m earlier).trainingSamples] at hsample
    exact trainingSamples_past hm hsample

private theorem sawtooth_volume : (0 : ℚ) ≤ 1 := zero_le_one

/-- Minute candles that rise and fall by ten in turn. -/
def sawtooth (n : ℕ) : List OHLCVCandle :=
  (List.range n).map fun i : ℕ => flatCandle "BTC/USDT" "1m" (60 * i) (if i % 2 = 0 then 100 else 110) 1 sawtooth_volume

/-- A classifier that always expects a rise. -/
def bullish : Learner ℚ Unit Unit where
  fit _ _ _ := .ok ()
  calibrate _ _ _ := .ok ()
  predictProba _ _ := .ok [0, 1 / 4, 3 / 4]

def quickTraining : WalkForwardParams ℚ where
  horizon := 1
  initialTrain := 60
  retrainEvery := 1
  minTrainSamples := 2

def noMath : MathFunctions ℚ := ⟨fun x => x, fun x => x, fun x => x, fun x => x, 3⟩

/-- A call at bar 62 after one at bar 61, over a history that ends there and over a longer one. -/
theorem walk_forward_sees_past_sawtooth :
    ((new noMath (sawtooth 63) quickTraining : Except LabelError (WalkForwardModel ℚ Unit)).map fun m =>
        ((m.after bullish [61]).decide bullish 62).1) = .ok (.ok (some .buy)) ∧
      ((new noMath (sawtooth 70) quickTraining : Except LabelError (WalkForwardModel ℚ Unit)).map fun m =>
        ((m.after bullish [61]).decide bullish 62).1) = .ok (.ok (some .buy)) := by
  have hshort : ((new noMath (sawtooth 63) quickTraining : Except LabelError (WalkForwardModel ℚ Unit)).map fun m =>
      ((m.after bullish [61]).decide bullish 62).1) = .ok (.ok (some .buy)) := by decide +kernel
  have hagree : (sawtooth 63).take (62 + 1) = (sawtooth 70).take (62 + 1) := by decide +kernel
  have hcalls : ∀ j ∈ [61], j ≤ 62 := by decide
  have hsame := (walk_forward_sees_past noMath bullish quickTraining hagree hcalls).1
  exact ⟨hshort, hsame.symm.trans hshort⟩

end MultiAgentTrading
