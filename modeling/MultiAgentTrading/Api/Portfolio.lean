import MultiAgentTrading.Execution.DecimalBooks

/-!
# The portfolio as the API shows it

The endpoints for positions and balance, and the overview of the dashboard, read the texts that the paper broker has
saved, apart from the code that restores the broker from them.  On a saved portfolio all of them show the books of the
broker (`portfolio_served`), and the overview its return, except that an account that is down to nothing shows none
(`totalReturnPct_saved`).  A save is two writes and a request two reads, so a request during a save shows the cash of
one save with the positions of another (`balance_between_saves`).

The endpoints compute with binary floats.  Here their arithmetic is exact: a number is the decimal that its text says,
and sums and cents are those of the decimals, from which the sums and cents of floats may differ in the last digit.
-/

open Json

namespace MultiAgentTrading.Api

open PaperBroker Runs

/-- `float(value)`, none if it raises. -/
def toFloat : Json → Option Decimal
  | .str s => Decimal.parse s
  | .int n => some (.finite (decide (n < 0)) n.natAbs 0)
  | .bool b => some (.finite false b.toNat 0)
  | .float d => some d
  | _ => none

/-- Its exact value, none also if it is not finite. -/
def pyFloat (v : Json) : Option ℚ := (toFloat v).bind Decimal.toRat

structure ServedPosition where
  symbol : Json
  side : Json
  quantity : ℚ
  entryPrice : ℚ
  currentPrice : ℚ
  unrealisedPnlUsd : ℚ
  costUsd : ℚ

structure ServedBalance where
  totalEquityUsd : ℚ := 0
  freeMarginUsd : ℚ := 0
  usedMarginUsd : ℚ := 0
  currency : Json := .str "USD".toList

/-- A position of the overview. -/
structure OverviewPosition where
  symbol : Json
  side : Json
  quantity : ℚ
  entryPrice : ℚ
  costUsd : ℚ

/-- `float(p[key])`. -/
def floatAt (key : String) (p : Json) : Option ℚ := (p.get? key.toList).bind pyFloat

/-- `float(p.get("cost_usd", 0))`. -/
def costOf : Json → Option ℚ
  | .obj fields => ((Json.obj fields).get? "cost_usd".toList).elim (some 0) pyFloat
  | _ => none

/-! ### The endpoints in paper mode -/

section Endpoints

variable (F : FloatText) (texts : PortfolioTexts)

/-- A position of `GET /positions`. -/
def paperPosition (p : Json) : Option ServedPosition := do
  some
    { symbol := ← p.get? "symbol".toList
      side := ← p.get? "side".toList
      quantity := ← floatAt "quantity" p
      entryPrice := ← floatAt "entry_price" p
      currentPrice := ← floatAt "entry_price" p
      unrealisedPnlUsd := 0
      costUsd := ← floatAt "cost_usd" p }

/-- `GET /positions`: no positions if one of them cannot be read. -/
def getPositions : List ServedPosition :=
  match texts.positions.bind (Json.loads F) with
  | some (.obj fields) => (fields.mapM fun p => paperPosition p.2).getD []
  | _ => []

/-- The cost of the positions, summed exactly, none if it raises. -/
def usedMargin : Option ℚ :=
  match texts.positions with
  | none => some 0
  | some raw =>
    if raw.isEmpty then some 0
    else
      match Json.loads F raw with
      | some (.obj fields) => (fields.mapM fun p => costOf p.2).map List.sum
      | _ => none

/-- `GET /positions/balance`: all zero without a cash value, or if anything raises; the equity is the exact sum. -/
def getBalance : ServedBalance :=
  match texts.cash with
  | none => {}
  | some cashRaw =>
    match pyFloat (.str cashRaw), usedMargin F texts with
    | some freeCash, some used =>
      { totalEquityUsd := freeCash + used, freeMarginUsd := freeCash, usedMarginUsd := used }
    | _, _ => {}

/-- `round(x, 2)` of an exact value. -/
def roundCents (x : ℚ) : ℚ := Rounding.quantizeHalfEven (1 / 100) x

def overviewPosition (p : Json) : Option OverviewPosition := do
  some
    { symbol := ← p.get? "symbol".toList
      side := ← p.get? "side".toList
      quantity := ← floatAt "quantity" p
      entryPrice := ← floatAt "entry_price" p
      costUsd := ← costOf p }

/-- The loop over the positions: where it raises, the positions before stay listed. -/
def overviewLoop (used : ℚ) (positions : List OverviewPosition) : List Json → Option ℚ × List OverviewPosition
  | [] => (some used, positions)
  | p :: ps =>
    match costOf p, overviewPosition p with
    | some cost, some position => overviewLoop (used + cost) (positions ++ [position]) ps
    | _, _ => (none, positions)

/-- What the overview makes of the positions. -/
def overviewPositions : Option ℚ × List OverviewPosition :=
  match texts.positions with
  | none => (some 0, [])
  | some raw =>
    if raw.isEmpty then (some 0, [])
    else
      match Json.loads F raw with
      | some (.obj fields) => overviewLoop 0 [] (fields.map Prod.snd)
      | _ => (none, [])

/-- `_read_balance_and_positions` of the dashboard. -/
def readBalanceAndPositions : ServedBalance × List OverviewPosition :=
  let freeCash :=
    match texts.cash with
    | none => some 0
    | some cashRaw => if cashRaw.isEmpty then some 0 else pyFloat (.str cashRaw)
  match freeCash with
  | none => ({}, [])
  | some freeCash =>
    match overviewPositions F texts with
    | (none, positions) => ({}, positions)
    | (some used, positions) =>
      ({ totalEquityUsd := roundCents (freeCash + used), freeMarginUsd := roundCents freeCash
         usedMarginUsd := roundCents used }, positions)

/-- The return that the overview shows: an equity of zero counts as the initial balance. -/
def totalReturnPct (initial : ℚ) (balance : ServedBalance) : ℚ :=
  let equity := if balance.totalEquityUsd = 0 then initial else balance.totalEquityUsd
  if initial = 0 then 0 else Rounding.quantizeHalfEven (1 / 10000) ((equity - initial) / initial * 100)

end Endpoints

/-! ### What they show of a saved portfolio -/

/-- The position that is shown for one of the broker. -/
def ServedPosition.of (pos : PaperPosition) : ServedPosition where
  symbol := .str pos.symbol.toList
  side := .str pos.side.value
  quantity := pos.quantity
  entryPrice := pos.entryPrice
  currentPrice := pos.entryPrice
  unrealisedPnlUsd := 0
  costUsd := pos.costUsd

def OverviewPosition.of (pos : PaperPosition) : OverviewPosition where
  symbol := .str pos.symbol.toList
  side := .str pos.side.value
  quantity := pos.quantity
  entryPrice := pos.entryPrice
  costUsd := pos.costUsd

/-- The balance that is shown for one of the broker. -/
def ServedBalance.of (balance : BrokerBalance) : ServedBalance where
  totalEquityUsd := balance.totalEquityUsd
  freeMarginUsd := balance.freeMarginUsd
  usedMarginUsd := balance.usedMarginUsd

private theorem pyFloat_toText {d : Decimal} {x : ℚ} (h : d.toRat = some x) : pyFloat (.str d.toText) = some x := by
  rw [pyFloat, toFloat, Decimal.parse_toText]
  exact h

section Position

variable {x : DecimalPosition} {pos : PaperPosition} (h : x.Shows pos)
include h

private theorem costOf_encode : costOf x.encode = some pos.costUsd := pyFloat_toText h.costUsd

private theorem paperPosition_encode : paperPosition x.encode = some (.of pos) := by
  have hsymbol : x.encode.get? "symbol".toList = some (.str pos.symbol.toList) := congrArg some h.symbol
  have hside : x.encode.get? "side".toList = some (.str pos.side.value) := congrArg some h.side
  have hquantity : floatAt "quantity" x.encode = some pos.quantity := pyFloat_toText h.quantity
  have hentry : floatAt "entry_price" x.encode = some pos.entryPrice := pyFloat_toText h.entryPrice
  have hcost : floatAt "cost_usd" x.encode = some pos.costUsd := pyFloat_toText h.costUsd
  simp only [paperPosition, hsymbol, hside, hquantity, hentry, hcost, Option.bind_eq_bind, Option.bind_some]
  rfl

private theorem overviewPosition_encode : overviewPosition x.encode = some (.of pos) := by
  have hsymbol : x.encode.get? "symbol".toList = some (.str pos.symbol.toList) := congrArg some h.symbol
  have hside : x.encode.get? "side".toList = some (.str pos.side.value) := congrArg some h.side
  have hquantity : floatAt "quantity" x.encode = some pos.quantity := pyFloat_toText h.quantity
  have hentry : floatAt "entry_price" x.encode = some pos.entryPrice := pyFloat_toText h.entryPrice
  simp only [overviewPosition, hsymbol, hside, hquantity, hentry, costOf_encode h, Option.bind_eq_bind,
    Option.bind_some]
  rfl

end Position

section Entries

variable {xs : List (Text × DecimalPosition)} {ys : List (String × PaperPosition)}
  (h : List.Forall₂ ShowsEntry xs ys)
include h

private theorem mapM_paperPosition :
    (xs.map fun p => (p.1, p.2.encode)).mapM (fun p => paperPosition p.2) = some (ys.map fun q => .of q.2) := by
  induction h with
  | nil => rfl
  | cons hxy _ ih =>
    rw [List.map_cons, List.mapM_cons, paperPosition_encode hxy.2, ih]
    rfl

private theorem mapM_costOf :
    (xs.map fun p => (p.1, p.2.encode)).mapM (fun p => costOf p.2) = some (ys.map fun q => q.2.costUsd) := by
  induction h with
  | nil => rfl
  | cons hxy _ ih =>
    rw [List.map_cons, List.mapM_cons, costOf_encode hxy.2, ih]
    rfl

private theorem overviewLoop_encode (used : ℚ) (positions : List OverviewPosition) :
    overviewLoop used positions (xs.map fun p => p.2.encode) =
      (some (used + (ys.map fun q => q.2.costUsd).sum), positions ++ ys.map fun q => .of q.2) := by
  induction h generalizing used positions with
  | nil => simp [overviewLoop]
  | cons hxy _ ih =>
    rw [List.map_cons, overviewLoop, costOf_encode hxy.2, overviewPosition_encode hxy.2]
    dsimp only
    rw [ih, List.map_cons, List.sum_cons, List.map_cons, add_assoc, List.append_assoc]
    rfl

end Entries

section Saved

variable {F : FloatText} {p : DecimalPortfolio} {b : PaperBroker} {texts : PortfolioTexts}

/-- A text of positions that is not empty. -/
private theorem isEmpty_encodePositions (positions : Dict Text DecimalPosition) :
    (DecimalPortfolio.encodePositions F positions).isEmpty = false := rfl

private theorem getPositions_saved (h : p.Shows b)
    (htexts : texts.positions = some (DecimalPortfolio.encodePositions F p.positions)) :
    getPositions F texts = b.positions.entries.map fun q => .of q.2 := by
  rw [getPositions, htexts, Option.bind_some, DecimalPortfolio.loads_encodePositions h.named]
  dsimp only
  rw [mapM_paperPosition h.positions, Option.getD_some]

private theorem usedMargin_saved (h : p.Shows b)
    (htexts : texts.positions = some (DecimalPortfolio.encodePositions F p.positions)) :
    usedMargin F texts = some b.usedMargin := by
  rw [usedMargin, htexts]
  dsimp only
  rw [isEmpty_encodePositions, if_neg Bool.false_ne_true, DecimalPortfolio.loads_encodePositions h.named]
  dsimp only
  rw [mapM_costOf h.positions]
  rfl

private theorem overviewPositions_saved (h : p.Shows b)
    (htexts : texts.positions = some (DecimalPortfolio.encodePositions F p.positions)) :
    overviewPositions F texts = (some b.usedMargin, b.positions.entries.map fun q => .of q.2) := by
  rw [overviewPositions, htexts]
  dsimp only
  rw [isEmpty_encodePositions, if_neg Bool.false_ne_true, DecimalPortfolio.loads_encodePositions h.named]
  dsimp only
  rw [List.map_map]
  exact (overviewLoop_encode h.positions 0 []).trans (by rw [zero_add, List.nil_append]; rfl)

/-- The cash of one portfolio and the positions of another. -/
private theorem getBalance_saved {q : DecimalPortfolio} {c : PaperBroker} (hp : p.Shows b) (hq : q.Shows c)
    (hcash : texts.cash = some p.cash.toText)
    (hpositions : texts.positions = some (DecimalPortfolio.encodePositions F q.positions)) :
    getBalance F texts =
      { totalEquityUsd := b.cashBalance + c.usedMargin, freeMarginUsd := b.cashBalance
        usedMarginUsd := c.usedMargin } := by
  rw [getBalance, hcash]
  dsimp only
  rw [pyFloat_toText hp.cash, usedMargin_saved hq hpositions]

private theorem readBalanceAndPositions_saved (h : p.Shows b) :
    readBalanceAndPositions F (p.save F) =
      ({ totalEquityUsd := roundCents b.totalEquity, freeMarginUsd := roundCents b.cashBalance
         usedMarginUsd := roundCents b.usedMargin }, b.positions.entries.map fun q => .of q.2) := by
  have hempty : p.cash.toText.isEmpty = false := by
    cases htext : p.cash.toText with
    | cons c t => rfl
    | nil =>
      have hparse := Decimal.parse_toText p.cash
      rw [htext] at hparse
      cases hparse
  have hpositions : overviewPositions F (p.save F) = _ := overviewPositions_saved h rfl
  rw [readBalanceAndPositions, hpositions]
  simp only [DecimalPortfolio.save, hempty, pyFloat_toText h.cash, Bool.false_eq_true, if_false]
  rfl

/-- The return that the overview shows is that of the broker's equity, up to the rounding to cents and to four decimals;
but an equity of zero cents is taken for none at all, and an account that has lost everything shows no loss. -/
theorem totalReturnPct_saved {initial : ℚ} (hinitial : 0 < initial) (h : p.Shows b) :
    let shown := totalReturnPct initial (readBalanceAndPositions F (p.save F)).1
    (roundCents b.totalEquity = 0 → shown = 0) ∧
      (roundCents b.totalEquity ≠ 0 →
        |shown - (b.totalEquity - initial) / initial * 100| ≤ 1 / 20000 + 1 / (2 * initial)) := by
  dsimp only
  rw [readBalanceAndPositions_saved h]
  refine ⟨fun hzero => ?_, fun hequity => ?_⟩
  · have hnone : Rounding.quantizeHalfEven (1 / 10000) ((initial - initial) / initial * 100) = 0 := by
      rw [sub_self, zero_div, zero_mul]
      decide +kernel
    rw [totalReturnPct, if_neg hinitial.ne', if_pos hzero, hnone]
  · have hcents : |roundCents b.totalEquity - b.totalEquity| ≤ 1 / 100 / 2 :=
      Rounding.abs_quantizeHalfEven_sub_le (by norm_num) _
    have hexact : |(roundCents b.totalEquity - initial) / initial * 100 -
        (b.totalEquity - initial) / initial * 100| ≤ 1 / (2 * initial) := by
      rw [show (roundCents b.totalEquity - initial) / initial * 100 - (b.totalEquity - initial) / initial * 100 =
        (roundCents b.totalEquity - b.totalEquity) / initial * 100 by ring, abs_mul, abs_div, abs_of_pos hinitial]
      calc |roundCents b.totalEquity - b.totalEquity| / initial * |100|
          ≤ 1 / 100 / 2 / initial * |100| := by gcongr
        _ = 1 / (2 * initial) := by
          rw [abs_of_pos (by norm_num)]
          ring
    rw [totalReturnPct, if_neg hinitial.ne', if_neg hequity]
    calc _ ≤ _ + _ := abs_sub_le _ ((roundCents b.totalEquity - initial) / initial * 100) _
      _ ≤ 1 / 10000 / 2 + 1 / (2 * initial) :=
        add_le_add (Rounding.abs_quantizeHalfEven_sub_le (by norm_num) _) hexact
      _ = 1 / 20000 + 1 / (2 * initial) := by ring

end Saved

/-- In every run of a broker whose books are decimal numbers they stay so, and on the texts saved of them the API lists
the positions of the broker in the order they were opened, with the balance that the broker answers; the overview lists
them too, with the balance in cents. -/
theorem portfolio_served {settings : Settings} {start s : BrokerRun} {es : List BrokerEvent}
    (hstart : DecimalBooks start.account.broker) (h : exec (BrokerRun.step settings) start es = some s)
    (F : FloatText) :
    let broker := s.account.broker
    (∃ p : DecimalPortfolio, p.Shows broker) ∧ ∀ p : DecimalPortfolio, p.Shows broker →
      getPositions F (p.save F) = broker.positions.values.map ServedPosition.of ∧
      getBalance F (p.save F) = .of broker.getBalance ∧
      readBalanceAndPositions F (p.save F) =
        ({ totalEquityUsd := roundCents broker.totalEquity, freeMarginUsd := roundCents broker.cashBalance
           usedMarginUsd := roundCents broker.usedMargin }, broker.positions.values.map OverviewPosition.of) := by
  have hbooks : DecimalBooks s.account.broker :=
    BrokerRun.exec_invariant_of_change DecimalBooks (fun _ _ hchange hb => hb.change hchange) hstart h
  refine ⟨decimalBooks_iff.1 hbooks, fun p hp => ⟨?_, getBalance_saved hp hp rfl rfl, ?_⟩⟩
  · rw [getPositions_saved hp rfl, Dict.values, List.map_map]
    rfl
  · rw [readBalanceAndPositions_saved hp, Dict.values, List.map_map]
    rfl

/-- An order opens a position. -/
def openedOnce : List BrokerEvent :=
  [.placeOrder (plainOrder 1 "BTC/USDT" .buy 200 two_hundred_pos 100), .resume 0 (.latencyOver .full 0)]

theorem portfolio_served_openedOnce : ∃ s, ∃ p : DecimalPortfolio,
    exec (BrokerRun.step {}) (BrokerRun.init {} true) openedOnce = some s ∧ p.Shows s.account.broker ∧
      s.account.broker.positions.keys = ["BTC/USDT"] ∧
      getPositions .decimal (p.save .decimal) = s.account.broker.positions.values.map ServedPosition.of ∧
      getBalance .decimal (p.save .decimal) = .of s.account.broker.getBalance := by
  have hrun : ((exec (BrokerRun.step {}) (BrokerRun.init {} true) openedOnce).map fun s =>
      s.account.broker.positions.keys) = some ["BTC/USDT"] := by
    decide +kernel
  obtain ⟨s, hs, hkeys⟩ := Option.map_eq_some_iff.1 hrun
  have hbalance : (Decimal.finite false 100000 (-1)).toRat = some ({} : Settings).paperInitialBalanceUsd := by
    decide +kernel
  have hstart : DecimalBooks (BrokerRun.init {} true).account.broker :=
    decimalBooks_iff.2 ⟨_, DecimalPortfolio.shows_init hbalance⟩
  obtain ⟨⟨p, hp⟩, hall⟩ := portfolio_served hstart hs .decimal
  exact ⟨s, p, hs, hp, hkeys, (hall p hp).1, (hall p hp).2.1⟩

/-! ### Requests during a save -/

section Saves

variable {F : FloatText}

/-- The writes of `_save_portfolio_state`: the cash, then the positions. -/
def saveWrites (F : FloatText) (p : DecimalPortfolio) : List (PortfolioTexts → PortfolioTexts) :=
  [fun texts => { texts with cash := some p.cash.toText },
    fun texts => { texts with positions := some (DecimalPortfolio.encodePositions F p.positions) }]

/-- The store after the first `n` writes of some saves. -/
def writtenBy (F : FloatText) (saves : List DecimalPortfolio) (n : ℕ) (texts : PortfolioTexts) : PortfolioTexts :=
  ((saves.flatMap (saveWrites F)).take n).foldl (fun texts write => write texts) texts

/-- After an odd number of writes the last save has written its cash only. -/
private theorem cash_writtenBy {saves : List DecimalPortfolio} {n : ℕ} {p : DecimalPortfolio} (hn : 1 ≤ n)
    (hp : saves[(n - 1) / 2]? = some p) (texts : PortfolioTexts) :
    (writtenBy F saves n texts).cash = some p.cash.toText := by
  induction saves generalizing n texts with
  | nil => cases hp
  | cons q saves ih =>
    match n, hn with
    | 1, _ => cases hp; rfl
    | 2, _ => cases hp; rfl
    | n + 3, _ =>
      have hindex : (n + 3 - 1) / 2 = (n + 1 - 1) / 2 + 1 := by omega
      rw [hindex, List.getElem?_cons_succ] at hp
      exact ih (n := n + 1) (by omega) hp _

private theorem positions_writtenBy {saves : List DecimalPortfolio} {n : ℕ} {p : DecimalPortfolio} (hn : 2 ≤ n)
    (hp : saves[n / 2 - 1]? = some p) (texts : PortfolioTexts) :
    (writtenBy F saves n texts).positions = some (DecimalPortfolio.encodePositions F p.positions) := by
  induction saves generalizing n texts with
  | nil => cases hp
  | cons q saves ih =>
    match n, hn with
    | 2, _ => cases hp; rfl
    | 3, _ =>
      cases hp
      cases saves <;> rfl
    | n + 4, _ =>
      have hindex : (n + 4) / 2 - 1 = (n + 2) / 2 - 1 + 1 := by omega
      rw [hindex, List.getElem?_cons_succ] at hp
      exact ih (n := n + 2) (by omega) hp _

/-- A request that reads the cash after `n` writes of the saves and the positions after `n'` shows the cash of one save
and the margin of another, and its equity is wrong by the difference of their margins; it is a balance of the broker if
both reads come after the same save.  Without a write between the reads, `n' = n`, that is so unless a save has written
its cash only, and then the positions are those of the save before. -/
theorem balance_between_saves {saves : List DecimalPortfolio} {n n' : ℕ} (hn : 1 ≤ n) (hn' : 2 ≤ n')
    {p q : DecimalPortfolio} (hp : saves[(n - 1) / 2]? = some p) (hq : saves[n' / 2 - 1]? = some q)
    {b c : PaperBroker} (hb : p.Shows b) (hc : q.Shows c) (texts : PortfolioTexts) :
    let shown := getBalance F ⟨(writtenBy F saves n texts).cash, (writtenBy F saves n' texts).positions⟩
    shown.freeMarginUsd = b.cashBalance ∧ shown.usedMarginUsd = c.usedMargin ∧
      shown.totalEquityUsd = b.totalEquity + (c.usedMargin - b.usedMargin) ∧
      ((n - 1) / 2 = n' / 2 - 1 → shown = .of b.getBalance) ∧
      (n' = n → (n - 1) / 2 = n' / 2 - 1 ∨ (n - 1) / 2 = n' / 2 ∧ n % 2 = 1) := by
  have hshown : getBalance F ⟨(writtenBy F saves n texts).cash, (writtenBy F saves n' texts).positions⟩ = _ :=
    getBalance_saved hb hc (cash_writtenBy hn hp texts) (positions_writtenBy hn' hq texts)
  dsimp only
  rw [hshown]
  refine ⟨rfl, rfl, ?_, fun hsame => ?_, by omega⟩
  · show b.cashBalance + c.usedMargin = b.cashBalance + b.usedMargin + (c.usedMargin - b.usedMargin)
    ring
  · rw [hsame, hq] at hp
    cases hp
    have hmargin : c.usedMargin = b.usedMargin := by
      unfold PaperBroker.usedMargin
      rw [(hc.books_eq hb).2]
    rw [hmargin]
    rfl

/-- The books after the purchase, which `savedLong` shows. -/
def boughtBooks : PaperBroker where
  cashBalance := 979981 / 100
  positions := Dict.empty.set "BTC/USDT" ⟨"BTC/USDT", .buy, 199900049 / 100000000, 10005 / 100, 20019 / 100⟩

theorem balance_between_saves_bought :
    let shown := getBalance .decimal
      ⟨(writtenBy .decimal [.fresh (.finite false 100000 (-1)), savedLong] 3 {}).cash,
        (writtenBy .decimal [.fresh (.finite false 100000 (-1)), savedLong] 3 {}).positions⟩
    shown.freeMarginUsd = 979981 / 100 ∧ shown.totalEquityUsd = 979981 / 100 + 20019 / 100 + (0 - 20019 / 100) := by
  have hbought : savedLong.Shows boughtBooks :=
    ⟨by decide +kernel, .cons ⟨rfl, rfl, rfl, by decide +kernel, by decide +kernel, by decide +kernel⟩ .nil⟩
  have hbalance : (Decimal.finite false 100000 (-1)).toRat = some ({} : Settings).paperInitialBalanceUsd := by
    decide +kernel
  have hshown := @balance_between_saves .decimal [.fresh (.finite false 100000 (-1)), savedLong] 3 3 (by decide)
    (by decide) savedLong (.fresh (.finite false 100000 (-1))) rfl rfl boughtBooks (.init {}) hbought
    (DecimalPortfolio.shows_init hbalance) {}
  refine ⟨hshown.1, hshown.2.2.1.trans ?_⟩
  decide +kernel

end Saves

end MultiAgentTrading.Api
