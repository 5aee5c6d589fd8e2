import Mathlib.Algebra.Order.Floor.Ring
import Mathlib.Data.Rat.Floor
import Mathlib.Tactic.Ring
import Mathlib.Tactic.Linarith
import MultiAgentTrading.Core.Models
import MultiAgentTrading.Core.Settings

/-!
# The portfolio ledger

The state of the paper portfolio as the risk agent sees it: cash, the cost of each open position, its side, and the
daily and total loss limits.  The two readings the rest of the development uses are `portfolioValueUsd` and
`held m symbol`, the side and cost of a position; each ledger operation comes with what it does to both.
-/

namespace MultiAgentTrading

structure PortfolioState where
  initialBalanceUsd : ℚ
  currentBalanceUsd : ℚ
  dailyStartBalanceUsd : ℚ
  openPositions : Dict String ℚ := .empty
  positionSides : Dict String OrderSide := .empty
  dailyRealizedPnl : ℚ := 0
  lastResetDate : ℤ
  deriving DecidableEq

/-- The UTC calendar day of a time. -/
def utcDate (t : ℚ) : ℤ := ⌊t / 86400⌋

theorem utcDate_mono {t t' : ℚ} (h : t ≤ t') : utcDate t ≤ utcDate t' :=
  Int.floor_le_floor (div_le_div_of_nonneg_right h (by norm_num))

namespace PortfolioState

def portfolioValueUsd (s : PortfolioState) : ℚ := s.currentBalanceUsd + s.openPositions.total id

def openPositionsCount (s : PortfolioState) : ℕ := s.openPositions.size

def dailyLossPct (s : PortfolioState) : ℚ :=
  if s.dailyStartBalanceUsd = 0 then 0
  else (s.dailyStartBalanceUsd - s.portfolioValueUsd) / s.dailyStartBalanceUsd

def totalDrawdownPct (s : PortfolioState) : ℚ :=
  if s.initialBalanceUsd = 0 then 0 else (s.initialBalanceUsd - s.portfolioValueUsd) / s.initialBalanceUsd

end PortfolioState

structure DrawdownMonitor where
  maxDailyLossPct : ℚ
  maxTotalDrawdownPct : ℚ
  state : PortfolioState
  deriving DecidableEq

namespace DrawdownMonitor

def init (initialBalanceUsd maxDailyLossPct maxTotalDrawdownPct now : ℚ) : DrawdownMonitor where
  maxDailyLossPct := maxDailyLossPct
  maxTotalDrawdownPct := maxTotalDrawdownPct
  state :=
    { initialBalanceUsd := initialBalanceUsd
      currentBalanceUsd := initialBalanceUsd
      dailyStartBalanceUsd := initialBalanceUsd
      lastResetDate := utcDate now }

/-- Reset the daily tracking when a new UTC day has begun. -/
def maybeResetDaily (m : DrawdownMonitor) (now : ℚ) : DrawdownMonitor :=
  if m.state.lastResetDate ≠ utcDate now then
    { m with state :=
        { m.state with
          dailyStartBalanceUsd := m.state.portfolioValueUsd
          dailyRealizedPnl := 0
          lastResetDate := utcDate now } }
  else m

/-- The check resets the daily tracking first, so it also returns the monitor. -/
def dailyLossLimitBreached (m : DrawdownMonitor) (now : ℚ) : Bool × DrawdownMonitor :=
  let m' := m.maybeResetDaily now
  (m'.maxDailyLossPct ≤ m'.state.dailyLossPct, m')

def totalDrawdownLimitBreached (m : DrawdownMonitor) : Bool := m.maxTotalDrawdownPct ≤ m.state.totalDrawdownPct

def positionSide (m : DrawdownMonitor) (symbol : String) : Option OrderSide :=
  if m.state.openPositions.contains symbol then some ((m.state.positionSides.get? symbol).getD .buy) else none

def openPosition (m : DrawdownMonitor) (symbol : String) (sizeUsd : ℚ) (side : Option OrderSide) : DrawdownMonitor :=
  { m with state :=
      { m.state with
        currentBalanceUsd := m.state.currentBalanceUsd - sizeUsd
        openPositions := m.state.openPositions.set symbol sizeUsd
        positionSides :=
          match side with
          | some d => m.state.positionSides.set symbol d
          | none => m.state.positionSides } }

def adjustPositionCost (m : DrawdownMonitor) (symbol : String) (actualCostUsd : ℚ) : DrawdownMonitor :=
  match m.state.openPositions.get? symbol with
  | none => m
  | some reserved =>
    { m with state :=
        { m.state with
          currentBalanceUsd := m.state.currentBalanceUsd + (reserved - actualCostUsd)
          openPositions := m.state.openPositions.set symbol actualCostUsd } }

def closePosition (m : DrawdownMonitor) (symbol : String) (pnlUsd : ℚ) : DrawdownMonitor :=
  let entryCost := (m.state.openPositions.get? symbol).getD 0
  { m with state :=
      { m.state with
        currentBalanceUsd := m.state.currentBalanceUsd + (entryCost + pnlUsd)
        openPositions := m.state.openPositions.erase symbol
        positionSides := m.state.positionSides.erase symbol
        dailyRealizedPnl := m.state.dailyRealizedPnl + pnlUsd } }

/-! ### The side and cost of a position -/

/-- Side and cost of the position the ledger holds on a symbol. -/
def held (m : DrawdownMonitor) (symbol : String) : Option (OrderSide × ℚ) :=
  (m.state.openPositions.get? symbol).map fun cost => ((m.state.positionSides.get? symbol).getD .buy, cost)

theorem positionSide_eq (m : DrawdownMonitor) (symbol : String) :
    m.positionSide symbol = (m.held symbol).map Prod.fst := by
  unfold positionSide held Dict.contains
  cases m.state.openPositions.get? symbol <;> rfl

theorem get?_openPositions (m : DrawdownMonitor) (symbol : String) :
    m.state.openPositions.get? symbol = (m.held symbol).map Prod.snd := by
  unfold held
  cases m.state.openPositions.get? symbol <;> rfl

theorem held_eq_none_iff {m : DrawdownMonitor} {symbol : String} :
    m.held symbol = none ↔ m.state.openPositions.get? symbol = none :=
  Option.map_eq_none_iff

@[simp] theorem held_init (b l t now : ℚ) (symbol : String) : (init b l t now).held symbol = none := rfl

@[simp] theorem held_maybeResetDaily (m : DrawdownMonitor) (now : ℚ) (symbol : String) :
    (m.maybeResetDaily now).held symbol = m.held symbol := by
  unfold maybeResetDaily
  split <;> rfl

theorem held_openPosition (m : DrawdownMonitor) (symbol symbol' : String) (size : ℚ) (d : OrderSide) :
    (m.openPosition symbol size (some d)).held symbol' =
      if symbol' = symbol then some (d, size) else m.held symbol' := by
  simp only [held, openPosition, Dict.get?_set]
  split <;> rfl

theorem held_adjustPositionCost (m : DrawdownMonitor) (symbol symbol' : String) (cost : ℚ) :
    (m.adjustPositionCost symbol cost).held symbol' =
      if symbol' = symbol then (m.held symbol).map fun p => (p.1, cost) else m.held symbol' := by
  unfold adjustPositionCost
  split
  case h_1 h =>
    have hnone : m.held symbol = none := held_eq_none_iff.2 h
    split
    case isTrue he => rw [he, hnone]; rfl
    case isFalse => rfl
  case h_2 reserved h =>
    simp only [held, Dict.get?_set]
    split
    case isTrue he => simp [h, he]
    case isFalse => rfl

theorem held_closePosition (m : DrawdownMonitor) (symbol symbol' : String) (pnl : ℚ) :
    (m.closePosition symbol pnl).held symbol' = if symbol' = symbol then none else m.held symbol' := by
  simp only [held, closePosition, Dict.get?_erase]
  split <;> rfl

/-! ### The portfolio value -/

@[simp] theorem portfolioValueUsd_init (b l t now : ℚ) : (init b l t now).state.portfolioValueUsd = b := by
  simp [init, PortfolioState.portfolioValueUsd]

@[simp] theorem portfolioValueUsd_maybeResetDaily (m : DrawdownMonitor) (now : ℚ) :
    (m.maybeResetDaily now).state.portfolioValueUsd = m.state.portfolioValueUsd := by
  unfold maybeResetDaily
  split <;> rfl

/-- Opening a flat symbol moves cash into the position. -/
theorem portfolioValueUsd_openPosition {m : DrawdownMonitor} {symbol : String} (h : m.held symbol = none) (size : ℚ)
    (side : Option OrderSide) :
    (m.openPosition symbol size side).state.portfolioValueUsd = m.state.portfolioValueUsd := by
  have hflat := held_eq_none_iff.1 h
  simp only [PortfolioState.portfolioValueUsd, openPosition, Dict.total_set_of_none hflat, id]
  ring

theorem portfolioValueUsd_adjustPositionCost (m : DrawdownMonitor) (symbol : String) (cost : ℚ) :
    (m.adjustPositionCost symbol cost).state.portfolioValueUsd = m.state.portfolioValueUsd := by
  unfold adjustPositionCost
  split
  case h_1 => rfl
  case h_2 reserved h =>
    simp only [PortfolioState.portfolioValueUsd, Dict.total_set_of_some h, id]
    ring

/-- Closing a held position realises its profit; closing a flat symbol credits the amount given. -/
theorem portfolioValueUsd_closePosition (m : DrawdownMonitor) (symbol : String) (pnl : ℚ) :
    (m.closePosition symbol pnl).state.portfolioValueUsd = m.state.portfolioValueUsd + pnl := by
  unfold closePosition PortfolioState.portfolioValueUsd
  cases h : m.state.openPositions.get? symbol with
  | none =>
    simp only [Dict.erase_of_none h, Option.getD_none]
    ring
  | some cost =>
    simp only [Dict.total_erase_of_some h, Option.getD_some, id]
    ring

/-! ### Sides and positions name the same symbols -/

/-- `position_sides` has exactly the symbols of `open_positions`. -/
def SidesMatch (m : DrawdownMonitor) : Prop :=
  ∀ symbol, symbol ∈ m.state.positionSides.keys ↔ symbol ∈ m.state.openPositions.keys

theorem sidesMatch_init (b l t now : ℚ) : (init b l t now).SidesMatch := fun _ => Iff.rfl

theorem SidesMatch.maybeResetDaily {m : DrawdownMonitor} (h : m.SidesMatch) (now : ℚ) :
    (m.maybeResetDaily now).SidesMatch := by
  unfold DrawdownMonitor.maybeResetDaily
  split
  · exact h
  · exact h

theorem SidesMatch.openPosition {m : DrawdownMonitor} (h : m.SidesMatch) (symbol : String) (size : ℚ)
    (d : OrderSide) : (m.openPosition symbol size (some d)).SidesMatch := by
  intro symbol'
  simp only [DrawdownMonitor.openPosition, Dict.mem_keys_set]
  rw [h symbol']

theorem SidesMatch.adjustPositionCost {m : DrawdownMonitor} (h : m.SidesMatch) (symbol : String) (cost : ℚ) :
    (m.adjustPositionCost symbol cost).SidesMatch := by
  unfold DrawdownMonitor.adjustPositionCost
  split
  case h_1 => exact h
  case h_2 reserved hr =>
    intro symbol'
    have hmem : symbol ∈ m.state.openPositions.keys := Dict.mem_keys.2 ⟨reserved, hr⟩
    rw [Dict.mem_keys_set, h symbol']
    constructor
    · exact .inr
    · rintro (rfl | hs)
      · exact hmem
      · exact hs

theorem SidesMatch.closePosition {m : DrawdownMonitor} (h : m.SidesMatch) (symbol : String) (pnl : ℚ) :
    (m.closePosition symbol pnl).SidesMatch := by
  intro symbol'
  simp only [DrawdownMonitor.closePosition, Dict.mem_keys_erase]
  rw [h symbol']

end DrawdownMonitor

end MultiAgentTrading
