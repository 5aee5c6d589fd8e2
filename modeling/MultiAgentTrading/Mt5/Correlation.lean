import MultiAgentTrading.Lib.Dict
import MultiAgentTrading.Lib.ListSet
import MultiAgentTrading.Lib.Runs

/-!
# Commands and results of the MT5 bridge

The three handlers that share the command queue and the table of pending futures, with nothing assumed of the other
side: polls come at any time and posts carry any command id, also one that is unknown, posted before, or of a call that
has timed out.  (`Mt5.Bridge` has the same handlers with the advisor on the other side.)  `Correlated` says what ties
queue, table and calls together; it is kept by every step, and `command_correlation` reads the guarantees off it.
Commands and the rest of a result are of any types.
-/

namespace MultiAgentTrading.Mt5

open Runs

/-- The body of a posted result: its command id, empty if it has none, and the rest. -/
structure ResultBody (β : Type) where
  commandId : String
  rest : β
  deriving DecidableEq

inductive FutureState (β : Type)
  | pending
  | result (body : ResultBody β)
  | cancelled
  deriving DecidableEq

inductive WaitOutcome (β : Type)
  | waiting
  | returned (body : ResultBody β)
  | timedOut
  deriving DecidableEq

/-- An `_enqueue_and_wait` call: its command, its future, whether its timer has fired, and how it has ended. -/
structure WaitingCall (α β : Type) where
  commandId : String
  command : α
  future : FutureState β := .pending
  timerFired : Bool := false
  outcome : WaitOutcome β := .waiting
  deriving DecidableEq

def WaitingCall.sent {α β : Type} (call : WaitingCall α β) : String × α := (call.commandId, call.command)

/-- The command queue, the futures by command id (a future is named by its call), the calls so far, and the commands
that polls have handed out. -/
structure CommandTable (α β : Type) where
  commandQueue : List (String × α) := []
  resultFutures : Dict String ℕ := .empty
  calls : List (WaitingCall α β) := []
  handedOut : List (String × α) := []

/-- A call up to its await; a poll; a post, of a body or of what is no JSON; the timer of a call, which cancels its
future at once or leaves that to the call; a call that goes on with its result, or with its timeout. -/
inductive TableEvent (α β : Type)
  | enqueue (commandId : String) (command : α)
  | poll
  | post (body : Option (ResultBody β))
  | expire (i : ℕ) (cancels : Bool)
  | reply (i : ℕ)
  | raise (i : ℕ)

namespace CommandTable

variable {α β : Type}

def setCall (s : CommandTable α β) (i : ℕ) (call : WaitingCall α β) : CommandTable α β :=
  { s with calls := s.calls.set i call }

/-- `_enqueue_and_wait` up to its await. -/
def enqueue (s : CommandTable α β) (commandId : String) (command : α) : CommandTable α β :=
  { s with
    resultFutures := s.resultFutures.set commandId s.calls.length
    commandQueue := s.commandQueue ++ [(commandId, command)]
    calls := s.calls ++ [{ commandId := commandId, command := command }] }

/-- `_handle_command`: the next command, if there is one. -/
def handleCommand (s : CommandTable α β) : Option (String × α) × CommandTable α β :=
  match s.commandQueue with
  | [] => (none, s)
  | c :: rest => (some c, { s with commandQueue := rest, handedOut := s.handedOut ++ [c] })

/-- `_handle_result`: take the future out of the table, and resolve it unless it is done. -/
def handleResult (s : CommandTable α β) (body : ResultBody β) : CommandTable α β :=
  match s.resultFutures.get? body.commandId with
  | none => s
  | some i =>
    let popped := { s with resultFutures := s.resultFutures.erase body.commandId }
    match s.calls[i]? with
    | none => popped
    | some call =>
      match call.future with
      | .pending => popped.setCall i { call with future := .result body }
      | _ => popped

def step (s : CommandTable α β) : TableEvent α β → Option (CommandTable α β)
  | .enqueue commandId command =>
    if ∀ call ∈ s.calls, call.commandId ≠ commandId then some (s.enqueue commandId command) else none
  | .poll => some s.handleCommand.2
  | .post none => some s
  | .post (some body) => some (s.handleResult body)
  | .expire i cancels =>
    match s.calls[i]? with
    | none => none
    | some call =>
      match call.outcome, call.future with
      | .waiting, .pending =>
        let future := if cancels then FutureState.cancelled else .pending
        some (s.setCall i { call with timerFired := true, future := future })
      -- the timer can fire between a result and the call going on with it
      | .waiting, _ => some (s.setCall i { call with timerFired := true })
      | _, _ => none
  | .reply i =>
    match s.calls[i]? with
    | none => none
    | some call =>
      match call.outcome, call.future with
      | .waiting, .result body => some (s.setCall i { call with outcome := .returned body })
      | _, _ => none
  | .raise i =>
    match s.calls[i]? with
    | none => none
    | some call =>
      match call.outcome, call.timerFired with
      | .waiting, true =>
        let future := if call.future matches .pending then FutureState.cancelled else call.future
        some { s.setCall i { call with outcome := .timedOut, future := future } with
          resultFutures := s.resultFutures.erase call.commandId }
      | _, _ => none

/-- What every step keeps.  A future in the table is that of the call with its command id; a result is that of its
call, and its future has left the table, as has that of a call that has timed out. -/
structure Correlated (s : CommandTable α β) : Prop where
  ids : (s.calls.map WaitingCall.commandId).Nodup
  fifo : s.handedOut ++ s.commandQueue = s.calls.map WaitingCall.sent
  table : ∀ id i, s.resultFutures.get? id = some i → (s.calls.map WaitingCall.commandId)[i]? = some id
  result : ∀ call ∈ s.calls, ∀ body, call.future = .result body →
    body.commandId = call.commandId ∧ s.resultFutures.get? call.commandId = none
  returned : ∀ call ∈ s.calls, ∀ body, call.outcome = .returned body → call.future = .result body
  timedOut : ∀ call ∈ s.calls, call.outcome = .timedOut → s.resultFutures.get? call.commandId = none

theorem correlated_empty : Correlated ({} : CommandTable α β) where
  ids := List.nodup_nil
  fifo := rfl
  table := by simp
  result := by simp
  returned := by simp
  timedOut := by simp

/-! ### A step that touches one call -/

/-- A call that goes on with the same command, and a table that has only lost futures. -/
private theorem Correlated.setCall {s : CommandTable α β} (h : s.Correlated) {i : ℕ} {call call' : WaitingCall α β}
    (hcall : s.calls[i]? = some call) (hsent : call'.sent = call.sent) {futures : Dict String ℕ}
    (hfutures : ∀ id k, futures.get? id = some k → s.resultFutures.get? id = some k)
    (hresult : ∀ body, call'.future = .result body →
      body.commandId = call'.commandId ∧ futures.get? call'.commandId = none)
    (hreturned : ∀ body, call'.outcome = .returned body → call'.future = .result body)
    (htimedOut : call'.outcome = .timedOut → futures.get? call'.commandId = none) :
    Correlated { s.setCall i call' with resultFutures := futures } := by
  have hids : (s.calls.set i call').map WaitingCall.commandId = s.calls.map WaitingCall.commandId :=
    ListSet.map_set_of_eq hcall (congrArg Prod.fst hsent)
  have hlost : ∀ {id}, s.resultFutures.get? id = none → futures.get? id = none := fun {id} hnone => by
    rw [Option.eq_none_iff_forall_ne_some] at hnone ⊢
    exact fun k hk => hnone k (hfutures id k hk)
  refine ⟨?_, ?_, ?_, ?_, ?_, ?_⟩
  · show ((s.calls.set i call').map WaitingCall.commandId).Nodup
    rw [hids]
    exact h.ids
  · exact h.fifo.trans (ListSet.map_set_of_eq hcall hsent).symm
  · intro id k hk
    show ((s.calls.set i call').map WaitingCall.commandId)[k]? = some id
    rw [hids]
    exact h.table id k (hfutures id k hk)
  · intro c hc body hbody
    rcases List.mem_or_eq_of_mem_set hc with hold | rfl
    · exact (h.result c hold body hbody).imp_right hlost
    · exact hresult body hbody
  · intro c hc body hbody
    rcases List.mem_or_eq_of_mem_set hc with hold | rfl
    · exact h.returned c hold body hbody
    · exact hreturned body hbody
  · intro c hc hout
    rcases List.mem_or_eq_of_mem_set hc with hold | rfl
    · exact hlost (h.timedOut c hold hout)
    · exact htimedOut hout

private theorem get?_of_erase {d : Dict String ℕ} {id id' : String} {k : ℕ} (h : (d.erase id).get? id' = some k) :
    d.get? id' = some k := by
  rw [Dict.get?_erase] at h
  split at h
  · cases h
  · exact h

/-! ### Every step keeps the correlation -/

private theorem Correlated.enqueue {s : CommandTable α β} (h : s.Correlated) {commandId : String}
    (hnew : ∀ call ∈ s.calls, call.commandId ≠ commandId) (command : α) : (s.enqueue commandId command).Correlated := by
  have hother : ∀ call ∈ s.calls, (s.resultFutures.set commandId s.calls.length).get? call.commandId =
      s.resultFutures.get? call.commandId := fun call hc => Dict.get?_set_of_ne (hnew call hc) _ _
  refine ⟨?_, ?_, ?_, ?_, ?_, ?_⟩
  · show ((s.calls ++ [_]).map WaitingCall.commandId).Nodup
    rw [List.map_append, List.nodup_append]
    refine ⟨h.ids, List.nodup_singleton _, ?_⟩
    intro id hid id' hid' he
    obtain ⟨call, hc, rfl⟩ := List.mem_map.1 hid
    exact hnew call hc (he.trans (List.mem_singleton.1 hid'))
  · show s.handedOut ++ (s.commandQueue ++ [_]) = (s.calls ++ [_]).map WaitingCall.sent
    rw [← List.append_assoc, h.fifo, List.map_append]
    rfl
  · intro id k hk
    show ((s.calls ++ [_]).map WaitingCall.commandId)[k]? = some id
    rw [List.map_append]
    replace hk : (s.resultFutures.set commandId s.calls.length).get? id = some k := hk
    rw [Dict.get?_set] at hk
    split at hk
    case isTrue he =>
      cases hk
      rw [List.getElem?_append_right (by simp)]
      simp [he]
    case isFalse =>
      have hold := h.table id k hk
      rw [List.getElem?_append_left (List.getElem?_eq_some_iff.1 hold).1]
      exact hold
  · intro c hc body hbody
    rcases List.mem_append.1 hc with hold | hlast
    · exact (h.result c hold body hbody).imp_right fun hnone => (hother c hold).trans hnone
    · rw [List.mem_singleton.1 hlast] at hbody
      cases hbody
  · intro c hc body hbody
    rcases List.mem_append.1 hc with hold | hlast
    · exact h.returned c hold body hbody
    · rw [List.mem_singleton.1 hlast] at hbody
      cases hbody
  · intro c hc hout
    rcases List.mem_append.1 hc with hold | hlast
    · exact (hother c hold).trans (h.timedOut c hold hout)
    · rw [List.mem_singleton.1 hlast] at hout
      cases hout

private theorem Correlated.handleCommand {s : CommandTable α β} (h : s.Correlated) : s.handleCommand.2.Correlated := by
  unfold CommandTable.handleCommand
  split
  case h_1 => exact h
  case h_2 c rest hqueue =>
    refine ⟨h.ids, ?_, h.table, h.result, h.returned, h.timedOut⟩
    rw [← h.fifo, hqueue]
    simp

private theorem Correlated.popped {s : CommandTable α β} (h : s.Correlated) (id : String) :
    Correlated { s with resultFutures := s.resultFutures.erase id } := by
  have hlost : ∀ {id'}, s.resultFutures.get? id' = none → (s.resultFutures.erase id).get? id' = none :=
    fun {id'} hnone => by
      rw [Dict.get?_erase]
      split
      · rfl
      · exact hnone
  exact ⟨h.ids, h.fifo, fun id' k hk => h.table id' k (get?_of_erase hk),
    fun c hc body hbody => (h.result c hc body hbody).imp_right hlost, h.returned,
    fun c hc hout => hlost (h.timedOut c hc hout)⟩

private theorem Correlated.handleResult {s : CommandTable α β} (h : s.Correlated) (body : ResultBody β) :
    (s.handleResult body).Correlated := by
  unfold CommandTable.handleResult
  cases hfound : s.resultFutures.get? body.commandId with
  | none => exact h
  | some i =>
    dsimp only
    cases hcall : s.calls[i]? with
    | none => exact h.popped _
    | some call =>
      dsimp only
      have hid : call.commandId = body.commandId := by
        have htable := h.table _ i hfound
        rw [List.getElem?_map, hcall] at htable
        exact Option.some.inj htable
      split
      case h_1 hpending =>
        refine h.setCall hcall (by rfl) (fun _ _ => get?_of_erase) ?_ ?_ ?_
        · rintro _ ⟨⟩
          exact ⟨hid.symm, by rw [hid, Dict.get?_erase_self]⟩
        · intro body' hreturned
          have := h.returned call (List.mem_of_getElem? hcall) body' hreturned
          rw [hpending] at this
          cases this
        · intro _
          rw [hid, Dict.get?_erase_self]
      case h_2 => exact h.popped _

private theorem Correlated.expire {s s' : CommandTable α β} (h : s.Correlated) {i : ℕ} {cancels : Bool}
    (hs : step s (.expire i cancels) = some s') : s'.Correlated := by
  unfold step at hs
  cases hcall : s.calls[i]? with
  | none => simp [hcall] at hs
  | some call =>
    have hmem := List.mem_of_getElem? hcall
    simp only [hcall] at hs
    split at hs
    case h_1 hwaiting hpending =>
      cases hs
      refine h.setCall hcall (by rfl) (fun _ _ hk => hk) ?_ ?_ ?_
      · intro body hbody
        cases cancels <;> cases hbody
      · intro body hbody
        rw [hwaiting] at hbody
        cases hbody
      · intro hout
        rw [hwaiting] at hout
        cases hout
    case h_2 hwaiting hdone =>
      cases hs
      exact h.setCall hcall (by rfl) (fun _ _ hk => hk) (h.result call hmem) (h.returned call hmem)
        (h.timedOut call hmem)
    case h_3 => cases hs

private theorem Correlated.reply {s s' : CommandTable α β} (h : s.Correlated) {i : ℕ}
    (hs : step s (.reply i) = some s') : s'.Correlated := by
  unfold step at hs
  cases hcall : s.calls[i]? with
  | none => simp [hcall] at hs
  | some call =>
    have hmem := List.mem_of_getElem? hcall
    simp only [hcall] at hs
    split at hs
    case h_1 body hwaiting hresult =>
      cases hs
      refine h.setCall hcall (by rfl) (fun _ _ hk => hk) (h.result call hmem) ?_ ?_
      · rintro body' ⟨⟩
        exact hresult
      · rintro ⟨⟩
    case h_2 => cases hs

private theorem Correlated.raise {s s' : CommandTable α β} (h : s.Correlated) {i : ℕ}
    (hs : step s (.raise i) = some s') : s'.Correlated := by
  unfold step at hs
  cases hcall : s.calls[i]? with
  | none => simp [hcall] at hs
  | some call =>
    have hmem := List.mem_of_getElem? hcall
    simp only [hcall] at hs
    split at hs
    case h_1 hwaiting hfired =>
      cases hs
      refine h.setCall hcall (by rfl) (fun _ _ => get?_of_erase) ?_ ?_ fun _ => Dict.get?_erase_self _ _
      · intro body hbody
        dsimp only at hbody
        split at hbody
        · cases hbody
        · exact (h.result call hmem body hbody).imp_right fun _ => Dict.get?_erase_self _ _
      · rintro body ⟨⟩
    case h_2 => cases hs

theorem Correlated.step {s s' : CommandTable α β} {e : TableEvent α β} (h : s.Correlated) (hs : step s e = some s') :
    s'.Correlated := by
  cases e with
  | enqueue commandId command =>
    unfold CommandTable.step at hs
    dsimp only at hs
    split at hs
    case isTrue hnew => cases hs; exact h.enqueue hnew command
    case isFalse => cases hs
  | poll => cases hs; exact h.handleCommand
  | post body =>
    cases body with
    | none => cases hs; exact h
    | some body => cases hs; exact h.handleResult body
  | expire i cancels => exact h.expire hs
  | reply i => exact h.reply hs
  | raise i => exact h.raise hs

/-- A post resolves the future of the `i`-th call. -/
def Resolves (s : CommandTable α β) (body : ResultBody β) (i : ℕ) : Prop :=
  (s.calls[i]?).map WaitingCall.future = some .pending ∧
    ((s.handleResult body).calls[i]?).map WaitingCall.future = some (.result body)

/-- A post only resolves the future that its command id has in the table. -/
private theorem Resolves.get? {s : CommandTable α β} {body : ResultBody β} {i : ℕ} (h : s.Resolves body i) :
    s.resultFutures.get? body.commandId = some i := by
  obtain ⟨hpending, hresolved⟩ := h
  have hsame : (s.handleResult body).calls[i]? ≠ s.calls[i]? := by
    intro he
    rw [he, hpending] at hresolved
    cases hresolved
  unfold CommandTable.handleResult at hsame
  cases hfound : s.resultFutures.get? body.commandId with
  | none => simp [hfound] at hsame
  | some k =>
    by_cases hk : k = i
    · rw [hk]
    · refine absurd ?_ hsame
      rw [hfound]
      dsimp only
      split
      · rfl
      · split
        · exact List.getElem?_set_ne hk
        · rfl

end CommandTable

open CommandTable in
/-- Command correlation.  In every state that enqueues, polls, posts, timers and calls going on can reach: commands are
handed out in the order of the calls, each at most once; a call has returned only a body with its own command id; no
post resolves two calls; and what has returned or timed out has no future in the table. -/
theorem command_correlation {α β : Type} {es : List (TableEvent α β)} {s : CommandTable α β}
    (h : exec CommandTable.step {} es = some s) :
    (s.handedOut ++ s.commandQueue = s.calls.map WaitingCall.sent ∧ (s.handedOut.map Prod.fst).Nodup) ∧
      (∀ call ∈ s.calls, ∀ body, call.outcome = .returned body → body.commandId = call.commandId) ∧
      (∀ body i j, s.Resolves body i → s.Resolves body j → i = j) ∧
      ∀ call ∈ s.calls, call.outcome ≠ .waiting → call.commandId ∉ s.resultFutures.keys := by
  have hinv : s.Correlated := exec_invariant CommandTable.Correlated (fun _ _ _ => Correlated.step) correlated_empty h
  refine ⟨⟨hinv.fifo, ?_⟩, ?_, ?_, ?_⟩
  · have hall : ((s.handedOut ++ s.commandQueue).map Prod.fst).Nodup := by
      rw [hinv.fifo, List.map_map]
      exact hinv.ids
    rw [List.map_append] at hall
    exact hall.of_append_left
  · intro call hc body hout
    exact (hinv.result call hc body (hinv.returned call hc body hout)).1
  · intro body i j hi hj
    exact Option.some.inj (hi.get?.symm.trans hj.get?)
  · intro call hc hout
    rw [← Dict.get?_eq_none_iff]
    cases houtcome : call.outcome with
    | waiting => exact absurd houtcome hout
    | returned body => exact (hinv.result call hc body (hinv.returned call hc body houtcome)).2
    | timedOut => exact hinv.timedOut call hc houtcome

/-- Two calls; the second is answered first, and twice; the first is answered while it times out, and after. -/
def lateAndTwice : List (TableEvent String ℕ) :=
  [.enqueue "a" "PLACE_ORDER", .enqueue "b" "CLOSE_POSITION", .poll, .post (some ⟨"c", 0⟩), .poll,
    .post (some ⟨"b", 1⟩), .post (some ⟨"b", 2⟩), .expire 0 true, .post (some ⟨"a", 3⟩), .reply 1, .raise 0,
    .post (some ⟨"a", 4⟩), .poll]

theorem command_correlation_lateAndTwice : ∃ s, exec CommandTable.step {} lateAndTwice = some s ∧
    s.calls.map WaitingCall.outcome = [.timedOut, .returned ⟨"b", 1⟩] ∧
    s.handedOut = [("a", "PLACE_ORDER"), ("b", "CLOSE_POSITION")] ∧ (s.handedOut.map Prod.fst).Nodup ∧
    ∀ call ∈ s.calls, call.outcome ≠ .waiting → call.commandId ∉ s.resultFutures.keys := by
  have hrun : ((exec CommandTable.step {} lateAndTwice).map fun s =>
      (s.calls.map WaitingCall.outcome, s.handedOut)) =
        some ([.timedOut, .returned ⟨"b", 1⟩], [("a", "PLACE_ORDER"), ("b", "CLOSE_POSITION")]) := by
    decide +kernel
  obtain ⟨s, hs, hfacts⟩ := Option.map_eq_some_iff.1 hrun
  rw [Prod.mk.injEq] at hfacts
  obtain ⟨⟨-, honce⟩, -, -, hcleared⟩ := command_correlation hs
  exact ⟨s, hs, hfacts.1, hfacts.2, honce, hcleared⟩

end MultiAgentTrading.Mt5
