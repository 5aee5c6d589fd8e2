import MultiAgentTrading.Core.Channels
import MultiAgentTrading.Lib.JsonRoundTrip
import MultiAgentTrading.Lib.Recent
import MultiAgentTrading.Lib.Runs

/-!
# The stream of the control plane

One background task takes the messages of the trade pipeline from the bus, keeps the newest of them for the dashboard
and sends each to every WebSocket that is connected, one after the other.  While it waits for a send, clients connect
and disconnect.  Each event below runs from one await to the next, so a run is an interleaving of the task with the
endpoints of the clients.
-/

namespace MultiAgentTrading.Api

/-- A message as it comes from the bus. -/
structure Message where
  channel : Text
  data : Text

/-- What `_kind` tells from a channel. -/
inductive MessageKind | signal | proposal | assessment | fill | heartbeat | other
  deriving DecidableEq

def MessageKind.value : MessageKind → Text
  | .signal => "signal".toList
  | .proposal => "proposal".toList
  | .assessment => "assessment".toList
  | .fill => "fill".toList
  | .heartbeat => "heartbeat".toList
  | .other => "other".toList

/-- `_kind`. -/
def kindOf (channel : Text) : MessageKind :=
  if "signal.technical".toList <+: channel then .signal
  else if channel = Channels.decisionProposal then .proposal
  else if channel = Channels.riskAssessment then .assessment
  else if channel = Channels.executionResult then .fill
  else if channel = Channels.systemHeartbeat then .heartbeat
  else .other

/-- `value.get(key)`: only an object has it. -/
def pyGet (key : String) : Json → Option Json
  | .obj fields => some ((Json.get? key.toList (.obj fields)).getD .null)
  | _ => none

/-- `a or b`. -/
def pyOr (a b : Json) : Json := if a.truthy then a else b

/-- `_summarise`; it raises if the message is no object, or the proposal in an assessment is none. -/
def summarise (kind : MessageKind) (payload : Json) : Option (List (Text × Json)) := do
  let timestamp ← pyGet "timestamp" payload
  let createdAt ← pyGet "created_at" payload
  let executedAt ← pyGet "executed_at" payload
  let ts := pyOr (pyOr timestamp createdAt) executedAt
  match kind with
  | .proposal =>
    some [("symbol".toList, ← pyGet "symbol" payload), ("side".toList, ← pyGet "side" payload),
      ("size_usd".toList, ← pyGet "requested_size_usd" payload), ("timestamp".toList, ts)]
  | .assessment =>
    let proposal := pyOr (← pyGet "original_proposal" payload) (.obj [])
    some [("symbol".toList, ← pyGet "symbol" proposal), ("decision".toList, ← pyGet "decision" payload),
      ("reason".toList, ← pyGet "rejection_reason" payload), ("timestamp".toList, ts)]
  | .fill =>
    some [("symbol".toList, ← pyGet "symbol" payload), ("side".toList, ← pyGet "side" payload),
      ("status".toList, ← pyGet "status" payload), ("price".toList, ← pyGet "average_fill_price" payload),
      ("timestamp".toList, ts)]
  | _ => some [("timestamp".toList, ts)]

/-- What the task makes of a message before its first await: the entry of a ring buffer, and the text to send. -/
structure Envelope where
  signal : Option Json
  event : Option Json
  text : Text

/-- The tagged message that a client gets. -/
def tagged (channel : Text) (payload : Json) : Json :=
  .obj [("channel".toList, .str channel), ("type".toList, .str (kindOf channel).value), ("payload".toList, payload)]

/-- The entry of the event feed, if the kind has one; none if its summary raises. -/
def eventRow (kind : MessageKind) (payload : Json) : Option (Option Json) :=
  if kind = .proposal ∨ kind = .assessment ∨ kind = .fill then
    (summarise kind payload).map fun row => some (.obj (("type".toList, .str kind.value) :: row))
  else some none

/-- A message that is empty or no JSON is skipped, and so is one whose summary raises. -/
def envelope (F : FloatText) (m : Message) : Option Envelope :=
  if m.data.isEmpty then none
  else do
    let payload ← Json.loads F m.data
    let event ← eventRow (kindOf m.channel) payload
    some
      { signal := if kindOf m.channel = .signal then some payload else none
        event := event
        text := Json.dumps F (tagged m.channel payload) }

/-- `appendleft` of a `deque(maxlen=n)`. -/
def appendLeft {α : Type*} (n : ℕ) (x : Option α) (buf : List α) : List α := (x.toList ++ buf).take n

/-- A broadcast under way: the clients of its snapshot that are still to be sent to, the first of them being waited for,
and those whose send has failed. -/
structure Broadcast where
  text : Text
  todo : List ℕ
  dead : List ℕ
  deriving DecidableEq

/-- `ConnectionManager`, the ring buffers and the background task.  History: every WebSocket that has connected, and
every send that has returned. -/
structure Stream where
  clients : List ℕ := []
  broadcast : Option Broadcast := none
  cancelled : Bool := false
  recentSignals : List Json := []
  recentEvents : List Json := []
  opened : List ℕ := []
  sent : List (ℕ × Text) := []

/-- A WebSocket is accepted, or its endpoint ends; the task gets a message, a send returns or raises, the task is
cancelled. -/
inductive StreamEvent
  | connect (ws : ℕ)
  | disconnect (ws : ℕ)
  | receive (m : Message)
  | sendReturns
  | sendRaises
  | cancel

namespace Stream

/-- The task goes on with the rest of its snapshot; after the last client it removes the dead ones. -/
def proceed (s : Stream) (b : Broadcast) : Stream :=
  if b.todo.isEmpty then { s with broadcast := none, clients := s.clients.filter fun c => c ∉ b.dead }
  else { s with broadcast := some b }

/-- The ring buffers take a message. -/
def remember (s : Stream) (e : Envelope) : Stream :=
  { s with
    recentSignals := appendLeft 50 e.signal s.recentSignals
    recentEvents := appendLeft 100 e.event s.recentEvents }

def onMessage (F : FloatText) (s : Stream) (m : Message) : Stream :=
  match envelope F m with
  | none => s
  | some e => (s.remember e).proceed ⟨e.text, s.clients, []⟩

def step (F : FloatText) (s : Stream) : StreamEvent → Option Stream
  | .connect ws =>
    if ws ∈ s.opened then none else some { s with clients := s.clients ++ [ws], opened := ws :: s.opened }
  | .disconnect ws => some { s with clients := s.clients.filter fun c => c ≠ ws }
  | .receive m => if s.cancelled ∨ s.broadcast.isSome then none else some (s.onMessage F m)
  | .sendReturns =>
    match s.cancelled, s.broadcast with
    | false, some ⟨text, ws :: todo, dead⟩ =>
      some ({ s with sent := s.sent ++ [(ws, text)] }.proceed ⟨text, todo, dead⟩)
    | _, _ => none
  | .sendRaises =>
    match s.cancelled, s.broadcast with
    | false, some ⟨text, ws :: todo, dead⟩ => some (s.proceed ⟨text, todo, dead ++ [ws]⟩)
    | _, _ => none
  | .cancel => if s.cancelled then none else some { s with cancelled := true }

/-- What a client has been sent. -/
def received (s : Stream) (ws : ℕ) : List Text := (s.sent.filter fun p => p.1 = ws).map Prod.snd

/-- What the broadcast under way has still to send it. -/
def pending (s : Stream) (ws : ℕ) : List Text :=
  match s.broadcast with
  | some b => if ws ∈ b.todo then [b.text] else []
  | none => []

/-- Registered, and not about to be removed for a failed send. -/
def Live (s : Stream) (ws : ℕ) : Prop := ws ∈ s.clients ∧ ∀ b ∈ s.broadcast, ws ∉ b.dead

end Stream

/-- What the task has made of the messages it got. -/
def envelopes (F : FloatText) (es : List StreamEvent) : List Envelope :=
  es.filterMap fun e => match e with
    | .receive m => envelope F m
    | _ => none

def texts (F : FloatText) (es : List StreamEvent) : List Text := (envelopes F es).map Envelope.text

namespace Stream

variable {F : FloatText} {s t : Stream} {ws : ℕ}

/-! ### One step -/

private theorem received_proceed (s : Stream) (b : Broadcast) (ws : ℕ) :
    (s.proceed b).received ws = s.received ws := by
  unfold proceed
  split <;> rfl

private theorem pending_proceed (s : Stream) (b : Broadcast) (ws : ℕ) :
    (s.proceed b).pending ws = if ws ∈ b.todo then [b.text] else [] := by
  unfold proceed
  split
  · next h => simp [pending, List.isEmpty_iff.mp h]
  · rfl

private theorem live_proceed (s : Stream) (b : Broadcast) (ws : ℕ) :
    (s.proceed b).Live ws ↔ ws ∈ s.clients ∧ ws ∉ b.dead := by
  unfold proceed
  split
  · simp [Live]
  · simp [Live]

private theorem opened_proceed (s : Stream) (b : Broadcast) : (s.proceed b).opened = s.opened := by
  unfold proceed
  split <;> rfl

/-- The clients are distinct and have connected, and so has everyone a broadcast goes to. -/
structure WellFormed (s : Stream) : Prop where
  nodup : s.clients.Nodup
  opened : ∀ ws ∈ s.clients, ws ∈ s.opened
  sent : ∀ p ∈ s.sent, p.1 ∈ s.opened
  todo : ∀ b ∈ s.broadcast, b.todo.Nodup ∧ ∀ ws ∈ b.todo, ws ∈ s.opened

private theorem WellFormed.proceed (h : s.WellFormed) {b : Broadcast} (hnodup : b.todo.Nodup)
    (hopened : ∀ ws ∈ b.todo, ws ∈ s.opened) : (s.proceed b).WellFormed := by
  unfold Stream.proceed
  split
  · exact ⟨h.nodup.filter _, fun ws hws => h.opened ws (List.mem_of_mem_filter hws), h.sent, by simp⟩
  · refine ⟨h.nodup, h.opened, h.sent, ?_⟩
    rintro _ ⟨⟩
    exact ⟨hnodup, hopened⟩

private theorem WellFormed.onMessage (h : s.WellFormed) (m : Message) : (s.onMessage F m).WellFormed := by
  unfold Stream.onMessage
  split
  · exact h
  · next e _ =>
    have hremember : (s.remember e).WellFormed := ⟨h.nodup, h.opened, h.sent, h.todo⟩
    exact hremember.proceed h.nodup h.opened

theorem WellFormed.step {s' : Stream} {e : StreamEvent} (h : s.WellFormed) (hstep : s.step F e = some s') :
    s'.WellFormed := by
  cases e with
  | connect ws =>
    simp only [Stream.step, Option.ite_none_left_eq_some, Option.some.injEq] at hstep
    obtain ⟨hnew, rfl⟩ := hstep
    have hfresh : ws ∉ s.clients := fun hws => hnew (h.opened ws hws)
    exact ⟨List.nodup_append.mpr ⟨h.nodup, List.nodup_singleton ws, by simp; rintro a ha rfl; exact hfresh ha⟩,
      by simp; rintro w (hw | rfl); exacts [.inr (h.opened w hw), .inl rfl],
      fun p hp => List.mem_cons_of_mem _ (h.sent p hp),
      fun b hb => ⟨(h.todo b hb).1, fun w hw => List.mem_cons_of_mem _ ((h.todo b hb).2 w hw)⟩⟩
  | disconnect ws =>
    obtain rfl := Option.some.inj hstep
    exact ⟨h.nodup.filter _, fun w hw => h.opened w (List.mem_of_mem_filter hw), h.sent, h.todo⟩
  | receive m =>
    simp only [Stream.step, Option.ite_none_left_eq_some, Option.some.injEq] at hstep
    obtain ⟨-, rfl⟩ := hstep
    exact h.onMessage m
  | sendReturns =>
    simp only [Stream.step] at hstep
    split at hstep
    · next text w todo dead _ hb =>
      obtain rfl := Option.some.inj hstep
      obtain ⟨hnodup, hopened⟩ := h.todo _ hb
      have hsent : ∀ p ∈ s.sent ++ [(w, text)], p.1 ∈ s.opened := by
        simp only [List.mem_append, List.mem_singleton]
        rintro p (hp | rfl)
        exacts [h.sent p hp, hopened w (.head _)]
      have hreturned : { s with sent := s.sent ++ [(w, text)] }.WellFormed := ⟨h.nodup, h.opened, hsent, h.todo⟩
      exact hreturned.proceed hnodup.of_cons fun v hv => hopened v (List.mem_cons_of_mem _ hv)
    · exact absurd hstep (by simp)
  | sendRaises =>
    simp only [Stream.step] at hstep
    split at hstep
    · next text w todo dead _ hb =>
      obtain rfl := Option.some.inj hstep
      obtain ⟨hnodup, hopened⟩ := h.todo _ hb
      exact h.proceed hnodup.of_cons fun v hv => hopened v (List.mem_cons_of_mem _ hv)
    · exact absurd hstep (by simp)
  | cancel =>
    simp only [Stream.step, Option.ite_none_left_eq_some, Option.some.injEq] at hstep
    obtain ⟨-, rfl⟩ := hstep
    exact ⟨h.nodup, h.opened, h.sent, h.todo⟩

/-- A client has been sent, up to what is on its way, a beginning of the texts, and all of them while it is live. -/
structure Follows (s : Stream) (ws : ℕ) (l : List Text) : Prop where
  opened : ws ∈ s.opened
  isPrefix : s.received ws ++ s.pending ws <+: l
  live : s.Live ws → s.received ws ++ s.pending ws = l

/-- If a state has the texts of another on their way, a client follows the same texts as long as it was live before. -/
private theorem Follows.of_eq {s' : Stream} {l : List Text} (h : s.Follows ws l) (hopened : s.opened ⊆ s'.opened)
    (heq : s'.received ws ++ s'.pending ws = s.received ws ++ s.pending ws) (hlive : s'.Live ws → s.Live ws) :
    s'.Follows ws l :=
  ⟨hopened h.opened, heq ▸ h.isPrefix, fun hl => heq ▸ h.live (hlive hl)⟩

private theorem Follows.onMessage {l : List Text} (h : s.Follows ws l) (hidle : s.broadcast = none) (m : Message) :
    (s.onMessage F m).Follows ws (l ++ ((envelope F m).map Envelope.text).toList) := by
  have hpending : s.pending ws = [] := by simp [pending, hidle]
  have hlive : s.Live ws ↔ ws ∈ s.clients := by simp [Live, hidle]
  have hprefix := h.isPrefix
  have hall := h.live
  rw [hpending, List.append_nil] at hprefix hall
  unfold Stream.onMessage
  cases envelope F m with
  | none => simpa using h
  | some e =>
    have hreceived : (s.remember e).received ws = s.received ws := rfl
    have hopened : ws ∈ ((s.remember e).proceed ⟨e.text, s.clients, []⟩).opened := by
      rw [opened_proceed]
      exact h.opened
    by_cases hws : ws ∈ s.clients
    · have hsent : s.received ws = l := hall (hlive.mpr hws)
      have heq : ((s.remember e).proceed ⟨e.text, s.clients, []⟩).received ws ++
          ((s.remember e).proceed ⟨e.text, s.clients, []⟩).pending ws = l ++ [e.text] := by
        rw [received_proceed, pending_proceed, if_pos hws, hreceived, hsent]
      exact ⟨hopened, heq ▸ List.prefix_rfl, fun _ => heq⟩
    · refine ⟨hopened, ?_, fun hl => absurd ((live_proceed _ _ ws).mp hl).1 hws⟩
      rw [received_proceed, pending_proceed, if_neg hws, List.append_nil, hreceived]
      exact hprefix.trans (List.prefix_append _ _)

section Sends

variable {w : ℕ} {text : Text} {todo dead : List ℕ} {l : List Text} (hs : s.WellFormed) (h : s.Follows ws l)
  (hb : s.broadcast = some ⟨text, w :: todo, dead⟩)
include hs h hb

private theorem Follows.sendReturns :
    ({ s with sent := s.sent ++ [(w, text)] }.proceed ⟨text, todo, dead⟩).Follows ws l := by
  have hw : w ∉ todo := (List.nodup_cons.mp (hs.todo _ hb).1).1
  have hreceived : { s with sent := s.sent ++ [(w, text)] }.received ws =
      s.received ws ++ if w = ws then [text] else [] := by
    by_cases heq : w = ws <;> simp [received, List.filter_append, heq]
  refine h.of_eq (by rw [opened_proceed]; exact List.Subset.refl _) ?_ ?_
  · rw [received_proceed, pending_proceed, hreceived]
    by_cases heq : w = ws
    · subst heq
      simp [pending, hb, hw]
    · simp [pending, hb, heq, Ne.symm heq]
  · rw [live_proceed]
    simp [Live, hb]

private theorem Follows.sendRaises : (s.proceed ⟨text, todo, dead ++ [w]⟩).Follows ws l := by
  have hopened : ws ∈ (s.proceed ⟨text, todo, dead ++ [w]⟩).opened := by
    rw [opened_proceed]
    exact h.opened
  by_cases heq : ws = w
  · -- its send has failed: what it has got is a beginning, and it is live no longer
    subst heq
    have hnot : ws ∉ todo := (List.nodup_cons.mp (hs.todo _ hb).1).1
    refine ⟨hopened, ?_, fun hl => absurd ((live_proceed _ _ ws).mp hl).2 (by simp)⟩
    rw [received_proceed, pending_proceed, if_neg hnot, List.append_nil]
    exact (List.prefix_append _ _).trans h.isPrefix
  · have hpending : (s.proceed ⟨text, todo, dead ++ [w]⟩).pending ws = s.pending ws := by
      rw [pending_proceed]
      simp [pending, hb, heq]
    refine h.of_eq (by rw [opened_proceed]; exact List.Subset.refl _) (by rw [received_proceed, hpending]) ?_
    intro hl
    obtain ⟨hclient, hdead⟩ := (live_proceed _ _ ws).mp hl
    simp only [List.mem_append, not_or] at hdead
    exact ⟨hclient, by simpa [hb] using hdead.1⟩

end Sends

theorem Follows.step {s' : Stream} {e : StreamEvent} {l : List Text} (hs : s.WellFormed) (h : s.Follows ws l)
    (hstep : s.step F e = some s') : s'.Follows ws (l ++ texts F [e]) := by
  cases e with
  | connect w =>
    simp only [Stream.step, Option.ite_none_left_eq_some, Option.some.injEq] at hstep
    obtain ⟨hnew, rfl⟩ := hstep
    have hne : ws ≠ w := fun heq => hnew (heq ▸ h.opened)
    rw [show texts F [.connect w] = [] from rfl, List.append_nil]
    refine h.of_eq (List.subset_cons_self _ _) rfl fun hl => ⟨?_, hl.2⟩
    simpa [hne] using hl.1
  | disconnect w =>
    obtain rfl := Option.some.inj hstep
    rw [show texts F [.disconnect w] = [] from rfl, List.append_nil]
    exact h.of_eq (List.Subset.refl _) rfl fun hl => ⟨List.mem_of_mem_filter hl.1, hl.2⟩
  | receive m =>
    simp only [Stream.step, Option.ite_none_left_eq_some, Option.some.injEq, not_or] at hstep
    obtain ⟨⟨-, hidle⟩, rfl⟩ := hstep
    have htexts : texts F [.receive m] = ((envelope F m).map Envelope.text).toList := by
      cases henv : envelope F m <;> simp [texts, envelopes, henv]
    rw [htexts]
    exact h.onMessage (Option.not_isSome_iff_eq_none.mp hidle) m
  | sendReturns =>
    simp only [Stream.step] at hstep
    split at hstep
    · next text w todo dead _ hb =>
      obtain rfl := Option.some.inj hstep
      rw [show texts F [.sendReturns] = [] from rfl, List.append_nil]
      exact h.sendReturns hs hb
    · exact absurd hstep (by simp)
  | sendRaises =>
    simp only [Stream.step] at hstep
    split at hstep
    · next text w todo dead _ hb =>
      obtain rfl := Option.some.inj hstep
      rw [show texts F [.sendRaises] = [] from rfl, List.append_nil]
      exact h.sendRaises hs hb
    · exact absurd hstep (by simp)
  | cancel =>
    simp only [Stream.step, Option.ite_none_left_eq_some, Option.some.injEq] at hstep
    obtain ⟨-, rfl⟩ := hstep
    rw [show texts F [.cancel] = [] from rfl, List.append_nil]
    exact h.of_eq (List.Subset.refl _) rfl fun hl => hl

/-! ### Runs -/

theorem envelopes_append (es es' : List StreamEvent) :
    envelopes F (es ++ es') = envelopes F es ++ envelopes F es' := List.filterMap_append

theorem texts_append (es es' : List StreamEvent) : texts F (es ++ es') = texts F es ++ texts F es' := by
  rw [texts, envelopes_append, List.map_append]
  rfl

private theorem wellFormed_start : ({} : Stream).WellFormed :=
  ⟨List.nodup_nil, by simp, by simp, by simp⟩

private theorem Follows.exec {es : List StreamEvent} {l : List Text} (hs : s.WellFormed) (h : s.Follows ws l)
    (hrun : Runs.exec (Stream.step F) s es = some t) : t.Follows ws (l ++ texts F es) := by
  induction es generalizing s l with
  | nil =>
    obtain rfl := Option.some.inj hrun
    simpa [texts, envelopes] using h
  | cons e es ih =>
    obtain ⟨s', hstep, hrest⟩ := Runs.exec_cons.mp hrun
    have htexts : l ++ texts F (e :: es) = l ++ texts F [e] ++ texts F es := by
      rw [List.append_assoc, ← texts_append]
      rfl
    rw [htexts]
    exact ih (hs.step hstep) (h.step hs hstep) hrest

/-- What has not connected has been sent nothing. -/
private theorem WellFormed.follows (hs : s.WellFormed) (hnew : ws ∉ s.opened) :
    { s with clients := s.clients ++ [ws], opened := ws :: s.opened }.Follows ws [] := by
  have hreceived : s.received ws = [] := by
    simp only [received, List.map_eq_nil_iff, List.filter_eq_nil_iff, decide_eq_true_eq]
    exact fun p hp heq => hnew (heq ▸ hs.sent p hp)
  have hpending : s.pending ws = [] := by
    unfold pending
    split
    · next b hb => exact if_neg fun hws => hnew ((hs.todo b hb).2 ws hws)
    · rfl
  have hnone : { s with clients := s.clients ++ [ws], opened := ws :: s.opened }.received ws ++
      { s with clients := s.clients ++ [ws], opened := ws :: s.opened }.pending ws = [] := by
    change s.received ws ++ s.pending ws = []
    rw [hreceived, hpending, List.append_nil]
  exact ⟨List.mem_cons_self, hnone ▸ List.prefix_rfl, fun _ => hnone⟩

private theorem follows_of_run {before after : List StreamEvent}
    (h : Runs.exec (step F) {} (before ++ .connect ws :: after) = some t) : t.Follows ws (texts F after) := by
  rw [Runs.exec_append] at h
  obtain ⟨s, hbefore, h⟩ := Option.bind_eq_some_iff.mp h
  obtain ⟨s', hconnect, hafter⟩ := Runs.exec_cons.mp h
  have hs : s.WellFormed := Runs.exec_invariant WellFormed (fun _ _ _ => WellFormed.step) wellFormed_start hbefore
  have hs' : s'.WellFormed := hs.step hconnect
  simp only [step, Option.ite_none_left_eq_some, Option.some.injEq] at hconnect
  obtain ⟨hnew, rfl⟩ := hconnect
  simpa using (hs.follows hnew).exec hs' hafter

/-- In every interleaving of the task with its clients, a client has been sent a beginning of the messages since it
connected, each of them once and in their order; a client that is registered when no broadcast is under way has been
sent them all. -/
theorem delivers_in_order {before after : List StreamEvent}
    (h : Runs.exec (step F) {} (before ++ .connect ws :: after) = some t) :
    t.received ws <+: texts F after ∧ (t.Live ws → t.received ws ++ t.pending ws = texts F after) ∧
      (t.broadcast = none → ws ∈ t.clients → t.received ws = texts F after) := by
  have hfollows := follows_of_run h
  refine ⟨(List.prefix_append _ _).trans hfollows.isPrefix, hfollows.live, fun hidle hws => ?_⟩
  have hall := hfollows.live ⟨hws, by simp [hidle]⟩
  rwa [pending, hidle, List.append_nil] at hall

/-- A heartbeat goes to two clients, the first of which has gone. -/
private def heartbeatToTwo : List StreamEvent :=
  [.receive ⟨Channels.systemHeartbeat, ['{', '}']⟩, .sendRaises, .sendReturns]

theorem second_client_is_sent_all : ∃ t, Runs.exec (step .decimal) {} ([.connect 0] ++ .connect 1 :: heartbeatToTwo) =
    some t ∧ t.clients = [1] ∧ t.received 1 = texts .decimal heartbeatToTwo := by
  have hrun : Runs.exec (step .decimal) {} ([.connect 0] ++ .connect 1 :: heartbeatToTwo) = some _ := rfl
  exact ⟨_, hrun, rfl, (delivers_in_order hrun).2.2 rfl (by decide)⟩

/-! ### What a client reads -/

private theorem exists_of_mem_texts {es : List StreamEvent} {text : Text} (h : text ∈ texts F es) :
    ∃ m e, StreamEvent.receive m ∈ es ∧ envelope F m = some e ∧ e.text = text := by
  obtain ⟨e, he, rfl⟩ := List.mem_map.mp h
  obtain ⟨event, hmem, hevent⟩ := List.mem_filterMap.mp he
  cases event with
  | receive m => exact ⟨m, e, hmem, hevent, rfl⟩
  | _ => exact absurd hevent (by simp)

private theorem text_of_envelope {m : Message} {e : Envelope} (h : envelope F m = some e) :
    ∃ payload, Json.loads F m.data = some payload ∧ e.text = Json.dumps F (tagged m.channel payload) := by
  unfold envelope at h
  split at h
  · exact absurd h (by simp)
  · obtain ⟨payload, hpayload, h⟩ := Option.bind_eq_some_iff.mp h
    obtain ⟨event, -, h⟩ := Option.bind_eq_some_iff.mp h
    obtain rfl := Option.some.inj h
    exact ⟨payload, hpayload, rfl⟩

private theorem readsBefore_tagged {channel : Text} {payload : Json} (h : Json.ReadsBefore F payload) :
    Json.ReadsBefore F (tagged channel payload) := by
  have hkeys : ["channel".toList, "type".toList, "payload".toList].Nodup := by decide
  refine Json.readsBefore_obj hkeys ?_
  simp only [List.mem_cons, List.not_mem_nil, or_false]
  rintro p (rfl | rfl | rfl)
  exacts [(Json.reads_str _).readsBefore, (Json.reads_str _).readsBefore, h]

/-- Every text a client is sent is JSON again: it reads as the channel, the kind and the payload of a message that came
after it connected, the payload being what the message's own text reads as. -/
theorem received_reads_back (hF : Json.Faithful F) {before after : List StreamEvent}
    (h : Runs.exec (step F) {} (before ++ .connect ws :: after) = some t) {text : Text} (htext : text ∈ t.received ws) :
    ∃ m payload, StreamEvent.receive m ∈ after ∧ Json.loads F m.data = some payload ∧
      Json.loads F text = some (tagged m.channel payload) := by
  have hsent : text ∈ texts F after :=
    (follows_of_run h).isPrefix.subset (List.mem_append_left _ htext)
  obtain ⟨m, e, hm, he, rfl⟩ := exists_of_mem_texts hsent
  obtain ⟨payload, hpayload, hdumps⟩ := text_of_envelope he
  have hreads : Json.ReadsBefore F payload := Json.readsBefore_of_loads hF hpayload
  exact ⟨m, payload, hm, hpayload, hdumps ▸ (readsBefore_tagged hreads).loads_dumps⟩

/-- Floats of which only a half is ever met. -/
private def halves : FloatText where
  value _ := .finite false 5 (-1)
  repr
    | .nan .. => "NaN".toList
    | .infinity true => "-Infinity".toList
    | .infinity false => "Infinity".toList
    | .finite .. => "0.5".toList

private theorem faithful_halves : Json.Faithful halves where
  value t := by
    intro n rest _ hrest
    have hdigit : ∀ c ∈ rest.head?, c.isDigit = false := by
      intro c hc
      rcases hrest c hc with rfl | rfl | rfl <;> rfl
    have hfraction : Json.readFraction ('.' :: '5' :: rest) = (['.', '5'], rest) := by
      cases rest <;> simp_all [Json.readFraction]
    change Json.readNumber halves ('0' :: '.' :: '5' :: rest) = _
    simp [Json.readNumber, hfraction, Json.readExponent_of_ends hrest]
    rfl
  nan := fun _ _ _ _ => rfl
  infinity negative := by
    intro n rest _ _
    cases negative <;> rfl

/-- A client that has been sent one heartbeat. -/
private def oneHeartbeat : List StreamEvent :=
  [] ++ .connect 0 :: [.receive ⟨Channels.systemHeartbeat, "\x7b\"uptime\":0.5\x7d".toList⟩, .sendReturns]

theorem heartbeat_reads_back : ∃ t text, Runs.exec (step halves) {} oneHeartbeat = some t ∧ text ∈ t.received 0 ∧
    ∃ m payload, StreamEvent.receive m ∈ oneHeartbeat.tail ∧ Json.loads halves m.data = some payload ∧
      Json.loads halves text = some (tagged m.channel payload) := by
  have hrun : Runs.exec (step halves) {} oneHeartbeat = some _ := rfl
  exact ⟨_, _, hrun, List.mem_cons_self, received_reads_back faithful_halves hrun List.mem_cons_self⟩

/-! ### The ring buffers -/

private theorem appendLeft_keep {α : Type*} (n : ℕ) (x : Option α) (l : List α) :
    appendLeft n x (Recent.keep n l).reverse = (Recent.keep n (l ++ x.toList)).reverse := by
  have hreverse : x.toList ++ (Recent.keep n l).reverse = (Recent.keep n l ++ x.toList).reverse := by
    cases x <;> simp
  rw [appendLeft, hreverse, List.take_reverse, ← Recent.keep_keep_append]
  rfl

private theorem buffers_proceed (s : Stream) (b : Broadcast) :
    (s.proceed b).recentSignals = s.recentSignals ∧ (s.proceed b).recentEvents = s.recentEvents := by
  unfold proceed
  split <;> exact ⟨rfl, rfl⟩

/-- The ring buffers hold the newest of what has been made of the messages, the newest first. -/
def Remembers (s : Stream) (log : List Envelope) : Prop :=
  s.recentSignals = (Recent.keep 50 (log.filterMap Envelope.signal)).reverse ∧
    s.recentEvents = (Recent.keep 100 (log.filterMap Envelope.event)).reverse

private theorem Remembers.onMessage {log : List Envelope} (h : s.Remembers log) (m : Message) :
    (s.onMessage F m).Remembers (log ++ (envelope F m).toList) := by
  unfold Stream.onMessage
  cases envelope F m with
  | none => simpa using h
  | some e =>
    have hlast : ∀ {α : Type} (f : Envelope → Option α),
        (log ++ [e]).filterMap f = log.filterMap f ++ (f e).toList := by
      intro α f
      cases hf : f e <;> simp [hf]
    obtain ⟨hsignals, hevents⟩ := buffers_proceed (s.remember e) ⟨e.text, s.clients, []⟩
    refine ⟨?_, ?_⟩
    · rw [hsignals, remember, h.1, appendLeft_keep, Option.toList_some, hlast]
    · rw [hevents, remember, h.2, appendLeft_keep, Option.toList_some, hlast]

theorem Remembers.step {s' : Stream} {e : StreamEvent} {log : List Envelope} (h : s.Remembers log)
    (hstep : s.step F e = some s') : s'.Remembers (log ++ envelopes F [e]) := by
  cases e with
  | receive m =>
    simp only [Stream.step, Option.ite_none_left_eq_some, Option.some.injEq] at hstep
    obtain ⟨-, rfl⟩ := hstep
    have hone : envelopes F [.receive m] = (envelope F m).toList := by
      cases henv : envelope F m <;> simp [envelopes, henv]
    rw [hone]
    exact h.onMessage m
  | connect w | cancel =>
    simp only [Stream.step, Option.ite_none_left_eq_some, Option.some.injEq] at hstep
    obtain ⟨-, rfl⟩ := hstep
    simpa [envelopes, Remembers] using h
  | disconnect w =>
    obtain rfl := Option.some.inj hstep
    simpa [envelopes, Remembers] using h
  | sendReturns | sendRaises =>
    simp only [Stream.step] at hstep
    split at hstep
    · obtain rfl := Option.some.inj hstep
      rw [Remembers, (buffers_proceed _ _).1, (buffers_proceed _ _).2]
      simpa [envelopes, Remembers] using h
    · exact absurd hstep (by simp)

private theorem Remembers.exec {es : List StreamEvent} {log : List Envelope} (h : s.Remembers log)
    (hrun : Runs.exec (Stream.step F) s es = some t) : t.Remembers (log ++ envelopes F es) := by
  induction es generalizing s log with
  | nil =>
    obtain rfl := Option.some.inj hrun
    simpa [envelopes] using h
  | cons e es ih =>
    obtain ⟨s', hstep, hrest⟩ := Runs.exec_cons.mp hrun
    have hsplit : log ++ envelopes F (e :: es) = log ++ envelopes F [e] ++ envelopes F es := by
      rw [List.append_assoc, ← envelopes_append]
      rfl
    rw [hsplit]
    exact ih (h.step hstep) hrest

/-- Whatever clients come and go, and whichever sends fail, the ring buffers hold the newest fifty signals and the
newest hundred events, the newest first. -/
theorem ring_buffers {es : List StreamEvent} (h : Runs.exec (step F) {} es = some t) :
    t.recentSignals = (Recent.keep 50 ((envelopes F es).filterMap Envelope.signal)).reverse ∧
      t.recentEvents = (Recent.keep 100 ((envelopes F es).filterMap Envelope.event)).reverse := by
  have hstart : ({} : Stream).Remembers [] := ⟨rfl, rfl⟩
  exact hstart.exec h

/-- A signal whose text is a number. -/
def numbered (n : ℕ) : Message := ⟨Channels.technicalSignal "BTC/USDT".toList, (Nat.repr n).toList⟩

/-- The first signal is sent to two clients, of which one leaves in that time, and its send fails; then come sixty more,
and a text that is no message. -/
def manySignals : List StreamEvent :=
  [.connect 1, .connect 2, .receive (numbered 0), .sendReturns, .disconnect 2, .sendRaises,
    .receive ⟨Channels.systemHeartbeat, ['x']⟩] ++
    (List.range 60).flatMap fun n => [.receive (numbered (n + 1)), .sendReturns]

theorem many_signals_remembered : ∃ t, Runs.exec (step .decimal) {} manySignals = some t ∧ t.clients = [1] ∧
    t.recentSignals = (List.range 50).map fun n => .int (60 - n) := by
  have hrun : (Runs.exec (step .decimal) {} manySignals).map Stream.clients = some [1] := rfl
  have hsignals : (envelopes .decimal manySignals).filterMap Envelope.signal =
      (List.range 61).map fun n => Json.int n := rfl
  obtain ⟨t, ht, hclients⟩ := Option.map_eq_some_iff.1 hrun
  refine ⟨t, ht, hclients, (ring_buffers ht).1.trans ?_⟩
  rw [hsignals]
  rfl

end Stream

end MultiAgentTrading.Api
